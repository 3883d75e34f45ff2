import NacCard.Mem.Search

/-!
# `nac_mem_init` and `nac_mem_cleanup`

* `reserve` — one card: `nac_mem_findcontig` with sizes halved until one is found.
* `nacMem` — the cards in turn, up to the first that gets nothing.
* `nacMemInit` — allocation, sorting, the cards' regions, and the blocks left over
  given back; `nacMemCleanup` gives the regions back.
* `nacMem_spec` — no block gets lost: it is in the table in the end or was cleared for
  one region; and every region lies in blocks of the table.

This is `nac_mem_init` as it is built without `PLATFORM64`: the size is divided among the cards and
addresses have 32 bits.  The build with `PLATFORM64`, where each card asks for all of `NAC_MEM_SIZE`,
is not covered.
-/

namespace NacCard.Mem

open NacCard.Base

/-- `NAC_MEM_SIZE`, what the cards have together. -/
def NAC_MEM_SIZE : Nat := 256 * 1024 * 1024

/-- `NAC_MIN_SIZE`: a size that has been halved down to it is given up. -/
def NAC_MIN_SIZE : Nat := 32 * 1024 * 1024

/-- `NNACS`, the largest number of cards. -/
def NNACS : Nat := 16

/-! ## The regions -/

/-- `nac_mem_vaddr[nac]` and `size[nac]`; address 0 stands for no region. -/
structure Card where
  vaddr : Nat
  size : Nat
  deriving Repr, DecidableEq

/-- `while((nac_mem_vaddr[nac] = nac_mem_findcontig(size[nac], align)) == 0)`: the card,
the table and `cstart`.  A 32-bit size can be halved `n = 32` times. -/
def reserve (psize align : Nat) : Nat → Nat → List Nat → Nat → Card × List Nat × Nat
  | 0, size, T, cstart => (⟨0, size⟩, T, cstart)
  | n + 1, size, T, cstart =>
      let r := nacMemFindcontig psize size align T cstart
      if r.vaddr = 0 then
        if size / 2 ≤ NAC_MIN_SIZE then (⟨0, size / 2⟩, r.ptable, r.cstart)
        else reserve psize align n (size / 2) r.ptable r.cstart
      else (⟨r.vaddr, size⟩, r.ptable, r.cstart)

/-- `for(nac = 0; nac < nnacs; nac++)`, with `n` cards to go: the cards and the table.
The first card that gets nothing ends the loop. -/
def nacMem (psize align size : Nat) : Nat → List Nat → Nat → List Card × List Nat
  | 0, T, _ => ([], T)
  | n + 1, T, cstart =>
      let r := reserve psize align 32 size T cstart
      if r.1.vaddr = 0 then (r.1 :: List.replicate n ⟨0, size⟩, r.2.1)
      else
        let rest := nacMem psize align size n r.2.1 r.2.2
        (r.1 :: rest.1, rest.2)

/-! ## Giving back -/

/-- The blocks `nac_mem_free_ptable` finds in a table. -/
def freePtable (T : List Nat) : List Nat := T.filter (· ≠ 0)

/-- `for( ; vaddr < vend ; vaddr += psize)`, at most `n` times. -/
def freeLoop (psize vend : Nat) : Nat → Nat → List Nat
  | 0, _ => []
  | n + 1, vaddr => if vaddr < vend then vaddr :: freeLoop psize vend n (u32 ((vaddr : Int) + psize)) else []

/-- The blocks `nac_mem_freecontig` frees; each round frees a byte at least. -/
def nacMemFreecontig (psize csize vaddr : Nat) : List Nat :=
  freeLoop psize (u32 ((vaddr : Int) + csize)) csize vaddr

/-! ## The module -/

/-- The cards' regions, and every call of `free_pages` so far. -/
structure MemState where
  psize : Nat
  cards : List Card
  freed : List Nat
  deriving Repr, DecidableEq

/-- `nnacs`, as `nac_mem_init` corrects it. -/
def cardCount (nnacs : Nat) : Nat :=
  let nnacs := if nnacs = 0 then 1 else nnacs
  if nnacs > NNACS then NNACS else nnacs

/-- `i_size` -/
def initialSize (nnacs : Nat) : Nat := NAC_MEM_SIZE / cardCount nnacs

/-- `nac_mem_init` once the tables are filled. -/
def nacMemInit (nnacs align : Nat) (t : Tables) : MemState :=
  let psize := psizeOf t.gfporder
  let r := nacMem psize align (initialSize nnacs) (cardCount nnacs) (nacMemSortPtable t.ptableArray) 0
  ⟨psize, r.1, freePtable r.2 ++ freePtable (t.htable.take HTABSIZE)⟩

/-- What `nac_mem_cleanup` frees for one card. -/
def cleanupCard (psize : Nat) (card : Card) : List Nat :=
  if card.vaddr = 0 then [] else nacMemFreecontig psize card.size card.vaddr

/-- `nac_mem_cleanup`: the regions are given back, block by block. -/
def nacMemCleanup (s : MemState) : MemState :=
  { s with freed := s.freed ++ s.cards.flatMap (cleanupCard s.psize) }

/-! ## What the cards get -/

section Regions

variable {psize align size : Nat} {T : List Nat}

/-- Blocks taken out of the table for a card. -/
def kept (psize : Nat) (card : Card) : List Nat :=
  if card.vaddr = 0 then [] else blocksFrom psize card.vaddr (card.size / psize)

/-- A card's region: its size is the first one or a half, a quarter, … of it that is
not too small, and it lies in blocks of the table. -/
structure Region (psize size : Nat) (T : List Nat) (card : Card) : Prop where
  size_eq : ∃ j, card.size = size / 2 ^ j ∧ (j = 0 ∨ NAC_MIN_SIZE < card.size)
  entry : ∀ i, i * psize < card.size → ∃ k, T.getD k 0 = card.vaddr + i * psize

/-- What remains of a table. -/
structure Remains (T T' : List Nat) : Prop where
  length_eq : T'.length = T.length
  getD : ∀ j, T'.getD j 0 = 0 ∨ T'.getD j 0 = T.getD j 0

theorem Remains.below {T' : List Nat} (h : Remains T T') (hpsize : psize < 4294967296)
    (hT : Below psize T) : Below psize T' := by
  intro i
  rcases h.getD i with hzero | hsame
  · rw [hzero, Nat.zero_add]
    exact hpsize
  · rw [hsame]
    exact hT i

theorem Region.of_remains {T' : List Nat} {card : Card} (h : Region psize size T' card)
    (hne : card.vaddr ≠ 0) (hT' : Remains T T') : Region psize size T card := by
  refine ⟨h.size_eq, ?_⟩
  intro i hi
  obtain ⟨k, hk⟩ := h.entry i hi
  refine ⟨k, ?_⟩
  rcases hT'.getD k with hzero | hsame
  · omega
  · rw [← hsame]
    exact hk

/-- One card gets a region, or the table is unchanged. -/
theorem reserve_cases (hT : Below psize T) (hpos : 0 < psize) (hlen : T.length = PTABSIZE)
    {n s c j : Nat} (hs : s = size / 2 ^ j) (hmin : j = 0 ∨ NAC_MIN_SIZE < s) :
    ((reserve psize align n s T c).1.vaddr ≠ 0 ∧
        Region psize size T (reserve psize align n s T c).1 ∧
        Remains T (reserve psize align n s T c).2.1 ∧
        ∀ b, b ≠ 0 → (reserve psize align n s T c).2.1.count b
          + (kept psize (reserve psize align n s T c).1).count b = T.count b) ∨
      (reserve psize align n s T c).1.vaddr = 0 ∧ (reserve psize align n s T c).2.1 = T := by
  induction n generalizing s c j with
  | zero => exact .inr ⟨rfl, rfl⟩
  | succ n ih =>
      unfold reserve
      dsimp only
      rcases @nacMemFindcontig_cases psize s T hT hpos align c hlen with ⟨c', k, hf⟩ | ⟨c', hf⟩
      · rw [if_neg hf.vaddr_ne_zero]
        refine .inl ⟨hf.vaddr_ne_zero, ⟨⟨j, hs, hmin⟩, fun i hi => hf.mem hi⟩,
          ⟨hf.length_eq, hf.getD⟩, ?_⟩
        intro b hb
        rw [kept, if_neg hf.vaddr_ne_zero]
        exact hf.count hlen hb
      · rw [hf.eq, if_pos rfl]
        split_ifs with hsmall
        · exact .inr ⟨rfl, rfl⟩
        · have hhalf : s / 2 = size / 2 ^ (j + 1) := by
            rw [hs, Nat.div_div_eq_div_mul, ← Nat.pow_succ]
          exact ih hhalf (.inr (not_le.1 hsmall))

/-- The rounds granted are enough: more make no difference. -/
theorem reserve_rounds {n k s c : Nat} (h : s < NAC_MIN_SIZE * 2 ^ (n + 1)) :
    reserve psize align (n + 1 + k) s T c = reserve psize align (n + 1) s T c := by
  induction n generalizing s T c with
  | zero =>
      have hsmall : s / 2 ≤ NAC_MIN_SIZE := by omega
      rw [Nat.add_right_comm, reserve, reserve, if_pos hsmall, if_pos hsmall]
  | succ n ih =>
      have hhalf : s / 2 < NAC_MIN_SIZE * 2 ^ (n + 1) := by
        rw [Nat.pow_succ, ← Nat.mul_assoc] at h
        omega
      rw [Nat.add_right_comm, reserve, reserve, ih hhalf]

/-- **The loop over the cards** loses no block, and every region lies in the table. -/
theorem nacMem_spec (hpsize : psize < 4294967296) (hpos : 0 < psize) :
    ∀ (n : Nat) (T : List Nat) (c : Nat), Below psize T → T.length = PTABSIZE →
      (∀ b, b ≠ 0 → (nacMem psize align size n T c).2.count b
        + ((nacMem psize align size n T c).1.flatMap (kept psize)).count b = T.count b) ∧
      ∀ card ∈ (nacMem psize align size n T c).1, card.vaddr ≠ 0 → Region psize size T card := by
  intro n
  induction n with
  | zero =>
      intro T c hT hlen
      exact ⟨fun b hb => rfl, fun card hcard => (List.not_mem_nil hcard).elim⟩
  | succ n ih =>
      intro T c hT hlen
      have hcases := @reserve_cases psize align size T hT hpos hlen 32 size c 0
        (by rw [pow_zero, Nat.div_one]) (.inl rfl)
      unfold nacMem
      dsimp only
      rcases hcases with ⟨hne, hregion, hremains, hcount⟩ | ⟨hzero, hsame⟩
      · rw [if_neg hne]
        obtain ⟨hrest, hregions⟩ := ih (reserve psize align 32 size T c).2.1
          (reserve psize align 32 size T c).2.2 (hremains.below hpsize hT)
          (hremains.length_eq.trans hlen)
        refine ⟨?_, ?_⟩
        · intro b hb
          have h1 := hcount b hb
          have h2 := hrest b hb
          dsimp only
          rw [List.flatMap_cons, List.count_append]
          omega
        · intro card hcard hv
          rcases List.mem_cons.1 hcard with rfl | hcard
          · exact hregion
          · exact (hregions card hcard hv).of_remains hv hremains
      · rw [if_pos hzero, hsame]
        refine ⟨?_, ?_⟩
        · intro b hb
          have hnone : (List.replicate n (⟨0, size⟩ : Card)).flatMap (kept psize) = [] := by
            rw [List.flatMap_eq_nil_iff]
            intro card hcard
            rw [List.eq_of_mem_replicate hcard]
            rfl
          rw [List.flatMap_cons, hnone, kept, if_pos hzero]
          rfl
        · intro card hcard hv
          rcases List.mem_cons.1 hcard with rfl | hcard
          · exact absurd hzero hv
          · rw [List.eq_of_mem_replicate hcard] at hv
            exact absurd rfl hv

end Regions

end NacCard.Mem
