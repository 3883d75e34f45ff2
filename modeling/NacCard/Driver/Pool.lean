import NacCard.Base.Slots
import NacCard.Driver.Leaks
import NacCard.Mem.Release

/-!
# Who has which buffer

* `PoolState`, `pool` — `nac_mem_malloc` with any size and `nac_mem_free` of what is
  outstanding, in any order.
* `Owned` — no region is given out twice, sizes are those of the region, `NULL` means
  that all regions are out, and what is given back can be had again.
* `Ordered` — what `nac_mem_init` leaves: the cards that have a region come first.
* `poolOf` — the use counts that belong to the pointers outstanding; `PoolInv` keeps them.
* `nacMem_owned_iff` — buffers have one owner if and only if the addresses differ;
  `distinct_of_order` is where they always do.

The regions are those of the 32-bit build of `nac_mem_init`; with `PLATFORM64`, where the size is not
divided among the cards, others are reserved, and that build is not covered.
-/

namespace NacCard.Driver

open NacCard.Base NacCard.Mem

/-! ## Calls in any order -/

/-- The pool, and the pointers that have been returned and not given back. -/
structure PoolState where
  pool : List Buffer
  held : List Nat
  deriving Repr, DecidableEq

/-- The calls of `nac_mem_malloc` and `nac_mem_free`. -/
inductive PoolAct where
  | malloc (msize : Nat)
  | free (objp : Nat)
  deriving Repr, DecidableEq

namespace PoolState

/-- `nac_mem_malloc`; a pointer that is not `NULL` is outstanding from now on. -/
def malloc (s : PoolState) (msize : Nat) : PoolState :=
  let r := nacMemMalloc s.pool msize
  { pool := r.2.2, held := if r.1 = 0 then s.held else r.1 :: s.held }

/-- `nac_mem_free`, which returns nothing the callers look at. -/
def free (s : PoolState) (objp : Nat) : PoolState :=
  { pool := nacMemFree s.pool objp, held := s.held.erase objp }

end PoolState

/-- Only what is outstanding is given back. -/
def poolStep (s : PoolState) : PoolAct → Option PoolState
  | .malloc msize => some (s.malloc msize)
  | .free objp => if objp ∈ s.held then some (s.free objp) else none

/-- The cards' regions, none of them in use. -/
def poolStart (cards : List Card) : PoolState := ⟨cards.map fun card => ⟨card, 0⟩, []⟩

/-- All orders of such calls, from the time the regions are reserved. -/
def pool (cards : List Card) : Machine PoolState PoolAct := ⟨fun s => s = poolStart cards, poolStep⟩

/-- **One owner for each buffer.** -/
structure Owned (s : PoolState) : Prop where
  nodup : s.held.Nodup
  size : ∀ msize, (nacMemMalloc s.pool msize).1 ≠ 0 → ∃ b ∈ s.pool,
    b.card.vaddr = (nacMemMalloc s.pool msize).1 ∧ (nacMemMalloc s.pool msize).2.1 ≤ b.card.size ∧
      (nacMemMalloc s.pool msize).2.1 ≠ 0
  null : ∀ msize, (nacMemMalloc s.pool msize).1 = 0 →
    ∀ b ∈ s.pool, b.card.vaddr ≠ 0 → b.card.vaddr ∈ s.held
  again : ∀ objp ∈ s.held, ∃ n, objp ∈ ((fun s => PoolState.malloc s 0)^[n] (s.free objp)).held

/-! ## After `nac_mem_init` -/

/-- Cards that have a region come before those that have none, and no region is empty. -/
structure Ordered (cards : List Card) : Prop where
  pairwise : cards.Pairwise fun a b => b.vaddr ≠ 0 → a.vaddr ≠ 0
  size_ne : ∀ card ∈ cards, card.vaddr ≠ 0 → card.size ≠ 0

theorem nacMem_pairwise {psize align size n : Nat} :
    ∀ {T : List Nat} {c : Nat},
      (nacMem psize align size n T c).1.Pairwise fun a b => b.vaddr ≠ 0 → a.vaddr ≠ 0 := by
  induction n with
  | zero => exact .nil
  | succ n ih =>
      intro T c
      rw [nacMem]
      dsimp only
      split_ifs with hzero
      · refine List.pairwise_cons.2 ⟨?_, List.pairwise_of_forall_mem_list ?_⟩
        · intro b hb hne
          rw [List.eq_of_mem_replicate hb] at hne
          exact absurd rfl hne
        · intro a _ b hb hne
          rw [List.eq_of_mem_replicate hb] at hne
          exact absurd rfl hne
      · exact List.pairwise_cons.2 ⟨fun b _ _ => hzero, ih⟩

section Init

variable {t : Tables} {nnacs align : Nat}

theorem nacMemInit_ordered (hstored : Stored t) (hok : BlocksOk t) (nnacs align : Nat) :
    Ordered (nacMemInit nnacs align t).cards := by
  refine ⟨nacMem_pairwise, fun card hcard hne => ?_⟩
  obtain ⟨-, hsize⟩ := init_region hstored hok hcard hne
  exact hsize.ne'

/-- Blocks of at most 16 MB are not larger than a region. -/
theorem psizeOf_le_size (hstored : Stored t) (hok : BlocksOk t) (horder : t.gfporder ≤ 12)
    {card : Card} (hcard : card ∈ (nacMemInit nnacs align t).cards) (hne : card.vaddr ≠ 0) :
    psizeOf t.gfporder ≤ card.size := by
  have hblock : psizeOf t.gfporder ≤ NAC_MEM_SIZE / 16 := by
    have hpow : 2 ^ t.gfporder.toNat ≤ 2 ^ 12 := Nat.pow_le_pow_right (by decide) (by omega)
    rw [psizeOf, Nat.shiftLeft_eq]
    exact (Nat.mul_le_mul_left _ hpow).trans (by decide)
  obtain ⟨hregion, -⟩ := init_region hstored hok hcard hne
  obtain ⟨j, hj, hmin⟩ := hregion.size_eq
  obtain ⟨hpos, hlt⟩ := cardCount_mem nnacs
  rcases hmin with rfl | hmin
  · rw [hj, pow_zero, Nat.div_one]
    exact hblock.trans (Nat.div_le_div_left (by omega) hpos)
  · exact hblock.trans (le_trans (by decide) hmin.le)

/-- What is kept for a card is a block of the first table. -/
theorem mem_of_kept (hstored : Stored t) (hok : BlocksOk t) {card : Card} {b : Nat}
    (hcard : card ∈ (nacMemInit nnacs align t).cards) (hb : b ∈ kept (psizeOf t.gfporder) card) :
    b ∈ t.ptable := by
  rw [kept] at hb
  split_ifs at hb with hne
  · cases hb
  · obtain ⟨j, hj, rfl⟩ := mem_blocksFrom.1 hb
    obtain ⟨hregion, -⟩ := init_region hstored hok hcard hne
    apply hregion.mem hne
    calc j * psizeOf t.gfporder
        < card.size / psizeOf t.gfporder * psizeOf t.gfporder :=
          Nat.mul_lt_mul_of_pos_right hj (psizeOf_pos _)
      _ ≤ card.size := Nat.div_mul_le_self _ _

theorem distinct_of_lt {cards : List Card}
    (h : ∀ (i j : Nat) (hi : i < cards.length) (hj : j < cards.length), i < j →
      cards[i].vaddr ≠ 0 → cards[i].vaddr ≠ cards[j].vaddr) : Distinct cards := by
  intro i j c c' hi hj hsame hne
  obtain ⟨hilt, rfl⟩ := List.getElem?_eq_some_iff.1 hi
  obtain ⟨hjlt, rfl⟩ := List.getElem?_eq_some_iff.1 hj
  rcases lt_trichotomy i j with hlt | heq | hgt
  · exact absurd hsame (h i j hilt hjlt hlt hne)
  · exact heq
  · exact absurd hsame.symm (h j i hjlt hilt hgt (hsame ▸ hne))

/-- No block is kept twice. -/
theorem kept_nodup (hstored : Stored t) (hok : BlocksOk t) :
    ((nacMemInit nnacs align t).cards.flatMap (kept (psizeOf t.gfporder))).Nodup := by
  rw [List.nodup_iff_count_le_one]
  intro b
  by_cases hmem : b ∈ (nacMemInit nnacs align t).cards.flatMap (kept (psizeOf t.gfporder))
  · obtain ⟨card, hcard, hb⟩ := List.mem_flatMap.1 hmem
    have hhanded := hstored.mem_handed.2 (.inl (mem_of_kept hstored hok hcard hb))
    have hcount := @init_count t nnacs align hstored hok b (hstored.ne_zero b hhanded)
    have hone := handed_count hstored hok hhanded
    have hle := (List.take_sublist HTABSIZE t.htable).count_le b
    omega
  · rw [List.count_eq_zero.2 hmem]
    exact Nat.zero_le 1

/-- **Blocks of at most 16 MB**, as `nac_mem` asks for unless told otherwise: the block a region
begins with is cleared for it, so no other region begins there. -/
theorem distinct_of_order (hstored : Stored t) (hok : BlocksOk t) (horder : t.gfporder ≤ 12)
    (nnacs align : Nat) : Distinct (nacMemInit nnacs align t).cards := by
  have hfirst : ∀ card ∈ (nacMemInit nnacs align t).cards, card.vaddr ≠ 0 →
      card.vaddr ∈ kept (psizeOf t.gfporder) card := by
    intro card hcard hne
    have hsize := psizeOf_le_size hstored hok horder hcard hne
    rw [kept, if_neg hne, mem_blocksFrom]
    exact ⟨0, Nat.div_pos hsize (psizeOf_pos _), by rw [Nat.zero_mul, Nat.add_zero]⟩
  have hdisjoint := (List.nodup_flatMap.1 (@kept_nodup t nnacs align hstored hok)).2
  rw [List.pairwise_iff_getElem] at hdisjoint
  apply distinct_of_lt
  intro i j hi hj hij hne hsame
  -- both cards would keep the block there
  refine hdisjoint i j hi hj hij (hfirst _ (List.getElem_mem hi) hne) ?_
  rw [hsame]
  exact hfirst _ (List.getElem_mem hj) (hsame ▸ hne)

end Init

/-! ## The use counts -/

/-- The pool when the pointers in `held` are outstanding. -/
def poolOf (cards : List Card) (held : List Nat) : List Buffer :=
  cards.map fun card => ⟨card, if card.vaddr ∈ held then 1 else 0⟩

/-- The use counts are those of the pointers outstanding, and each of these is one region's. -/
structure PoolInv (cards : List Card) (s : PoolState) : Prop where
  pool_eq : s.pool = poolOf cards s.held
  nodup : s.held.Nodup
  mem : ∀ objp ∈ s.held, objp ≠ 0 ∧ ∃ card ∈ cards, card.vaddr = objp

section Step

variable {cards : List Card} {held : List Nat} {s s' : PoolState} {msize objp : Nat}

/-- One pointer more or less changes one count. -/
theorem poolOf_modify {held' : List Nat} {i : Nat} {card : Card} {f : Int → Int}
    (hdistinct : Distinct cards) (hi : cards[i]? = some card) (hne : card.vaddr ≠ 0)
    (hcount : f (if card.vaddr ∈ held then 1 else 0) = if card.vaddr ∈ held' then 1 else 0)
    (hother : ∀ objp, objp ≠ card.vaddr → (objp ∈ held' ↔ objp ∈ held)) :
    (poolOf cards held).modify i (fun b => { b with inuse := f b.inuse }) = poolOf cards held' := by
  apply List.ext_getElem?
  intro j
  rw [List.getElem?_modify, poolOf, poolOf, List.getElem?_map, List.getElem?_map]
  by_cases hij : i = j
  · subst hij
    rw [hi]
    simp only [Option.map_eq_map, Option.map_some, if_true]
    rw [hcount]
  · cases hj : cards[j]? with
    | none => rfl
    | some c =>
        have hc : c.vaddr ≠ card.vaddr := by
          intro hsame
          exact hij (hdistinct i j card c hi hj hsame.symm hne)
        simp only [Option.map_eq_map, Option.map_some, if_neg hij, hother c.vaddr hc]

theorem poolOf_getElem? {i : Nat} {b : Buffer} (h : (poolOf cards held)[i]? = some b) :
    cards[i]? = some b.card ∧ b.inuse = if b.card.vaddr ∈ held then 1 else 0 := by
  rw [poolOf, List.getElem?_map, Option.map_eq_some_iff] at h
  obtain ⟨card, hcard, rfl⟩ := h
  exact ⟨hcard, rfl⟩

/-- What a `malloc` that succeeds does. -/
theorem PoolInv.malloc_some (h : PoolInv cards s) (hdistinct : Distinct cards)
    (hne : (nacMemMalloc s.pool msize).1 ≠ 0) :
    PoolInv cards (s.malloc msize) ∧ (nacMemMalloc s.pool msize).1 ∉ s.held ∧
      (s.malloc msize).held = (nacMemMalloc s.pool msize).1 :: s.held := by
  obtain ⟨b, hb, hfree, haddr, hpool⟩ := nacMemMalloc_some hne
  have hget := hb
  rw [h.pool_eq] at hget
  obtain ⟨hcard, hinuse⟩ := poolOf_getElem? hget
  have hnew : b.card.vaddr ∉ s.held := by
    intro hmem
    rw [hfree, if_pos hmem] at hinuse
    cases hinuse
  have hheld : (s.malloc msize).held = b.card.vaddr :: s.held := by
    rw [PoolState.malloc]
    dsimp only
    rw [if_neg hne, haddr]
  rw [haddr] at hne ⊢
  refine ⟨⟨?_, ?_, ?_⟩, hnew, hheld⟩
  · rw [hheld]
    refine hpool.trans ?_
    rw [h.pool_eq]
    refine poolOf_modify (f := fun n => n + 1) hdistinct hcard hne ?_ ?_
    · rw [if_neg hnew, if_pos (List.mem_cons_self ..)]
      rfl
    · intro objp hobjp
      rw [List.mem_cons, or_iff_right hobjp]
  · rw [hheld]
    exact h.nodup.cons hnew
  · rw [hheld]
    intro objp hmem
    rcases List.mem_cons.1 hmem with rfl | hmem
    · exact ⟨hne, b.card, List.mem_of_getElem? hcard, rfl⟩
    · exact h.mem objp hmem

theorem malloc_none (h : (nacMemMalloc s.pool msize).1 = 0) : s.malloc msize = s := by
  unfold PoolState.malloc
  dsimp only
  rw [if_pos h, nacMemMalloc_none h]

theorem PoolInv.malloc (h : PoolInv cards s) (hdistinct : Distinct cards) (msize : Nat) :
    PoolInv cards (s.malloc msize) := by
  by_cases hzero : (nacMemMalloc s.pool msize).1 = 0
  · rw [malloc_none hzero]
    exact h
  · exact (h.malloc_some hdistinct hzero).1

theorem PoolInv.free (h : PoolInv cards s) (hdistinct : Distinct cards) (hobjp : objp ∈ s.held) :
    PoolInv cards (s.free objp) := by
  obtain ⟨hne, card, hcard, haddr⟩ := h.mem objp hobjp
  have hexists : ∃ b ∈ poolOf cards s.held, decide (b.card.vaddr = objp) = true :=
    ⟨_, List.mem_map_of_mem hcard, decide_eq_true haddr⟩
  obtain ⟨b, hb, hfound⟩ := getElem?_findIdx hexists
  obtain ⟨hi, -⟩ := poolOf_getElem? hb
  obtain rfl := of_decide_eq_true hfound
  refine ⟨?_, h.nodup.erase _, fun p hp => h.mem p (List.mem_of_mem_erase hp)⟩
  unfold PoolState.free nacMemFree
  dsimp only
  rw [h.pool_eq]
  refine poolOf_modify (f := fun n => n - 1) hdistinct hi hne ?_ ?_
  · rw [if_pos hobjp, if_neg h.nodup.not_mem_erase]
    rfl
  · intro p hp
    exact List.mem_erase_of_ne hp

theorem PoolInv.step {a : PoolAct} (h : PoolInv cards s) (hdistinct : Distinct cards)
    (hstep : poolStep s a = some s') : PoolInv cards s' := by
  cases a with
  | malloc msize =>
      cases hstep
      exact h.malloc hdistinct msize
  | free objp =>
      rw [poolStep] at hstep
      split_ifs at hstep with hobjp
      cases hstep
      exact h.free hdistinct hobjp

theorem PoolInv.start : PoolInv cards (poolStart cards) := by
  refine ⟨?_, List.nodup_nil, fun objp hobjp => (List.not_mem_nil hobjp).elim⟩
  simp [poolStart, poolOf]

/-- Where nothing is returned, everything is outstanding. -/
theorem PoolInv.null (h : PoolInv cards s) (hordered : Ordered cards)
    (hzero : (nacMemMalloc s.pool msize).1 = 0) {card : Card} (hcard : card ∈ cards)
    (hne : card.vaddr ≠ 0) : card.vaddr ∈ s.held := by
  by_contra hnew
  obtain ⟨i, hilt, rfl⟩ := List.getElem_of_mem hcard
  -- the card's buffer is not in use: the first such one is no later
  have hexists : ∃ b ∈ poolOf cards s.held, decide (b.inuse = 0) = true := by
    refine ⟨_, List.mem_map_of_mem hcard, ?_⟩
    rw [if_neg hnew]
    rfl
  obtain ⟨b, hb, hfree⟩ := getElem?_findIdx hexists
  obtain ⟨hfirst, -⟩ := poolOf_getElem? hb
  have hle : (poolOf cards s.held).findIdx (fun b => b.inuse = 0) ≤ i := by
    by_contra hlt
    have hused := List.not_of_lt_findIdx (not_le.1 hlt)
    simp [poolOf, hnew] at hused
  have hbzero : b.card.vaddr = 0 := by
    rw [nacMemMalloc, h.pool_eq] at hzero
    dsimp only at hzero
    rw [hb] at hzero
    by_contra hbne
    dsimp only at hzero
    rw [if_neg hbne] at hzero
    exact hbne hzero
  -- and it has a region, because the card has one
  rcases hle.lt_or_eq with hlt | heq
  · obtain ⟨hjlt, hj⟩ := List.getElem?_eq_some_iff.1 hfirst
    have hpair := List.pairwise_iff_getElem.1 hordered.pairwise _ i hjlt hilt hlt hne
    rw [hj] at hpair
    exact hpair hbzero
  · rw [heq, List.getElem?_eq_getElem hilt, Option.some_inj] at hfirst
    rw [hfirst] at hne
    exact hne hbzero

/-- The pointers outstanding are not more than the cards. -/
theorem PoolInv.length_le (h : PoolInv cards s) : s.held.length ≤ cards.length := by
  have hsubset : s.held ⊆ cards.map Card.vaddr := by
    intro objp hobjp
    obtain ⟨-, card, hcard, haddr⟩ := h.mem objp hobjp
    exact List.mem_map.2 ⟨card, hcard, haddr⟩
  have hle := (h.nodup.subperm hsubset).length_le
  rwa [List.length_map] at hle

/-- A region is had again after at most as many calls as there are cards. -/
theorem PoolInv.again (hdistinct : Distinct cards) (hordered : Ordered cards) {card : Card}
    (hcard : card ∈ cards) (hne : card.vaddr ≠ 0) :
    ∀ (n : Nat) {s : PoolState}, PoolInv cards s → cards.length ≤ s.held.length + n →
      ∃ m, card.vaddr ∈ ((fun s => PoolState.malloc s 0)^[m] s).held := by
  intro n
  induction n with
  | zero =>
      intro s h hle
      refine ⟨0, ?_⟩
      by_contra hnew
      have hsucc : (nacMemMalloc s.pool 0).1 ≠ 0 := fun hzero => hnew (h.null hordered hzero hcard hne)
      obtain ⟨hnext, -, hheld⟩ := h.malloc_some hdistinct hsucc
      have hlength := hnext.length_le
      rw [hheld, List.length_cons] at hlength
      omega
  | succ n ih =>
      intro s h hle
      by_cases hmem : card.vaddr ∈ s.held
      · exact ⟨0, hmem⟩
      · have hsucc : (nacMemMalloc s.pool 0).1 ≠ 0 :=
          fun hzero => hmem (h.null hordered hzero hcard hne)
        obtain ⟨hnext, -, hheld⟩ := h.malloc_some hdistinct hsucc
        obtain ⟨m, hm⟩ := ih hnext (by rw [hheld, List.length_cons]; omega)
        exact ⟨m + 1, hm⟩

theorem PoolInv.owned (h : PoolInv cards s) (hdistinct : Distinct cards) (hordered : Ordered cards) :
    Owned s := by
  refine ⟨h.nodup, ?size, ?null, ?again⟩
  case size =>
    intro msize hne
    obtain ⟨b, hb, -, haddr, -⟩ := nacMemMalloc_some hne
    refine ⟨b, List.mem_of_getElem? hb, haddr.symm, ?_⟩
    have hget := hb
    rw [h.pool_eq] at hget
    obtain ⟨hcard, -⟩ := poolOf_getElem? hget
    have hsize := hordered.size_ne _ (List.mem_of_getElem? hcard) (haddr ▸ hne)
    rw [nacMemMalloc] at hne ⊢
    dsimp only at hne ⊢
    rw [hb]
    dsimp only
    split_ifs <;> constructor <;> (dsimp only; omega)
  case null =>
    intro msize hzero b hb hne
    rw [h.pool_eq, poolOf] at hb
    obtain ⟨card, hcard, rfl⟩ := List.mem_map.1 hb
    exact h.null hordered hzero hcard hne
  case again =>
    intro objp hobjp
    obtain ⟨hne, card, hcard, rfl⟩ := h.mem objp hobjp
    exact PoolInv.again hdistinct hordered hcard hne cards.length (h.free hdistinct hobjp)
      (Nat.le_add_left _ _)

end Step

/-! ## The first calls -/

/-- Each card in `done` has been given out once. -/
def given (done todo : List Card) : PoolState :=
  ⟨done.map (fun card => ⟨card, 1⟩) ++ todo.map (fun card => ⟨card, 0⟩), (done.map Card.vaddr).reverse⟩

theorem modify_append_cons {α : Type} (l₁ l₂ : List α) (a : α) (f : α → α) :
    (l₁ ++ a :: l₂).modify l₁.length f = l₁ ++ f a :: l₂ := by
  induction l₁ with
  | nil => rfl
  | cons b l₁ ih =>
      rw [List.cons_append, List.length_cons, List.modify_succ_cons, ih, List.cons_append]

theorem given_malloc {done todo : List Card} {card : Card} (hne : card.vaddr ≠ 0) :
    (given done (card :: todo)).malloc 0 = given (done ++ [card]) todo := by
  have hused : (done.map fun card => (⟨card, 1⟩ : Buffer)).findIdx (fun b => b.inuse = 0)
      = done.length := by
    conv_rhs => rw [← List.length_map (fun card => (⟨card, 1⟩ : Buffer))]
    rw [List.findIdx_eq_length]
    intro b hb
    obtain ⟨c, -, rfl⟩ := List.mem_map.1 hb
    rfl
  have hfirst : (given done (card :: todo)).pool.findIdx (fun b => b.inuse = 0) = done.length := by
    rw [given, List.findIdx_append, hused, List.length_map, if_neg (lt_irrefl _), List.map_cons,
      List.findIdx_cons]
    simp
  have hget : (given done (card :: todo)).pool[done.length]? = some ⟨card, 0⟩ := by
    simp [given]
  have hmodify : (given done (card :: todo)).pool.modify done.length
      (fun b => { b with inuse := b.inuse + 1 }) = (given (done ++ [card]) todo).pool := by
    have hdone : done.length = (done.map fun card => (⟨card, 1⟩ : Buffer)).length :=
      List.length_map _ |>.symm
    rw [given, given, List.map_cons, hdone, modify_append_cons]
    simp
  have hresult : nacMemMalloc (given done (card :: todo)).pool 0
      = (card.vaddr, card.size, (given (done ++ [card]) todo).pool) := by
    unfold nacMemMalloc
    dsimp only
    rw [hfirst, hget]
    dsimp only
    rw [if_neg hne, if_neg (Nat.not_lt_zero _), if_pos rfl, hmodify]
  rw [PoolState.malloc, hresult]
  dsimp only
  rw [if_neg hne]
  simp [given]

/-- Cards that have a region can be given out in turn. -/
theorem reach_given {cards : List Card} (done : List Card) :
    ∀ todo, cards = done ++ todo → (∀ card ∈ done, card.vaddr ≠ 0) →
      (pool cards).Reach (fun _ _ => True) (given done todo) := by
  induction done using List.reverseRecOn with
  | nil =>
      rintro todo rfl -
      exact .start rfl
  | append_singleton done card ih =>
      intro todo hcards hne
      rw [List.append_assoc, List.singleton_append] at hcards
      have hprev := ih (card :: todo) hcards fun c hc => hne c (List.mem_append_left _ hc)
      refine @Machine.Reach.next _ _ _ _ _ _ (.malloc 0) hprev trivial ?_
      exact congrArg some (given_malloc (hne card (List.mem_append_right _ (List.mem_singleton_self _))))

theorem distinct_of_owned {cards : List Card} (hordered : Ordered cards)
    (h : ∀ s, (pool cards).Reach (fun _ _ => True) s → s.held.Nodup) : Distinct cards := by
  apply distinct_of_lt
  intro i j hi hj hij hne hsame
  -- the cards up to the second of the two
  have hne' : ∀ card ∈ cards.take (j + 1), card.vaddr ≠ 0 := by
    intro card hcard
    obtain ⟨k, hk, rfl⟩ := List.getElem_of_mem hcard
    rw [List.length_take] at hk
    rw [List.getElem_take]
    rcases Nat.lt_or_ge k j with hlt | hge
    · exact List.pairwise_iff_getElem.1 hordered.pairwise k j (by omega) hj hlt (hsame ▸ hne)
    · obtain rfl : k = j := by omega
      exact hsame ▸ hne
  have hnodup := h _ (reach_given _ _ (List.take_append_drop (j + 1) cards).symm hne')
  rw [given, List.nodup_reverse] at hnodup
  have hi' : i < ((cards.take (j + 1)).map Card.vaddr).length := by
    rw [List.length_map, List.length_take]
    omega
  have hj' : j < ((cards.take (j + 1)).map Card.vaddr).length := by
    rw [List.length_map, List.length_take]
    omega
  have hinj := (@List.Nodup.getElem_inj_iff _ _ hnodup i hi' j hj').1 (by simpa using hsame)
  omega

/-! ## The pool of `nac_mem` -/

/-- **Each buffer has one owner**, over all orders of `malloc` and `free`, if and only if no two of
the regions `nac_mem_init` has reserved begin at one address.  The regions are those of the 32-bit
build. -/
theorem nacMem_owned_iff {virtToPhys : Nat → Nat} {gfporder : Int} {answers : List Nat} {t : Tables}
    (halloc : nacMemAllocPtable virtToPhys gfporder answers = some t) (hok : BlocksOk t)
    (nnacs align : Nat) :
    (∀ s, (pool (nacMemInit nnacs align t).cards).Reach (fun _ _ => True) s → Owned s) ↔
      Distinct (nacMemInit nnacs align t).cards := by
  have hordered := nacMemInit_ordered (nacMemAllocPtable_stored halloc) hok nnacs align
  constructor
  · intro h
    exact distinct_of_owned hordered fun s hs => (h s hs).nodup
  · intro hdistinct s hs
    have hinv : PoolInv (nacMemInit nnacs align t).cards s := by
      refine hs.invariant ?_ fun _ _ _ hinv _ hstep => hinv.step hdistinct hstep
      rintro _ rfl
      exact .start
    exact hinv.owned hdistinct hordered

/-- Four cards and blocks of 16 MB: one card gets its region, and whoever has it is alone. -/
theorem nacMem_owned_four :
    Owned ((poolStart (nacMemInit 4 0x100000 sixTables).cards).malloc 4096) :=
  (nacMem_owned_iff sixTables_eq sixTables_ok 4 0x100000).2
    (distinct_of_order (nacMemAllocPtable_stored sixTables_eq) sixTables_ok (by decide) 4 0x100000)
    _ (@Machine.Reach.next _ _ _ _ _ _ (.malloc 4096) (.start rfl) trivial rfl)

/-! ## Three cards and blocks of 64 MB -/

/-- Two blocks of 64 MB that are not neighbours. -/
def farBlocks : List Nat := [0xd0000000, 0xc8000000]

/-- What `nac_mem_alloc_ptable` stores for them. -/
def farTables : Tables := ⟨14, farBlocks, [], farBlocks⟩

/-- No two blocks are neighbours, so that each card gets less than a block: nothing is cleared, the
search for the next card fails at first and begins again at the first block. -/
theorem nacMem_owned_twice :
    nacMemAllocPtable (fun v => v - 0xc0000000) 14 farBlocks = some farTables ∧ BlocksOk farTables ∧
      ∃ s, (pool (nacMemInit 3 0x100000 farTables).cards).Reach (fun _ _ => True) s ∧
        s.held = [0xd0000000, 0xd0000000] ∧ ¬Owned s := by
  refine ⟨by decide, ⟨by decide, by decide, by decide, by decide⟩, ?_⟩
  have hcards : (nacMemInit 3 0x100000 farTables).cards
      = [⟨0xd0000000, 44739242⟩, ⟨0xd0000000, 44739242⟩, ⟨0xd0000000, 44739242⟩] := by
    decide +kernel
  rw [hcards]
  refine ⟨_, reach_given (List.replicate 2 ⟨0xd0000000, 44739242⟩) [⟨0xd0000000, 44739242⟩] rfl
    (by decide), rfl, fun h => absurd h.nodup (by decide)⟩

end NacCard.Driver
