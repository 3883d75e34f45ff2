import NacCard.Mem.Sizes

/-!
# Every block is released exactly once

* `BlocksOk` — what the page allocator promises about the blocks it hands out.
* `ReleasedOnce` — blocks in use are kept, the others given back, and after
  `nac_mem_cleanup` each has been given back once.
* `cleanupCard_eq` — the blocks cleared for a region are counted with a division that
  rounds down, those freed for it with a loop that rounds up.
* `init_count` — where the blocks are between `nac_mem_init` and `nac_mem_cleanup`.
* `releasedOnce_iff_sizes` — so it holds if and only if no block lies behind
  `nac_mem_htable` and every region is a multiple of the block size.
* `nacMem_releasedOnce_iff` — what that means for the number of cards, in the 32-bit build.
-/

namespace NacCard.Mem

open NacCard.Base

/-- Blocks of `psize` bytes: aligned to their size, different, and below the end of the
address space. -/
structure BlocksOk (t : Tables) : Prop where
  order : 0 ≤ t.gfporder ∧ t.gfporder ≤ 18
  nodup : t.handed.Nodup
  aligned : ∀ b ∈ t.handed, psizeOf t.gfporder ∣ b
  lt : ∀ b ∈ t.handed, b + psizeOf t.gfporder < 4294967296

/-- The block at `b` and the card's region have a byte in common. -/
def Overlaps (psize b : Nat) (card : Card) : Prop :=
  card.vaddr ≠ 0 ∧ b < card.vaddr + card.size ∧ card.vaddr < b + psize

/-- `s` is the state after `nac_mem_init`. -/
structure ReleasedOnce (handed : List Nat) (s : MemState) : Prop where
  kept : ∀ b ∈ handed, (∃ card ∈ s.cards, Overlaps s.psize b card) → s.freed.count b = 0
  given : ∀ b ∈ handed, (¬∃ card ∈ s.cards, Overlaps s.psize b card) → s.freed.count b = 1
  once : ∀ b ∈ handed, (nacMemCleanup s).freed.count b = 1

/-! ## Blocks and regions -/

variable {psize : Nat}

theorem div_mul_lt {k n : Nat} (h : ¬k ∣ n) : n / k * k < n :=
  lt_of_le_of_ne (Nat.div_mul_le_self n k) fun heq => h (Dvd.intro_left (n / k) heq)

theorem mem_blocksFrom {v n b : Nat} : b ∈ blocksFrom psize v n ↔ ∃ j, j < n ∧ v + j * psize = b := by
  simp [blocksFrom]

/-- The loop of `nac_mem_freecontig`. -/
theorem freeLoop_eq {vend : Nat} :
    ∀ {k n v : Nat}, k ≤ n → (∀ j, j < k → v + j * psize < vend) → vend ≤ v + k * psize →
      v + k * psize < 4294967296 → freeLoop psize vend n v = blocksFrom psize v k := by
  intro k
  induction k with
  | zero =>
      intro n v _ _ hend _
      cases n with
      | zero => rfl
      | succ n =>
          rw [freeLoop, if_neg (by omega)]
          rfl
  | succ k ih =>
      intro n v hn hin hend hlt
      rw [Nat.succ_mul] at hend hlt
      obtain ⟨m, rfl⟩ : ∃ m, n = m + 1 := ⟨n - 1, by omega⟩
      have hfirst := hin 0 (Nat.succ_pos k)
      rw [Nat.zero_mul, Nat.add_zero] at hfirst
      have hnext : u32 ((v : Int) + psize) = v + psize := by
        rw [← Nat.cast_add, u32_natCast (by omega)]
      rw [freeLoop, if_pos hfirst, hnext, ih (by omega) ?_ (by omega) (by omega)]
      · unfold blocksFrom
        rw [List.range_succ_eq_map, List.map_cons, List.map_map, Nat.zero_mul, Nat.add_zero]
        congr 1
        apply List.map_congr_left
        intro j _
        simp only [Function.comp_apply, Nat.succ_mul]
        omega
      · intro j hj
        have hj' := hin (j + 1) (by omega)
        rw [Nat.succ_mul] at hj'
        omega

/-- The blocks a region of `size` bytes at `v` reaches into are freed for it. -/
theorem nacMemFreecontig_eq {v size k : Nat} (hin : ∀ j, j < k → j * psize < size)
    (hend : size ≤ k * psize) (hk : k ≤ size) (hlt : v + k * psize < 4294967296) :
    nacMemFreecontig psize size v = blocksFrom psize v k := by
  have hvend : u32 ((v : Int) + size) = v + size := by
    rw [← Nat.cast_add, u32_natCast (by omega)]
  rw [nacMemFreecontig, hvend]
  refine freeLoop_eq hk ?_ (by omega) hlt
  intro j hj
  have hj' := hin j hj
  omega

/-- **The two divisions**: what is freed for a card is what was kept for it, and one block
more where the size is not a multiple of the block size. -/
theorem cleanupCard_eq {size : Nat} {T : List Nat} {card : Card} (hT : Below psize T)
    (hpos : 0 < psize) (hregion : Region psize size T card) (hsize : 0 < card.size)
    (hne : card.vaddr ≠ 0) :
    cleanupCard psize card
      = if psize ∣ card.size then kept psize card
        else kept psize card ++ [card.vaddr + card.size / psize * psize] := by
  have hmod := Nat.mod_lt card.size hpos
  have hdiv := Nat.div_add_mod' card.size psize
  -- a region ends below the end of the address space
  have hlt : ∀ k, 0 < k → (k - 1) * psize < card.size → card.vaddr + k * psize < 4294967296 := by
    intro k hk hlast
    obtain ⟨i, hi⟩ := hregion.entry (k - 1) hlast
    have hbelow := hT i
    have hsplit : k = (k - 1) + 1 := by omega
    rw [hi] at hbelow
    rw [hsplit, Nat.succ_mul]
    omega
  have hmono : ∀ k j, (k - 1) * psize < card.size → j < k → j * psize < card.size := by
    intro k j hlast hj
    exact (Nat.mul_le_mul_right psize (by omega)).trans_lt hlast
  rw [cleanupCard, kept, if_neg hne, if_neg hne]
  generalize hq : card.size / psize = q at hdiv ⊢
  split_ifs with hdvd
  · have hexact : q * psize = card.size := by
      rw [← hq]
      exact Nat.div_mul_cancel hdvd
    have hq0 : 0 < q := by
      rcases Nat.eq_zero_or_pos q with rfl | h
      · omega
      · exact h
    have hlast : (q - 1) * psize < card.size := by
      have hsplit : q = (q - 1) + 1 := by omega
      rw [hsplit, Nat.succ_mul] at hexact
      omega
    have hle : q * 1 ≤ q * psize := Nat.mul_le_mul_left q hpos
    exact nacMemFreecontig_eq (fun j => hmono q j hlast) hexact.ge (by omega) (hlt q hq0 hlast)
  · have hrest : card.size % psize ≠ 0 := fun h => hdvd (Nat.dvd_of_mod_eq_zero h)
    have hone : psize ≠ 1 := by
      rintro rfl
      exact hdvd (one_dvd _)
    have hlast : (q + 1 - 1) * psize < card.size := by
      rw [Nat.add_sub_cancel]
      omega
    have hle : q * 2 ≤ q * psize := Nat.mul_le_mul_left q (by omega)
    have hend : card.size ≤ (q + 1) * psize := by
      rw [Nat.succ_mul]
      omega
    rw [nacMemFreecontig_eq (fun j => hmono (q + 1) j hlast) hend (by omega)
      (hlt (q + 1) (Nat.succ_pos q) hlast)]
    unfold blocksFrom
    rw [List.range_succ, List.map_append, List.map_singleton]

/-- A block that has a byte in common with a whole number of blocks is one of them. -/
theorem overlaps_iff_kept {b : Nat} {card : Card} (hpos : 0 < psize) (hb : psize ∣ b)
    (hv : psize ∣ card.vaddr) (hsize : psize ∣ card.size) :
    Overlaps psize b card ↔ b ∈ kept psize card := by
  obtain ⟨x, rfl⟩ := hb
  obtain ⟨y, hy⟩ := hv
  obtain ⟨q, hq⟩ := hsize
  unfold Overlaps kept
  split_ifs with hzero
  · simp [hzero]
  · rw [mem_blocksFrom, hy, hq, Nat.mul_div_cancel_left q hpos, ← Nat.mul_add, ← Nat.mul_succ,
      Nat.mul_lt_mul_left hpos, Nat.mul_lt_mul_left hpos]
    constructor
    · rintro ⟨-, hlt, hle⟩
      refine ⟨x - y, by omega, ?_⟩
      rw [Nat.mul_comm (x - y), ← Nat.mul_add]
      congr 1
      omega
    · rintro ⟨j, hj, hx⟩
      rw [Nat.mul_comm j, ← Nat.mul_add] at hx
      have hxj := Nat.eq_of_mul_eq_mul_left hpos hx
      exact ⟨by rw [← hy]; exact hzero, by omega, by omega⟩

/-! ## The blocks after `nac_mem_init` -/

section Init

variable {t : Tables} {nnacs align : Nat}

theorem sorted_count {b : Nat} (hb : b ≠ 0) :
    (nacMemSortPtable t.ptableArray).count b = t.ptable.count b := by
  have hnone : (List.replicate (PTABSIZE - t.ptable.length) 0).count b = 0 := by
    rw [List.count_eq_zero]
    exact fun hmem => hb (List.eq_of_mem_replicate hmem)
  rw [(nacMemSortPtable_perm _).count_eq, Tables.ptableArray, List.count_append, hnone, Nat.add_zero]

theorem sorted_length (hstored : Stored t) :
    (nacMemSortPtable t.ptableArray).length = PTABSIZE := by
  have hle := hstored.length_le
  rw [(nacMemSortPtable_perm _).length_eq, Tables.ptableArray, List.length_append,
    List.length_replicate]
  omega

theorem sorted_mem {i : Nat} (h : (nacMemSortPtable t.ptableArray).getD i 0 ≠ 0) :
    (nacMemSortPtable t.ptableArray).getD i 0 ∈ t.ptable := by
  have hmem : (nacMemSortPtable t.ptableArray).getD i 0 ∈ nacMemSortPtable t.ptableArray := by
    rw [List.getD_eq_getElem _ _ (lt_length_of_getD h)]
    exact List.getElem_mem _
  rw [← List.count_pos_iff, sorted_count h] at hmem
  exact List.count_pos_iff.1 hmem

theorem Stored.mem_handed (h : Stored t) {b : Nat} : b ∈ t.handed ↔ b ∈ t.ptable ∨ b ∈ t.htable := by
  rw [h.perm.mem_iff, List.mem_append]

theorem sorted_below (hstored : Stored t) (hok : BlocksOk t) :
    Below (psizeOf t.gfporder) (nacMemSortPtable t.ptableArray) := by
  intro i
  by_cases hzero : (nacMemSortPtable t.ptableArray).getD i 0 = 0
  · rw [hzero, Nat.zero_add]
    exact psizeOf_lt hok.order.2
  · exact hok.lt _ (hstored.mem_handed.2 (.inl (sorted_mem hzero)))

/-- A block handed out is in one table, once. -/
theorem handed_count (hstored : Stored t) (hok : BlocksOk t) {b : Nat} (hb : b ∈ t.handed) :
    t.ptable.count b + t.htable.count b = 1 := by
  rw [← List.count_append, ← hstored.perm.count_eq]
  exact List.count_eq_one_of_mem hok.nodup hb

theorem freePtable_count {T : List Nat} {b : Nat} (hb : b ≠ 0) : (freePtable T).count b = T.count b :=
  List.count_filter (by simpa using hb)

/-- **No block gets lost** before `nac_mem_cleanup`: it has been freed, is kept for a
card, or lies behind `nac_mem_htable`. -/
theorem init_count (hstored : Stored t) (hok : BlocksOk t) {b : Nat} (hb : b ≠ 0) :
    (nacMemInit nnacs align t).freed.count b
        + ((nacMemInit nnacs align t).cards.flatMap (kept (psizeOf t.gfporder))).count b
      = t.ptable.count b + (t.htable.take HTABSIZE).count b := by
  obtain ⟨hcount, -⟩ := @nacMem_spec _ align (initialSize nnacs) (psizeOf_lt hok.order.2)
    (psizeOf_pos _) (cardCount nnacs) (nacMemSortPtable t.ptableArray) 0 (sorted_below hstored hok)
    (sorted_length hstored)
  have hb' := hcount b hb
  rw [sorted_count hb] at hb'
  unfold nacMemInit
  dsimp only
  rw [List.count_append, freePtable_count hb, freePtable_count hb]
  omega

/-- The region of a card of `nac_mem_init`. -/
theorem init_region (hstored : Stored t) (hok : BlocksOk t) {card : Card}
    (hcard : card ∈ (nacMemInit nnacs align t).cards) (hne : card.vaddr ≠ 0) :
    Region (psizeOf t.gfporder) (initialSize nnacs) (nacMemSortPtable t.ptableArray) card ∧
      0 < card.size := by
  obtain ⟨-, hregion⟩ := @nacMem_spec _ align (initialSize nnacs) (psizeOf_lt hok.order.2)
    (psizeOf_pos _) (cardCount nnacs) (nacMemSortPtable t.ptableArray) 0 (sorted_below hstored hok)
    (sorted_length hstored)
  have hr := hregion card hcard hne
  refine ⟨hr, ?_⟩
  obtain ⟨j, hj, hmin⟩ := hr.size_eq
  rcases hmin with rfl | hmin
  · rw [hj, pow_zero, Nat.div_one]
    exact initialSize_pos nnacs
  · exact Nat.zero_lt_of_lt hmin

/-- A block a region reaches into has been handed out, for the first table. -/
theorem Region.mem {size i : Nat} {card : Card}
    (h : Region psize size (nacMemSortPtable t.ptableArray) card) (hne : card.vaddr ≠ 0)
    (hi : i * psize < card.size) : card.vaddr + i * psize ∈ t.ptable := by
  obtain ⟨k, hk⟩ := h.entry i hi
  rw [← hk]
  exact sorted_mem (by omega)

/-- What `nac_mem_cleanup` frees for a card was kept for it, but for one block where the
size is not a multiple of the block size. -/
theorem init_cleanupCard (hstored : Stored t) (hok : BlocksOk t) {card : Card}
    (hcard : card ∈ (nacMemInit nnacs align t).cards) :
    cleanupCard (psizeOf t.gfporder) card
      = if card.vaddr ≠ 0 → psizeOf t.gfporder ∣ card.size then kept (psizeOf t.gfporder) card
        else kept (psizeOf t.gfporder) card
          ++ [card.vaddr + card.size / psizeOf t.gfporder * psizeOf t.gfporder] := by
  by_cases hne : card.vaddr = 0
  · rw [if_pos (fun h => absurd hne h), cleanupCard, kept, if_pos hne, if_pos hne]
  · obtain ⟨hregion, hsize⟩ := init_region hstored hok hcard hne
    rw [cleanupCard_eq (sorted_below hstored hok) (psizeOf_pos _) hregion hsize hne]
    by_cases hdvd : psizeOf t.gfporder ∣ card.size
    · rw [if_pos hdvd, if_pos (fun _ => hdvd)]
    · rw [if_neg hdvd, if_neg (fun h => hdvd (h hne))]

/-- The calls of `free_pages` after `nac_mem_cleanup`. -/
theorem cleanup_count {b : Nat} :
    (nacMemCleanup (nacMemInit nnacs align t)).freed.count b
      = (nacMemInit nnacs align t).freed.count b
        + ((nacMemInit nnacs align t).cards.flatMap (cleanupCard (psizeOf t.gfporder))).count b :=
  List.count_append

/-- Every region is a whole number of blocks. -/
def WholeBlocks (t : Tables) (s : MemState) : Prop :=
  ∀ card ∈ s.cards, card.vaddr ≠ 0 → psizeOf t.gfporder ∣ card.size

theorem cleanup_of_wholeBlocks (hstored : Stored t) (hok : BlocksOk t)
    (hwhole : WholeBlocks t (nacMemInit nnacs align t)) :
    (nacMemInit nnacs align t).cards.flatMap (cleanupCard (psizeOf t.gfporder))
      = (nacMemInit nnacs align t).cards.flatMap (kept (psizeOf t.gfporder)) := by
  apply List.flatMap_congr
  intro card hcard
  rw [init_cleanupCard hstored hok hcard, if_pos (hwhole card hcard)]

theorem releasedOnce_of_wholeBlocks (hstored : Stored t) (hok : BlocksOk t)
    (hhigh : t.htable.length ≤ HTABSIZE) (hwhole : WholeBlocks t (nacMemInit nnacs align t)) :
    ReleasedOnce t.handed (nacMemInit nnacs align t) := by
  have hpos := psizeOf_pos t.gfporder
  -- overlapping a region is being kept for it
  have hkept : ∀ b ∈ t.handed, (∃ card ∈ (nacMemInit nnacs align t).cards,
      Overlaps (psizeOf t.gfporder) b card) ↔
        b ∈ (nacMemInit nnacs align t).cards.flatMap (kept (psizeOf t.gfporder)) := by
    intro b hb
    rw [List.mem_flatMap]
    refine exists_congr fun card => and_congr_right fun hcard => ?_
    by_cases hne : card.vaddr = 0
    · simp [Overlaps, kept, hne]
    · obtain ⟨hregion, hsize⟩ := init_region hstored hok hcard hne
      have hv := hregion.mem hne (i := 0) (by rw [Nat.zero_mul]; exact hsize)
      rw [Nat.zero_mul, Nat.add_zero] at hv
      exact overlaps_iff_kept hpos (hok.aligned b hb)
        (hok.aligned _ (hstored.mem_handed.2 (.inl hv))) (hwhole card hcard hne)
  have htotal : ∀ b ∈ t.handed, (nacMemInit nnacs align t).freed.count b
      + ((nacMemInit nnacs align t).cards.flatMap (kept (psizeOf t.gfporder))).count b = 1 := by
    intro b hb
    rw [init_count hstored hok (hstored.ne_zero b hb), List.take_of_length_le hhigh]
    exact handed_count hstored hok hb
  refine ⟨?_, ?_, ?_⟩
  · intro b hb hover
    have hcount := List.count_pos_iff.2 ((hkept b hb).1 hover)
    have hone := htotal b hb
    omega
  · intro b hb hover
    have hcount := List.count_eq_zero.2 (fun hmem => hover ((hkept b hb).2 hmem))
    have hone := htotal b hb
    omega
  · intro b hb
    rw [cleanup_count, cleanup_of_wholeBlocks hstored hok hwhole]
    exact htotal b hb

/-- What `nac_mem_cleanup` frees are blocks of the first table. -/
theorem mem_of_cleanupCard (hstored : Stored t) (hok : BlocksOk t) {b : Nat}
    (hb : b ∈ (nacMemInit nnacs align t).cards.flatMap (cleanupCard (psizeOf t.gfporder))) :
    b ∈ t.ptable := by
  have hpos := psizeOf_pos t.gfporder
  obtain ⟨card, hcard, hmem⟩ := List.mem_flatMap.1 hb
  by_cases hne : card.vaddr = 0
  · rw [cleanupCard, if_pos hne] at hmem
    exact (List.not_mem_nil hmem).elim
  · obtain ⟨hregion, hsize⟩ := init_region hstored hok hcard hne
    have hkept : b ∈ kept (psizeOf t.gfporder) card → b ∈ t.ptable := by
      intro hmem
      rw [kept, if_neg hne, mem_blocksFrom] at hmem
      obtain ⟨j, hj, rfl⟩ := hmem
      exact hregion.mem hne ((Nat.mul_lt_mul_of_pos_right hj hpos).trans_le (Nat.div_mul_le_self _ _))
    rw [init_cleanupCard hstored hok hcard] at hmem
    split_ifs at hmem with hdvd
    · exact hkept hmem
    · rcases List.mem_append.1 hmem with hmem | hmem
      · exact hkept hmem
      · rw [List.mem_singleton.1 hmem]
        exact hregion.mem hne (div_mul_lt fun h => hdvd fun _ => h)

/-- A block behind `nac_mem_htable` is never given back. -/
theorem high_of_releasedOnce (hstored : Stored t) (hok : BlocksOk t)
    (h : ReleasedOnce t.handed (nacMemInit nnacs align t)) : t.htable.length ≤ HTABSIZE := by
  by_contra hlong
  have hlt : HTABSIZE < t.htable.length := not_le.1 hlong
  -- the first block behind the table
  obtain ⟨b, hdrop⟩ : ∃ b, b ∈ t.htable.drop HTABSIZE :=
    ⟨t.htable[HTABSIZE], by rw [List.drop_eq_getElem_cons hlt]; exact List.mem_cons_self⟩
  have hb : b ∈ t.handed := hstored.mem_handed.2 (.inr (List.mem_of_mem_drop hdrop))
  have hone := handed_count hstored hok hb
  have hsplit : t.htable.count b = (t.htable.take HTABSIZE).count b + (t.htable.drop HTABSIZE).count b := by
    rw [← List.count_append, List.take_append_drop]
  have hpos := List.count_pos_iff.2 hdrop
  have hnot : b ∉ t.ptable := by
    intro hmem
    have hcount := List.count_pos_iff.2 hmem
    omega
  have hfreed := @init_count t nnacs align hstored hok b (hstored.ne_zero b hb)
  have hcleaned := List.count_eq_zero.2 fun hmem =>
    hnot (@mem_of_cleanupCard t nnacs align hstored hok b hmem)
  have honce := h.once b hb
  rw [cleanup_count, hcleaned] at honce
  omega

/-- The block on top of a region that is not a whole number of blocks is given back twice. -/
theorem wholeBlocks_of_releasedOnce (hstored : Stored t) (hok : BlocksOk t)
    (h : ReleasedOnce t.handed (nacMemInit nnacs align t)) :
    WholeBlocks t (nacMemInit nnacs align t) := by
  intro card hcard hne
  by_contra hdvd
  obtain ⟨hregion, hsize⟩ := init_region hstored hok hcard hne
  have hmem := hregion.mem hne (div_mul_lt hdvd)
  generalize hb : card.vaddr + card.size / psizeOf t.gfporder * psizeOf t.gfporder = b at hmem
  have hhanded : b ∈ t.handed := hstored.mem_handed.2 (.inl hmem)
  have hfreed := @init_count t nnacs align hstored hok b (hstored.ne_zero b hhanded)
  have honce := h.once b hhanded
  have hpos := List.count_pos_iff.2 hmem
  -- more is freed for this card than was kept, and not less for the others
  have hmore : ((nacMemInit nnacs align t).cards.flatMap (kept (psizeOf t.gfporder))).count b
      < ((nacMemInit nnacs align t).cards.flatMap (cleanupCard (psizeOf t.gfporder))).count b := by
    rw [List.count_flatMap, List.count_flatMap]
    apply List.sum_lt_sum
    · intro card' hcard'
      rw [Function.comp_apply, Function.comp_apply, init_cleanupCard hstored hok hcard']
      split_ifs
      · exact le_rfl
      · rw [List.count_append]
        exact Nat.le_add_right _ _
    · refine ⟨card, hcard, ?_⟩
      rw [Function.comp_apply, Function.comp_apply, init_cleanupCard hstored hok hcard,
        if_neg (fun himp => hdvd (himp hne)), List.count_append, hb, List.count_singleton_self]
      exact Nat.lt_succ_self _
  rw [cleanup_count] at honce
  omega

/-- **Where every block is released exactly once.** -/
theorem releasedOnce_iff_sizes (hstored : Stored t) (hok : BlocksOk t) :
    ReleasedOnce t.handed (nacMemInit nnacs align t) ↔
      t.htable.length ≤ HTABSIZE ∧ WholeBlocks t (nacMemInit nnacs align t) := by
  constructor
  · exact fun h => ⟨high_of_releasedOnce hstored hok h, wholeBlocks_of_releasedOnce hstored hok h⟩
  · exact fun h => releasedOnce_of_wholeBlocks hstored hok h.1 h.2

/-! ## The number of cards -/

/-- What the search finds for the first card. -/
def firstCard (t : Tables) (nnacs align : Nat) : Card :=
  (reserve (psizeOf t.gfporder) align 32 (initialSize nnacs) (nacMemSortPtable t.ptableArray) 0).1

/-- It finds nothing, at any of the sizes tried. -/
def FirstFails (t : Tables) (nnacs align : Nat) : Prop := (firstCard t nnacs align).vaddr = 0

theorem cardCount_eq_succ (nnacs : Nat) : ∃ n, cardCount nnacs = n + 1 := by
  obtain ⟨hpos, -⟩ := cardCount_mem nnacs
  exact ⟨cardCount nnacs - 1, by omega⟩

theorem firstCard_mem : firstCard t nnacs align ∈ (nacMemInit nnacs align t).cards := by
  obtain ⟨n, hn⟩ := cardCount_eq_succ nnacs
  unfold nacMemInit firstCard
  dsimp only
  rw [hn, nacMem]
  dsimp only
  split_ifs
  · exact List.mem_cons_self
  · exact List.mem_cons_self

/-- If the first card gets nothing, no card does. -/
theorem FirstFails.vaddr_eq (h : FirstFails t nnacs align) {card : Card}
    (hcard : card ∈ (nacMemInit nnacs align t).cards) : card.vaddr = 0 := by
  obtain ⟨n, hn⟩ := cardCount_eq_succ nnacs
  unfold FirstFails firstCard at h
  unfold nacMemInit at hcard
  dsimp only at hcard
  rw [hn, nacMem] at hcard
  dsimp only at hcard
  rw [if_pos h] at hcard
  rcases List.mem_cons.1 hcard with rfl | hcard
  · exact h
  · rw [List.eq_of_mem_replicate hcard]

theorem wholeBlocks_iff (hstored : Stored t) (hok : BlocksOk t) :
    WholeBlocks t (nacMemInit nnacs align t) ↔
      psizeOf t.gfporder ∣ initialSize nnacs ∨ FirstFails t nnacs align := by
  constructor
  · intro hwhole
    by_contra hnot
    obtain ⟨hdvd, hserved⟩ := not_or.1 hnot
    obtain ⟨hregion, -⟩ := init_region hstored hok firstCard_mem hserved
    obtain ⟨j, hj, hmin⟩ := hregion.size_eq
    have hhalf := hwhole _ firstCard_mem hserved
    rw [hj] at hmin hhalf
    exact hdvd (dvd_of_half hok.order.2 hmin hhalf)
  · rintro (hdvd | hfails) card hcard hne
    · exact whole_of_dvd hok.order.2 (sorted_below hstored hok) (sorted_length hstored) hdvd hcard hne
    · exact absurd (hfails.vaddr_eq hcard) hne

end Init

/-- **Every block is released exactly once** if and only if none was stored behind
`nac_mem_htable` and the block size divides the memory of one card, or no card gets any:
for every answer of the page allocator, every number of cards and every alignment. -/
theorem nacMem_releasedOnce_iff {virtToPhys : Nat → Nat} {gfporder : Int} {answers : List Nat}
    {t : Tables} (halloc : nacMemAllocPtable virtToPhys gfporder answers = some t)
    (hok : BlocksOk t) (nnacs align : Nat) :
    ReleasedOnce t.handed (nacMemInit nnacs align t) ↔
      t.htable.length ≤ HTABSIZE ∧
        (psizeOf t.gfporder ∣ initialSize nnacs ∨ FirstFails t nnacs align) := by
  have hstored := nacMemAllocPtable_stored halloc
  rw [releasedOnce_iff_sizes hstored hok, wholeBlocks_iff hstored hok]

/-- Six neighbouring blocks of 16 MB. -/
def sixBlocks : List Nat :=
  [0xc6000000, 0xc5000000, 0xc4000000, 0xc3000000, 0xc2000000, 0xc1000000]

/-- What `nac_mem_alloc_ptable` stores for them. -/
def sixTables : Tables := ⟨12, sixBlocks, [], sixBlocks⟩

theorem sixTables_eq : nacMemAllocPtable (fun v => v - 0xc0000000) 12 sixBlocks = some sixTables := by
  decide

theorem sixTables_ok : BlocksOk sixTables := by
  refine ⟨by decide, by decide, by decide, by decide⟩

/-- Four cards have 64 MB each: four blocks go to the first, the others are given back. -/
theorem nacMem_four_cards : ReleasedOnce sixTables.handed (nacMemInit 4 0x100000 sixTables) :=
  (nacMem_releasedOnce_iff sixTables_eq sixTables_ok 4 0x100000).2
    ⟨by decide, .inl (by decide)⟩

/-- Three cards have a third of 256 MB each: the first needs five blocks and a third, and
the sixth is given back while it is in use. -/
theorem nacMem_three_cards :
    nacMemAllocPtable (fun v => v - 0xc0000000) 12 sixBlocks = some sixTables ∧ BlocksOk sixTables ∧
      ¬ReleasedOnce sixTables.handed (nacMemInit 3 0x100000 sixTables) := by
  refine ⟨sixTables_eq, sixTables_ok, ?_⟩
  intro h
  have hcards : (nacMemInit 3 0x100000 sixTables).cards.head? = some ⟨0xc1000000, 89478485⟩ := by
    decide +kernel
  have hfreed : (nacMemInit 3 0x100000 sixTables).freed = [0xc6000000] := by
    decide +kernel
  have hcount := h.kept 0xc6000000 (by decide)
    ⟨⟨0xc1000000, 89478485⟩, List.mem_of_mem_head? hcards, by decide, by decide, by decide +kernel⟩
  rw [hfreed] at hcount
  exact absurd hcount (by decide)

end NacCard.Mem
