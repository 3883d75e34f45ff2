import NacCard.Mem.Ptable

/-!
# What `nac_mem_findcontig` finds

* `Run` — neighbouring blocks at consecutive places of the table, each one block
  below the one before.
* `Found` — a search that succeeds: it returns the lowest block of a run that is long
  enough, and clears that block and the next `csize / psize - 1` above it.
* `Failed` — one that does not: the table stays as it is, and `Stopped` tells where
  the next search begins.
* `nacMemFindcontig_cases` — there is nothing else.
* `clearFrom_count` — what is cleared, and what is left in the table.
-/

namespace NacCard.Mem

open NacCard.Base

variable {psize csize calign : Nat} {T : List Nat}

/-- `n` blocks from `v` on, one after the other. -/
def blocksFrom (psize v n : Nat) : List Nat := (List.range n).map fun j => v + j * psize

/-- The entries from `c` to `k - 1` are neighbours, the last one lowest. -/
structure Run (psize : Nat) (T : List Nat) (c k : Nat) : Prop where
  lt : c < k
  entry : ∀ j, c ≤ j → j < k → T.getD j 0 = T.getD (k - 1) 0 + (k - 1 - j) * psize
  ne_zero : ∀ j, c ≤ j → j < k → T.getD j 0 ≠ 0

/-- Behind the table there are no blocks. -/
theorem lt_length_of_getD {i : Nat} (h : T.getD i 0 ≠ 0) : i < T.length := by
  by_contra hle
  exact h (List.getD_eq_default T 0 (not_lt.1 hle))

theorem Run.single {c : Nat} (h : T.getD c 0 ≠ 0) : Run psize T c (c + 1) := by
  refine ⟨Nat.lt_succ_self c, ?_, ?_⟩
  · intro j hj hlt
    obtain rfl : j = c := by omega
    simp
  · intro j hj hlt
    obtain rfl : j = c := by omega
    exact h

theorem Run.snoc {c k : Nat} (h : Run psize T c k) (hne : T.getD k 0 ≠ 0)
    (hnext : T.getD (k - 1) 0 = T.getD k 0 + psize) : Run psize T c (k + 1) := by
  have hlt := h.lt
  refine ⟨by omega, ?_, ?_⟩
  · intro j hj hjk
    rw [Nat.add_sub_cancel]
    by_cases hlast : j = k
    · rw [hlast, Nat.sub_self, Nat.zero_mul, Nat.add_zero]
    · have hsplit : k - j = (k - 1 - j) + 1 := by omega
      rw [h.entry j hj (by omega), hnext, hsplit, Nat.succ_mul]
      omega
  · intro j hj hjk
    by_cases hlast : j = k
    · rw [hlast]
      exact hne
    · exact h.ne_zero j hj (by omega)

/-- A block of a run, counted from its lowest. -/
theorem Run.block {c k j : Nat} (h : Run psize T c k) (hj : j < k - c) :
    T.getD (k - 1 - j) 0 = T.getD (k - 1) 0 + j * psize := by
  have hsub : k - 1 - (k - 1 - j) = j := by omega
  rw [h.entry (k - 1 - j) (by omega) (by omega), hsub]

/-- The blocks of the table lie below the end of the address space. -/
def Below (psize : Nat) (T : List Nat) : Prop := ∀ i, T.getD i 0 + psize < 4294967296

/-- A run is not longer than the address space. -/
theorem Run.size_lt {c k : Nat} (h : Run psize T c k) (hT : Below psize T) :
    T.getD (k - 1) 0 + (k - c) * psize < 4294967296 := by
  have hlt := h.lt
  have hsplit : k - c = (k - 1 - c) + 1 := by omega
  have htop := hT c
  rw [h.entry c le_rfl hlt] at htop
  rw [hsplit, Nat.succ_mul]
  omega

theorem Run.u32_eq {c k : Nat} (h : Run psize T c k) (hT : Below psize T) :
    u32 (((k : Int) - c) * psize) = (k - c) * psize := by
  have hlt := h.lt
  have hsize := h.size_lt hT
  have hcast : ((k : Int) - c) * psize = ((k - c) * psize : Nat) := by
    rw [Nat.cast_mul, Nat.cast_sub hlt.le]
  rw [hcast, u32_natCast (by omega)]

/-! ## The loop -/

/-- The entry at `p` cannot be the lowest block of a region. -/
def Unaligned (calign : Nat) (T : List Nat) (p : Nat) : Prop := ¬T.getD p 0 &&& calign = 0

/-- The entries from `c` to `p` are all blocks. -/
def Stretch (T : List Nat) (c p : Nat) : Prop := ∀ j, c ≤ j → j ≤ p → T.getD j 0 ≠ 0

/-- No place a search from `c` can get to is aligned. -/
def Dead (calign : Nat) (T : List Nat) (c : Nat) : Prop :=
  ∀ p, c ≤ p → Stretch T c p → p + 1 < PTABSIZE → Unaligned calign T p

/-- The search from `c` on has found the run from `c'` to `k - 1`. -/
structure Found (psize csize calign : Nat) (T : List Nat) (c : Nat) (r : Search) (c' k : Nat) : Prop where
  start : c ≤ c'
  stretch : Stretch T c (k - 1)
  run : Run psize T c' k
  lt : k < PTABSIZE
  enough : csize ≤ (k - c') * psize
  aligned : T.getD (k - 1) 0 &&& calign = 0
  /-- where one block is enough, it is the first that is aligned -/
  first : csize ≤ psize → ∀ p, c ≤ p → p + 1 < k → Unaligned calign T p
  eq : r = ⟨T.getD (k - 1) 0, clearRange (k - csize / psize) k T, k⟩

/-- Where `cstart` is after a search from `c` that has found nothing. -/
inductive Stopped (T : List Nat) (c : Nat) : Nat → Prop
  /-- there is nothing at `c` -/
  | empty : T.getD c 0 = 0 → Stopped T c c
  /-- the blocks came to an end: restart from 0 -/
  | restart (z : Nat) : c ≤ z → z < PTABSIZE → T.getD z 0 = 0 → Stopped T c 0
  /-- the table came to an end -/
  | full (c' : Nat) : c ≤ c' → Stretch T c (PTABSIZE - 1) → Stopped T c c'

/-- The search from `c` on has found nothing. -/
structure Failed (psize csize calign : Nat) (T : List Nat) (c : Nat) (r : Search) (c' : Nat) : Prop where
  stopped : Stopped T c c'
  dead : csize ≤ psize → Dead calign T c
  eq : r = ⟨0, T, c'⟩

/-- A search from `i` goes on where one from `c` has got to. -/
theorem Stretch.trans {c i p : Nat} (h : Stretch T c (i - 1)) (h' : Stretch T i p) : Stretch T c p := by
  intro j hc hp
  rcases Nat.lt_or_ge j i with hlt | hge
  · exact h j hc (by omega)
  · exact h' j hge hp

theorem Run.stretch {c k : Nat} (h : Run psize T c k) : Stretch T c (k - 1) := by
  have hlt := h.lt
  intro j hc hj
  exact h.ne_zero j hc (by omega)

theorem Found.extend {c i c' k : Nat} {r : Search} (h : Found psize csize calign T i r c' k)
    (hci : c ≤ i) (hstretch : Stretch T c (i - 1))
    (hseen : csize ≤ psize → ∀ p, c ≤ p → p < i → Unaligned calign T p) :
    Found psize csize calign T c r c' k := by
  refine ⟨hci.trans h.start, hstretch.trans h.stretch, h.run, h.lt, h.enough, h.aligned, ?_, h.eq⟩
  intro hsmall p hc hp
  rcases Nat.lt_or_ge p i with hlt | hge
  · exact hseen hsmall p hc hlt
  · exact h.first hsmall p hge hp

theorem Failed.extend {c i c' : Nat} {r : Search} (h : Failed psize csize calign T i r c')
    (hci : c ≤ i) (hi : T.getD i 0 ≠ 0) (hstretch : Stretch T c (i - 1))
    (hseen : csize ≤ psize → ∀ p, c ≤ p → p < i → Unaligned calign T p) :
    Failed psize csize calign T c r c' := by
  refine ⟨?_, ?_, h.eq⟩
  · cases h.stopped with
    | empty hzero => exact absurd hzero hi
    | restart z hz hlt hzero => exact .restart z (hci.trans hz) hlt hzero
    | full c' hc' hfull => exact .full c' (hci.trans hc') (hstretch.trans hfull)
  · intro hsmall p hc hp hlt
    rcases Nat.lt_or_ge p i with hbelow | hge
    · exact hseen hsmall p hc hbelow
    · exact h.dead hsmall p hge (fun j hj hjp => hp j (hci.trans hj) hjp) hlt

theorem findLoop_cases (hT : Below psize T) (hpos : 0 < psize) {n i c : Nat}
    (hrun : Run psize T c i) (hn : i + n = PTABSIZE)
    (hseen : csize ≤ psize → ∀ p, c ≤ p → p + 1 < i → Unaligned calign T p) :
    (∃ c' k, Found psize csize calign T c (findLoop psize csize calign T n i c) c' k) ∨
      ∃ c', Failed psize csize calign T c (findLoop psize csize calign T n i c) c' := by
  have hci := hrun.lt
  induction n generalizing i c with
  | zero =>
      refine .inr ⟨c, .full c le_rfl ?_, ?_, rfl⟩
      · rw [← hn]
        exact hrun.stretch
      · intro hsmall p hc hp hlt
        exact hseen hsmall p hc (by omega)
  | succ n ih =>
      -- a single block may be enough
      have hone : csize ≤ psize → csize ≤ (i - c) * psize :=
        fun hsmall => hsmall.trans (Nat.le_mul_of_pos_left psize (by omega))
      unfold findLoop
      rw [hrun.u32_eq hT]
      split_ifs with hfound hend hgap
      · exact .inl ⟨c, i, le_rfl, hrun.stretch, hrun, by omega, hfound.1, hfound.2, hseen, rfl⟩
      all_goals
        have hseen' : csize ≤ psize → ∀ p, c ≤ p → p < i → Unaligned calign T p := by
          intro hsmall p hc hp
          rcases Nat.lt_or_ge (p + 1) i with hlt | hge
          · exact hseen hsmall p hc hlt
          · obtain rfl : p = i - 1 := by omega
            exact fun haligned => hfound ⟨hone hsmall, haligned⟩
      · refine .inr ⟨0, .restart i hci.le (by omega) hend, ?_, rfl⟩
        intro hsmall p hc hp hlt
        refine hseen' hsmall p hc ?_
        by_contra hge
        exact hp i hci.le (not_lt.1 hge) hend
      · -- the next run begins at `i`
        rcases ih (Run.single hend) (by omega) (fun _ p hc hp => by omega) (Nat.lt_succ_self i) with
          ⟨c', k, hf⟩ | ⟨c', hf⟩
        · exact .inl ⟨c', k, hf.extend hci.le hrun.stretch hseen'⟩
        · exact .inr ⟨c', hf.extend hci.le hend hrun.stretch hseen'⟩
      · have hprev := hT (i - 1)
        have hcur := hT i
        have hnext : T.getD (i - 1) 0 = T.getD i 0 + psize := by
          have hdiff := not_not.1 hgap
          unfold u32 at hdiff
          omega
        refine ih (hrun.snoc hend hnext) (by omega) ?_ (by omega)
        exact fun hsmall p hc hp => hseen' hsmall p hc (by omega)

/-- **What a search does**: it finds a run, or leaves the table as it is. -/
theorem nacMemFindcontig_cases (hT : Below psize T) (hpos : 0 < psize) {align c : Nat}
    (hlen : T.length = PTABSIZE) :
    (∃ c' k, Found psize csize (u32 ((align : Int) - 1)) T c
        (nacMemFindcontig psize csize align T c) c' k) ∨
      ∃ c', Failed psize csize (u32 ((align : Int) - 1)) T c
        (nacMemFindcontig psize csize align T c) c' := by
  unfold nacMemFindcontig
  split_ifs with hzero
  · exact .inr ⟨c, .empty hzero, fun _ p hc hp => absurd hzero (hp c le_rfl hc), rfl⟩
  · have hc := lt_length_of_getD hzero
    exact findLoop_cases hT hpos (Run.single hzero) (by omega) fun _ p hcp hp => by omega

/-! ## Clearing -/

theorem clearFrom_length (c n : Nat) (T : List Nat) : (clearFrom c n T).length = T.length := by
  induction n generalizing c T with
  | zero => rfl
  | succ n ih =>
      rw [clearFrom, ih, List.length_set]

theorem clearFrom_getD (c n j : Nat) (T : List Nat) :
    (clearFrom c n T).getD j 0 = if c ≤ j ∧ j < c + n then 0 else T.getD j 0 := by
  induction n generalizing c T with
  | zero =>
      rw [clearFrom, if_neg (by omega)]
  | succ n ih =>
      rw [clearFrom, ih]
      simp only [List.getD_eq_getElem?_getD, List.getElem?_set]
      split_ifs <;> first | rfl | omega

/-- The entries cleared, and those that are left. -/
theorem clearFrom_count {b : Nat} (hb : b ≠ 0) {c n : Nat} {T : List Nat} (h : c + n ≤ T.length) :
    (clearFrom c n T).count b + ((List.range' c n).map fun j => T.getD j 0).count b = T.count b := by
  induction n generalizing c T with
  | zero => rfl
  | succ n ih =>
      have hc : c < T.length := by omega
      have hrest : (List.range' (c + 1) n).map (fun j => (T.set c 0).getD j 0)
          = (List.range' (c + 1) n).map fun j => T.getD j 0 := by
        apply List.map_congr_left
        intro j hj
        have hne : c ≠ j := by
          have hle := (List.mem_range'_1.1 hj).1
          omega
        simp only [List.getD_eq_getElem?_getD, List.getElem?_set_ne hne]
      have hih := ih (T := T.set c 0) (c := c + 1) (by rw [List.length_set]; omega)
      rw [hrest, List.count_set hc] at hih
      have hle : (if T[c] == b then 1 else 0) ≤ T.count b := List.boole_getElem_le_count hc
      have hget : T.getD c 0 = T[c] := by simp [hc]
      rw [clearFrom, List.range'_succ, List.map_cons, List.count_cons, hget]
      have hzero : (0 == b) = false := by simpa using hb.symm
      rw [hzero] at hih
      simp only [Bool.false_eq_true, if_false] at hih
      omega

theorem clearRange_length (c i : Nat) (T : List Nat) : (clearRange c i T).length = T.length :=
  clearFrom_length c (i - c) T

/-- No other entry changes. -/
theorem clearRange_getD (c i j : Nat) (T : List Nat) :
    (clearRange c i T).getD j 0 = 0 ∨ (clearRange c i T).getD j 0 = T.getD j 0 := by
  unfold clearRange
  rw [clearFrom_getD]
  split_ifs
  · exact .inl rfl
  · exact .inr rfl

namespace Found

variable {c c' k : Nat} {r : Search}

theorem vaddr_ne_zero (h : Found psize csize calign T c r c' k) : r.vaddr ≠ 0 := by
  have hlt := h.run.lt
  rw [h.eq]
  exact h.run.ne_zero (k - 1) (by omega) (by omega)

/-- The blocks the region reaches into are entries of the table. -/
theorem mem (h : Found psize csize calign T c r c' k) {j : Nat} (hj : j * psize < csize) :
    ∃ i, T.getD i 0 = r.vaddr + j * psize := by
  have henough := h.enough
  have hlt : j < k - c' := lt_of_mul_lt_mul_right (hj.trans_le henough) (Nat.zero_le psize)
  rw [h.eq]
  exact ⟨k - 1 - j, h.run.block hlt⟩

theorem length_eq (h : Found psize csize calign T c r c' k) : r.ptable.length = T.length := by
  rw [h.eq]
  exact clearRange_length _ _ T

theorem getD (h : Found psize csize calign T c r c' k) (j : Nat) :
    r.ptable.getD j 0 = 0 ∨ r.ptable.getD j 0 = T.getD j 0 := by
  rw [h.eq]
  exact clearRange_getD _ _ j T

/-- **What leaves the table** are the blocks `nac_mem_findcontig` counts with a division
that rounds down. -/
theorem count (h : Found psize csize calign T c r c' k) (hlen : T.length = PTABSIZE) {b : Nat}
    (hb : b ≠ 0) :
    r.ptable.count b + (blocksFrom psize r.vaddr (csize / psize)).count b = T.count b := by
  have hlt := h.run.lt
  have hk := h.lt
  have hm : csize / psize ≤ k - c' := Nat.div_le_of_le_mul (h.enough.trans_eq (Nat.mul_comm _ _))
  rw [h.eq]
  dsimp only
  -- only the number of blocks matters
  generalize csize / psize = m at hm ⊢
  have hsub : k - (k - m) = m := by omega
  have hblocks : ((List.range' (k - m) m).map fun j => T.getD j 0).reverse
      = blocksFrom psize (T.getD (k - 1) 0) m := by
    rw [← List.map_reverse, List.reverse_range', List.map_map]
    apply List.map_congr_left
    intro x hx
    have hlast : k - m + m - 1 - x = k - 1 - x := by omega
    have hxm := List.mem_range.1 hx
    rw [Function.comp_apply, hlast]
    exact h.run.block (by omega)
  have hcount := clearFrom_count hb (c := k - m) (n := m) (T := T) (by omega)
  rw [← hblocks, List.count_reverse, clearRange, hsub]
  exact hcount

end Found

end NacCard.Mem
