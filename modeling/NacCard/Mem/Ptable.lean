import NacCard.Base.Words

/-!
# The page tables of `nac_mem`

`nac_mem_init` asks the page allocator for as many large blocks as it gives, keeps
those that lie low enough in `nac_mem_ptable` and the others in `nac_mem_htable`,
sorts the first and looks for runs of neighbouring blocks in it.

* `Tables`, `nacMemAllocPtable` — what is stored, for a list of answers of
  `__get_free_pages`.
* `sortPass`, `nacMemSortPtable` — the bubble sort; it keeps the entries
  (`nacMemSortPtable_perm`) and ends by its own test (`nacMemSortPtable_ends`).
* `findLoop`, `nacMemFindcontig` — the search, with its static `cstart`.
* `Stored` — every block the allocator hands out is in one of the tables, once.

Only the 32-bit build is modelled here and in the modules that rest on this one: an `unsigned long`
has 32 bits.  With `PLATFORM64` addresses have 64 bits and `nac_mem_init` does not divide the size.
-/

namespace NacCard.Mem

open NacCard.Base

/-- `PTABSIZE`, the length of `nac_mem_ptable`. -/
def PTABSIZE : Nat := 1024

/-- `HTABSIZE`, the length of `nac_mem_htable`. -/
def HTABSIZE : Nat := 8192

/-- `PAGE_SIZE`: a block of order 0. -/
def PAGE_SIZE : Nat := 4096

/-- `psize`, the size of one block. -/
def psizeOf (gfporder : Int) : Nat := PAGE_SIZE <<< gfporder.toNat

/-! ## Allocation -/

/-- What has been stored, in order; the rest of the arrays is 0.  A block stored in
`nac_mem_htable[j]` for `j ≥ HTABSIZE` is behind that array. -/
structure Tables where
  gfporder : Int
  ptable : List Nat
  htable : List Nat
  /-- all blocks the page allocator has handed out -/
  handed : List Nat
  deriving Repr, DecidableEq

section Alloc

variable (virtToPhys : Nat → Nat)

/-- A block goes to the one table or to the other, by its physical address. -/
def Tables.store (t : Tables) (page : Nat) : Tables :=
  if virtToPhys page < 0xffffffff then
    { t with ptable := t.ptable ++ [page], handed := t.handed ++ [page] }
  else { t with htable := t.htable ++ [page], handed := t.handed ++ [page] }

/-- `while((page = __get_free_pages(..., order)) == 0) order--`: the first block, its
order, and the answers to come. -/
def determineOrder : List Nat → Int → Option (Nat × Int × List Nat)
  | [], _ => none
  | page :: answers, order =>
      if page = 0 then determineOrder answers (order - 1) else some (page, order, answers)

/-- `for( ; i < PTABSIZE ; )` -/
def fillTables : List Nat → Tables → Tables
  | [], t => t
  | page :: answers, t =>
      if t.ptable.length < PTABSIZE then
        if page = 0 then t else fillTables answers (t.store virtToPhys page)
      else t

/-- The answers of `__get_free_pages` are the elements of `answers` in turn, then 0 for
ever; without a first block the function does not return. -/
def nacMemAllocPtable (gfporder : Int) (answers : List Nat) : Option Tables :=
  (determineOrder answers gfporder).map fun first =>
    fillTables virtToPhys first.2.2 (Tables.store virtToPhys ⟨first.2.1, [], [], []⟩ first.1)

end Alloc

/-- `nac_mem_ptable` as an array. -/
def Tables.ptableArray (t : Tables) : List Nat :=
  t.ptable ++ List.replicate (PTABSIZE - t.ptable.length) 0

/-! ## Sorting -/

/-- `for (i=1; i<PTABSIZE; i++)`, with `x` for `nac_mem_ptable[i-1]`: the rest of the
array after the pass, and `unsorted`. -/
def sortFrom (x : Nat) : List Nat → List Nat × Bool
  | [] => ([x], false)
  | b :: l => if b > x then (b :: (sortFrom x l).1, true) else (x :: (sortFrom b l).1, (sortFrom b l).2)

/-- One pass over the table, and whether it has exchanged anything. -/
def sortPass : List Nat → List Nat × Bool
  | [] => ([], false)
  | x :: l => sortFrom x l

/-- `do … while (unsorted)`, cut off after `n` passes. -/
def sortLoop : Nat → List Nat → Option (List Nat)
  | 0, _ => none
  | n + 1, l => if (sortPass l).2 then sortLoop n (sortPass l).1 else some (sortPass l).1

/-- `nac_mem_sort_ptable`: as many passes as it takes. -/
def nacMemSortPtable (l : List Nat) : List Nat := (sortLoop (l.length ^ 2 + 1) l).getD l

/-! ## The search -/

/-- `nac_mem_ptable[j] = 0` for `n` values of `j` from `cstart` on. -/
def clearFrom : Nat → Nat → List Nat → List Nat
  | _, 0, T => T
  | cstart, n + 1, T => clearFrom (cstart + 1) n (T.set cstart 0)

/-- `for(j = cstart ; j < i ; j++) nac_mem_ptable[j] = 0` -/
def clearRange (cstart i : Nat) (T : List Nat) : List Nat := clearFrom cstart (i - cstart) T

/-- The value returned, and the statics afterwards. -/
structure Search where
  vaddr : Nat
  ptable : List Nat
  cstart : Nat
  deriving Repr, DecidableEq

/-- `for(i = cstart+1 ; i < PTABSIZE ; i++)`, with `n` rounds to go. -/
def findLoop (psize csize calign : Nat) (T : List Nat) : Nat → Nat → Nat → Search
  | 0, _, cstart => ⟨0, T, cstart⟩
  | n + 1, i, cstart =>
      if csize ≤ u32 (((i : Int) - cstart) * psize) ∧ T.getD (i - 1) 0 &&& calign = 0 then
        ⟨T.getD (i - 1) 0, clearRange (i - csize / psize) i T, i⟩
      else if T.getD i 0 = 0 then ⟨0, T, 0⟩
      else if u32 ((T.getD (i - 1) 0 : Int) - T.getD i 0) ≠ psize then
        findLoop psize csize calign T n (i + 1) i
      else findLoop psize csize calign T n (i + 1) cstart

/-- `nac_mem_findcontig`: the search from the static `cstart` on, if there is a block at all. -/
def nacMemFindcontig (psize csize align : Nat) (T : List Nat) (cstart : Nat) : Search :=
  if T.getD cstart 0 = 0 then ⟨0, T, cstart⟩
  else
    findLoop psize csize (u32 ((align : Int) - 1)) T (PTABSIZE - (cstart + 1)) (cstart + 1) cstart

/-! ## What is stored -/

/-- Every block handed out has been stored once, and none is 0. -/
structure Stored (t : Tables) : Prop where
  perm : t.handed.Perm (t.ptable ++ t.htable)
  ne_zero : ∀ b ∈ t.handed, b ≠ 0
  length_le : t.ptable.length ≤ PTABSIZE

section Alloc

variable {virtToPhys : Nat → Nat}

theorem Stored.store {t : Tables} {page : Nat} (h : Stored t) (hroom : t.ptable.length < PTABSIZE)
    (hpage : page ≠ 0) : Stored (t.store virtToPhys page) := by
  have hzero : ∀ b ∈ t.handed ++ [page], b ≠ 0 := by
    intro b hb
    rcases List.mem_append.1 hb with hb | hb
    · exact h.ne_zero b hb
    · rw [List.mem_singleton.1 hb]
      exact hpage
  have hperm := h.perm.append_right [page]
  unfold Tables.store
  split_ifs
  · refine ⟨hperm.trans ?_, hzero, ?_⟩
    · rw [List.append_assoc, List.append_assoc]
      exact List.perm_append_comm.append_left t.ptable
    · rw [List.length_append]
      exact hroom
  · refine ⟨hperm.trans ?_, hzero, h.length_le⟩
    rw [List.append_assoc]

theorem Stored.fillTables {answers : List Nat} :
    ∀ {t : Tables}, Stored t → Stored (fillTables virtToPhys answers t) := by
  induction answers with
  | nil => exact id
  | cons page answers ih =>
      intro t h
      unfold Mem.fillTables
      split_ifs with hroom hzero
      · exact h
      · exact ih (h.store hroom hzero)
      · exact h

theorem determineOrder_ne_zero {answers rest : List Nat} {order order' : Int} {page : Nat}
    (h : determineOrder answers order = some (page, order', rest)) : page ≠ 0 := by
  induction answers generalizing order with
  | nil => cases h
  | cons a answers ih =>
      rw [determineOrder] at h
      split_ifs at h with ha
      · exact ih h
      · cases h
        exact ha

theorem nacMemAllocPtable_stored {gfporder : Int} {answers : List Nat} {t : Tables}
    (h : nacMemAllocPtable virtToPhys gfporder answers = some t) : Stored t := by
  obtain ⟨⟨page, order, rest⟩, hfirst, rfl⟩ := Option.map_eq_some_iff.1 h
  have hnone : Stored ⟨order, [], [], []⟩ :=
    ⟨.refl _, fun b hb => (List.not_mem_nil hb).elim, Nat.zero_le _⟩
  exact (hnone.store (Nat.zero_lt_succ 1023) (determineOrder_ne_zero hfirst)).fillTables

end Alloc

/-! ## Sorting keeps the entries -/

theorem sortFrom_perm (x : Nat) (l : List Nat) : (sortFrom x l).1.Perm (x :: l) := by
  induction l generalizing x with
  | nil => exact .refl _
  | cons b l ih =>
      unfold sortFrom
      split_ifs
      · exact ((ih x).cons b).trans (.swap x b l)
      · exact (ih b).cons x

theorem sortPass_perm (l : List Nat) : (sortPass l).1.Perm l := by
  cases l with
  | nil => exact .refl _
  | cons x l => exact sortFrom_perm x l

theorem sortLoop_perm {n : Nat} {l l' : List Nat} (h : sortLoop n l = some l') : l'.Perm l := by
  induction n generalizing l with
  | zero => cases h
  | succ n ih =>
      rw [sortLoop] at h
      split_ifs at h
      · exact (ih h).trans (sortPass_perm l)
      · cases h
        exact sortPass_perm l

theorem nacMemSortPtable_perm (l : List Nat) : (nacMemSortPtable l).Perm l := by
  unfold nacMemSortPtable
  cases h : sortLoop (l.length ^ 2 + 1) l with
  | none => exact .refl _
  | some l' => exact sortLoop_perm h

/-! ## The loop of passes ends -/

/-- The pairs of entries that are in the wrong order. -/
def inversions : List Nat → Nat
  | [] => 0
  | x :: l => l.countP (x < ·) + inversions l

/-- **A pass that swaps something** leaves fewer pairs in the wrong order. -/
theorem inversions_sortFrom (x : Nat) (l : List Nat) :
    inversions (sortFrom x l).1 + (if (sortFrom x l).2 then 1 else 0) ≤ inversions (x :: l) := by
  induction l generalizing x with
  | nil => exact le_rfl
  | cons b l ih =>
      by_cases hswap : b > x
      · have hih := ih x
        have hx : (x :: l).countP (b < ·) = l.countP (b < ·) :=
          List.countP_cons_of_neg (by simpa using hswap.le)
        have hb : (b :: l).countP (x < ·) = l.countP (x < ·) + 1 :=
          List.countP_cons_of_pos (by simpa using hswap)
        simp only [sortFrom, if_pos hswap, inversions, (sortFrom_perm x l).countP_eq, hx, hb,
          if_true] at hih ⊢
        omega
      · have hih := ih b
        simp only [sortFrom, if_neg hswap, inversions, (sortFrom_perm b l).countP_eq] at hih ⊢
        omega

theorem inversions_le (l : List Nat) : inversions l ≤ l.length ^ 2 := by
  induction l with
  | nil => exact le_rfl
  | cons x l ih =>
      have hle : l.countP (x < ·) ≤ l.length := List.countP_le_length
      rw [inversions, List.length_cons, Nat.pow_two, Nat.succ_mul, Nat.mul_succ, ← Nat.pow_two]
      omega

theorem sortLoop_ends {n : Nat} {l : List Nat} (h : inversions l < n) :
    ∃ l', sortLoop n l = some l' := by
  induction n generalizing l with
  | zero => exact absurd h (Nat.not_lt_zero _)
  | succ n ih =>
      unfold sortLoop
      split_ifs with hagain
      · apply ih
        cases l with
        | nil => cases hagain
        | cons x l =>
            have hless := inversions_sortFrom x l
            rw [sortPass] at hagain ⊢
            rw [if_pos hagain] at hless
            omega
      · exact ⟨_, rfl⟩

/-- The passes granted are enough: the sort ends by its own test. -/
theorem nacMemSortPtable_ends (l : List Nat) :
    sortLoop (l.length ^ 2 + 1) l = some (nacMemSortPtable l) := by
  obtain ⟨l', hl'⟩ := sortLoop_ends (Nat.lt_succ_of_le (inversions_le l))
  rw [nacMemSortPtable, hl']
  rfl

end NacCard.Mem
