import NacCard.Base.Loop
import NacCard.Mem.Ptable

/-!
# The sorted page table

`nac_mem_sort_ptable` on the array, and what it leaves there.

* `sortTurn`, `sortRound` — one turn of the inner loop and one of the outer loop; `foldl_sortTurn` —
  the turns of a pass come to `sortPass`.
* `sortFrom_unsorted` — a pass that swaps nothing has found the array in order.
* `descending_zeros` — in a descending array all zeros are at the end.
* `nacMemSortPtable_sorts` — the loop ends, with the same entries in descending order.
-/

namespace NacCard.Mem

open NacCard.Base

/-! ## On the array -/

/-- `if (nac_mem_ptable[i] > nac_mem_ptable[i-1])`; the array and `unsorted`. -/
def sortTurn (s : List Nat × Bool) (i : Nat) : List Nat × Bool :=
  if s.1.getD i 0 > s.1.getD (i - 1) 0 then
    ((s.1.set (i - 1) (s.1.getD i 0)).set i (s.1.getD (i - 1) 0), true)
  else s

/-- `do { unsorted = 0; for (i=1; i<PTABSIZE; i++) … } while (unsorted)` -/
def sortRound (T : List Nat) : Turn (List Nat) (List Nat) :=
  let s := (List.range' 1 (PTABSIZE - 1)).foldl sortTurn (T, false)
  if s.2 then .again s.1 else .leave s.1

/-- The turn at the entry `b` behind `x`. -/
theorem sortTurn_append (p : List Nat) (x b : Nat) (l : List Nat) (unsorted : Bool) :
    sortTurn (p ++ x :: b :: l, unsorted) (p.length + 1) =
      if b > x then (p ++ b :: x :: l, true) else (p ++ x :: b :: l, unsorted) := by
  have hb : (p ++ x :: b :: l).getD (p.length + 1) 0 = b := by simp
  have hx : (p ++ x :: b :: l).getD p.length 0 = x := by simp
  rw [sortTurn, Nat.add_sub_cancel, hb, hx]
  split_ifs
  · simp
  · rfl

/-- **The turns of a pass**, with `x` in front of them. -/
theorem foldl_sortTurn (p : List Nat) (x : Nat) (l : List Nat) (unsorted : Bool) :
    (List.range' (p.length + 1) l.length).foldl sortTurn (p ++ x :: l, unsorted) =
      (p ++ (sortFrom x l).1, unsorted || (sortFrom x l).2) := by
  induction l generalizing p x unsorted with
  | nil => simp [sortFrom]
  | cons b l ih =>
      have hlen (y : Nat) : p.length + 1 = (p ++ [y]).length := by simp
      rw [List.length_cons, List.range'_succ, List.foldl_cons, sortTurn_append, sortFrom]
      split_ifs
      · have hrest := ih (p ++ [b]) x true
        rw [← hlen, List.append_assoc, List.append_assoc] at hrest
        simpa using hrest
      · have hrest := ih (p ++ [x]) b unsorted
        rw [← hlen, List.append_assoc, List.append_assoc] at hrest
        simpa using hrest

theorem sortRound_eq {T : List Nat} (hlen : T.length = PTABSIZE) :
    sortRound T = if (sortPass T).2 then .again (sortPass T).1 else .leave (sortPass T).1 := by
  cases T with
  | nil => cases hlen
  | cons x l =>
      have hrest : l.length = PTABSIZE - 1 := by
        rw [← hlen]
        rfl
      have hpass : (List.range' 1 (PTABSIZE - 1)).foldl sortTurn (x :: l, false) = sortFrom x l := by
        rw [← hrest]
        refine (foldl_sortTurn [] x l false).trans ?_
        rw [List.nil_append, Bool.false_or]
      rw [sortRound, hpass, sortPass]

/-- The outer loop, turn by turn. -/
theorem loop_sortRound {n : Nat} {T : List Nat} (hlen : T.length = PTABSIZE) :
    loop sortRound n T = sortLoop n T := by
  induction n generalizing T with
  | zero => rfl
  | succ n ih =>
      rw [loop, sortRound_eq hlen, sortLoop]
      split_ifs
      · exact ih ((sortPass_perm T).length_eq.trans hlen)
      · rfl

/-! ## In order -/

/-- A pass that swaps nothing. -/
theorem sortFrom_unsorted {x : Nat} {l : List Nat} (h : (sortFrom x l).2 = false) :
    (sortFrom x l).1 = x :: l ∧ (x :: l).Pairwise (· ≥ ·) := by
  induction l generalizing x with
  | nil => exact ⟨rfl, List.pairwise_singleton ..⟩
  | cons b l ih =>
      rw [sortFrom] at h ⊢
      split_ifs at h ⊢ with hswap
      obtain ⟨hsame, hrest⟩ := ih h
      refine ⟨by rw [hsame], List.pairwise_cons.2 ⟨?_, hrest⟩⟩
      intro c hc
      rcases List.mem_cons.1 hc with rfl | hmem
      · exact not_lt.1 hswap
      · exact ((List.pairwise_cons.1 hrest).1 c hmem).trans (not_lt.1 hswap)

theorem sortLoop_descending {n : Nat} {l l' : List Nat} (h : sortLoop n l = some l') :
    l'.Pairwise (· ≥ ·) := by
  induction n generalizing l with
  | zero => cases h
  | succ n ih =>
      rw [sortLoop] at h
      split_ifs at h with hagain
      · exact ih h
      · cases h
        cases l with
        | nil => exact .nil
        | cons x l =>
            rw [sortPass] at hagain ⊢
            obtain ⟨hsame, hsorted⟩ := sortFrom_unsorted (Bool.not_eq_true _ ▸ hagain)
            rw [hsame]
            exact hsorted

/-- **The zeros are at the end.** -/
theorem descending_zeros {l : List Nat} (h : l.Pairwise (· ≥ ·)) :
    ∃ l', l = l' ++ List.replicate (l.count 0) 0 ∧ 0 ∉ l' := by
  induction l with
  | nil => exact ⟨[], rfl, List.not_mem_nil⟩
  | cons x l ih =>
      obtain ⟨hx, hrest⟩ := List.pairwise_cons.1 h
      by_cases hzero : x = 0
      · have hall : l = List.replicate l.length 0 :=
          List.eq_replicate_iff.2 ⟨rfl, fun c hc => Nat.le_zero.1 (hzero ▸ hx c hc)⟩
        refine ⟨[], ?_, List.not_mem_nil⟩
        rw [hzero, hall]
        simp [List.replicate_succ]
      · obtain ⟨l', hl, hl'⟩ := ih hrest
        refine ⟨x :: l', ?_, ?_⟩
        · rw [List.count_cons_of_ne hzero, List.cons_append, ← hl]
        · rw [List.mem_cons, not_or]
          exact ⟨Ne.symm hzero, hl'⟩

/-- **The page table is sorted**: the loop ends for every table, with the same entries, in descending
order and with all zeros at the end. -/
theorem nacMemSortPtable_sorts (T : Vector Nat PTABSIZE) :
    Returns (fun fuel => loop sortRound fuel T.toList) fun T' =>
      T' = nacMemSortPtable T.toList ∧ T'.Perm T.toList ∧ T'.Pairwise (· ≥ ·) ∧
        ∃ l, T' = l ++ List.replicate (T.toList.count 0) 0 ∧ 0 ∉ l := by
  have hends := nacMemSortPtable_ends T.toList
  have hperm := nacMemSortPtable_perm T.toList
  have hsorted := sortLoop_descending hends
  refine ⟨nacMemSortPtable T.toList, ⟨rfl, hperm, hsorted, ?_⟩, T.toList.length ^ 2 + 1, ?_⟩
  · rw [← hperm.count_eq]
    exact descending_zeros hsorted
  · intro fuel hfuel
    refine loop_mono hfuel ?_
    rw [loop_sortRound T.length_toList]
    exact hends

end NacCard.Mem
