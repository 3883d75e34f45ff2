import Mathlib

/-!
# A table of slots

Slots with a key; the key 0 marks a free one.

* `heldIn` — the contents of the slots in use.
* `heldIn_set_free`, `heldIn_set_clear` — taking a free slot, and freeing one.
* `exists_free` — a table that holds less than it has slots has a free one.
* `getElem?_findIdx` — what a search from the first slot on finds.
* `accounted` — what a table with a row for each number accounts for; `accounted_update` when one
  row changes.
-/

namespace NacCard.Base

section Slots

variable {σ α : Type} (key : σ → Nat) (val : σ → α) {slots : List σ}

/-- What the slots that are in use hold; the key of a free slot is 0. -/
def heldIn (slots : List σ) : List α := (slots.filter fun s => key s ≠ 0).map val

theorem heldIn_perm {slots' : List σ} (h : slots.Perm slots') :
    (heldIn key val slots).Perm (heldIn key val slots') :=
  (h.filter _).map _

variable {key val}

theorem heldIn_cons_used {s : σ} (h : key s ≠ 0) :
    heldIn key val (s :: slots) = val s :: heldIn key val slots := by
  simp [heldIn, h]

theorem heldIn_cons_free {s : σ} (h : key s = 0) :
    heldIn key val (s :: slots) = heldIn key val slots := by
  simp [heldIn, h]

theorem heldIn_set_free {i : Nat} {s : σ} (hi : i < slots.length) (hfree : key slots[i] = 0)
    (hs : key s ≠ 0) :
    (heldIn key val (slots.set i s)).Perm (val s :: heldIn key val slots) := by
  have hset := heldIn_perm key val (List.set_perm_cons_eraseIdx hi s)
  have hold := heldIn_perm key val (List.getElem_cons_eraseIdx_perm hi)
  rw [heldIn_cons_used hs] at hset
  rw [heldIn_cons_free hfree] at hold
  exact hset.trans (hold.cons _)

theorem heldIn_set_clear {i : Nat} {s : σ} (hi : i < slots.length) (hused : key slots[i] ≠ 0)
    (hs : key s = 0) :
    (val slots[i] :: heldIn key val (slots.set i s)).Perm (heldIn key val slots) := by
  have hset := heldIn_perm key val (List.set_perm_cons_eraseIdx hi s)
  have hold := heldIn_perm key val (List.getElem_cons_eraseIdx_perm hi)
  rw [heldIn_cons_free hs] at hset
  rw [heldIn_cons_used hused] at hold
  exact (hset.cons _).trans hold

theorem mem_heldIn {a : α} : a ∈ heldIn key val slots ↔ ∃ s ∈ slots, key s ≠ 0 ∧ val s = a := by
  simp [heldIn, and_assoc]

theorem exists_free (h : (heldIn key val slots).length < slots.length) : ∃ s ∈ slots, key s = 0 := by
  by_contra hnone
  push Not at hnone
  have hall : slots.filter (fun s => key s ≠ 0) = slots := by
    rw [List.filter_eq_self]
    intro s hs
    exact decide_eq_true (hnone s hs)
  rw [heldIn, hall, List.length_map] at h
  exact lt_irrefl _ h

end Slots

theorem getElem?_findIdx {α : Type} {p : α → Bool} {l : List α} (h : ∃ a ∈ l, p a = true) :
    ∃ a, l[l.findIdx p]? = some a ∧ p a = true := by
  have hlt := List.findIdx_lt_length_of_exists h
  exact ⟨_, List.getElem?_eq_getElem hlt, List.findIdx_getElem (w := hlt)⟩

/-! ## Rows by number -/

section Rows

open Function

variable {σ M : Type} [AddCommMonoid M] (g : Nat → σ → M) (table : Nat → σ) {i n : Nat}

/-- What the first `n` rows account for, all together. -/
def accounted (n : Nat) : M := ∑ j ∈ Finset.range n, g j (table j)

variable {table}

theorem accounted_update (hi : i < n) (row : σ) :
    accounted g (update table i row) n + g i (table i) = accounted g table n + g i row := by
  have hmem := Finset.mem_range.2 hi
  have hrest : ∑ j ∈ (Finset.range n).erase i, g j (update table i row j)
      = ∑ j ∈ (Finset.range n).erase i, g j (table j) := by
    apply Finset.sum_congr rfl
    intro j hj
    rw [update_of_ne (Finset.ne_of_mem_erase hj)]
  rw [accounted, accounted, ← Finset.add_sum_erase _ _ hmem, ← Finset.add_sum_erase _ _ hmem,
    hrest, update_self]
  abel

variable {g}

/-- A row that is put in place of another, and accounts for nothing. -/
theorem accounted_clear (hi : i < n) {row : σ} (h : g i row = 0) :
    accounted g table n = accounted g (update table i row) n + g i (table i) := by
  rw [accounted_update g hi, h, add_zero]

/-- A row that is put in place of one that accounts for nothing. -/
theorem accounted_fill (hi : i < n) (row : σ) (h : g i (table i) = 0) :
    accounted g (update table i row) n = accounted g table n + g i row := by
  rw [← accounted_update g hi, h, add_zero]

/-- Rows that account for nothing. -/
theorem accounted_eq_zero (h : ∀ j < n, g j (table j) = 0) : accounted g table n = 0 :=
  Finset.sum_eq_zero fun j hj => h j (Finset.mem_range.1 hj)

theorem mem_accounted {α : Type} {g : Nat → σ → Multiset α} {a : α} (hi : i < n)
    (ha : a ∈ g i (table i)) : a ∈ accounted g table n :=
  Multiset.mem_sum.2 ⟨i, Finset.mem_range.2 hi, ha⟩

end Rows

end NacCard.Base
