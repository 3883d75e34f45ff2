import Mathlib

/-!
# Searching with a regular expression

`regexec` of the C library reports the match that starts first, and of those the longest.

* `longest`, `regexec` — by derivatives, one character after the other.
* `longest_eq_some_iff` — the number is the greatest of the lengths that match.
* `literal`, `oneOf` — a word, and a choice of characters, with the words they match.
-/

namespace NacCard.Base

open RegularExpression

section Search

variable {α : Type} [DecidableEq α] {P : RegularExpression α} {s : List α} {k : Nat}

/-- The length of the longest match that starts where `s` does. -/
def longest (P : RegularExpression α) : List α → Option Nat
  | [] => if P.matchEpsilon then some 0 else none
  | c :: s =>
      match longest (P.deriv c) s with
      | some k => some (k + 1)
      | none => if P.matchEpsilon then some 0 else none

/-- Where the match starts and ends, as in `regmatch_t`. -/
def regexec (P : RegularExpression α) : List α → Option (Nat × Nat)
  | [] => (longest P []).map fun k => (0, k)
  | c :: s =>
      match longest P (c :: s) with
      | some k => some (0, k)
      | none => (regexec P s).map fun m => (m.1 + 1, m.2 + 1)

/-- The lengths of the matches that start where `s` does. -/
def matchLengths (P : RegularExpression α) (s : List α) : Set Nat :=
  {k | k ≤ s.length ∧ P.rmatch (s.take k)}

theorem zero_mem_matchLengths : 0 ∈ matchLengths P s ↔ P.matchEpsilon :=
  ⟨fun h => h.2, fun h => ⟨Nat.zero_le _, h⟩⟩

theorem succ_mem_matchLengths {c : α} :
    k + 1 ∈ matchLengths P (c :: s) ↔ k ∈ matchLengths (P.deriv c) s :=
  ⟨fun h => ⟨Nat.le_of_succ_le_succ h.1, h.2⟩, fun h => ⟨Nat.succ_le_succ h.1, h.2⟩⟩

/-- What a search is to report of these lengths. -/
def Greatest (lengths : Set Nat) : Option Nat → Prop
  | some k => IsGreatest lengths k
  | none => lengths = ∅

/-- Where nothing but the empty word can match. -/
theorem greatest_epsilon (h : ∀ k ∈ matchLengths P s, k = 0) :
    Greatest (matchLengths P s) (if P.matchEpsilon then some 0 else none) := by
  split_ifs with heps
  · exact ⟨zero_mem_matchLengths.2 heps, fun k hk => (h k hk).le⟩
  · refine Set.eq_empty_of_forall_notMem fun k hk => heps ?_
    rw [h k hk] at hk
    exact zero_mem_matchLengths.1 hk

theorem longest_spec (P : RegularExpression α) (s : List α) :
    Greatest (matchLengths P s) (longest P s) := by
  induction s generalizing P with
  | nil => exact greatest_epsilon fun k hk => Nat.le_zero.1 hk.1
  | cons c s ih =>
      have htail := ih (P.deriv c)
      rw [longest]
      cases hk : longest (P.deriv c) s with
      | some k =>
          rw [hk] at htail
          refine ⟨succ_mem_matchLengths.2 htail.1, fun j hj => ?_⟩
          cases j with
          | zero => exact Nat.zero_le _
          | succ j => exact Nat.succ_le_succ (htail.2 (succ_mem_matchLengths.1 hj))
      | none =>
          rw [hk] at htail
          refine greatest_epsilon fun j hj => ?_
          cases j with
          | zero => rfl
          | succ j =>
              have hmem : j ∈ (∅ : Set Nat) := htail ▸ succ_mem_matchLengths.1 hj
              cases hmem

theorem longest_eq_some_iff : longest P s = some k ↔ IsGreatest (matchLengths P s) k := by
  have hspec := longest_spec P s
  constructor
  · intro h
    rw [h] at hspec
    exact hspec
  · intro h
    cases hl : longest P s with
    | some j =>
        rw [hl] at hspec
        rw [hspec.unique h]
    | none =>
        rw [hl] at hspec
        have hmem := h.1
        rw [hspec] at hmem
        cases hmem

/-- A match at the start is the first one. -/
theorem regexec_of_greatest (h : IsGreatest (matchLengths P s) k) : regexec P s = some (0, k) := by
  have hlongest := longest_eq_some_iff.2 h
  cases s with
  | nil => rw [regexec, hlongest, Option.map_some]
  | cons c s => rw [regexec, hlongest]

end Search

section Words

variable {α : Type}

/-- The expression that matches the characters of `w` as they stand. -/
def literal (w : List α) : RegularExpression α := w.foldr (fun c P => char c * P) 1

/-- `[...]` -/
def oneOf (cs : List α) : RegularExpression α := cs.foldr (fun c P => char c + P) 0

theorem mem_literal {w x : List α} : x ∈ (literal w).matches' ↔ x = w := by
  induction w generalizing x with
  | nil => exact Language.mem_one x
  | cons c w ih =>
      show x ∈ ({[c]} : Language α) * (literal w).matches' ↔ x = c :: w
      rw [Language.mem_mul]
      constructor
      · rintro ⟨a, rfl, b, hb, rfl⟩
        rw [ih.1 hb]
        rfl
      · rintro rfl
        exact ⟨[c], rfl, w, ih.2 rfl, rfl⟩

theorem mem_oneOf {cs x : List α} : x ∈ (oneOf cs).matches' ↔ ∃ c ∈ cs, x = [c] := by
  induction cs with
  | nil =>
      refine iff_of_false (Language.notMem_zero x) ?_
      rintro ⟨c, hc, -⟩
      cases hc
  | cons c cs ih =>
      show x ∈ ({[c]} : Language α) + (oneOf cs).matches' ↔ _
      rw [Language.mem_add, ih]
      constructor
      · rintro (hx | ⟨d, hd, hx⟩)
        · exact ⟨c, List.mem_cons_self, hx⟩
        · exact ⟨d, List.mem_cons_of_mem c hd, hx⟩
      · rintro ⟨d, hd, hx⟩
        rcases List.mem_cons.1 hd with rfl | hd
        · exact .inl hx
        · exact .inr ⟨d, hd, hx⟩

end Words

end NacCard.Base
