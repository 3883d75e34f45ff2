import Mathlib

/-!
# Machines and their runs

A `Machine` is a set of start states and a partial step for every action; a
program running against hardware is one, with the program's steps and the
hardware's steps as its actions, so that a run is one interleaving of the two.

* `Machine.Reach M ok` — the states of all runs whose every step meets `ok`;
  `ok` is how a statement restricts the runs it speaks about.
* `Machine.Reach.invariant` — what holds at the start and is kept by every
  allowed step holds in every reachable state.
* `Machine.run` and `reach_of_run` — running a list of actions, for concrete
  runs; `exists_reach_of_run` keeps of the last state what can be computed.
* `Machine.Plays` — the runs in which a given list of calls is made, with any other steps in between;
  `Plays.invariant` is their rule.
* `runFor` and `runFor_induct` — a C `for` loop whose body may `goto fail`.
-/

namespace NacCard.Base

/-- A state machine: where it may start, and what an action leads to where it is possible. -/
structure Machine (σ α : Type) where
  init : σ → Prop
  step : σ → α → Option σ

namespace Machine

variable {σ α : Type} (M : Machine σ α)

/-- The states of the runs of `M` in which every action meets `ok` in the state
it is taken in. -/
inductive Reach (ok : σ → α → Prop) : σ → Prop
  | start {s : σ} : M.init s → Reach ok s
  | next {s s' : σ} {a : α} : Reach ok s → ok s a → M.step s a = some s' → Reach ok s'

variable {M}

/-- **The invariant rule.** -/
theorem Reach.invariant {ok : σ → α → Prop} {I : σ → Prop} (hinit : ∀ s, M.init s → I s)
    (hstep : ∀ s a s', I s → ok s a → M.step s a = some s' → I s') {s : σ}
    (h : M.Reach ok s) : I s := by
  induction h with
  | start h0 => exact hinit _ h0
  | next _ hok hs ih => exact hstep _ _ _ ih hok hs

/-! ## Concrete runs -/

variable (M)

/-- Take the actions of a list in turn, as long as `ok` allows them. -/
def run (ok : σ → α → Prop) [∀ s a, Decidable (ok s a)] : σ → List α → Option σ
  | s, [] => some s
  | s, a :: as => if ok s a then (M.step s a).bind fun s' => run ok s' as else none

variable {M}

/-- A run reaches its last state. -/
theorem reach_of_run {ok : σ → α → Prop} [∀ s a, Decidable (ok s a)] {s s' : σ} {as : List α}
    (hs : M.Reach ok s) (h : M.run ok s as = some s') : M.Reach ok s' := by
  induction as generalizing s with
  | nil =>
      cases h
      exact hs
  | cons a as ih =>
      rw [run] at h
      split_ifs at h with hok
      obtain ⟨t, ht, hrest⟩ := Option.bind_eq_some_iff.1 h
      exact ih (.next hs hok ht) hrest

/-- What can be computed of the last state of a run, some reachable state has. -/
theorem exists_reach_of_run {γ : Type} {ok : σ → α → Prop} [∀ s a, Decidable (ok s a)]
    {s : σ} (hs : M.Reach ok s) (as : List α) (f : σ → γ) (c : γ)
    (h : (M.run ok s as).map f = some c) : ∃ s', M.Reach ok s' ∧ f s' = c := by
  obtain ⟨s', hrun, hf⟩ := Option.map_eq_some_iff.1 h
  exact ⟨s', reach_of_run hs hrun, hf⟩

/-! ## Calls in a given order -/

/-- A run in which the calls are made in this order, with steps that are no calls anywhere. -/
inductive Plays (M : Machine σ α) (inner : α → Prop) : List α → σ → σ → Prop
  | done (s : σ) : Plays M inner [] s s
  | inner {calls : List α} {s s1 s' : σ} {a : α} : inner a → M.step s a = some s1 →
      Plays M inner calls s1 s' → Plays M inner calls s s'
  | call {calls : List α} {s s1 s' : σ} {a : α} : M.step s a = some s1 →
      Plays M inner calls s1 s' → Plays M inner (a :: calls) s s'

namespace Plays

variable {inner : α → Prop} {calls : List α} {s s' : σ}

/-- **The rule.** `I calls s` is what holds while the calls are still to be made. -/
theorem invariant {I : List α → σ → Prop}
    (hinner : ∀ calls s a s', I calls s → inner a → M.step s a = some s' → I calls s')
    (hcall : ∀ a calls s s', I (a :: calls) s → M.step s a = some s' → I calls s')
    (h : M.Plays inner calls s s') (hI : I calls s) : I [] s' := by
  induction h with
  | done s => exact hI
  | inner ha hstep _ ih => exact ih (hinner _ _ _ _ hI ha hstep)
  | call hstep _ ih => exact ih (hcall _ _ _ _ hI hstep)

end Plays

end Machine

/-! ## Loops that may fail -/

/-- `for (i in is) { body; if (...) goto fail; }` — whether the loop ran to its
end, and the state it left. -/
def runFor {σ : Type} (body : Nat → σ → Bool × σ) : List Nat → σ → Bool × σ
  | [], st => (true, st)
  | i :: is, st =>
      match body i st with
      | (true, st') => runFor body is st'
      | (false, st') => (false, st')

/-- The rule for a loop over `a, …, a + n - 1` that ran to its end. -/
theorem runFor_induct {σ : Type} {body : Nat → σ → Bool × σ} (P : Nat → σ → Prop)
    (hbody : ∀ i st st', P i st → body i st = (true, st') → P (i + 1) st') :
    ∀ (n a : Nat) (st st' : σ), P a st → runFor body (List.range' a n) st = (true, st') →
      P (a + n) st' := by
  intro n
  induction n with
  | zero =>
      intro a st st' h hrun
      cases hrun
      exact h
  | succ n ih =>
      intro a st st' h hrun
      rw [List.range'_succ, runFor] at hrun
      cases hb : body a st with
      | mk ok st1 =>
          rw [hb] at hrun
          cases ok with
          | false => cases hrun
          | true =>
              have hnext := ih (a + 1) st1 st' (hbody a st st1 h hb) hrun
              rwa [Nat.add_right_comm] at hnext

/-- The same rule for any outcome: the loop ran to its end, or one turn failed. -/
theorem runFor_cases {σ : Type} {body : Nat → σ → Bool × σ} (P : Nat → σ → Prop)
    (hbody : ∀ i st st', P i st → body i st = (true, st') → P (i + 1) st') :
    ∀ (n a : Nat) (st : σ), P a st →
      (∃ st', runFor body (List.range' a n) st = (true, st') ∧ P (a + n) st') ∨
        ∃ k st1 st', k < a + n ∧ P k st1 ∧ body k st1 = (false, st') ∧
          runFor body (List.range' a n) st = (false, st') := by
  intro n
  induction n with
  | zero => intro a st h; exact .inl ⟨st, rfl, h⟩
  | succ n ih =>
      intro a st h
      rw [List.range'_succ, runFor]
      cases hb : body a st with
      | mk ok st1 =>
          cases ok with
          | false => exact .inr ⟨a, st, st1, by omega, h, hb, rfl⟩
          | true =>
              rcases ih (a + 1) st1 (hbody a st st1 h hb) with ⟨st', hrun, hP⟩ |
                ⟨k, st2, st', hk, hP, hfail, hrun⟩
              · rw [Nat.add_right_comm] at hP
                exact .inl ⟨st', hrun, hP⟩
              · exact .inr ⟨k, st2, st', by omega, hP, hfail, hrun⟩

/-- A loop whose body never fails runs to its end. -/
theorem runFor_total {σ : Type} {body : Nat → σ → Bool × σ} (h : ∀ i st, (body i st).1 = true) :
    ∀ (is : List Nat) (st : σ), ∃ st', runFor body is st = (true, st') := by
  intro is
  induction is with
  | nil => intro st; exact ⟨st, rfl⟩
  | cons i is ih =>
      intro st
      obtain ⟨st', hst'⟩ := ih (body i st).2
      refine ⟨st', ?_⟩
      have hbody : body i st = (true, (body i st).2) := Prod.ext (h i st) rfl
      rw [runFor, hbody]
      exact hst'

end NacCard.Base
