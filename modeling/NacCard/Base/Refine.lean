import NacCard.Base.Run

/-!
# Machines that do what others do

* `Machine.Reach.map` — a refinement mapping: every step of `M` is a step of `N` for what the mapping
  sees, or none at all; what `M` reaches, `N` reaches.
* `Machine.Steps` — from one state to another by steps of a kind; `Steps.trans`, `Steps.single`,
  `Steps.reach`.
* `Machine.Counted` — by any steps, with those of a kind counted; `Counted.rank` — when every step
  keeps a rank and those counted lower it, more of them than the rank lead to the goal.
-/

namespace NacCard.Base

namespace Machine

variable {σ τ α β : Type} {M : Machine σ α} {N : Machine τ β}

/-- **The refinement rule.** -/
theorem Reach.map {ok : σ → α → Prop} {ok' : τ → β → Prop} (f : σ → τ)
    (hinit : ∀ s, M.init s → N.init (f s))
    (hstep : ∀ s a s', M.Reach ok s → N.Reach ok' (f s) → ok s a → M.step s a = some s' →
      f s' = f s ∨ ∃ b, ok' (f s) b ∧ N.step (f s) b = some (f s'))
    {s : σ} (h : M.Reach ok s) : N.Reach ok' (f s) := by
  induction h with
  | start h0 => exact .start (hinit _ h0)
  | next hs hok hnext ih =>
      rcases hstep _ _ _ hs ih hok hnext with hsame | ⟨b, hb, hnext'⟩
      · rw [hsame]
        exact ih
      · exact .next ih hb hnext'

/-! ## A part of a run -/

variable (M)

/-- Steps whose actions are of the kind `p`. -/
inductive Steps (p : α → Prop) : σ → σ → Prop
  | refl (s : σ) : Steps p s s
  | step {s s1 s' : σ} {a : α} : p a → M.step s a = some s1 → Steps p s1 s' → Steps p s s'

variable {M}

namespace Steps

variable {p : α → Prop} {s s1 s' : σ} {a : α}

theorem single (ha : p a) (h : M.step s a = some s') : M.Steps p s s' := .step ha h (.refl s')

theorem trans (h : M.Steps p s s1) (h' : M.Steps p s1 s') : M.Steps p s s' := by
  induction h with
  | refl s => exact h'
  | step ha hstep _ ih => exact .step ha hstep (ih h')

theorem mono {q : α → Prop} (hpq : ∀ a, p a → q a) (h : M.Steps p s s') : M.Steps q s s' := by
  induction h with
  | refl s => exact .refl s
  | step ha hstep _ ih => exact .step (hpq _ ha) hstep ih

theorem reach {ok : σ → α → Prop} (hok : ∀ s a, p a → ok s a) (hs : M.Reach ok s)
    (h : M.Steps p s s') : M.Reach ok s' := by
  induction h with
  | refl s => exact hs
  | step ha hstep _ ih => exact ih (.next hs (hok _ _ ha) hstep)

/-- What is kept by every step of the kind is kept by all of them. -/
theorem invariant {I : σ → Prop} (hstep : ∀ s a s', I s → p a → M.step s a = some s' → I s')
    (h : M.Steps p s s') (hI : I s) : I s' := by
  induction h with
  | refl s => exact hI
  | step ha hs _ ih => exact ih (hstep _ _ _ hI ha hs)

end Steps

/-! ## Counting the steps of a kind -/

variable (M)

/-- Steps of which `n` are of the kind `p`. -/
inductive Counted (p : σ → α → Prop) : Nat → σ → σ → Prop
  | refl (s : σ) : Counted p 0 s s
  | other {n : Nat} {s s1 s' : σ} {a : α} : ¬p s a → M.step s a = some s1 → Counted p n s1 s' →
      Counted p n s s'
  | counted {n : Nat} {s s1 s' : σ} {a : α} : p s a → M.step s a = some s1 → Counted p n s1 s' →
      Counted p (n + 1) s s'

variable {M}

namespace Counted

variable {p : σ → α → Prop} {n : Nat} {s s' : σ}

/-- What is kept by every step. -/
theorem invariant {I : σ → Prop} (hstep : ∀ s a s', I s → M.step s a = some s' → I s')
    (h : M.Counted p n s s') (hI : I s) : I s' := by
  induction h with
  | refl s => exact hI
  | other _ hs _ ih => exact ih (hstep _ _ _ hI hs)
  | counted _ hs _ ih => exact ih (hstep _ _ _ hI hs)

/-- **The ranking rule.** Until the goal is reached no step raises the rank, and those of the kind
lower it. -/
theorem rank {I goal : σ → Prop} (rank : σ → Nat)
    (hI : ∀ s a s', I s → M.step s a = some s' → I s')
    (hgoal : ∀ s a s', goal s → M.step s a = some s' → goal s')
    (hother : ∀ s a s', I s → ¬goal s → M.step s a = some s' → goal s' ∨ rank s' ≤ rank s)
    (hcounted : ∀ s a s', I s → ¬goal s → p s a → M.step s a = some s' →
      goal s' ∨ rank s' < rank s)
    (h : M.Counted p n s s') (hs : I s) (hn : rank s < n) : goal s' := by
  induction h with
  | refl s => omega
  | @other n s s1 s' a hp hstep hrest ih =>
      by_cases hdone : goal s
      · exact hrest.invariant hgoal (hgoal _ _ _ hdone hstep)
      · rcases hother _ _ _ hs hdone hstep with hreached | hle
        · exact hrest.invariant hgoal hreached
        · exact ih (hI _ _ _ hs hstep) (by omega)
  | @counted n s s1 s' a hp hstep hrest ih =>
      by_cases hdone : goal s
      · exact hrest.invariant hgoal (hgoal _ _ _ hdone hstep)
      · rcases hcounted _ _ _ hs hdone hp hstep with hreached | hlt
        · exact hrest.invariant hgoal hreached
        · exact ih (hI _ _ _ hs hstep) (by omega)

end Counted

/-- A list of actions that are all of the kind. -/
theorem counted_of_run {p : σ → α → Prop} [∀ s a, Decidable (p s a)] {s s' : σ} {as : List α}
    (h : M.run p s as = some s') : M.Counted p as.length s s' := by
  induction as generalizing s with
  | nil =>
      cases h
      exact .refl _
  | cons a as ih =>
      rw [run] at h
      split_ifs at h with hp
      obtain ⟨t, ht, hrest⟩ := Option.bind_eq_some_iff.1 h
      exact .counted hp ht (ih hrest)

end Machine

end NacCard.Base
