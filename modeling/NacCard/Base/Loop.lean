import Mathlib

/-!
# Loops that may run on

A C loop that nothing bounds is taken for `fuel` turns.

* `Turn` — how a turn ends: with the result of the loop, or before the next turn.
* `loop` — the loop; `loop_mono` — more fuel does not change its result.
* `loop_variant` — the rule: an invariant, and a number that gets smaller, so that so much fuel is enough.
* `Returns` — a program with loops in it has a result that meets `Q`, with all fuel from some amount
  on; `Returns.bind`, `Returns.loop` and `Returns.foldlM_range` are the rules for it.
-/

namespace NacCard.Base

/-- What one turn of a loop leads to: its result, or the state of the next turn. -/
inductive Turn (σ ρ : Type) where
  | leave (r : ρ)
  | again (s : σ)

variable {σ ρ : Type} {turn : σ → Turn σ ρ}

/-- `none` — out of fuel. -/
def loop (turn : σ → Turn σ ρ) : Nat → σ → Option ρ
  | 0, _ => none
  | fuel + 1, s =>
      match turn s with
      | .leave r => some r
      | .again s' => loop turn fuel s'

theorem loop_leave {s : σ} {r : ρ} (h : turn s = .leave r) (fuel : Nat) :
    loop turn (fuel + 1) s = some r := by
  rw [loop, h]

theorem loop_again {s s' : σ} (h : turn s = .again s') (fuel : Nat) :
    loop turn (fuel + 1) s = loop turn fuel s' := by
  rw [loop, h]

theorem loop_mono {fuel fuel' : Nat} (hle : fuel ≤ fuel') {s : σ} {r : ρ}
    (h : loop turn fuel s = some r) : loop turn fuel' s = some r := by
  induction fuel generalizing s fuel' with
  | zero => cases h
  | succ fuel ih =>
      obtain ⟨more, rfl⟩ : ∃ more, fuel' = more + 1 := ⟨fuel' - 1, by omega⟩
      cases hturn : turn s with
      | leave r' =>
          rw [loop_leave hturn] at h
          rw [loop_leave hturn, h]
      | again s' =>
          rw [loop_again hturn] at h
          rw [loop_again hturn]
          exact ih (Nat.le_of_succ_le_succ hle) h

/-- **The rule.** `μ` bounds the turns that are still to come. -/
theorem loop_variant (I : σ → Prop) (Q : ρ → Prop) (μ : σ → Nat)
    (hturn : ∀ s, I s → (∃ r, turn s = .leave r ∧ Q r) ∨
      ∃ s', turn s = .again s' ∧ I s' ∧ μ s' < μ s)
    {fuel : Nat} {s : σ} (hfuel : μ s < fuel) (h : I s) :
    ∃ r, loop turn fuel s = some r ∧ Q r := by
  induction fuel generalizing s with
  | zero => exact absurd hfuel (Nat.not_lt_zero _)
  | succ fuel ih =>
      rcases hturn s h with ⟨r, hleave, hQ⟩ | ⟨s', hagain, hI, hless⟩
      · exact ⟨r, loop_leave hleave fuel, hQ⟩
      · rw [loop_again hagain]
        exact ih (Nat.lt_of_lt_of_le hless (Nat.le_of_lt_succ hfuel)) hI

/-! ## Enough fuel -/

/-- The loop ends, with enough fuel, and `Q` holds of what it returns. -/
def Returns (f : Nat → Option ρ) (Q : ρ → Prop) : Prop :=
  ∃ r, Q r ∧ ∃ n, ∀ fuel, n ≤ fuel → f fuel = some r

namespace Returns

variable {τ : Type} {f : Nat → Option ρ} {Q Q' : ρ → Prop}

theorem of_some {r : ρ} (h : Q r) : Returns (fun _ => some r) Q := ⟨r, h, 0, fun _ _ => rfl⟩

theorem imp (h : Returns f Q) (hQ : ∀ r, Q r → Q' r) : Returns f Q' := by
  obtain ⟨r, hr, hfuel⟩ := h
  exact ⟨r, hQ r hr, hfuel⟩

theorem congr {f' : Nat → Option ρ} (h : Returns f Q) (heq : ∀ fuel, f' fuel = f fuel) :
    Returns f' Q := by
  obtain ⟨r, hr, n, hn⟩ := h
  exact ⟨r, hr, n, fun fuel hfuel => (heq fuel).trans (hn fuel hfuel)⟩

/-- There is only one result. -/
theorem both (h : Returns f Q) (h' : Returns f Q') : ∃ r, Q r ∧ Q' r := by
  obtain ⟨r, hr, n, hn⟩ := h
  obtain ⟨r', hr', n', hn'⟩ := h'
  obtain rfl : r = r' := by
    have hfirst := hn (max n n') (le_max_left n n')
    rw [hn' (max n n') (le_max_right n n')] at hfirst
    exact (Option.some_inj.1 hfirst).symm
  exact ⟨r, hr, hr'⟩

/-- **One part of a program behind the other.** -/
theorem bind {g : ρ → Nat → Option τ} {R : τ → Prop} (h : Returns f Q)
    (h' : ∀ r, Q r → Returns (g r) R) : Returns (fun fuel => f fuel >>= fun r => g r fuel) R := by
  obtain ⟨r, hr, n, hn⟩ := h
  obtain ⟨t, ht, n', hn'⟩ := h' r hr
  refine ⟨t, ht, max n n', fun fuel hfuel => ?_⟩
  show (f fuel >>= fun r => g r fuel) = some t
  rw [hn fuel (le_of_max_le_left hfuel)]
  exact hn' fuel (le_of_max_le_right hfuel)

theorem loop (I : σ → Prop) (μ : σ → Nat)
    (hturn : ∀ s, I s → (∃ r, turn s = .leave r ∧ Q r) ∨
      ∃ s', turn s = .again s' ∧ I s' ∧ μ s' < μ s)
    {s : σ} (h : I s) : Returns (fun fuel => Base.loop turn fuel s) Q := by
  obtain ⟨r, hrun, hr⟩ := loop_variant I Q μ hturn (Nat.lt_succ_self (μ s)) h
  exact ⟨r, hr, μ s + 1, fun fuel hfuel => loop_mono hfuel hrun⟩

/-- `for (i = 0; i < n; i++)` around a part that returns. -/
theorem foldlM_range {body : Nat → σ → Nat → Option σ} (P : Nat → σ → Prop) {n : Nat}
    (hbody : ∀ i s, i < n → P i s → Returns (fun fuel => body fuel s i) (P (i + 1))) {s : σ}
    (h : P 0 s) : Returns (fun fuel => (List.range n).foldlM (body fuel) s) (P n) := by
  induction n with
  | zero => exact of_some h
  | succ n ih =>
      have hbefore := ih fun i s hi => hbody i s (hi.trans (Nat.lt_succ_self n))
      refine (hbefore.bind fun s1 h1 => hbody n s1 (Nat.lt_succ_self n) h1).congr fun fuel => ?_
      rw [List.range_succ, List.foldlM_append]
      simp

end Returns

end NacCard.Base
