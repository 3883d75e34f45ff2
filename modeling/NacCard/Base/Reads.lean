import Mathlib

/-!
# Programs that read a device

A program that reads registers one after another, against a device that moves on its
own before, between and after the reads.

* `Reads` — such a program, with its results; `readEach` — the same program for each
  entry of a list.
* `Device.Runs` — a run, with what the device looked like at each read.
* `runs_done_iff`, `runs_read_iff`, `runs_bind_iff` — the rules for the parts of a
  program; each says what the runs of a program are, in both directions.
-/

namespace NacCard.Base

/-- A computation that reads registers, one access at a time. -/
inductive Reads (α : Type) : Type where
  | done (a : α)
  | read (addr : Nat) (next : Nat → Reads α)

namespace Reads

variable {α β ι : Type}

/-- First the one, then the other with its result. -/
def bind : Reads α → (α → Reads β) → Reads β
  | done a, f => f a
  | read addr next, f => read addr fun v => (next v).bind f

instance : Monad Reads where
  pure := done
  bind := bind

/-- Read one register. -/
def reg (addr : Nat) : Reads Nat := read addr done

/-- The results of `f` for the entries of a list, in order. -/
def readEach (f : ι → Reads α) : List ι → Reads (List α)
  | [] => pure []
  | i :: is => do
      let a ← f i
      let as ← readEach f is
      pure (a :: as)

end Reads

/-- What the device may do on its own, and the value of a register in each of its states. -/
structure Device (σ : Type) where
  moves : σ → σ → Prop
  value : σ → Nat → Nat

namespace Device

variable {σ α β ι : Type} (D : Device σ)

/-- `p` runs from `s` to `s'` with result `a`; `seen` are the states in which it reads. -/
inductive Runs : Reads α → σ → List σ → α → σ → Prop
  | done {a : α} {s : σ} : Runs (.done a) s [] a s
  | read {addr : Nat} {next : Nat → Reads α} {s s' : σ} {seen : List σ} {a : α} :
      Runs (next (D.value s addr)) s seen a s' → Runs (.read addr next) s (s :: seen) a s'
  | move {p : Reads α} {s t s' : σ} {seen : List σ} {a : α} :
      D.moves s t → Runs p t seen a s' → Runs p s seen a s'

/-- Any number of moves. -/
def Moved : σ → σ → Prop := Relation.ReflTransGen D.moves

variable {D}

theorem Runs.moved {p : Reads α} {s t s' : σ} {seen : List σ} {a : α} (h : D.Moved s t)
    (hp : D.Runs p t seen a s') : D.Runs p s seen a s' := by
  induction h using Relation.ReflTransGen.head_induction_on with
  | refl => exact hp
  | head hmove _ ih => exact .move hmove ih

theorem runs_done_iff {a b : α} {s s' : σ} {seen : List σ} :
    D.Runs (.done a) s seen b s' ↔ seen = [] ∧ b = a ∧ D.Moved s s' := by
  constructor
  · intro h
    generalize hp : Reads.done a = p at h
    induction h with
    | done =>
        cases hp
        exact ⟨rfl, rfl, .refl⟩
    | read => cases hp
    | move hmove _ ih =>
        obtain ⟨hseen, hb, hmoved⟩ := ih hp
        exact ⟨hseen, hb, .head hmove hmoved⟩
  · rintro ⟨rfl, rfl, hmoved⟩
    exact .moved hmoved .done

theorem runs_read_iff {addr : Nat} {next : Nat → Reads α} {b : α} {s s' : σ} {seen : List σ} :
    D.Runs (.read addr next) s seen b s' ↔
      ∃ t rest, D.Moved s t ∧ seen = t :: rest ∧ D.Runs (next (D.value t addr)) t rest b s' := by
  constructor
  · intro h
    generalize hp : Reads.read addr next = p at h
    induction h with
    | done => cases hp
    | read hrun =>
        cases hp
        exact ⟨_, _, .refl, rfl, hrun⟩
    | move hmove _ ih =>
        obtain ⟨t, rest, hmoved, hseen, hrun⟩ := ih hp
        exact ⟨t, rest, .head hmove hmoved, hseen, hrun⟩
  · rintro ⟨t, rest, hmoved, rfl, hrun⟩
    exact .moved hmoved (.read hrun)

/-- **A sequence of two programs.** -/
theorem runs_bind_iff {p : Reads α} {f : α → Reads β} {b : β} {s s' : σ} {seen : List σ} :
    D.Runs (p >>= f) s seen b s' ↔ ∃ a t seen1 seen2,
      D.Runs p s seen1 a t ∧ D.Runs (f a) t seen2 b s' ∧ seen = seen1 ++ seen2 := by
  induction p generalizing s seen with
  | done a =>
      constructor
      · intro h
        exact ⟨a, s, [], seen, .done, h, rfl⟩
      · rintro ⟨c, t, seen1, seen2, hp, hf, rfl⟩
        obtain ⟨rfl, rfl, hmoved⟩ := runs_done_iff.1 hp
        exact .moved hmoved hf
  | read addr next ih =>
      show D.Runs (.read addr fun v => next v >>= f) s seen b s' ↔ _
      rw [runs_read_iff]
      constructor
      · rintro ⟨t, rest, hmoved, rfl, hrun⟩
        obtain ⟨a, t', seen1, seen2, hp, hf, rfl⟩ := (ih _).1 hrun
        exact ⟨a, t', t :: seen1, seen2, runs_read_iff.2 ⟨t, seen1, hmoved, rfl, hp⟩, hf, rfl⟩
      · rintro ⟨a, t', seen1, seen2, hp, hf, rfl⟩
        obtain ⟨t, rest, hmoved, rfl, hrun⟩ := runs_read_iff.1 hp
        exact ⟨t, rest ++ seen2, hmoved, rfl, (ih _).2 ⟨a, t', rest, seen2, hrun, hf, rfl⟩⟩

theorem runs_reg_iff {addr v : Nat} {s s' : σ} {seen : List σ} :
    D.Runs (Reads.reg addr) s seen v s' ↔
      ∃ t, D.Moved s t ∧ seen = [t] ∧ v = D.value t addr ∧ D.Moved t s' := by
  rw [Reads.reg, runs_read_iff]
  constructor
  · rintro ⟨t, rest, hmoved, rfl, hrun⟩
    obtain ⟨rfl, rfl, hmoved'⟩ := runs_done_iff.1 hrun
    exact ⟨t, hmoved, rfl, rfl, hmoved'⟩
  · rintro ⟨t, hmoved, rfl, rfl, hmoved'⟩
    exact ⟨t, [], hmoved, rfl, runs_done_iff.2 ⟨rfl, rfl, hmoved'⟩⟩

end Device

end NacCard.Base
