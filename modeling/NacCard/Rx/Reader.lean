import NacCard.Base.Run
import NacCard.Rx.Advance

/-!
# A reader of a receive ring

A reader that calls `nac_advance_stream` over and over and in between moves `bottom`
to any place up to the address it was given, against the card.  A call is cut where
the card's progress can make a difference: at the first reading of the record
pointer, at the write of the limit and at every further reading.

`passed` counts the bytes `bottom` has passed since the stream was started; it is
the index of the byte `bottom` points to.
-/

namespace NacCard.Rx

open NacCard.Base NacCard.Stream

variable {β : Type}

/-! ## The machine -/

/-- Where the reader is: between calls, with the address the last one returned, or in
a call, with the last value of the record register. -/
inductive ReaderPc where
  | idle (top : Nat)
  /-- the record pointer has been read once -/
  | read (r : Nat)
  /-- the limit has been written -/
  | poll (r : Nat)
  deriving Repr, DecidableEq

/-- The card and its reader; `passed` counts the bytes behind `bottom`. -/
structure ReaderState (β : Type) where
  engine : Engine β
  /-- `*bottom`, 0 for `NULL` -/
  bottom : Nat
  pc : ReaderPc
  passed : Nat

/-- A step of the card, of the call, or of the reader between calls. -/
inductive ReaderAct where
  | card
  /-- a call of `nac_advance_stream` -/
  | call
  /-- the call under way goes on -/
  | tick
  /-- the wait loop gives up -/
  | timeout
  /-- the reader moves `bottom` to `p` -/
  | move (p : Nat)
  deriving Repr, DecidableEq

namespace RxRing

variable (g : RxRing)

/-- What a step does. -/
def readerStep (data : Nat → β) (mindata : Nat) (s : ReaderState β) :
    ReaderAct → Option (ReaderState β)
  | .card => (g.engineStep data s.engine).map fun e => { s with engine := e }
  | .call =>
      match s.pc with
      | .idle _ =>
          some { s with bottom := g.normBottom s.bottom, pc := .read (g.recordPtr s.engine) }
      | _ => none
  | .tick =>
      match s.pc with
      | .read r => some { s with engine := g.writeLimit s.bottom s.engine, pc := .poll r }
      | .poll r =>
          if g.waits mindata s.bottom r then some { s with pc := .poll (g.recordPtr s.engine) }
          else some { s with pc := .idle (g.topFor s.bottom r) }
      | _ => none
  | .timeout =>
      match s.pc with
      | .poll r => some { s with pc := .idle (g.topFor s.bottom r) }
      | _ => none
  | .move p =>
      match s.pc with
      | .idle top =>
          if s.bottom ≤ p ∧ p ≤ top then
            some { s with bottom := p, passed := s.passed + (p - s.bottom) }
          else none
      | _ => none

/-- Nothing has been received or called for. -/
structure ReaderFresh (s : ReaderState β) : Prop where
  engine : g.Started s.engine
  bottom : s.bottom = 0
  pc : s.pc = .idle 0
  passed : s.passed = 0

/-- Reading from the start of the stream. -/
def reader (data : Nat → β) (mindata : Nat) : Machine (ReaderState β) ReaderAct :=
  ⟨g.ReaderFresh, g.readerStep data mindata⟩

end RxRing

variable {g : RxRing} {data : Nat → β} {mindata : Nat}

/-! ## The invariant -/

/-- Before the first call `bottom` is `NULL`; later everything up to the address
returned has been written. -/
def IdleOk (g : RxRing) (s : ReaderState β) (top : Nat) : Prop :=
  s.bottom = 0 ∧ top = 0 ∧ s.passed = 0 ∨
    BottomAt g s.passed s.bottom ∧ s.passed + (top - s.bottom) ≤ s.engine.written ∧
      top ≤ g.buf + g.size + g.extra

/-- What is known at each place of a call. -/
def PcOk (g : RxRing) (s : ReaderState β) : Prop :=
  match s.pc with
  | .idle top => IdleOk g s top
  | .read r => Polling g s.engine s.passed s.bottom r
  | .poll r => Polling g s.engine s.passed s.bottom r

/-- The reader behind the card, wherever the card stops. -/
structure Follows (g : RxRing) (s : ReaderState β) : Prop where
  turn : Turn g s.engine
  passed_le : s.passed ≤ s.engine.written
  pc : PcOk g s

/-- The invariant: where the card is for the bytes passed, and what the call under way knows. -/
structure ReaderInv (g : RxRing) (data : Nat → β) (s : ReaderState β) : Prop where
  core : ∃ n b, Core g data s.engine s.passed n b
  pc : PcOk g s

theorem ReaderInv.follows {s : ReaderState β} (h : ReaderInv g data s) : Follows g s := by
  obtain ⟨n, b, hcore⟩ := h.core
  exact ⟨hcore.stands, hcore.passed_le, h.pc⟩

/-! ## Every step keeps it -/

theorem ReaderInv.fresh {s : ReaderState β} (h : g.ReaderFresh s) : ReaderInv g data s := by
  refine ⟨⟨0, 0, ?_⟩, ?_⟩
  · rw [h.passed]
    exact .started h.engine
  · rw [PcOk, h.pc]
    exact .inl ⟨h.bottom, rfl, h.passed⟩

/-- More has been written. -/
theorem PcOk.engine {s : ReaderState β} {e : Engine β} (h : PcOk g s)
    (hw : s.engine.written ≤ e.written) : PcOk g { s with engine := e } := by
  unfold PcOk at h ⊢
  dsimp only
  cases hpc : s.pc with
  | idle top =>
      rw [hpc] at h
      rcases h with hnull | ⟨hat, hle, htop⟩
      · exact .inl hnull
      · exact .inr ⟨hat, hle.trans hw, htop⟩
  | read r =>
      rw [hpc] at h
      exact Polling.mono h hw
  | poll r =>
      rw [hpc] at h
      exact Polling.mono h hw

/-- `bottom` as a call first sets it. -/
theorem IdleOk.norm {s : ReaderState β} {top : Nat} (h : IdleOk g s top) :
    ∃ n b, Lap g.size s.passed n b ∧ g.normBottom s.bottom = g.buf + b := by
  rcases h with ⟨hnull, -, hpassed⟩ | ⟨hat, -, -⟩
  · rw [hnull, hpassed]
    exact BottomAt.null
  · exact hat.norm

/-- The reader goes forward to `p`. -/
theorem IdleOk.move {s : ReaderState β} {top p : Nat} (h : IdleOk g s top)
    (hmove : s.bottom ≤ p ∧ p ≤ top) :
    IdleOk g { s with bottom := p, passed := s.passed + (p - s.bottom) } top ∧
      (s.passed + (p - s.bottom) = s.passed ∨
        s.passed + (p - s.bottom) ≤ s.engine.written ∧
          ∃ n b, Lap g.size (s.passed + (p - s.bottom)) n b) := by
  rcases h with ⟨hnull, htop, hpassed⟩ | ⟨hat, hle, htop⟩
  · -- before the first call there is nowhere to go
    have hp : p = 0 := by omega
    refine ⟨.inl ⟨hp, htop, ?_⟩, .inl ?_⟩
    · show s.passed + (p - s.bottom) = 0
      omega
    · omega
  · obtain ⟨hmoved, hlap⟩ := hat.move hmove.1 (hmove.2.trans htop)
    refine ⟨.inr ⟨hmoved, ?_, htop⟩, .inr ⟨?_, hlap⟩⟩
    · show s.passed + (p - s.bottom) + (top - p) ≤ s.engine.written
      omega
    · omega

/-- A call that ends. -/
theorem Follows.ends {s : ReaderState β} (h : Follows g s) {r : Nat}
    (hpoll : Polling g s.engine s.passed s.bottom r) :
    Follows g { s with pc := .idle (g.topFor s.bottom r) } := by
  refine ⟨h.turn, h.passed_le, .inr ?_⟩
  obtain ⟨hle, htop⟩ := hpoll.top h.passed_le
  obtain ⟨n, b, x, hlap, hbottom, -⟩ := hpoll
  have hat := hlap.bottomAt
  rw [← hbottom] at hat
  exact ⟨hat, hle, htop⟩

theorem Follows.step {s s' : ReaderState β} {a : ReaderAct} (h : Follows g s)
    (hstep : g.readerStep data mindata s a = some s') : Follows g s' := by
  have hturn := h.turn
  have hle := h.passed_le
  have hpc := h.pc
  cases a with
  | card =>
      obtain ⟨e, he, rfl⟩ := Option.map_eq_some_iff.1 hstep
      have hw := Turn.written_le he
      exact ⟨hturn.engine he, hle.trans hw, hpc.engine hw⟩
  | call =>
      simp only [RxRing.readerStep] at hstep
      split at hstep
      next top hidle =>
        cases hstep
        rw [PcOk, hidle] at hpc
        obtain ⟨n, b, hlap, hnorm⟩ := IdleOk.norm hpc
        have hread := hturn.polling hlap hle
        rw [← hnorm] at hread
        exact ⟨hturn, hle, hread⟩
      next => cases hstep
  | tick =>
      simp only [RxRing.readerStep] at hstep
      split at hstep
      next r hread =>
        cases hstep
        rw [PcOk, hread] at hpc
        exact ⟨⟨hturn.record_le, hturn.turn⟩, hle, Polling.mono hpc le_rfl⟩
      next r hpoll =>
        rw [PcOk, hpoll] at hpc
        split_ifs at hstep with hwait
        · cases hstep
          obtain ⟨n, b, x, hlap, hbottom, -⟩ := hpc
          have hread := hturn.polling hlap hle
          rw [← hbottom] at hread
          exact ⟨hturn, hle, hread⟩
        · cases hstep
          exact h.ends hpc
      next => cases hstep
  | timeout =>
      simp only [RxRing.readerStep] at hstep
      split at hstep
      next r hpoll =>
        cases hstep
        rw [PcOk, hpoll] at hpc
        exact h.ends hpc
      next => cases hstep
  | move p =>
      simp only [RxRing.readerStep] at hstep
      split at hstep
      next top hidle =>
        split_ifs at hstep with hmove
        cases hstep
        rw [PcOk, hidle] at hpc
        obtain ⟨hidleOk, hpassed⟩ := IdleOk.move hpc hmove
        refine ⟨hturn, ?_, ?_⟩
        · rcases hpassed with hsame | ⟨hw, -⟩
          · exact hsame.le.trans hle
          · exact hw
        · rw [PcOk]
          dsimp only
          rw [hidle]
          exact hidleOk
      next => cases hstep

/-- The card stays between bottom and limit. -/
theorem ReaderInv.core_step {s s' : ReaderState β} {a : ReaderAct} (h : ReaderInv g data s)
    (hstep : g.readerStep data mindata s a = some s') :
    ∃ n b, Core g data s'.engine s'.passed n b := by
  obtain ⟨n, b, hcore⟩ := h.core
  have hpc := h.pc
  cases a with
  | card =>
      obtain ⟨e, he, rfl⟩ := Option.map_eq_some_iff.1 hstep
      exact ⟨n, b, (hcore.engine he).1⟩
  | call =>
      simp only [RxRing.readerStep] at hstep
      split at hstep <;> cases hstep
      exact ⟨n, b, hcore⟩
  | tick =>
      simp only [RxRing.readerStep] at hstep
      split at hstep
      next r hread =>
        cases hstep
        rw [PcOk, hread] at hpc
        obtain ⟨n', b', x, hlap, hbottom, -⟩ := hpc
        have hb := hlap.le
        have hcore' := (hcore.pass hlap le_rfl hcore.passed_le).limit_write
        rw [← bottomAlign_eq (by omega), ← hbottom] at hcore'
        exact ⟨n', b', hcore'⟩
      next r hpoll =>
        split_ifs at hstep <;> cases hstep <;> exact ⟨n, b, hcore⟩
      next => cases hstep
  | timeout =>
      simp only [RxRing.readerStep] at hstep
      split at hstep <;> cases hstep
      exact ⟨n, b, hcore⟩
  | move p =>
      simp only [RxRing.readerStep] at hstep
      split at hstep
      next top hidle =>
        split_ifs at hstep with hmove
        cases hstep
        rw [PcOk, hidle] at hpc
        rcases (IdleOk.move hpc hmove).2 with hsame | ⟨hw, n', b', hlap⟩
        · dsimp only
          rw [hsame]
          exact ⟨n, b, hcore⟩
        · exact ⟨n', b', hcore.pass hlap (Nat.le_add_right _ _) hw⟩
      next => cases hstep

theorem ReaderInv.step {s s' : ReaderState β} {a : ReaderAct} (h : ReaderInv g data s)
    (hstep : g.readerStep data mindata s a = some s') : ReaderInv g data s' :=
  ⟨h.core_step hstep, (h.follows.step hstep).pc⟩

/-! ## The ring is safe -/

/-- What the reader may rely on. -/
structure ReaderSafe (g : RxRing) (data : Nat → β) (s : ReaderState β) : Prop where
  /-- no byte that was written and not passed has been overwritten -/
  kept : Shows g.size s.engine.ring data s.passed s.engine.written
  /-- every byte between `bottom` and the address returned is inside the mapping, has
  been written, and is the one of this lap -/
  fresh : ∀ top, s.pc = .idle top → ∀ q, s.bottom ≤ q → q < top →
    q < g.buf + g.size + g.extra ∧ s.passed + (q - s.bottom) < s.engine.written ∧
      g.readByte s.engine q = data (s.passed + (q - s.bottom))

/-- **The receive ring is safe**, for every ring, every stream of bytes, every
`mindata`, and every interleaving of the card with calls and moves of `bottom`. -/
theorem nacAdvanceStream_safe {s : ReaderState β}
    (h : (g.reader data mindata).Reach (fun _ _ => True) s) : ReaderSafe g data s := by
  have hinv : ReaderInv g data s :=
    h.invariant (fun _ hinit => .fresh hinit) fun _ _ _ hinv _ hstep => hinv.step hstep
  obtain ⟨n, b, hcore⟩ := hinv.core
  refine ⟨hcore.shows, ?_⟩
  intro top hidle q hle hlt
  have hpc := hinv.pc
  rw [PcOk, hidle] at hpc
  rcases hpc with ⟨-, htop, -⟩ | ⟨hat, hw, htop⟩
  · omega
  · have hindex : s.passed + (q - s.bottom) < s.engine.written := by omega
    refine ⟨by omega, hindex, ?_⟩
    rw [hat.readByte hle (by omega)]
    exact hcore.shows _ (by omega) hindex

/-- Twenty bytes are received, a call returns them, and the reader passes ten. -/
theorem nacAdvanceStream_twenty_bytes :
    ∃ s : ReaderState Nat, (s.pc, s.passed) = (.idle (rx4k.buf + 20), 10) ∧
      ReaderSafe rx4k id s := by
  have hstart : (rx4k.reader id 16).Reach (fun _ _ => True) ⟨engine4k 0, 0, .idle 0, 0⟩ :=
    .start ⟨engine4k_started 0, rfl, rfl, rfl⟩
  obtain ⟨s, hreach, hs⟩ := Machine.exists_reach_of_run hstart
    (List.replicate 20 .card ++ [.call, .tick, .tick, .move (rx4k.buf + 10)])
    (fun s => (s.pc, s.passed)) (.idle (rx4k.buf + 20), 10) (by decide +kernel)
  exact ⟨s, hs, nacAdvanceStream_safe hreach⟩

end NacCard.Rx
