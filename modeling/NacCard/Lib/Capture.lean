import NacCard.Base.Run

/-!
# Capture control

The enable bits of the eight streams are bits 1 to 8 of one register.
`capture_start_stream` and `capture_stop_stream` read it, change the bit of their stream
and write it back; nothing keeps another process from writing in between.

* `captureStartStream`, `captureStopStream` — what is written for what was read.
* `capture` — any number of processes that make such calls, each for streams of its own;
  reading and writing the register are steps.
* `CaptureInv` — what holds as long as no write takes another stream's bit back, which
  is `WriteFits`.
* `capture_as_requested` — then every stream is enabled as it was last requested.
-/

namespace NacCard.Lib

open NacCard.Base

/-! ## The two functions -/

/-- `capture_start_stream` on the value read: the bit of the stream, and bit 0. -/
def captureStartStream (tmp : BitVec 32) (streamNum : Fin 8) : BitVec 32 :=
  let tmp := tmp ||| 1#32 <<< (streamNum.val + 1)
  tmp ||| 1#32

/-- `capture_stop_stream` on the value read: the bit goes, and bit 0 is set. -/
def captureStopStream (tmp : BitVec 32) (streamNum : Fin 8) : BitVec 32 :=
  let tmp := tmp &&& (0xFFFFFFFF#32 &&& ~~~(1#32 <<< (streamNum.val + 1)))
  tmp ||| 1#32

/-- Which of the two is called. -/
inductive Request where
  | start
  | stop
  deriving Repr, DecidableEq

namespace Request

/-- The value that is written for the value that was read. -/
def update : Request → BitVec 32 → Fin 8 → BitVec 32
  | start => captureStartStream
  | stop => captureStopStream

/-- The enable bit that is asked for. -/
def bit : Request → Bool
  | start => true
  | stop => false

end Request

/-- The enable bit of a stream. -/
def enableBit (reg : BitVec 32) (streamNum : Fin 8) : Bool := reg.getLsbD (streamNum.val + 1)

theorem oneBit {k i : Nat} (hk : k < 32) : (1#32 <<< k).getLsbD i = decide (i = k) := by
  rw [BitVec.getLsbD_shiftLeft, BitVec.getLsbD_one, Bool.eq_iff_iff]
  simp
  omega

/-- **Each call changes the bit of its stream and bit 0**, and writes the others as it has read
them. -/
theorem update_bit (r : Request) (tmp : BitVec 32) (t : Fin 8) {i : Nat} (hi : i < 32) (h0 : i ≠ 0) :
    (r.update tmp t).getLsbD i = if i = t.val + 1 then r.bit else tmp.getLsbD i := by
  have ht : t.val + 1 < 32 := by omega
  cases r with
  | start =>
      simp only [Request.update, captureStartStream, Request.bit]
      rw [BitVec.getLsbD_or, BitVec.getLsbD_or, oneBit ht, BitVec.getLsbD_one]
      by_cases h : i = t.val + 1
      · simp [h]
      · simp [h, h0]
  | stop =>
      have hones : 0xFFFFFFFF#32 = BitVec.allOnes 32 := by decide
      simp only [Request.update, captureStopStream, Request.bit]
      rw [hones, BitVec.allOnes_and, BitVec.getLsbD_or, BitVec.getLsbD_and, BitVec.getLsbD_not,
        oneBit ht, BitVec.getLsbD_one]
      by_cases h : i = t.val + 1
      · simp [h]
      · simp [h, h0, hi]

theorem enableBit_update (r : Request) (tmp : BitVec 32) (t u : Fin 8) :
    enableBit (r.update tmp t) u = if u = t then r.bit else enableBit tmp u := by
  rw [enableBit, update_bit r tmp t (by omega) (Nat.succ_ne_zero _), enableBit]
  simp [Fin.ext_iff]

/-! ## The processes -/

/-- Where a process is in a call: it has still to read the register, or to write it. -/
inductive CapturePc where
  | idle
  | called (streamNum : Fin 8) (r : Request)
  | read (streamNum : Fin 8) (r : Request) (tmp : BitVec 32)
  deriving Repr, DecidableEq

/-- The stream that a process is in a call for, and what it asks for. -/
def CapturePc.request : CapturePc → Option (Fin 8 × Request)
  | idle => none
  | called t r => some (t, r)
  | read t r _ => some (t, r)

/-- The register, where each process is, and the last request made for each stream. -/
structure CaptureState (P : Type) where
  reg : BitVec 32
  pc : P → CapturePc
  last : Fin 8 → Option Request

/-- A process makes a call, reads the register in it, or writes it. -/
inductive CaptureAct (P : Type) where
  | call (p : P) (streamNum : Fin 8) (r : Request)
  | read (p : P)
  | write (p : P)

variable {P : Type} [DecidableEq P]

/-- A call is made by the stream's own process, when it is in no other. -/
def captureStep (owner : Fin 8 → P) (s : CaptureState P) : CaptureAct P → Option (CaptureState P)
  | .call p t r =>
      if s.pc p = .idle ∧ owner t = p then
        some
          { s with
            pc := Function.update s.pc p (.called t r)
            last := Function.update s.last t (some r) }
      else none
  | .read p =>
      match s.pc p with
      | .called t r => some { s with pc := Function.update s.pc p (.read t r s.reg) }
      | _ => none
  | .write p =>
      match s.pc p with
      | .read t r tmp => some { s with reg := r.update tmp t, pc := Function.update s.pc p .idle }
      | _ => none

/-- Streams with their owners, on a register that is `reg0` at the start. -/
def capture (owner : Fin 8 → P) (reg0 : BitVec 32) : Machine (CaptureState P) (CaptureAct P) where
  init s := s.reg = reg0 ∧ (∀ p, s.pc p = .idle) ∧ ∀ t, s.last t = none
  step := captureStep owner

/-- **A write takes nothing back**: on the bits of the other streams the value that was read is what
the register still says. -/
def WriteFits (s : CaptureState P) : CaptureAct P → Prop
  | .write p =>
      match s.pc p with
      | .read t _ tmp => ∀ u, u ≠ t → enableBit tmp u = enableBit s.reg u
      | _ => True
  | _ => True

instance (s : CaptureState P) (a : CaptureAct P) : Decidable (WriteFits s a) := by
  unfold WriteFits
  split
  · split <;> infer_instance
  · infer_instance

/-- The enable bit that was last asked for, the one at the start where nothing was. -/
def requestedBit (reg0 : BitVec 32) (last : Fin 8 → Option Request) (t : Fin 8) : Bool :=
  match last t with
  | none => enableBit reg0 t
  | some r => r.bit

/-! ## Every run -/

section Runs

variable {owner : Fin 8 → P} {reg0 : BitVec 32} {s s' : CaptureState P}

/-- All that one step can do. -/
inductive CaptureStep (owner : Fin 8 → P) (s s' : CaptureState P) : CaptureAct P → Prop
  | call {p : P} {t : Fin 8} {r : Request} (hidle : s.pc p = .idle) (howner : owner t = p)
      (hreg : s'.reg = s.reg) (hpc : s'.pc = Function.update s.pc p (.called t r))
      (hlast : s'.last = Function.update s.last t (some r)) : CaptureStep owner s s' (.call p t r)
  | read {p : P} {t : Fin 8} {r : Request} (hcalled : s.pc p = .called t r) (hreg : s'.reg = s.reg)
      (hpc : s'.pc = Function.update s.pc p (.read t r s.reg)) (hlast : s'.last = s.last) :
      CaptureStep owner s s' (.read p)
  | write {p : P} {t : Fin 8} {r : Request} {tmp : BitVec 32} (hread : s.pc p = .read t r tmp)
      (hreg : s'.reg = r.update tmp t) (hpc : s'.pc = Function.update s.pc p .idle)
      (hlast : s'.last = s.last) : CaptureStep owner s s' (.write p)

theorem captureStep_cases {a : CaptureAct P} (h : captureStep owner s a = some s') :
    CaptureStep owner s s' a := by
  cases a with
  | call p t r =>
      rw [captureStep] at h
      split_ifs at h with hguard
      cases h
      exact .call hguard.1 hguard.2 rfl rfl rfl
  | read p =>
      cases hpc : s.pc p with
      | idle => simp [captureStep, hpc] at h
      | called t r =>
          simp only [captureStep, hpc, Option.some.injEq] at h
          subst h
          exact .read hpc rfl rfl rfl
      | read t r tmp => simp [captureStep, hpc] at h
  | write p =>
      cases hpc : s.pc p with
      | idle => simp [captureStep, hpc] at h
      | called t r => simp [captureStep, hpc] at h
      | read t r tmp =>
          simp only [captureStep, hpc, Option.some.injEq] at h
          subst h
          exact .write hpc rfl rfl rfl

/-- Bits 9 to 31 of the register, and of every value that has been read. -/
structure HighInv (reg0 : BitVec 32) (s : CaptureState P) : Prop where
  reg : ∀ i, 9 ≤ i → s.reg.getLsbD i = reg0.getLsbD i
  tmp : ∀ p t r tmp, s.pc p = .read t r tmp → ∀ i, 9 ≤ i → tmp.getLsbD i = reg0.getLsbD i

theorem HighInv.step {a : CaptureAct P} (h : HighInv reg0 s)
    (hstep : captureStep owner s a = some s') : HighInv reg0 s' := by
  cases captureStep_cases hstep with
  | @call p t r hidle howner hreg hpc hlast =>
      refine ⟨fun i hi => ?_, fun q t' r' tmp hq => ?_⟩
      · rw [hreg]
        exact h.reg i hi
      · by_cases hqp : q = p
        · rw [hqp, hpc, Function.update_self] at hq
          cases hq
        · rw [hpc, Function.update_of_ne hqp] at hq
          exact h.tmp q t' r' tmp hq
  | @read p t r hcalled hreg hpc hlast =>
      refine ⟨fun i hi => ?_, fun q t' r' tmp hq => ?_⟩
      · rw [hreg]
        exact h.reg i hi
      · by_cases hqp : q = p
        · rw [hqp, hpc, Function.update_self] at hq
          cases hq
          exact h.reg
        · rw [hpc, Function.update_of_ne hqp] at hq
          exact h.tmp q t' r' tmp hq
  | @write p t r tmp hread hreg hpc hlast =>
      refine ⟨fun i hi => ?_, fun q t' r' tmp' hq => ?_⟩
      · rw [hreg]
        by_cases h32 : i < 32
        · rw [update_bit r tmp t h32 (by omega), if_neg (by omega)]
          exact h.tmp p t r tmp hread i hi
        · rw [BitVec.getLsbD_of_ge _ _ (not_lt.1 h32), BitVec.getLsbD_of_ge _ _ (not_lt.1 h32)]
      · by_cases hqp : q = p
        · rw [hqp, hpc, Function.update_self] at hq
          cases hq
        · rw [hpc, Function.update_of_ne hqp] at hq
          exact h.tmp q t' r' tmp' hq

/-- **Bits 9 to 31 never change**, whatever is taken back. -/
theorem HighInv.reach {ok : CaptureState P → CaptureAct P → Prop}
    (h : (capture owner reg0).Reach ok s) : HighInv reg0 s := by
  refine h.invariant (fun s hinit => ?_) fun _ _ _ hinv _ hstep => hinv.step hstep
  obtain ⟨hreg, hpc, -⟩ := hinit
  refine ⟨fun i _ => by rw [hreg], fun p t r tmp hp => ?_⟩
  rw [hpc p] at hp
  cases hp

/-- No call for stream `t` is under way. -/
def Settled (t : Fin 8) (s : CaptureState P) : Prop := ∀ p r, (s.pc p).request ≠ some (t, r)

/-- Every call is for a stream of its process, as last requested; a settled stream is enabled as it
was requested. -/
structure CaptureInv (owner : Fin 8 → P) (reg0 : BitVec 32) (s : CaptureState P) : Prop where
  called : ∀ p t r, (s.pc p).request = some (t, r) → owner t = p ∧ s.last t = some r
  bits : ∀ t, Settled t s → enableBit s.reg t = requestedBit reg0 s.last t

/-- A stream that is settled after a step was so before, unless the step has settled it. -/
theorem Settled.before {p : P} {pc : CapturePc} {u : Fin 8} (h : Settled u s')
    (hpc : s'.pc = Function.update s.pc p pc) (hp : ∀ r, (s.pc p).request ≠ some (u, r)) :
    Settled u s := by
  intro q r hq
  by_cases hqp : q = p
  · subst hqp
    exact hp r hq
  · refine h q r ?_
    rw [hpc, Function.update_of_ne hqp]
    exact hq

theorem CaptureInv.call {p : P} {t : Fin 8} {r : Request} (h : CaptureInv owner reg0 s)
    (hidle : s.pc p = .idle) (howner : owner t = p) (hreg : s'.reg = s.reg)
    (hpc : s'.pc = Function.update s.pc p (.called t r))
    (hlast : s'.last = Function.update s.last t (some r)) : CaptureInv owner reg0 s' := by
  refine ⟨fun q u r' hq => ?_, fun u hu => ?_⟩
  · by_cases hqp : q = p
    · subst hqp
      rw [hpc, Function.update_self] at hq
      cases hq
      refine ⟨howner, ?_⟩
      rw [hlast, Function.update_self]
    · rw [hpc, Function.update_of_ne hqp] at hq
      obtain ⟨hown, hsome⟩ := h.called q u r' hq
      have hut : u ≠ t := by
        rintro rfl
        exact hqp (hown.symm.trans howner)
      refine ⟨hown, ?_⟩
      rw [hlast, Function.update_of_ne hut]
      exact hsome
  · have hut : u ≠ t := by
      rintro rfl
      refine hu p r ?_
      rw [hpc, Function.update_self]
      rfl
    have hbefore := hu.before hpc fun r' hr' => by
      rw [hidle] at hr'
      cases hr'
    rw [hreg, h.bits u hbefore, requestedBit, requestedBit, hlast, Function.update_of_ne hut]

theorem CaptureInv.read {p : P} {t : Fin 8} {r : Request} {tmp : BitVec 32}
    (h : CaptureInv owner reg0 s) (hcalled : s.pc p = .called t r) (hreg : s'.reg = s.reg)
    (hpc : s'.pc = Function.update s.pc p (.read t r tmp)) (hlast : s'.last = s.last) :
    CaptureInv owner reg0 s' := by
  -- the process stays in the same call
  have hrequest (q : P) : (s'.pc q).request = (s.pc q).request := by
    by_cases hqp : q = p
    · rw [hqp, hpc, Function.update_self, hcalled]
      rfl
    · rw [hpc, Function.update_of_ne hqp]
  refine ⟨fun q u r' hq => ?_, fun u hu => ?_⟩
  · rw [hrequest] at hq
    rw [hlast]
    exact h.called q u r' hq
  · rw [hreg, hlast]
    refine h.bits u fun q r' hq => hu q r' ?_
    rw [hrequest]
    exact hq

theorem CaptureInv.write {p : P} {t : Fin 8} {r : Request} {tmp : BitVec 32}
    (h : CaptureInv owner reg0 s) (hfits : ∀ u, u ≠ t → enableBit tmp u = enableBit s.reg u)
    (hread : s.pc p = .read t r tmp) (hreg : s'.reg = r.update tmp t)
    (hpc : s'.pc = Function.update s.pc p .idle) (hlast : s'.last = s.last) :
    CaptureInv owner reg0 s' := by
  have hp : (s.pc p).request = some (t, r) := by
    rw [hread]
    rfl
  refine ⟨fun q u r' hq => ?_, fun u hu => ?_⟩
  · by_cases hqp : q = p
    · rw [hqp, hpc, Function.update_self] at hq
      cases hq
    · rw [hpc, Function.update_of_ne hqp] at hq
      rw [hlast]
      exact h.called q u r' hq
  · rw [hreg, hlast, enableBit_update]
    by_cases hut : u = t
    · subst hut
      rw [if_pos rfl, requestedBit, (h.called p u r hp).2]
    · have hbefore := hu.before hpc fun r' hr' => by
        rw [hp] at hr'
        cases hr'
        exact hut rfl
      rw [if_neg hut, hfits u hut]
      exact h.bits u hbefore

/-- **One step.** -/
theorem CaptureInv.step {a : CaptureAct P} (h : CaptureInv owner reg0 s) (hok : WriteFits s a)
    (hstep : captureStep owner s a = some s') : CaptureInv owner reg0 s' := by
  cases captureStep_cases hstep with
  | call hidle howner hreg hpc hlast => exact h.call hidle howner hreg hpc hlast
  | read hcalled hreg hpc hlast => exact h.read hcalled hreg hpc hlast
  | write hread hreg hpc hlast =>
      refine h.write ?_ hread hreg hpc hlast
      rw [WriteFits, hread] at hok
      exact hok

theorem CaptureInv.start (hinit : (capture owner reg0).init s) : CaptureInv owner reg0 s := by
  obtain ⟨hreg, hpc, hlast⟩ := hinit
  refine ⟨fun p t r hp => ?_, fun t _ => ?_⟩
  · rw [hpc p] at hp
    cases hp
  · rw [hreg, requestedBit, hlast t]

/-- **Updates are not lost** in a run whose writes take nothing back: each stream for which no call is
under way is enabled as it was last requested, and bits 9 to 31 are those from the start.  A write
takes nothing back if and only if it leaves the bits of the other streams as they are. -/
theorem capture_as_requested (h : (capture owner reg0).Reach WriteFits s) :
    (∀ t, Settled t s → enableBit s.reg t = requestedBit reg0 s.last t) ∧
      (∀ i, 9 ≤ i → s.reg.getLsbD i = reg0.getLsbD i) ∧
      ∀ p s', captureStep owner s (.write p) = some s' →
        ((∀ t, (∀ r, (s.pc p).request ≠ some (t, r)) → enableBit s'.reg t = enableBit s.reg t) ↔
          WriteFits s (.write p)) := by
  have hinv : CaptureInv owner reg0 s := h.invariant (fun _ hinit => .start hinit)
    fun _ _ _ hinv hok hstep => hinv.step hok hstep
  refine ⟨hinv.bits, (HighInv.reach h).reg, fun p s' hstep => ?_⟩
  cases captureStep_cases hstep with
  | @write p t r tmp hread hreg hpc hlast =>
      rw [WriteFits, hread, hreg]
      simp only [CapturePc.request, enableBit_update]
      constructor
      · intro hkeeps u hut
        have hu := hkeeps u fun r' hr' => hut (by cases hr'; rfl)
        rwa [if_neg hut] at hu
      · intro hfits u hu
        have hut : u ≠ t := by
          rintro rfl
          exact hu r rfl
        rw [if_neg hut]
        exact hfits u hut

end Runs

/-! ## Two processes -/

/-- One process has stream 0, the other one the rest. -/
def twoOwners (t : Fin 8) : Bool := t ≠ 0

/-- No stream is enabled and no call is made. -/
def captureIdle : CaptureState Bool := ⟨0, fun _ => .idle, fun _ => none⟩

theorem captureIdle_reach {ok : CaptureState Bool → CaptureAct Bool → Prop} :
    (capture twoOwners 0).Reach ok captureIdle := .start ⟨rfl, fun _ => rfl, fun _ => rfl⟩

/-- One starts its stream after the other has. -/
theorem capture_one_by_one : ∃ s : CaptureState Bool, s.reg = 7#32 ∧ enableBit s.reg 0 = true := by
  obtain ⟨s, hreach, hs⟩ := Machine.exists_reach_of_run (@captureIdle_reach WriteFits)
    [.call false 0 .start, .read false, .write false, .call true 1 .start, .read true, .write true]
    (fun s => (s.reg, s.last 0, s.pc false, s.pc true)) (7#32, some .start, .idle, .idle)
    (by decide +kernel)
  simp only [Prod.mk.injEq] at hs
  obtain ⟨hreg, hlast, hpc1, hpc2⟩ := hs
  have hsettled : Settled 0 s := by
    intro p r
    cases p with
    | false =>
        rw [hpc1]
        nofun
    | true =>
        rw [hpc2]
        nofun
  refine ⟨s, hreg, ((capture_as_requested hreach).1 0 hsettled).trans ?_⟩
  rw [requestedBit, hlast]
  rfl

/-- **Both read before one has written**: both calls return, and stream 0 is not enabled. -/
theorem capture_lost : ∃ s : CaptureState Bool,
    (capture twoOwners 0).Reach (fun _ _ => True) s ∧ (∀ p, s.pc p = .idle) ∧
      s.last 0 = some .start ∧ s.reg = 5#32 ∧ enableBit s.reg 0 ≠ requestedBit 0 s.last 0 := by
  obtain ⟨s, hreach, hs⟩ := Machine.exists_reach_of_run (@captureIdle_reach fun _ _ => True)
    [.call false 0 .start, .call true 1 .start, .read false, .read true, .write false, .write true]
    (fun s => (s.reg, s.last 0, s.pc false, s.pc true)) (5#32, some .start, .idle, .idle)
    (by decide +kernel)
  simp only [Prod.mk.injEq] at hs
  obtain ⟨hreg, hlast, hpc1, hpc2⟩ := hs
  refine ⟨s, hreach, fun p => ?_, hlast, hreg, ?_⟩
  · cases p with
    | false => exact hpc1
    | true => exact hpc2
  · rw [hreg, requestedBit, hlast]
    decide

end NacCard.Lib
