import NacCard.Base.Refine
import NacCard.Rx.Delivery
import NacCard.Rx.Reader

/-!
# A loop over the records

`run_rx` of `flow_test` calls `nac_advance_stream` over and over and goes through the records below
the address it returns, each of which tells its own length.

* `hasRecord` — the conditions of the inner loop.
* `walkStep`, `walk` — the loop against the card; what is done with a record is a parameter.
* `walk_reader` — it is a reader of the ring, as `nac_advance_stream` wants it.
* `WalkInv` — everything that has been worked on is a record of the stream, and the next one begins
  at `bottom`; `walk_delivers` — every record once, in order and complete.
* `Behind`, `walk_waits` — a record is worked on when a safety window follows it, not before.

The thread can end in three ways.  Where the work on a record makes it return, `acc` is none.  When
20 seconds have gone by without a record it leaves its loop, and when the file of a record cannot be
opened the whole process ends; there is no clock and no file system here, so both are actions that
can be taken at any moment at which the program can take them.  What holds in every run holds with
them.
-/

namespace NacCard.Rx

open NacCard.Base NacCard.Stream

/-! ## The loop -/

/-- `RECORD_HDR_SIZE` -/
def RECORD_HDR_SIZE : Int := 16

/-- The thread and its ring. -/
structure WalkState (σ : Type) where
  reader : ReaderState UInt8
  /-- what the records have made, none when the thread has returned because of one -/
  acc : Option σ
  /-- the records as they were when they were worked on -/
  results : List Delivery
  /-- the thread has left its loop, or the process has ended -/
  left : Bool

/-- A step of the card or of the thread. -/
inductive WalkAct where
  | card
  /-- a call of `nac_advance_stream` -/
  | call
  /-- the call under way goes on -/
  | tick
  /-- the wait loop gives up -/
  | timeout
  /-- a turn of the inner loop -/
  | record
  /-- `time(NULL) - timer` has come to 20 -/
  | leave
  /-- a turn of the inner loop in which `fopen` fails: `exit(-2)` -/
  | exit
  deriving Repr, DecidableEq

/-- The steps that do not end the thread. -/
def WalkAct.Stays : WalkAct → Prop
  | .leave => False
  | .exit => False
  | _ => True

namespace WalkState

variable {σ : Type}

/-- The thread has not ended. -/
def runs (s : WalkState σ) : Bool := s.acc.isSome && !s.left

/-- The thread has ended, whatever for but a record. -/
def leaves (s : WalkState σ) : WalkState σ := { s with left := true }

theorem runs_iff {s : WalkState σ} : s.runs = true ↔ s.acc.isSome = true ∧ s.left = false := by
  simp [runs]

end WalkState

namespace RxRing

variable {σ : Type} (g : RxRing)

/-- The inner loop goes on: `(top - bottom) > RECORD_HDR_SIZE`, and not `(top - bottom) < rlen`. -/
def hasRecord (s : ReaderState UInt8) (top : Nat) : Bool :=
  (top : Int) - s.bottom > RECORD_HDR_SIZE &&
    !((top : Int) - s.bottom < g.readRlen s.engine s.bottom)

/-- The inner loop has another turn. -/
def more (s : ReaderState UInt8) : Bool :=
  match s.pc with
  | .idle top => g.hasRecord s top
  | _ => false

/-- A turn: the record is worked on, and `bottom += rlen`. -/
def walkRecord (body : List UInt8 → σ → Option σ) (s : WalkState σ) : WalkState σ :=
  let r := s.reader
  let rlen := g.readRlen r.engine r.bottom
  let d := g.seen r.engine r.bottom rlen
  { reader := { r with bottom := r.bottom + rlen, passed := r.passed + rlen }
    acc := s.acc.bind (body d.bytes)
    results := s.results ++ [d]
    left := s.left }

/-- One step.  The clock is looked at where `nac_advance_stream` is called next. -/
def walkStep (data : Nat → UInt8) (mindata : Nat) (body : List UInt8 → σ → Option σ)
    (s : WalkState σ) (a : WalkAct) : Option (WalkState σ) :=
  let ring (a : ReaderAct) : Option (WalkState σ) :=
    (g.readerStep data mindata s.reader a).map fun r => { s with reader := r }
  match a with
  | .card => ring .card
  | .call => if s.runs && !g.more s.reader then ring .call else none
  | .tick => if s.runs then ring .tick else none
  | .timeout => if s.runs then ring .timeout else none
  | .record => if s.runs && g.more s.reader then some (g.walkRecord body s) else none
  | .leave =>
      match s.reader.pc with
      | .idle _ => if s.runs && !g.more s.reader then some s.leaves else none
      | _ => none
  | .exit => if s.runs && g.more s.reader then some s.leaves else none

/-- Nothing has been received or called for. -/
structure WalkFresh (start : σ) (s : WalkState σ) : Prop where
  reader : g.ReaderFresh s.reader
  acc : s.acc = some start
  results : s.results = []
  left : s.left = false

/-- The loop of `run_rx` and the card. -/
def walk (data : Nat → UInt8) (mindata : Nat) (body : List UInt8 → σ → Option σ) (start : σ) :
    Machine (WalkState σ) WalkAct :=
  ⟨g.WalkFresh start, g.walkStep data mindata body⟩

end RxRing

/-! ## It is a reader of the ring -/

section

variable {σ : Type} {g : RxRing} {data : Nat → UInt8} {mindata : Nat}
  {body : List UInt8 → σ → Option σ} {start : σ}

theorem more_iff {s : ReaderState UInt8} : g.more s = true ↔
    ∃ top, s.pc = .idle top ∧ s.bottom + 16 < top ∧
      s.bottom + g.readRlen s.engine s.bottom ≤ top := by
  unfold RxRing.more RxRing.hasRecord RECORD_HDR_SIZE
  cases hpc : s.pc with
  | idle top =>
      simp only [Bool.and_eq_true, decide_eq_true_eq, Bool.not_eq_true', decide_eq_false_iff_not,
        ReaderPc.idle.injEq, exists_eq_left']
      omega
  | read r => simp
  | poll r => simp

/-- A turn of the inner loop moves `bottom`. -/
theorem walkRecord_reader {s : WalkState σ} (h : g.more s.reader = true) :
    g.readerStep data mindata s.reader (.move (s.reader.bottom + g.readRlen s.reader.engine s.reader.bottom)) =
      some (g.walkRecord body s).reader := by
  obtain ⟨top, hidle, -, hle⟩ := more_iff.1 h
  simp only [RxRing.readerStep, hidle]
  rw [if_pos ⟨Nat.le_add_right _ _, hle⟩, Nat.add_sub_cancel_left, ← hidle]
  rfl

/-- Only a move passes anything. -/
theorem readerStep_passed {r r' : ReaderState UInt8} {b : ReaderAct}
    (h : g.readerStep data mindata r b = some r') (hmove : ∀ p, b ≠ .move p) :
    r'.passed = r.passed := by
  cases b with
  | card =>
      obtain ⟨e, -, rfl⟩ := Option.map_eq_some_iff.1 h
      rfl
  | call =>
      simp only [RxRing.readerStep] at h
      split at h <;> cases h
      rfl
  | tick =>
      simp only [RxRing.readerStep] at h
      split at h
      next => cases h; rfl
      next => split_ifs at h <;> cases h <;> rfl
      next => cases h
  | timeout =>
      simp only [RxRing.readerStep] at h
      split at h <;> cases h
      rfl
  | move p => exact absurd rfl (hmove p)

/-- What a step does: a step of the reader with the records left as they are, a turn of the inner
loop, or the end. -/
theorem walkStep_cases {s s' : WalkState σ} {a : WalkAct}
    (h : g.walkStep data mindata body s a = some s') :
    (∃ b r, g.readerStep data mindata s.reader b = some r ∧ (∀ p, b ≠ .move p) ∧
        s' = { s with reader := r }) ∨
      s.runs ∧ g.more s.reader = true ∧ s' = g.walkRecord body s ∨
        ¬a.Stays ∧ s' = s.leaves := by
  cases a with
  | card =>
      obtain ⟨r, hr, rfl⟩ := Option.map_eq_some_iff.1 h
      exact .inl ⟨.card, r, hr, by simp, rfl⟩
  | call =>
      simp only [RxRing.walkStep] at h
      split_ifs at h
      obtain ⟨r, hr, rfl⟩ := Option.map_eq_some_iff.1 h
      exact .inl ⟨.call, r, hr, by simp, rfl⟩
  | tick =>
      simp only [RxRing.walkStep] at h
      split_ifs at h
      obtain ⟨r, hr, rfl⟩ := Option.map_eq_some_iff.1 h
      exact .inl ⟨.tick, r, hr, by simp, rfl⟩
  | timeout =>
      simp only [RxRing.walkStep] at h
      split_ifs at h
      obtain ⟨r, hr, rfl⟩ := Option.map_eq_some_iff.1 h
      exact .inl ⟨.timeout, r, hr, by simp, rfl⟩
  | record =>
      simp only [RxRing.walkStep] at h
      split_ifs at h with hmore
      cases h
      rw [Bool.and_eq_true] at hmore
      exact .inr (.inl ⟨hmore.1, hmore.2, rfl⟩)
  | leave =>
      simp only [RxRing.walkStep] at h
      split at h
      next => split_ifs at h; cases h; exact .inr (.inr ⟨id, rfl⟩)
      next => cases h
  | exit =>
      simp only [RxRing.walkStep] at h
      split_ifs at h
      cases h
      exact .inr (.inr ⟨id, rfl⟩)

theorem walkStep_left {s s' : WalkState σ} {a : WalkAct} (hstays : a.Stays)
    (h : g.walkStep data mindata body s a = some s') : s'.left = s.left := by
  rcases walkStep_cases h with ⟨b, r, -, -, rfl⟩ | ⟨-, -, rfl⟩ | ⟨hends, -⟩
  · rfl
  · rfl
  · exact absurd hstays hends

theorem walkStep_written {w w' : WalkState σ} {b : WalkAct}
    (h : g.walkStep data mindata body w b = some w') :
    w'.reader.engine.written = w.reader.engine.written ∨
      b = .card ∧ w'.reader.engine.written = w.reader.engine.written + 1 := by
  cases b with
  | card =>
      obtain ⟨r, hr, rfl⟩ := Option.map_eq_some_iff.1 h
      obtain ⟨e, he, rfl⟩ := Option.map_eq_some_iff.1 hr
      obtain ⟨-, ⟨-, rfl⟩ | ⟨-, rfl⟩⟩ := engineStep_cases he
      · exact .inl rfl
      · exact .inr ⟨rfl, rfl⟩
  | call =>
      simp only [RxRing.walkStep, RxRing.readerStep] at h
      split_ifs at h
      split at h <;> cases h
      exact .inl rfl
  | tick =>
      simp only [RxRing.walkStep, RxRing.readerStep] at h
      split_ifs at h
      split at h
      next => cases h; exact .inl rfl
      next => split_ifs at h <;> cases h <;> exact .inl rfl
      next => cases h
  | timeout =>
      simp only [RxRing.walkStep, RxRing.readerStep] at h
      split_ifs at h
      split at h <;> cases h
      exact .inl rfl
  | record =>
      simp only [RxRing.walkStep] at h
      split_ifs at h
      cases h
      exact .inl rfl
  | leave =>
      simp only [RxRing.walkStep] at h
      split at h
      next => split_ifs at h; cases h; exact .inl rfl
      next => cases h
  | exit =>
      simp only [RxRing.walkStep] at h
      split_ifs at h
      cases h
      exact .inl rfl

/-- The loop is one of the readers `nac_advance_stream` is made for. -/
theorem walk_reader {s : WalkState σ}
    (h : (g.walk data mindata body start).Reach (fun _ _ => True) s) :
    (g.reader data mindata).Reach (fun _ _ => True) s.reader := by
  refine h.map (N := g.reader data mindata) WalkState.reader ?_ ?_
  · intro s hinit
    exact RxRing.WalkFresh.reader hinit
  · intro s a s' _ _ _ hstep
    rcases walkStep_cases hstep with ⟨b, r, hr, -, rfl⟩ | ⟨-, hmore, rfl⟩ | ⟨-, rfl⟩
    · exact .inr ⟨b, trivial, hr⟩
    · have hmove : g.readerStep data mindata s.reader (.move _) = some (g.walkRecord body s).reader :=
        walkRecord_reader hmore
      exact .inr ⟨.move _, trivial, hmove⟩
    · exact .inl rfl

end

/-! ## Every record once -/

section

variable {σ : Type} {g : RxRing} {R : Records g} {mindata : Nat}
  {body : List UInt8 → σ → Option σ} {start : σ}

/-- The bytes of a record. -/
def Records.bytes (R : Records g) (i : Nat) : List UInt8 :=
  (List.range (R.rlen i)).map fun j => R.data (startOf R.rlen i + j)

/-- What the first `n` records make. -/
def Records.fold (R : Records g) (body : List UInt8 → σ → Option σ) (start : σ) (n : Nat) :
    Option σ :=
  (List.range n).foldlM (fun acc i => body (R.bytes i) acc) start

theorem Records.fold_succ (n : Nat) :
    R.fold body start (n + 1) = (R.fold body start n).bind (body (R.bytes n)) := by
  simp [Records.fold, List.range_succ]

/-- The invariant: the records behind `bottom` are those worked on, and each came whole. -/
structure WalkInv (g : RxRing) (R : Records g) (body : List UInt8 → σ → Option σ) (start : σ)
    (s : WalkState σ) : Prop where
  reader : ReaderInv g R.data s.reader
  passed : s.reader.passed = startOf R.rlen s.results.length
  acc : s.acc = R.fold body start s.results.length
  delivered : ∀ i d, s.results[i]? = some d → Delivered g R i d

/-- A byte below the address that was returned is the one of the stream. -/
theorem ReaderInv.byte {data : Nat → UInt8} {r : ReaderState UInt8} (h : ReaderInv g data r)
    {top q : Nat} (hidle : r.pc = .idle top) (hle : r.bottom ≤ q) (hlt : q < top) :
    g.readByte r.engine q = data (r.passed + (q - r.bottom)) := by
  obtain ⟨n, b, hcore⟩ := h.core
  have hpc := h.pc
  rw [PcOk, hidle] at hpc
  rcases hpc with ⟨-, htop, -⟩ | ⟨hat, hw, htop⟩
  · omega
  · rw [hat.readByte hle (by omega)]
    exact hcore.shows _ (by omega) (by omega)

/-- The length that is read is that of the record. -/
theorem WalkInv.rlen {s : WalkState σ} (h : WalkInv g R body start s) {top : Nat}
    (hidle : s.reader.pc = .idle top) (hlt : s.reader.bottom + 16 < top) :
    g.readRlen s.reader.engine s.reader.bottom = R.rlen s.results.length := by
  rw [RxRing.readRlen, h.reader.byte hidle (by omega) (by omega),
    h.reader.byte hidle (by omega) (by omega), Nat.add_sub_cancel_left, Nat.add_sub_cancel_left,
    h.passed]
  exact R.header s.results.length

theorem WalkInv.record {s : WalkState σ} (h : WalkInv g R body start s)
    (hmore : g.more s.reader = true) : WalkInv g R body start (g.walkRecord body s) := by
  obtain ⟨top, hidle, hlt, hle⟩ := more_iff.1 hmore
  have hrlen := h.rlen hidle hlt
  have hmove : g.readerStep R.data 0 s.reader (.move _) = some (g.walkRecord body s).reader :=
    walkRecord_reader hmore
  have hreader := h.reader.step hmove
  obtain ⟨n, b, hcore⟩ := h.reader.core
  have hpc := h.reader.pc
  rw [PcOk, hidle] at hpc
  obtain ⟨hat, hw, htop⟩ : BottomAt g s.reader.passed s.reader.bottom ∧
      s.reader.passed + (top - s.reader.bottom) ≤ s.reader.engine.written ∧
        top ≤ g.buf + g.size + g.extra := by
    rcases hpc with ⟨-, hzero, -⟩ | hidleOk
    · omega
    · exact hidleOk
  rw [h.passed] at hcore hat hw
  rw [hrlen] at hle
  have hin : s.reader.bottom + R.rlen s.results.length ≤ g.buf + g.size + g.extra := by omega
  have hwritten : startOf R.rlen s.results.length + R.rlen s.results.length ≤
      s.reader.engine.written := by omega
  have hseen : Delivered g R s.results.length
      (g.seen s.reader.engine s.reader.bottom (R.rlen s.results.length)) :=
    seen_delivered (s := ⟨s.reader.engine, ⟨0, 0, 0, false⟩, .idle, s.results⟩) hcore hat
      hin hwritten
  refine ⟨hreader, ?_, ?_, ?_⟩
  · show s.reader.passed + g.readRlen s.reader.engine s.reader.bottom = _
    rw [hrlen, h.passed, RxRing.walkRecord, List.length_append]
    rfl
  · show s.acc.bind (body (g.seen _ _ (g.readRlen _ _)).bytes) = _
    rw [hrlen, hseen.bytes, h.acc, RxRing.walkRecord, List.length_append]
    exact (Records.fold_succ _).symm
  · show ∀ i d, (s.results ++ [g.seen _ _ (g.readRlen _ _)])[i]? = some d → _
    rw [hrlen]
    exact delivered_append h.delivered hseen

theorem WalkInv.fresh {s : WalkState σ} (h : g.WalkFresh start s) : WalkInv g R body start s := by
  refine ⟨.fresh h.reader, ?_, ?_, ?_⟩
  · rw [h.results, h.reader.passed]
    rfl
  · rw [h.results, h.acc]
    rfl
  · intro i d hd
    rw [h.results] at hd
    cases hd

theorem WalkInv.step {s s' : WalkState σ} {a : WalkAct} (h : WalkInv g R body start s)
    (hstep : g.walkStep R.data mindata body s a = some s') : WalkInv g R body start s' := by
  rcases walkStep_cases hstep with ⟨b, r, hr, hmove, rfl⟩ | ⟨-, hmore, rfl⟩ | ⟨-, rfl⟩
  · exact ⟨h.reader.step hr, (readerStep_passed hr hmove).trans h.passed, h.acc, h.delivered⟩
  · exact h.record hmore
  · exact ⟨h.reader, h.passed, h.acc, h.delivered⟩

theorem walk_inv {s : WalkState σ}
    (h : (g.walk R.data mindata body start).Reach (fun _ _ => True) s) :
    WalkInv g R body start s :=
  h.invariant (fun _ hinit => .fresh hinit) fun _ _ _ hinv _ hstep => hinv.step hstep

/-- **Every record once**, in order, complete and inside the mapping, and what they make is what the
records of the stream make one after the other; for every stream of records, every `mindata` and
every interleaving with the card. -/
theorem walk_delivers {s : WalkState σ}
    (h : (g.walk R.data mindata body start).Reach (fun _ _ => True) s) :
    (∀ i d, s.results[i]? = some d → Delivered g R i d) ∧
      s.acc = R.fold body start s.results.length :=
  ⟨(walk_inv h).delivered, (walk_inv h).acc⟩

end

/-! ## How far behind the card -/

section

variable {g : RxRing} {data : Nat → UInt8} {mindata : Nat}

/-- A window is kept behind the address returned, unless hardly anything is there. -/
theorem advanceTop_behind {a r : Nat} :
    g.advanceTop (g.buf + a) (g.buf + r) < g.buf + a + 128 ∨
      g.advanceTop (g.buf + a) (g.buf + r) + 128 ≤ g.buf + lift g.size a r := by
  have hW : (SAFETY_WINDOW : Int) = 128 := rfl
  unfold RxRing.advanceTop lift
  rw [hW]
  dsimp only
  split_ifs <;> omega

theorem Polling.behind {e : Engine UInt8} {p bottom r : Nat} (h : Polling g e p bottom r) :
    g.topFor bottom r < bottom + 128 ∨
      p + (g.topFor bottom r - bottom) + 128 ≤ e.written := by
  obtain ⟨n, b, x, hlap, rfl, hx, rfl, hle⟩ := h
  have hb := hlap.le
  have heq := hlap.eq
  have hal := alignDown_le 128 b
  rw [RxRing.topFor, bottomAlign_eq (by omega), recordAddr_eq hx]
  rcases @advanceTop_behind g (alignDown 128 b) x with hnear | hfar
  · exact .inl (by omega)
  · omega

/-- Between calls a window follows what may be read. -/
def Behind (r : ReaderState UInt8) : Prop :=
  ∀ top, r.pc = .idle top → top < r.bottom + 128 ∨
    r.passed + (top - r.bottom) + 128 ≤ r.engine.written

theorem Behind.step {r r' : ReaderState UInt8} {b : ReaderAct} (h : Behind r)
    (hinv : ReaderInv g data r) (hstep : g.readerStep data mindata r b = some r') : Behind r' := by
  have hpc := hinv.pc
  cases b with
  | card =>
      obtain ⟨e, he, rfl⟩ := Option.map_eq_some_iff.1 hstep
      intro top hidle
      have hw := Turn.written_le he
      exact (h top hidle).imp_right fun hle => hle.trans hw
  | call =>
      simp only [RxRing.readerStep] at hstep
      split at hstep <;> cases hstep
      intro top hidle
      cases hidle
  | tick =>
      simp only [RxRing.readerStep] at hstep
      split at hstep
      next =>
        cases hstep
        intro top hidle
        cases hidle
      next x hpoll =>
        rw [PcOk, hpoll] at hpc
        split_ifs at hstep
        · cases hstep
          intro top hidle
          cases hidle
        · cases hstep
          intro top hidle
          cases hidle
          exact hpc.behind
      next => cases hstep
  | timeout =>
      simp only [RxRing.readerStep] at hstep
      split at hstep
      next x hpoll =>
        cases hstep
        rw [PcOk, hpoll] at hpc
        intro top hidle
        cases hidle
        exact hpc.behind
      next => cases hstep
  | move p =>
      simp only [RxRing.readerStep] at hstep
      split at hstep
      next top0 hidle0 =>
        split_ifs at hstep with hmove
        cases hstep
        intro top hidle
        have hbehind := h top hidle
        have htop : top0 = top := by
          rw [hidle0] at hidle
          exact ReaderPc.idle.inj hidle
        dsimp only
        omega
      next => cases hstep

end

section

variable {σ : Type} {g : RxRing} {R : Records g} {mindata : Nat}
  {body : List UInt8 → σ → Option σ} {start : σ}

/-- Record `i` was worked on when a window followed it. -/
def Followed (R : Records g) (i : Nat) (d : Delivery) : Prop :=
  128 ≤ R.rlen i → startOf R.rlen (i + 1) + 128 ≤ d.written

theorem walkRecord_followed {s : WalkState σ} (h : WalkInv g R body start s)
    (hbehind : Behind s.reader) (hmore : g.more s.reader = true) :
    Followed R s.results.length
      (g.seen s.reader.engine s.reader.bottom (g.readRlen s.reader.engine s.reader.bottom)) := by
  obtain ⟨top, hidle, hlt, hle⟩ := more_iff.1 hmore
  rw [h.rlen hidle hlt] at hle ⊢
  intro hlong
  have hfar := (hbehind top hidle).resolve_left (by omega)
  show startOf R.rlen s.results.length + R.rlen s.results.length + 128 ≤ s.reader.engine.written
  rw [← h.passed]
  omega

/-- **A record is not worked on before a window of 128 bytes follows it**: what comes last stays in
the ring until something else has arrived. -/
theorem walk_waits {s : WalkState σ}
    (h : (g.walk R.data mindata body start).Reach (fun _ _ => True) s) :
    ∀ i d, s.results[i]? = some d → 128 ≤ R.rlen i →
      startOf R.rlen (i + 1) + 128 ≤ d.written := by
  suffices hall : WalkInv g R body start s ∧ Behind s.reader ∧
      ∀ i d, s.results[i]? = some d → Followed R i d from hall.2.2
  refine h.invariant (I := fun s => WalkInv g R body start s ∧ Behind s.reader ∧
    ∀ i d, s.results[i]? = some d → Followed R i d) ?_ ?_
  · intro s hinit
    have hfresh : g.WalkFresh start s := hinit
    refine ⟨.fresh hfresh, ?_, ?_⟩
    · intro top hidle
      rw [hfresh.reader.pc] at hidle
      cases hidle
      exact .inl (Nat.lt_of_lt_of_le (by decide) (Nat.le_add_left 128 _))
    · intro i d hd
      rw [hfresh.results] at hd
      cases hd
  · rintro s a s' ⟨hinv, hbehind, hfollowed⟩ _ hstep
    refine ⟨hinv.step hstep, ?_⟩
    rcases walkStep_cases hstep with ⟨b, r, hr, -, rfl⟩ | ⟨-, hmore, rfl⟩ | ⟨-, rfl⟩
    · exact ⟨hbehind.step hinv.reader hr, hfollowed⟩
    · have hmove : g.readerStep R.data mindata s.reader (.move _) =
          some (g.walkRecord body s).reader := walkRecord_reader hmore
      refine ⟨hbehind.step hinv.reader hmove, ?_⟩
      have hnew := walkRecord_followed hinv hbehind hmore
      intro i d hd
      simp only [RxRing.walkRecord] at hd
      rw [List.getElem?_append] at hd
      split_ifs at hd with hi
      · exact hfollowed i d hd
      · rw [List.getElem?_singleton] at hd
        split_ifs at hd with hi0
        obtain rfl : i = s.results.length := by omega
        cases hd
        exact hnew
    · exact ⟨hbehind, hfollowed⟩

end

/-! ## A short run -/

/-- Records of 160 bytes. -/
def longRecords : Records rx4k where
  data k := if k % 160 = 11 then 160 else 0
  rlen _ := 160
  rlen_min _ := by decide
  rlen_max _ := by decide
  header k := by
    have hstart : startOf (fun _ => 160) k = 160 * k := by
      induction k with
      | zero => rfl
      | succ k ih =>
          rw [startOf, ih]
          omega
    rw [hstart, if_neg (by omega), if_pos (by omega)]
    decide

/-- The lengths of the records are collected. -/
def collect (bytes : List UInt8) (acc : List Nat) : Option (List Nat) := some (acc ++ [bytes.length])

/-- Before anything has happened. -/
def walkStart : WalkState (List Nat) := ⟨⟨engine4k 0, 0, .idle 0, 0⟩, some [], [], false⟩

theorem walkStart_reach :
    (rx4k.walk longRecords.data 16 collect []).Reach (fun _ _ => True) walkStart :=
  .start ⟨⟨engine4k_started 0, rfl, rfl, rfl⟩, rfl, rfl, rfl⟩

theorem walk_two_records : ∃ s : WalkState (List Nat), s.acc = some [160, 160] ∧
    (∀ i d, s.results[i]? = some d → Delivered rx4k longRecords i d) := by
  obtain ⟨s, hreach, hs⟩ := Machine.exists_reach_of_run walkStart_reach
    (List.replicate 450 .card ++ [.call, .tick, .tick, .record, .record])
    WalkState.acc (some [160, 160]) (by decide +kernel)
  exact ⟨s, hs, (walk_delivers hreach).1⟩

theorem walk_waits_window : ∃ s : WalkState (List Nat), s.acc = some [160] ∧
    ∀ d, s.results[0]? = some d → 288 ≤ d.written := by
  obtain ⟨s, hreach, hs⟩ := Machine.exists_reach_of_run walkStart_reach
    (List.replicate 300 .card ++ [.call, .tick, .tick, .record]) WalkState.acc (some [160])
    (by decide +kernel)
  exact ⟨s, hs, fun d hd => walk_waits hreach 0 d hd (by decide)⟩

end NacCard.Rx
