import NacCard.Base.Run
import NacCard.Rx.Advance

/-!
# `nac_get_next_record`

Records lie end to end in the stream the card writes; each tells its own length in
bytes 10 and 11 of its header.  `nac_get_next_record` keeps three variables between
its calls and asks `nac_advance_stream` for more data up to twice a call.

* `Records` — a stream of records.
* `StreamVars` — what `stream_t` keeps for the function.
* `RecordPc` — where a call is; as for `nac_advance_stream`, it is cut wherever the
  card's progress can make a difference.
* `recordStep` — the machine, and `Delivery`, what the caller of `nac_get_next_record`
  is given.

The stream is open and attached throughout, so `nac_advance_stream` never
returns `NULL` and a `NULL` result is always `EAGAIN`.
-/

namespace NacCard.Rx

open NacCard.Base NacCard.Stream

/-! ## Records -/

/-- Where record `k` begins. -/
def startOf (rlen : Nat → Nat) : Nat → Nat
  | 0 => 0
  | k + 1 => startOf rlen k + rlen k

/-- Records of 16 to `extra` bytes, laid end to end. -/
structure Records (g : RxRing) where
  data : Nat → UInt8
  rlen : Nat → Nat
  rlen_min : ∀ k, 16 ≤ rlen k
  rlen_max : ∀ k, rlen k ≤ g.extra
  /-- `rlen` in network byte order -/
  header : ∀ k, 256 * (data (startOf rlen k + 10)).toNat + (data (startOf rlen k + 11)).toNat = rlen k

/-! ## The state -/

/-- `nac_record_size` -/
def nacRecordSize : Int := 16

/-- The fields of `stream_t` that `nac_get_next_record` keeps between calls. -/
structure StreamVars where
  offset : Nat
  freeSpace : Int
  processed : Nat
  isFirstTime : Bool
  deriving Repr, DecidableEq

/-- The two calls of `nac_advance_stream`; at the second `rlen` is known. -/
inductive AdvanceCall where
  | first
  | second (rlen : Nat)
  deriving Repr, DecidableEq

/-- Where the library is: between calls, or inside one of them. -/
inductive RecordPc where
  | idle
  /-- `nac_advance_stream` is about to be called for `next_record` -/
  | enter (c : AdvanceCall) (next : Nat)
  /-- it has read the record pointer -/
  | read (c : AdvanceCall) (next r : Nat)
  /-- it has written the limit -/
  | poll (c : AdvanceCall) (next r : Nat)
  /-- `rlen` is about to be read -/
  | header (next : Nat)
  /-- an address behind the mapping was read -/
  | fault
  deriving Repr, DecidableEq

/-- A record as it was when it was returned: its address, its length, the bytes that
lay there, and how many the card had written by then. -/
structure Delivery where
  address : Nat
  rlen : Nat
  bytes : List UInt8
  written : Nat
  deriving Repr, DecidableEq

/-- The card, the library, and what its calls have returned. -/
structure RecordState where
  engine : Engine UInt8
  vars : StreamVars
  pc : RecordPc
  results : List Delivery

/-- A step of the card or of the library. -/
inductive RecordAct where
  | card
  /-- a call of `nac_get_next_record` -/
  | call
  /-- the call under way goes on -/
  | tick
  /-- the wait loop of `nac_advance_stream` gives up -/
  | timeout
  deriving Repr, DecidableEq

/-! ## The variables -/

namespace StreamVars

/-- `if (stream->is_first_time)` -/
def firstTime (v : StreamVars) : StreamVars :=
  if v.isFirstTime then ⟨0, 0, 0, false⟩ else v

/-- After `nac_advance_stream` has returned `top`. -/
def advanced (v : StreamVars) (next top : Nat) : StreamVars :=
  { v with processed := 0, freeSpace := i32 ((top : Int) - next) }

/-- "set for next time" -/
def returned (v : StreamVars) (buf next rlen : Nat) : StreamVars :=
  { v with
    offset := u32 ((next : Int) + rlen - buf)
    freeSpace := i32 ((u32 v.freeSpace : Int) - rlen)
    processed := u32 ((v.processed : Int) + rlen) }

end StreamVars

namespace RxRing

variable (g : RxRing)

/-- The test before `rlen` is read; both sides of its first comparison are signed. -/
def needsFirst (v : StreamVars) : Bool :=
  v.freeSpace < nacRecordSize || g.extra < u32 ((v.processed : Int) + nacRecordSize)

/-- The test after `rlen` is read; `rlen` is unsigned, so `free_space` is converted. -/
def needsSecond (v : StreamVars) (rlen : Nat) : Bool :=
  u32 v.freeSpace < rlen || g.extra < u32 ((v.processed : Int) + rlen)

/-- `ntohs(((erf_record_t*)next_record)->rlen)` -/
def readRlen (e : Engine UInt8) (next : Nat) : Nat :=
  256 * (g.readByte e (next + 10)).toNat + (g.readByte e (next + 11)).toNat

/-- What a caller finds at `next`. -/
def seen (e : Engine UInt8) (next rlen : Nat) : Delivery :=
  ⟨next, rlen, (List.range rlen).map fun j => g.readByte e (next + j), e.written⟩

/-! ## The machine -/

/-- `return next_record` -/
def deliver (s : RecordState) (next rlen : Nat) : RecordState :=
  { s with
    vars := s.vars.returned g.buf next rlen
    pc := .idle
    results := s.results ++ [g.seen s.engine next rlen] }

/-- `rlen` is read, and tested. -/
def readHeader (s : RecordState) (next : Nat) : RecordState :=
  if g.buf + g.size + g.extra < next + 12 then { s with pc := .fault }
  else if g.needsSecond s.vars (g.readRlen s.engine next) then
    { s with pc := .enter (.second (g.readRlen s.engine next)) next }
  else g.deliver s next (g.readRlen s.engine next)

/-- `nac_advance_stream` has returned `top`. -/
def resume (s : RecordState) (c : AdvanceCall) (next top : Nat) : RecordState :=
  let v := s.vars.advanced next top
  match c with
  | .first =>
      if v.freeSpace < nacRecordSize then { s with vars := v, pc := .idle }
      else { s with vars := v, pc := .header next }
  | .second rlen =>
      if u32 v.freeSpace < rlen then { s with vars := v, pc := .idle }
      else g.deliver { s with vars := v } next rlen

/-- The beginning of a call, up to the first test. -/
def beginCall (s : RecordState) : RecordState :=
  let v := s.vars.firstTime
  let next := g.buf + v.offset
  { s with vars := v, pc := if g.needsFirst v then .enter .first next else .header next }

/-- A call goes on to the next place where the card matters. -/
def tick (mindata : Nat) (s : RecordState) : Option RecordState :=
  match s.pc with
  | .idle => none
  | .enter c next => some { s with pc := .read c (g.normBottom next) (g.recordPtr s.engine) }
  | .read c next r => some { s with engine := g.writeLimit next s.engine, pc := .poll c next r }
  | .poll c next r =>
      if g.waits mindata next r then some { s with pc := .poll c next (g.recordPtr s.engine) }
      else some (g.resume s c next (g.topFor next r))
  | .header next => some (g.readHeader s next)
  | .fault => none

/-- What a step does. -/
def recordStep (data : Nat → UInt8) (mindata : Nat) (s : RecordState) :
    RecordAct → Option RecordState
  | .card => (g.engineStep data s.engine).map fun e => { s with engine := e }
  | .call =>
      match s.pc with
      | .idle => some (g.beginCall s)
      | _ => none
  | .tick => g.tick mindata s
  | .timeout =>
      match s.pc with
      | .poll c next r => some (g.resume s c next (g.topFor next r))
      | _ => none

/-- Nothing has been received or called for. -/
structure RecordFresh (s : RecordState) : Prop where
  engine : g.Started s.engine
  isFirstTime : s.vars.isFirstTime = true
  pc : s.pc = .idle
  results : s.results = []

/-- Reading records from the start of the stream. -/
def recordReader (R : Records g) (mindata : Nat) : Machine RecordState RecordAct :=
  ⟨g.RecordFresh, g.recordStep R.data mindata⟩

end RxRing

end NacCard.Rx
