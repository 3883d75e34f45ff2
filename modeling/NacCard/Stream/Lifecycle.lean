import NacCard.Rx.Engine
import NacCard.Stream.Slots

/-!
# The calls on one stream

The rest of what can be called on a receive stream of an open card:
`nac_stop_stream`, `nac_clear_buf`, `clear_card_buf`, `nac_detach_stream`, and
`nac_advance_stream` as a function on the card's state (its arithmetic, on a ring
that is in order, is that of `NacCard.Rx.Engine`: `Describes.limitFor` and its companions).

* `LifeCall`, `LifeCall.run` — a call with its arguments, and what it comes to: a
  return, a wait that goes on, or a fault.
* `lifecycle` — any calls in any order on a descriptor that has just been opened.
-/

namespace NacCard.Stream

open NacCard.Base

/-! ## `nac_stop_stream` and the two clears -/

/-- Read the control register of `p`, set `dma_pause_n`, write it back. -/
def rewritePause (p : NacPbmStream) (b : Bool) (st : NacState) : NacState :=
  regWrite st p.dmaCtlReg (setDmaPauseN (st.regs p.dmaCtlReg) b)

/-- `stream->started = 0` -/
def markStopped (s : StreamT) : StreamT := { s with started := false }

/-- `nac_stop_stream`: the stream's card is paused. -/
def nacStopStream (streamNum : Nat) (st : NacState) : Except Fault (Int × NacState) :=
  let stream := st.sheep.stream streamNum
  if !st.sheep.opened || !stream.attached || !stream.started then .ok (-1, st)
  else
    match derefPbm st streamNum with
    | .error e => .error e
    | .ok pbm => .ok (0, setStream (rewritePause pbm false st) streamNum markStopped)

/-- `nac_clear_buf` checks nothing. -/
def nacClearBuf (streamNum : Nat) (st : NacState) : Except Fault NacState :=
  match derefPbm st streamNum with
  | .error e => .error e
  | .ok pbm =>
      let st := regWrite st pbm.dmaCtlReg 0
      let st := regWrite st pbm.dmaCtlReg (dmaCtl false true false)
      .ok (regWrite st pbm.dmaCtlReg 0)

/-- `clear_card_buf` with its check. -/
def nacClearCardBuf (streamNum : Nat) (st : NacState) : Int × NacState :=
  if streamNum ≥ NUM_STREAM then (-1, st) else (0, clearCardBuf streamNum st)

/-! ## `nac_detach_stream` -/

/-- `free(stream->pbm)`; the pointer keeps its value. -/
def freePbm (streamNum : Nat) (st : NacState) : Except Fault NacState :=
  match (st.sheep.stream streamNum).pbm with
  | none => .ok st
  | some a =>
      match st.heap a with
      | none => .error .doubleFree
      | some _ => .ok { st with heap := Function.update st.heap a none }

/-- `munmap`: the mappings that start in the range are gone. -/
def unmapRange (addr len : Nat) (st : NacState) : NacState :=
  { st with maps := st.maps.filter fun m => ¬(addr ≤ m.addr ∧ m.addr < addr + len) }

/-- What `nac_detach_stream` records. -/
def markDetached (s : StreamT) : StreamT := { s with started := false, attached := false }

/-- `nac_detach_stream`: the card is paused, the register addresses freed, the ring unmapped. -/
def nacDetachStream (streamNum : Nat) (st : NacState) : Except Fault (Int × NacState) :=
  if !st.sheep.opened then .ok (-1, st)
  else if (st.sheep.stream streamNum).buf ≠ 0 then
    match derefPbm st streamNum with
    | .error e => .error e
    | .ok pbm =>
        match freePbm streamNum (rewritePause pbm false st) with
        | .error e => .error e
        | .ok st =>
            let stream := st.sheep.stream streamNum
            .ok (0, setStream (unmapRange stream.buf (u32 (stream.size + stream.extraWindowSize)) st)
              streamNum markDetached)
  else .ok (0, setStream st streamNum markDetached)

/-! ## `nac_advance_stream` -/

namespace StreamT

variable (s : StreamT)

/-- `*bottom` as the function first sets it. -/
def normBottom (bottom : Nat) : Nat :=
  let bottom := if bottom = 0 then s.buf else bottom
  if bottom > s.buf + s.size then bottom - s.size else bottom

/-- `offset` for the first value of the record register … -/
def recordAddr (reg : Nat) : Nat := u32 ((reg : Int) - s.phyaddr) + s.buf

/-- … and for those read in the wait loop, without the cast. -/
def recordAddrAgain (reg : Nat) : Nat := u64 ((reg : Int) - s.phyaddr + s.buf)

/-- `limit_ptr_addr`, with `WRSAFE` -/
def limitFor (align : Nat) : Nat :=
  let x : Int := (align : Int) - s.buf
  u32 (s.phyaddr + if x - SAFETY_WINDOW ≤ 0 then (s.size : Int) else x - SAFETY_WINDOW)

/-- What is between `align` and `offset`, once around the ring if need be. -/
def available (align offset : Nat) : Nat :=
  if offset ≥ align then u32 ((offset : Int) - align) else u32 ((s.size : Int) - align + offset)

/-- What is returned for the last `offset`. -/
def advanceTop (align offset : Nat) : Nat :=
  let offset := if offset < align then offset + s.size else offset
  let offset :=
    if offset > s.buf + s.size + s.extraWindowSize then s.buf + s.size + s.extraWindowSize
    else offset
  if (offset : Int) - align ≥ SAFETY_WINDOW then offset - SAFETY_WINDOW else offset

/-- The wait loop: `polls` are the further values of the record register, each with
whether `maxwait` is over when it has been read; `none` while it still waits. -/
def waitForData (align : Nat) : List (Nat × Bool) → Bool → Nat → Option Nat
  | polls, expired, offset =>
      if s.available align offset ≥ s.mindata || s.maxwait ≠ 0 && expired then some offset
      else
        match polls with
        | [] => none
        | (r, expired) :: polls => waitForData align polls expired (s.recordAddrAgain r)

/-- The stream record says what the ring is. -/
structure Describes (g : Rx.RxRing) : Prop where
  size : s.size = g.size
  extra : s.extraWindowSize = g.extra
  phyaddr : s.phyaddr = g.phyaddr
  buf : s.buf = g.buf

variable {s} {g : Rx.RxRing}

theorem Describes.normBottom (h : s.Describes g) (bottom : Nat) :
    s.normBottom bottom = g.normBottom bottom := by
  rw [StreamT.normBottom, Rx.RxRing.normBottom, h.buf, h.size]

theorem Describes.recordAddr (h : s.Describes g) (r : Nat) :
    s.recordAddr r = g.recordAddr r := by
  rw [StreamT.recordAddr, Rx.RxRing.recordAddr, h.phyaddr, h.buf]

/-- Whether the reading is cast makes no difference while the card is in the ring. -/
theorem Describes.recordAddrAgain (h : s.Describes g) {r : Nat} (hlow : g.phyaddr ≤ r)
    (hr : r ≤ g.phyaddr + g.size) : s.recordAddrAgain r = g.recordAddr r := by
  have hbuf := g.buf_lt
  have hsize := g.size_lt
  have hdiff : u32 ((r : Int) - g.phyaddr) = r - g.phyaddr := by
    rw [← Nat.cast_sub hlow]
    exact u32_natCast (by omega)
  rw [StreamT.recordAddrAgain, Rx.RxRing.recordAddr, h.phyaddr, h.buf, hdiff]
  unfold u64
  omega

theorem Describes.limitFor (h : s.Describes g) (align : Nat) :
    s.limitFor align = g.limitFor align := by
  rw [StreamT.limitFor, Rx.RxRing.limitFor, Rx.RxRing.wrsafe, h.phyaddr, h.buf, h.size]

theorem Describes.available (h : s.Describes g) (align offset : Nat) :
    s.available align offset = g.available align offset := by
  rw [StreamT.available, Rx.RxRing.available, h.size]

theorem Describes.advanceTop (h : s.Describes g) (align offset : Nat) :
    s.advanceTop align offset = g.advanceTop align offset := by
  rw [StreamT.advanceTop, Rx.RxRing.advanceTop, h.size, h.buf, h.extra]

end StreamT

/-- What `nac_advance_stream` returns: `top` (`none` for `NULL`), `*bottom`. -/
structure AdvanceReturn where
  top : Option Nat
  bottom : Nat
  state : NacState

/-- `none` while the call waits; `reading` is the first value of the record register. -/
def nacAdvanceStream (streamNum bottom reading : Nat) (polls : List (Nat × Bool)) (st : NacState) :
    Except Fault (Option AdvanceReturn) :=
  let stream := st.sheep.stream streamNum
  if !st.sheep.opened || !stream.attached then .ok (some ⟨none, bottom, st⟩)
  else
    let bottom := stream.normBottom bottom
    let align := Rx.RxRing.bottomAlign bottom
    match derefPbm st streamNum with
    | .error e => .error e
    | .ok pbm =>
        let ctl := setDmaPauseN (st.regs pbm.dmaCtlReg) false
        let st := regWrite st pbm.dmaCtlReg ctl
        let st := regWrite st pbm.limitPtr (stream.limitFor align)
        -- the control register is not read again
        let st := regWrite st pbm.dmaCtlReg (setDmaPauseN ctl true)
        match stream.waitForData align polls false (stream.recordAddr reading) with
        | none => .ok none
        | some offset => .ok (some ⟨some (stream.advanceTop align offset), bottom, st⟩)

/-! ## Any calls -/

/-- A call on one stream, with its arguments. -/
inductive LifeCall where
  | configure (numStream : Int)
  | attach (extraWindowSize : Nat)
  | start
  | stop
  | advance (bottom reading : Nat) (polls : List (Nat × Bool))
  | clearBuf
  | clearCardBuf
  | detach
  deriving Repr, DecidableEq

/-- Whether a call succeeded, and the state it left; `none` while it waits. -/
def LifeCall.run (env : Env) (i : Nat) (st : NacState) :
    LifeCall → Except Fault (Option (Bool × NacState))
  | .configure n => (nacMsuConfigure env n st).map fun r => some (r.1 = 0, r.2)
  | .attach extra =>
      let r := nacAttachStream env i extra st
      .ok (some (r.1 = 0, r.2))
  | .start => (nacStartStream i st).map fun r => some (r.1 = 0, r.2)
  | .stop => (nacStopStream i st).map fun r => some (r.1 = 0, r.2)
  | .advance bottom reading polls =>
      (nacAdvanceStream i bottom reading polls st).map
        (Option.map fun r => (r.top.isSome, r.state))
  | .clearBuf => (nacClearBuf i st).map fun st => some (true, st)
  | .clearCardBuf =>
      let r := nacClearCardBuf i st
      .ok (some (r.1 = 0, r.2))
  | .detach => (nacDetachStream i st).map fun r => some (r.1 = 0, r.2)

/-- A descriptor that has just been opened; the card's registers are as they are. -/
structure JustOpened (st : NacState) : Prop where
  opened : st.sheep.opened = true
  stream : ∀ j, st.sheep.stream j = {}
  heap : ∀ a, st.heap a = none

/-- Calls for one stream in any order, from a descriptor that has just been opened. -/
def lifecycle (env : Env) (i : Nat) : Machine NacState LifeCall where
  init := JustOpened
  step st c :=
    match c.run env i st with
    | .ok (some r) => some r.2
    | _ => none

end NacCard.Stream
