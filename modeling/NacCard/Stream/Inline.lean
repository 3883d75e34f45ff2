import NacCard.Stream.Configure

/-!
# The forwarding set-up

Inline forwarding pairs RX stream `i` with TX stream `i + NUM_STREAM`.
`nac_inline_msu_configure` programs both banks of windows,
`nac_tx_attach_stream` and `nac_tx_start_stream` bring the TX side up, and
`nac_tx_stream_commit_bytes` moves its limit.

There are two modes: with `OVERLAP_FWD` the pair is meant to share one window,
with `COPY_FWD` each has its own.  What the functions set up is the subject of
`NacCard.Stream.Slots`.
-/

namespace NacCard.Stream

open NacCard.Base

/-! ## Constants -/

/-- `TX_DMA_CTL_REG`, the control register of TX stream 0. -/
def TX_DMA_CTL_REG : Nat := 0x80200
/-- `TX_HOST_ADDR_LO_REG`, the start of its buffer. -/
def TX_HOST_ADDR_LO_REG : Nat := 0x80204
/-- `TX_BUF_BOTTOM_LO_REG`, the end of its buffer. -/
def TX_BUF_BOTTOM_LO_REG : Nat := 0x8020C
/-- `TX_LIMIT_PTR_LO_REG`, how far the card may send. -/
def TX_LIMIT_PTR_LO_REG : Nat := 0x80214
/-- `TX_RECORD_PTR_LO_REG`, how far it has sent. -/
def TX_RECORD_PTR_LO_REG : Nat := 0x8021C

/-- `enum fwd_type` -/
def OVERLAP_FWD : Nat := 0
/-- `COPY_FWD`: there are rings of their own for sending. -/
def COPY_FWD : Nat := 1

/-! ## `nac_inline_msu_configure` -/

/-- The register addresses of TX stream `i + NUM_STREAM`; `dropCnt` is not assigned. -/
def txPbm (i : Nat) : NacPbmStream where
  dmaBufStart := TX_HOST_ADDR_LO_REG + i * STREAM_REG_DIFF_0x40
  dmaBufEnd := TX_BUF_BOTTOM_LO_REG + i * STREAM_REG_DIFF_0x40
  dmaCtlReg := TX_DMA_CTL_REG + i * STREAM_REG_DIFF_0x40
  recordPtr := TX_RECORD_PTR_LO_REG + i * STREAM_REG_DIFF_0x40
  limitPtr := TX_LIMIT_PTR_LO_REG + i * STREAM_REG_DIFF_0x40
  dropCnt := 0

/-- Stop the DMA, write the two window registers, load them. -/
def programWindow (p : NacPbmStream) (endReg start stop : Nat) (st : NacState) : NacState :=
  let st := regWrite st p.dmaCtlReg 0
  let st := regWrite st p.dmaBufStart start
  let st := regWrite st endReg stop
  regWrite st p.dmaCtlReg (dmaCtl true true false)

/-- One turn of either loop: allocate the register addresses of a slot, set its
size, program its window. -/
def inlineSlot (env : Env) (slot : Nat) (p : NacPbmStream) (bufSize : Int)
    (endReg start stop : Nat) (st : NacState) : Bool × NacState :=
  match mallocPbm env slot p st with
  | (false, st) => (false, st)
  | (true, st) =>
      let st := setStream st slot fun s => { s with size := u32 bufSize }
      (true, programWindow p endReg start stop st)

/-- The RX side: share `i` of the card's buffer. -/
def inlineRx (env : Env) (phyAddr : Nat) (bufSize : Int) (i : Nat) : NacState → Bool × NacState :=
  inlineSlot env i (rxPbm i) bufSize (rxPbm i).dmaBufEnd
    (u32 (phyAddr + i32 (i * bufSize))) (u32 (phyAddr + bufSize + i32 (i * bufSize)))

/-- The TX side: the same share in overlap mode, one of the second half in copy mode. -/
def inlineTx (env : Env) (flags phyAddr : Nat) (bufSize : Int) (i : Nat) :
    NacState → Bool × NacState :=
  if flags = OVERLAP_FWD then
    -- the end goes to `stream[i].pbm->dma_buf_end`, a register of the RX slot
    inlineSlot env (i + NUM_STREAM) (txPbm i) bufSize (rxPbm i).dmaBufEnd
      (u32 (phyAddr + i32 (i * bufSize))) (u32 (phyAddr + bufSize + i32 (i * bufSize)))
  else
    inlineSlot env (i + NUM_STREAM) (txPbm i) bufSize (txPbm i).dmaBufEnd
      (u32 (phyAddr + i32 ((i + NUM_STREAM : Nat) * bufSize)))
      (u32 (phyAddr + bufSize + i32 ((i + NUM_STREAM : Nat) * bufSize)))

/-- The size of each stream's share: the RX half is divided in overlap mode, the
whole buffer in copy mode. -/
def inlineShare (flags bufSize : Nat) : Int :=
  if flags = OVERLAP_FWD then i32 (bufSize / NUM_STREAM : Nat)
  else i32 (bufSize / (NUM_STREAM * 2) : Nat)

/-- Every failure ends in `exit(-1)`: `none` is a process that is gone. -/
def nacInlineMsuConfigure (env : Env) (numStream : Int) (flags : Nat) (st : NacState) :
    Except Fault (Option (Int × NacState)) :=
  if numStream ≤ 0 ∨ numStream > NUM_STREAM then .ok none
  else if !st.sheep.opened then .error .badPointer
  else
    let phyAddr := st.sheep.nacinf.phyAddr
    let bufSize := inlineShare flags st.sheep.nacinf.bufSize
    let streams := List.range' 0 numStream.toNat
    match runFor (inlineRx env phyAddr bufSize) streams (captureStop st) with
    | (false, _) => .ok none
    | (true, st) =>
        match runFor (inlineTx env flags phyAddr bufSize) streams st with
        | (false, _) => .ok none
        | (true, st) => .ok (some (0, st))

/-! ## The TX side -/

/-- What an overlap attach records; `buf` and `phyaddr` are assigned to themselves. -/
def markOverlap (extra : Nat) (s : StreamT) : StreamT :=
  { s with
    extraWindowSize := extra
    phyaddr := s.phyaddr
    buf := s.buf
    offset := 0
    freeSpace := 0
    isFirstTime := true
    attached := true
    started := false }

/-- `nac_tx_attach_stream` in overlap mode, once the extra window has a size. -/
def attachOverlap (streamNum : Nat) (bufSize : Int) (extra : Nat) (st : NacState) :
    Int × NacState :=
  if i32 extra > bufSize then (-1, st)
  else (0, setStream st streamNum (markOverlap extra))

/-- `nac_tx_attach_stream`: the defaults, and then `attachOverlap` or a ring of its own. -/
def nacTxAttachStream (env : Env) (streamNum flags extraWindowSize : Nat) (st : NacState) :
    Int × NacState :=
  if !st.sheep.opened then (-1, st)
  else if streamNum < NUM_STREAM then (-1, st)
  else
    let bufSize := i32 (st.sheep.stream streamNum).size
    let extra := if extraWindowSize = 0 then u32 bufSize else extraWindowSize
    let st := setStream st streamNum attachDefaults
    if flags = OVERLAP_FWD then attachOverlap streamNum bufSize extra st
    else attachRing env streamNum bufSize extra st

/-- As on the RX side the register addresses are read before any check; the first
limit is the start of the window. -/
def nacTxStartStream (streamNum : Nat) (st : NacState) : Except Fault (Int × NacState) :=
  match derefPbm st streamNum with
  | .error e => .error e
  | .ok pbm =>
      let stream := st.sheep.stream streamNum
      if !st.sheep.opened || !stream.attached || stream.started || streamNum < NUM_STREAM then
        .ok (-1, st)
      else .ok (0, startWrites pbm streamNum stream.phyaddr st)

/-- Move the offset on; the end of the ring is kept as it is. -/
def commitAdvance (size : Nat) (s : StreamT) : StreamT :=
  let offset := u32 (s.offset + size)
  let offset := if offset > s.size then offset - s.size else offset
  { s with offset := offset, lastBusBottom := u32 (s.phyaddr + offset) }

/-- The pointer returned, `none` for `NULL`. -/
def nacTxStreamCommitBytes (streamNum size : Nat) (st : NacState) :
    Except Fault (Option Nat × NacState) :=
  let stream := st.sheep.stream streamNum
  if !st.sheep.opened || !stream.attached || size > stream.size ||
      (streamNum < NUM_STREAM || streamNum > NUM_STREAM * 2 - 1) then .ok (none, st)
  else
    let st := setStream st streamNum (commitAdvance size)
    match derefPbm st streamNum with
    | .error e => .error e
    | .ok pbm =>
        let stream := st.sheep.stream streamNum
        .ok (some (u64 (stream.buf + stream.offset)), regWrite st pbm.limitPtr stream.lastBusBottom)

end NacCard.Stream
