import NacCard.Stream.Types

/-!
# Configuring, attaching and starting streams

The functions that divide the card's buffer among the streams: `nacMsuConfigure`
(and its multi-process sibling `nacProcInit`) program the DMA windows,
`nacAttachStream` maps a stream's share into the process, `nacStartStream`
writes its first limit pointer.  The flow-table functions `nacRftAttachStream`
and `nacRftStart` do the same for the refresh-flow-table window.

Each function is written as the source computes it, in the source's order of
register writes and with its integer types; `msuStream_ok` and `nacMsuConfigure_ok`
say what a call that succeeds has done.  What the windows come to is the subject of
`NacCard.Stream.Windows`.
-/

namespace NacCard.Stream

open NacCard.Base

/-! ## `nac_msu_configure` -/

/-- The register addresses of RX stream `i`. -/
def rxPbm (i : Nat) : NacPbmStream where
  dmaBufStart := HOST_ADDR_LO_REG + i * STREAM_REG_DIFF_0x40
  dmaBufEnd := BUF_BOTTOM_LO_REG + i * STREAM_REG_DIFF_0x40
  dmaCtlReg := DMA_CTL_REG + i * STREAM_REG_DIFF_0x40
  recordPtr := RECORD_PTR_LO_REG + i * STREAM_REG_DIFF_0x40
  limitPtr := LIMIT_PTR_LO_REG + i * STREAM_REG_DIFF_0x40
  dropCnt := DROP_CNT_REG + i * STREAM_REG_DIFF_0x40

/-- The register addresses of the refresh flow table; `dropCnt` is not assigned. -/
def rftPbm : NacPbmStream where
  dmaBufStart := RFT_HOST_ADDR_LO_REG
  dmaBufEnd := RFT_BUF_BOTTOM_LO_REG
  dmaCtlReg := RFT_DMA_CTL_REG
  recordPtr := RFT_RECORD_PTR_LO_REG
  limitPtr := RFT_LIMIT_PTR_LO_REG
  dropCnt := 0

/-- `capture_stop` -/
def captureStop (st : NacState) : NacState :=
  regWrite st BYPASS_EN_AND_CAP_START (st.regs BYPASS_EN_AND_CAP_START &&& 0xfffffE00)

/-- `clear_card_buf` for a stream number below `NUM_STREAM`. -/
def clearCardBuf (i : Nat) (st : NacState) : NacState :=
  regWrite st (DMA_CTL_REG + i * STREAM_REG_DIFF_0x40)
    (st.regs (DMA_CTL_REG + i * STREAM_REG_DIFF_0x40) ||| 0x4)

/-- `(info->buf_size - RFT_SIZE) / num_stream`: an unsigned quotient, stored in an `int`. -/
def shareOf (bufSize : Nat) (numStream : Int) : Int :=
  i32 (u32 ((bufSize : Int) - RFT_SIZE) / u32 numStream : Nat)

/-- Program the DMA window of one stream: start, end, then the control register
with the address loaded and the DMA stopped. -/
def programRx (p : NacPbmStream) (phyAddr : Nat) (bufSize : Int) (i : Nat) (st : NacState) :
    NacState :=
  let st := regWrite st p.dmaBufStart (u32 (phyAddr + i32 (i * bufSize)))
  let st := regWrite st p.dmaBufEnd (u32 (phyAddr + bufSize + i32 (i * bufSize)))
  regWrite st p.dmaCtlReg (dmaCtl true true false)

/-- One turn of the loop of `nac_msu_configure`. -/
def msuStream (env : Env) (phyAddr : Nat) (bufSize : Int) (i : Nat) (st : NacState) :
    Bool × NacState :=
  match mallocPbm env i (rxPbm i) st with
  | (false, st) => (false, st)
  | (true, st) =>
      let st := setStream st i fun s => { s with size := u32 bufSize }
      (true, programRx (rxPbm i) phyAddr bufSize i st)

/-- A turn that goes on has found memory. -/
theorem msuStream_ok {env : Env} {phyAddr i : Nat} {bufSize : Int} {st st' : NacState}
    (h : msuStream env phyAddr bufSize i st = (true, st')) :
    ∃ st1, mallocPbm env i (rxPbm i) st = (true, st1) ∧
      programRx (rxPbm i) phyAddr bufSize i
        (setStream st1 i fun s => { s with size := u32 bufSize }) = st' := by
  unfold msuStream at h
  cases hm : mallocPbm env i (rxPbm i) st with
  | mk ok st1 =>
      rw [hm] at h
      cases ok with
      | false => cases h
      | true => exact ⟨st1, rfl, congrArg Prod.snd h⟩

/-- A turn that does not has found none, and done nothing more. -/
theorem msuStream_failed {env : Env} {phyAddr i : Nat} {bufSize : Int} {st st' : NacState}
    (h : msuStream env phyAddr bufSize i st = (false, st')) :
    mallocPbm env i (rxPbm i) st = (false, st') := by
  unfold msuStream at h
  cases hm : mallocPbm env i (rxPbm i) st with
  | mk ok st1 =>
      rw [hm] at h
      cases ok with
      | false => exact h
      | true => cases h

/-- Program the flow-table window at `rftNum * bufSize` and start its DMA with the
limit at the top. -/
def programRft (phyAddr : Nat) (rftOff : Int) (st : NacState) : NacState :=
  let st := regWrite st RFT_DMA_CTL_REG (dmaCtl false false false)
  let st := regWrite st RFT_DMA_CTL_REG (dmaCtl true false false)
  let st := regWrite st RFT_HOST_ADDR_LO_REG (u32 (phyAddr + rftOff))
  let st := regWrite st RFT_BUF_BOTTOM_LO_REG (u32 (phyAddr + rftOff + RFT_SIZE))
  let st := regWrite st RFT_LIMIT_PTR_LO_REG (u32 (phyAddr + rftOff))
  regWrite st RFT_DMA_CTL_REG (dmaCtl false false true)

/-- The stream counts `nac_msu_configure` and `nac_proc_init` turn down. -/
def badNumStream (numStream : Int) : Bool :=
  numStream ≤ 0 || numStream > NUM_STREAM || numStream = 3

/-- What both do with the `herd` entry in that case. -/
def refuseNumStream (st : NacState) : NacState :=
  { st with sheep := { st.sheep with msuConfig := false, numStream := 1 } }

/-- What a successful call records in the `herd` entry. -/
def markConfigured (n : Nat) (st : NacState) : NacState :=
  { st with sheep := { st.sheep with numStream := n, msuConfig := true } }

/-- `nac_msu_configure`: the streams in turn, and then the flow table behind them. -/
def nacMsuConfigure (env : Env) (numStream : Int) (st : NacState) : Except Fault (Int × NacState) :=
  if badNumStream numStream then .ok (-1, refuseNumStream st)
  -- `nac_info` returns `NULL` for a descriptor that is not open
  else if !st.sheep.opened then .error .badPointer
  else
    let phyAddr := st.sheep.nacinf.phyAddr
    let rftNum := numStream.toNat
    let bufSize := shareOf st.sheep.nacinf.bufSize numStream
    match runFor (msuStream env phyAddr bufSize) (List.range' 0 numStream.toNat) (captureStop st) with
    | (false, st) => .ok (-1, st)
    | (true, st) =>
        match mallocPbm env rftNum rftPbm st with
        | (false, st) => .ok (-1, st)
        | (true, st) =>
            let st := setStream st rftNum fun s => { s with size := RFT_SIZE }
            let st := programRft phyAddr (rftNum * bufSize) st
            .ok (0, markConfigured numStream.toNat st)

/-- **All that has been done when the call succeeds.** -/
theorem nacMsuConfigure_ok {env : Env} {numStream : Int} {st st' : NacState}
    (h : nacMsuConfigure env numStream st = .ok (0, st')) :
    badNumStream numStream = false ∧ st.sheep.opened = true ∧ ∃ st1 st2,
      runFor (msuStream env st.sheep.nacinf.phyAddr (shareOf st.sheep.nacinf.bufSize numStream))
        (List.range' 0 numStream.toNat) (captureStop st) = (true, st1) ∧
      mallocPbm env numStream.toNat rftPbm st1 = (true, st2) ∧
      markConfigured numStream.toNat (programRft st.sheep.nacinf.phyAddr
        (numStream.toNat * shareOf st.sheep.nacinf.bufSize numStream)
        (setStream st2 numStream.toNat fun s => { s with size := RFT_SIZE })) = st' := by
  unfold nacMsuConfigure at h
  split_ifs at h with hbad hopen
  · cases h
  · refine ⟨by simpa using hbad, by simpa using hopen, ?_⟩
    dsimp only at h
    cases hloop : runFor (msuStream env st.sheep.nacinf.phyAddr
        (shareOf st.sheep.nacinf.bufSize numStream)) (List.range' 0 numStream.toNat)
        (captureStop st) with
    | mk ok st1 =>
        rw [hloop] at h
        cases ok with
        | false => cases h
        | true =>
            dsimp only at h
            cases hm : mallocPbm env numStream.toNat rftPbm st1 with
            | mk ok st2 =>
                rw [hm] at h
                cases ok with
                | false => cases h
                | true =>
                    simp only [Except.ok.injEq, Prod.mk.injEq, true_and] at h
                    exact ⟨st1, st2, rfl, hm, h⟩

section Frames

variable (p : NacPbmStream) (phyAddr i : Nat) (off : Int) (st : NacState)

@[simp] theorem captureStop_sheep : (captureStop st).sheep = st.sheep := rfl
@[simp] theorem programRx_sheep : (programRx p phyAddr off i st).sheep = st.sheep := rfl
@[simp] theorem programRft_sheep : (programRft phyAddr off st).sheep = st.sheep := rfl
@[simp] theorem markConfigured_stream :
    (markConfigured i st).sheep.stream = st.sheep.stream := rfl

end Frames

/-! ## `nac_proc_init` and `nac_proc_rft_config` -/

/-- The loop body of `nac_proc_init`; nothing in it can fail. -/
def procStream (phyAddr : Nat) (bufSize : Int) (i : Nat) (st : NacState) : Bool × NacState :=
  (true, programRx (rxPbm i) phyAddr bufSize i st)

/-- The loop body that clears a stream's buffer. -/
def clearLoop (i : Nat) (st : NacState) : Bool × NacState := (true, clearCardBuf i st)

/-- Here `rft_num` is the constant `NUM_STREAM`, whatever the number of streams. -/
def nacProcInit (numStream : Int) (st : NacState) : Except Fault (Int × NacState) :=
  if badNumStream numStream then .ok (-1, refuseNumStream st)
  else if !st.sheep.opened then .error .badPointer
  else
    let phyAddr := st.sheep.nacinf.phyAddr
    let rftNum : Int := NUM_STREAM
    let bufSize := shareOf st.sheep.nacinf.bufSize numStream
    let streams := List.range' 0 numStream.toNat
    let st := (runFor clearLoop streams (captureStop st)).2
    let st := (runFor (procStream phyAddr bufSize) streams st).2
    let st := programRft phyAddr (i32 (rftNum * bufSize)) st
    let st := (runFor clearLoop streams st).2
    .ok (0, { st with sheep := { st.sheep with numStream := numStream.toNat } })

/-- `nac_proc_rft_config`: the register addresses of the flow table, and its size. -/
def nacProcRftConfig (env : Env) (numStream : Int) (st : NacState) :
    Except Fault (Int × NacState) :=
  if !st.sheep.opened then .error .badPointer
  else
    let rftNum := u32 numStream
    match mallocPbm env rftNum rftPbm st with
    | (false, st) => .ok (-1, st)
    | (true, st) => .ok (0, setStream st rftNum fun s => { s with size := RFT_SIZE })

/-! ## `nac_attach_stream` and `nac_start_stream` -/

/-- The addresses lost after request `clock` has been refused: one for fixed addresses can have
unmapped what was there. -/
def lostByRefusal (env : Env) (clock : Nat) (addr : Option Nat) (len : Nat) (lost : Nat → Bool) :
    Nat → Bool :=
  match addr with
  | none => lost
  | some a => if env.unmaps clock then unmapPages a len lost else lost

/-- One `mmap` call: `-1` on failure is `none`. -/
def doMmap (env : Env) (addr : Option Nat) (len : Nat) (device : Bool) (off : Int)
    (st : NacState) : Option Nat × NacState :=
  match env.mmap st.clock with
  | none =>
      (none,
        { st with
          lost := lostByRefusal env st.clock addr len st.lost
          clock := st.clock + 1 })
  | some a =>
      -- `MAP_FIXED` makes the kernel use the address it was given
      let at' := addr.getD a
      (some at',
        { st with
          maps := ⟨at', len, device, off⟩ :: st.maps
          lost := mapPages at' len st.lost
          clock := st.clock + 1 })

@[simp] theorem doMmap_sheep (env : Env) (addr : Option Nat) (len : Nat) (device : Bool) (off : Int)
    (st : NacState) : (doMmap env addr len device off st).2.sheep = st.sheep := by
  unfold doMmap
  cases env.mmap st.clock with
  | none => rfl
  | some a => rfl

/-- The values every attempt to attach starts with. -/
def attachDefaults (s : StreamT) : StreamT :=
  { s with mindata := NACAPI_MINDATA, maxwait := 0, poll := 1000000 }

/-- The three mappings of a stream: address space for the ring and its extra
window, then the device behind each of the two. -/
def mapRing (env : Env) (bufSize : Int) (extra : Nat) (off : Int) (st : NacState) :
    Option Nat × NacState :=
  match doMmap env none (u32 (bufSize + extra)) false 0 st with
  | (none, st) => (none, st)
  | (some sp, st) =>
      match doMmap env (some sp) (u64 bufSize) true off st with
      | (none, st) => (none, st)
      | (some p, st) =>
          match doMmap env (some (u64 (sp + bufSize))) extra true off st with
          | (none, st) => (none, st)
          | (some _, st) => (some p, st)

/-- What a successful attach records. -/
def markAttached (p extra phyaddr : Nat) (s : StreamT) : StreamT :=
  { s with
    extraWindowSize := extra
    buf := p
    offset := 0
    freeSpace := 0
    isFirstTime := true
    phyaddr := phyaddr
    attached := true
    started := false }

/-- `nac_attach_stream` once the extra window has a size; `bufSize` is `uint32_t` in
`stream_t` and `int` here. -/
def attachRing (env : Env) (streamNum : Nat) (bufSize : Int) (extra : Nat) (st : NacState) :
    Int × NacState :=
  if i32 extra > bufSize then (-1, st)
  else
    match mapRing env bufSize extra (i32 (bufSize * streamNum)) st with
    | (none, st) => (-1, st)
    | (some p, st) =>
        (0, setStream st streamNum
          (markAttached p extra (u32 (st.sheep.nacinf.phyAddr + i32 (streamNum * bufSize)))))

/-- `nac_attach_stream`: the defaults, and then the ring. -/
def nacAttachStream (env : Env) (streamNum : Nat) (extraWindowSize : Nat) (st : NacState) :
    Int × NacState :=
  if !st.sheep.opened then (-1, st)
  else
    let bufSize := i32 (st.sheep.stream streamNum).size
    attachRing env streamNum bufSize (if extraWindowSize = 0 then u32 bufSize else extraWindowSize)
      (setStream st streamNum attachDefaults)

/-- `stream->started = 1` -/
def markStarted (s : StreamT) : StreamT := { s with started := true }

/-- The writes of `nac_start_stream`: the limit, then the control register. -/
def startWrites (p : NacPbmStream) (streamNum limit : Nat) (st : NacState) : NacState :=
  let st := regWrite st p.limitPtr limit
  let st := regWrite st p.dmaCtlReg (dmaCtl false false true)
  setStream st streamNum markStarted

/-- The register addresses are read before any check. -/
def nacStartStream (streamNum : Nat) (st : NacState) : Except Fault (Int × NacState) :=
  match derefPbm st streamNum with
  | .error e => .error e
  | .ok pbm =>
      let stream := st.sheep.stream streamNum
      if !st.sheep.opened || !stream.attached || stream.started then .ok (-1, st)
      else
        .ok (0, startWrites pbm streamNum (u32 (stream.phyaddr + i32 stream.size)) st)

/-! ## The refresh flow table -/

/-- `rft_num` of the flow-table functions: `NUM_STREAM * 2`. -/
def RFT_NUM : Nat := NUM_STREAM * 2

/-- The defaults of the flow table's slot. -/
def rftDefaults (s : StreamT) : StreamT :=
  { s with size := RFT_SIZE, mindata := NACAPI_MINDATA, maxwait := 0, poll := 1000000 }

/-- What `nac_rft_attach_stream` records when both requests were granted. -/
def markRftAttached (p phyaddr : Nat) (s : StreamT) : StreamT :=
  { s with
    buf := p
    extraWindowSize := 0
    offset := 0
    phyaddr := phyaddr
    attached := true
    started := false }

/-- `nac_rft_attach_stream`: a reservation, and the buffer in its place. -/
def nacRftAttachStream (env : Env) (st : NacState) : Int × NacState :=
  if !st.sheep.opened then (-1, st)
  else
    let bufSize := shareOf st.sheep.nacinf.bufSize RFT_NUM
    let st := setStream st RFT_NUM rftDefaults
    match doMmap env none RFT_SIZE false 0 st with
    | (none, st) => (-1, st)
    | (some sp, st) =>
        match doMmap env (some sp) RFT_SIZE true (u32 (bufSize * RFT_NUM)) st with
        | (none, st) => (-1, st)
        | (some p, st) =>
            (0, setStream st RFT_NUM
              (markRftAttached p (u32 (st.sheep.nacinf.phyAddr + RFT_NUM * bufSize))))

/-- The rest of the readings once one of them (record pointer, limit pointer)
meets `stop`; `none` while the loop still waits. -/
def pollUntil (stop : Nat → Nat → Bool) : List (Nat × Nat) → Option (List (Nat × Nat))
  | [] => none
  | (record, limit) :: readings => if stop record limit then some readings else pollUntil stop readings

/-- The limits `nac_rft_start` writes, and the state it leaves; `readings` are the
pairs of pointer values it reads while it waits, `none` as long as it waits. -/
def nacRftStart (readings : List (Nat × Nat)) (st : NacState) :
    Except Fault (Option (List Nat × NacState)) :=
  match derefPbm st RFT_NUM with
  | .error e => .error e
  | .ok pbm =>
      if !st.sheep.opened then .error .badPointer
      else
        let bufSize := u32 ((st.sheep.nacinf.bufSize : Int) - RFT_SIZE) / RFT_NUM
        let dmaMid := u32 (st.sheep.nacinf.phyAddr + RFT_NUM * bufSize + RFT_SIZE / 2)
        let dmaEnd := u32 (st.sheep.nacinf.phyAddr + RFT_NUM * bufSize + RFT_SIZE)
        let st := regWrite st pbm.limitPtr dmaMid
        match pollUntil (fun record limit => limit ≠ record) readings with
        | none => .ok none
        | some readings =>
            let st := regWrite st pbm.limitPtr dmaEnd
            match pollUntil (fun record limit => limit = record) readings with
            | none => .ok none
            | some _ =>
                .ok (some ([dmaMid, dmaEnd], setStream st RFT_NUM markStarted))

end NacCard.Stream
