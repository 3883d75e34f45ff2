import NacCard.Base.Run
import NacCard.Base.Words

/-!
# The data model of the stream library

One open card as the library sees it: the `herd` entry of its descriptor, the
register bank behind `iom`, the heap blocks that hold the per-stream register
addresses (`nacpbm_stream_t`) and the mappings the process asked for.

* `StreamT`, `NacInf`, `SheepT` follow `stream_t`, `nacinf_t` and `sheep_t`,
  with the fields the stream functions use; a `uint32_t` is a `Nat` and every
  store into one goes through `u32`.
* `NacState` is the whole state, `Env` the answers of `malloc` and `mmap`, one
  for each request in the order they are made.
* `mapPages`, `unmapPages` are what a request for fixed addresses does to the pages
  there: refused by the driver, it can leave none of what was mapped before.
* `regWrite`, `setStream`, `derefPbm`, `mallocPbm` are the accesses the
  functions consist of, with what each of them leaves alone.
-/

namespace NacCard.Stream

open NacCard.Base

/-! ## Constants -/

/-- `NUM_STREAM`: the streams of a card, for either direction. -/
def NUM_STREAM : Nat := 8
/-- `RFT_SIZE`, the buffer of the refresh flow table. -/
def RFT_SIZE : Nat := 8 * (1 * 1024 * 1024)
/-- `SAFETY_WINDOW`: the card stays so many bytes behind the reader. -/
def SAFETY_WINDOW : Nat := 128
/-- `nac_record_size`, the header of a record. -/
def NAC_RECORD_SIZE : Nat := 16

/-- `nacapi_mindata`, the default of a freshly attached stream. -/
def NACAPI_MINDATA : Nat := NAC_RECORD_SIZE

/-- `STREAM_REG_DIFF_0x40`: from the registers of one stream to those of the next. -/
def STREAM_REG_DIFF_0x40 : Nat := 0x40

/-- `DMA_CTL_REG`, the control register of RX stream 0. -/
def DMA_CTL_REG : Nat := 0x80000
/-- `HOST_ADDR_LO_REG`, the start of its buffer. -/
def HOST_ADDR_LO_REG : Nat := 0x80004
/-- `BUF_BOTTOM_LO_REG`, the end of its buffer. -/
def BUF_BOTTOM_LO_REG : Nat := 0x8000C
/-- `LIMIT_PTR_LO_REG`, how far the card may write. -/
def LIMIT_PTR_LO_REG : Nat := 0x80014
/-- `RECORD_PTR_LO_REG`, how far it has written. -/
def RECORD_PTR_LO_REG : Nat := 0x80020
/-- `DROP_CNT_REG`, what it has dropped. -/
def DROP_CNT_REG : Nat := 0x80028

/-- `RFT_DMA_CTL_REG`, the control register of the flow table. -/
def RFT_DMA_CTL_REG : Nat := 0x50300
/-- `RFT_HOST_ADDR_LO_REG`, the start of its buffer. -/
def RFT_HOST_ADDR_LO_REG : Nat := 0x50304
/-- `RFT_BUF_BOTTOM_LO_REG`, the end of its buffer. -/
def RFT_BUF_BOTTOM_LO_REG : Nat := 0x5030C
/-- `RFT_LIMIT_PTR_LO_REG`, the limit pointer. -/
def RFT_LIMIT_PTR_LO_REG : Nat := 0x50314
/-- `RFT_RECORD_PTR_LO_REG`, the record pointer. -/
def RFT_RECORD_PTR_LO_REG : Nat := 0x50320

/-- `BYPASS_EN_AND_CAP_START`: bit 0 starts the capture, the next eight the streams. -/
def BYPASS_EN_AND_CAP_START : Nat := 0x90028

/-! ## Records -/

/-- The register addresses of one stream, allocated when it is configured. -/
structure NacPbmStream where
  dmaBufStart : Nat
  dmaBufEnd : Nat
  dmaCtlReg : Nat
  recordPtr : Nat
  limitPtr : Nat
  dropCnt : Nat
  deriving Repr, DecidableEq

/-- One stream of a card.  `buf` is a virtual address (zero for `NULL`), `pbm`
the address of a heap block. -/
structure StreamT where
  buf : Nat := 0
  size : Nat := 0
  offset : Nat := 0
  processed : Nat := 0
  pbm : Option Nat := none
  phyaddr : Nat := 0
  mindata : Nat := 0
  maxwait : Nat := 0
  poll : Nat := 0
  extraWindowSize : Nat := 0
  freeSpace : Int := 0
  lastBusTop : Nat := 0
  lastBusBottom : Nat := 0
  isFirstTime : Bool := false
  attached : Bool := false
  started : Bool := false
  deriving Repr, DecidableEq

/-- What the driver reports about the card: the physical address and the size of
its large buffer. -/
structure NacInf where
  phyAddr : Nat
  bufSize : Nat
  deriving Repr, DecidableEq

/-- The `herd` entry of one descriptor. -/
structure SheepT where
  stream : Nat → StreamT
  nacinf : NacInf
  opened : Bool
  msuConfig : Bool
  numStream : Nat

/-- A successful `mmap`: `device` tells the card's buffer from anonymous memory. -/
structure Mapping where
  addr : Nat
  len : Nat
  device : Bool
  off : Int
  deriving Repr, DecidableEq

/-- An open card as the process sees it, and the mappings the process has been granted. -/
structure NacState where
  sheep : SheepT
  regs : Nat → Nat
  heap : Nat → Option NacPbmStream
  /-- the address the next block gets -/
  brk : Nat
  maps : List Mapping
  /-- the addresses that are mapped no longer because a later request for them was refused -/
  lost : Nat → Bool
  /-- how many requests `Env` has answered -/
  clock : Nat

/-- The answers of the C library, by request number. -/
structure Env where
  malloc : Nat → Bool
  mmap : Nat → Option Nat
  /-- a refused `MAP_FIXED` request has unmapped the addresses it was for: the kernel does so
  before it asks the driver, and not where it refuses the request itself -/
  unmaps : Nat → Bool

/-- What ends a call other than a return. -/
inductive Fault where
  /-- a read through a null pointer or a freed block -/
  | badPointer
  /-- a block is freed that is not allocated -/
  | doubleFree
  deriving Repr, DecidableEq

/-! ## Pages -/

/-- The bytes of the whole pages that `len` bytes take. -/
def pageUp (len : Nat) : Nat := (len + 4095) / 4096 * 4096

/-- `a` lies in the pages of `len` bytes at `addr`. -/
def inPages (addr len a : Nat) : Bool := addr ≤ a && a < addr + pageUp len

/-- The addresses lost after the pages of `len` bytes at `addr` have been mapped. -/
def mapPages (addr len : Nat) (lost : Nat → Bool) : Nat → Bool :=
  fun a => !inPages addr len a && lost a

/-- The addresses lost after these pages have been unmapped. -/
def unmapPages (addr len : Nat) (lost : Nat → Bool) : Nat → Bool :=
  fun a => inPages addr len a || lost a

/-- The addresses that a mapping was made for. -/
def Mapping.covers (m : Mapping) (a : Nat) : Bool := inPages m.addr m.len a

/-! ## Access -/

/-- `reg_write` -/
def regWrite (st : NacState) (a v : Nat) : NacState :=
  { st with regs := Function.update st.regs a v }

/-- Assign fields of `herd[nacfd].stream[i]`. -/
def setStream (st : NacState) (i : Nat) (f : StreamT → StreamT) : NacState :=
  { st with sheep :=
      { st.sheep with stream := Function.update st.sheep.stream i (f (st.sheep.stream i)) } }

/-- `herd[nacfd].stream[i].pbm->...` -/
def derefPbm (st : NacState) (i : Nat) : Except Fault NacPbmStream :=
  match (st.sheep.stream i).pbm.bind st.heap with
  | some p => .ok p
  | none => .error .badPointer

/-- `herd[nacfd].stream[i].pbm = malloc(...)`, followed by its initialisation; on
failure the field is `NULL`. -/
def mallocPbm (env : Env) (i : Nat) (p : NacPbmStream) (st : NacState) : Bool × NacState :=
  if env.malloc st.clock then
    (true,
      setStream
        { st with
          heap := Function.update st.heap st.brk (some p)
          brk := st.brk + 1
          clock := st.clock + 1 }
        i (fun s => { s with pbm := some st.brk }))
  else
    (false, setStream { st with clock := st.clock + 1 } i (fun s => { s with pbm := none }))

/-- The value of a `dma_ctl_reg_t`: bits 1, 2 and 3. -/
def dmaCtl (addrLoad statusClear dmaPauseN : Bool) : Nat :=
  addrLoad.toNat * 2 + statusClear.toNat * 4 + dmaPauseN.toNat * 8

/-- Set `dma_pause_n` in a value read back from the register. -/
def setDmaPauseN (v : Nat) (b : Bool) : Nat := v - v / 8 % 2 * 8 + b.toNat * 8

section Access

variable (st : NacState) (a v i : Nat) (f : StreamT → StreamT)

@[simp] theorem regWrite_sheep : (regWrite st a v).sheep = st.sheep := rfl
@[simp] theorem regWrite_heap : (regWrite st a v).heap = st.heap := rfl
@[simp] theorem regWrite_brk : (regWrite st a v).brk = st.brk := rfl
@[simp] theorem regWrite_maps : (regWrite st a v).maps = st.maps := rfl
@[simp] theorem setStream_regs : (setStream st i f).regs = st.regs := rfl
@[simp] theorem setStream_heap : (setStream st i f).heap = st.heap := rfl
@[simp] theorem setStream_brk : (setStream st i f).brk = st.brk := rfl
@[simp] theorem setStream_maps : (setStream st i f).maps = st.maps := rfl
@[simp] theorem setStream_clock : (setStream st i f).clock = st.clock := rfl
@[simp] theorem setStream_nacinf : (setStream st i f).sheep.nacinf = st.sheep.nacinf := rfl
@[simp] theorem setStream_opened : (setStream st i f).sheep.opened = st.sheep.opened := rfl

@[simp] theorem regWrite_self : (regWrite st a v).regs a = v := by simp [regWrite]

@[simp] theorem setStream_self : (setStream st i f).sheep.stream i = f (st.sheep.stream i) := by
  simp [setStream]

variable {st a v i f}

theorem regWrite_ne {b : Nat} (h : b ≠ a) : (regWrite st a v).regs b = st.regs b := by
  simp [regWrite, h]

theorem setStream_ne {j : Nat} (h : j ≠ i) :
    (setStream st i f).sheep.stream j = st.sheep.stream j := by
  simp [setStream, h]

end Access

/-! ## A fresh descriptor -/

/-- `nac_open` on a card that reports the buffer `[phyAddr, phyAddr + bufSize)`. -/
def freshCard (phyAddr bufSize : Nat) : NacState where
  sheep := ⟨fun _ => {}, ⟨phyAddr, bufSize⟩, true, false, 0⟩
  regs := fun _ => 0
  heap := fun _ => none
  brk := 0
  maps := []
  lost := fun _ => false
  clock := 0

/-- A C library that never refuses; mappings lie 16 MB apart. -/
def grantAll : Env where
  malloc := fun _ => true
  mmap := fun k => some (0x40000000 + k * 0x1000000)
  unmaps := fun _ => true

end NacCard.Stream
