import NacCard.Base.Slots
import NacCard.Driver.Leaks

/-!
# Files of a card

A process opens a unit, as the buffer or as the register bank, and reads, writes, maps
or calls `ioctl`, whatever has happened to the card in between.

* `OpenFile`, `nacOpen`, `files` — opens between probes and removals in any order.
* `nacMemRead`, `nacMemWrite`, `nacIomRead`, `nacIomWrite`, `nacIoctl`, `mmapBuffer`,
  `mmapRegisters` — the operations, with what they use (`Use`); `fileOp` picks one.
* `Allowed`, `Safe` — what a unit holds, and operations that use nothing else.
* `OpFits` — the operations that do.
-/

namespace NacCard.Driver

open NacCard.Base NacCard.Mem

/-! ## Opening -/

/-- `NACMINOR_IOM`: the device of the registers. -/
def NACMINOR_IOM : Nat := 2
/-- `NACMINOR_MAX` of the driver: so many devices for a card. -/
def NACMINOR_MAX : Nat := 3

/-- `ENXIO`: there is no such address. -/
def ENXIO : Int := 6
/-- `EAGAIN`: the pages could not be mapped. -/
def EAGAIN : Int := 11
/-- `EFAULT`: a bad address, or one inside a word. -/
def EFAULT : Int := 14
/-- `EINVAL`: a bad argument. -/
def EINVAL : Int := 22
/-- `ENOTTY`: no such command. -/
def ENOTTY : Int := 25
/-- `ENOSPC`: no space is left. -/
def ENOSPC : Int := 28

/-- The unit `private_data` points to, and the minor whose operations the file has. -/
structure OpenFile where
  unit : Nat
  minor : Nat
  deriving Repr, DecidableEq

/-- None for `-ENODEV`. -/
def nacOpen (slots : Nat → Softc) (iminor : Nat) : Option OpenFile :=
  let unit := iminor % 8
  let minor := iminor / 8
  if minor ≥ NACMINOR_MAX then none
  else if unit > NAC_MAX_BOARDS then none
  else if !(slots unit).attached then none
  else some ⟨unit, minor⟩

/-! ## Operations -/

/-- `nacinf_t`, what `NACIOCINFO` copies to the user. -/
structure Nacinf where
  id : Nat
  phyAddr : Nat
  bufSize : Nat
  iomSize : Nat
  deviceCode : Nat
  deriving Repr, DecidableEq

/-- What an operation uses of a card. -/
inductive Use where
  | buffer (start len : Nat)
  | registers (start len : Nat)
  | mapBuffer (m : Remap)
  | mapRegisters (m : Remap)
  | duck (duck : Option Duck)
  deriving DecidableEq

/-- What an operation returns, and what it has used and changed. -/
structure FileResult where
  /-- none where the operation does not return -/
  rc : Option Int
  uses : List Use := []
  /-- how far `*ppos` has moved -/
  moved : Nat := 0
  info : Option Nacinf := none
  duckinf : Option Duckinf := none

/-- The end of the functions that copy: `remain` bytes could not be copied. -/
def copied (use : Use) (count remain : Nat) : FileResult :=
  { rc := some (if remain = count then -EINVAL else (count : Int) - remain)
    uses := [use]
    moved := count - remain }

/-- `nac_mem_read` and `nac_mem_write`, which return `atEnd` behind the buffer.  The kernel passes
no negative position and no size that makes the sum overflow. -/
def memCopy (atEnd : Int) (sc : Softc) (ppos count remain : Nat) : FileResult :=
  if sc.mmbuf = 0 then { rc := some (- ENXIO) }
  else if ppos ≥ sc.bufSize then { rc := some atEnd }
  else
    let count := if ppos + count > sc.bufSize then sc.bufSize - ppos else count
    if count = 0 then { rc := some atEnd }
    else copied (.buffer (sc.mmbuf + ppos) count) count remain

/-- `nac_mem_read`: nothing is read at the end of the buffer. -/
def nacMemRead : Softc → Nat → Nat → Nat → FileResult := memCopy 0

/-- `nac_mem_write`: at the end of the buffer no space is left. -/
def nacMemWrite : Softc → Nat → Nat → Nat → FileResult := memCopy (-ENOSPC)

/-- `nac_iom_read` and `nac_iom_write`, which do not test for the mapping. -/
def iomCopy (sc : Softc) (ppos count remain : Nat) : FileResult :=
  if ppos > sc.mmioSize then { rc := some 0 }
  else
    let count := if ppos + count > sc.mmioSize then sc.mmioSize - ppos else count
    if count = 0 then { rc := some 0 }
    else if ppos % 4 ≠ 0 then { rc := some (-EFAULT) }
    else if count % 4 ≠ 0 then { rc := some (-EFAULT) }
    else copied (.registers (sc.mmio + ppos) count) count remain

/-- `nac_iom_read`: words of the registers. -/
def nacIomRead : Softc → Nat → Nat → Nat → FileResult := iomCopy

/-- `nac_iom_write`: the same checks as for reading. -/
def nacIomWrite : Softc → Nat → Nat → Nat → FileResult := iomCopy

/-! ### `ioctl` -/

/-- `NAC_IOC_MAGIC`, the letter i. -/
def NAC_IOC_MAGIC : Nat := 0x69
/-- `NAC_IOC_MAXNR`, the highest number of a command. -/
def NAC_IOC_MAXNR : Nat := 4

/-- `_IOC_DIR`: who reads and who writes. -/
def iocDir (cmd : Nat) : Nat := cmd >>> 30
/-- `_IOC_TYPE`: the letter of the driver. -/
def iocType (cmd : Nat) : Nat := (cmd >>> 8) &&& 0xff
/-- `_IOC_NR`: the number of the command. -/
def iocNr (cmd : Nat) : Nat := cmd &&& 0xff

/-- Read, 20 bytes, number 2. -/
def NACIOCINFO : Nat := 0x80146902

/-- Read and write, 96 bytes, number 4. -/
def NACIOCDUCK : Nat := 0xc0606904

/-- The memory an argument points to. -/
structure UserArg where
  accessOk : Bool
  /-- `copy_from_user` of a `duckinf_t`, none where it fails -/
  duckinf : Option Duckinf
  /-- `copy_to_user` succeeds -/
  writable : Bool
  deriving DecidableEq

/-- `sc->device` is `NULL` in a unit that is not attached. -/
def nacinf (deviceCode : Nat → Nat) (sc : Softc) : Nacinf :=
  { deviceCode := if sc.attached then deviceCode sc.device else 0
    id := sc.unit
    phyAddr := u32 sc.buf
    bufSize := sc.bufSize
    iomSize := sc.mmioSize }

/-- `nac_ioctl`: the checks of the number and of the address, and then the two commands. -/
def nacIoctl (deviceCode : Nat → Nat) (now : Int) (sc : Softc) (cmd : Nat) (arg : UserArg) :
    FileResult :=
  if iocType cmd ≠ NAC_IOC_MAGIC then { rc := some (-ENOTTY) }
  else if iocNr cmd > NAC_IOC_MAXNR then { rc := some (-ENOTTY) }
  -- for either direction
  else if iocDir cmd &&& 3 ≠ 0 ∧ !arg.accessOk then { rc := some (-EFAULT) }
  else if cmd = NACIOCINFO then
    if arg.writable then { rc := some 0, info := some (nacinf deviceCode sc) }
    else { rc := some (-EFAULT) }
  else if cmd = NACIOCDUCK then
    match arg.duckinf with
    | none => { rc := some (-EFAULT) }
    | some duckinf =>
        match duckIoctl now sc.duck duckinf with
        | none => { rc := none, uses := [.duck sc.duck] }
        | some r =>
            if arg.writable then { rc := some 0, uses := [.duck sc.duck], duckinf := some r.2 }
            else { rc := some (-EFAULT), uses := [.duck sc.duck] }
  else { rc := some (-ENOTTY) }

/-! ### `mmap` -/

/-- The number of an error. -/
def Errno.toInt : Errno → Int
  | .enomem => ENOMEM
  | .enxio => ENXIO
  | .einval => EINVAL
  | .eagain => EAGAIN

/-- `nac_mmap` -/
def mmapBuffer (k : Kernel) (oSync : Bool) (sc : Softc) (vma : VmAreaStruct) : Except Errno Remap :=
  if sc.buf = 0 then .error .enomem
  else
    remapChecked k oSync true vma (i64 (sc.buf + mmapOff vma)) (i64 (sc.bufSize - mmapOff vma))

/-- `nac_iom_mmap` -/
def mmapRegisters (k : Kernel) (oSync : Bool) (device : PciDev) (sc : Softc) (vma : VmAreaStruct) :
    Except Errno Remap :=
  if sc.buf = 0 then .error .enomem
  else
    remapChecked k oSync false vma (i64 (u32 device.resourceStart.toNat + mmapOff vma))
      (i64 (device.resourceLen.toNat - mmapOff vma))

/-- An `mmap` operation: what it maps, or the error. -/
def mapped (use : Remap → Use) : Except Errno Remap → FileResult
  | .error e => { rc := some (-e.toInt) }
  | .ok m => { rc := some 0, uses := [use m] }

/-! ### All of them -/

/-- The operations on an open file, with their arguments. -/
inductive FileOperation where
  | read (ppos count : Nat)
  | write (ppos count : Nat)
  | ioctl (cmd : Nat) (arg : UserArg)
  | mmap (vma : VmAreaStruct)

/-- What the kernel adds to an operation. -/
structure KernelAnswers where
  kernel : Kernel
  oSync : Bool
  /-- what `copy_to_user` and `copy_from_user` leave -/
  remain : Nat
  now : Int
  deviceCode : Nat → Nat

/-- `nac_fops_array[minor]` -/
def fileOp (pci : Nat → PciDev) (k : KernelAnswers) (sc : Softc) (minor : Nat) :
    FileOperation → FileResult
  | .read ppos count =>
      if minor = NACMINOR_IOM then nacIomRead sc ppos count k.remain
      else nacMemRead sc ppos count k.remain
  | .write ppos count =>
      if minor = NACMINOR_IOM then nacIomWrite sc ppos count k.remain
      else nacMemWrite sc ppos count k.remain
  | .ioctl cmd arg => nacIoctl k.deviceCode k.now sc cmd arg
  | .mmap vma =>
      if minor = NACMINOR_IOM then
        mapped .mapRegisters (mmapRegisters k.kernel k.oSync (pci sc.device) sc vma)
      else mapped .mapBuffer (mmapBuffer k.kernel k.oSync sc vma)

/-! ## Histories -/

/-- The driver, and the files that are open. -/
structure FilesState where
  bus : BusState
  files : List OpenFile

/-- A step of the driver, or a file opened or released. -/
inductive FilesAct where
  | bus (a : BusAct)
  | opens (iminor : Nat)
  | release (file : OpenFile)
  deriving Repr, DecidableEq

/-- What a step does to the files. -/
def filesStep (pci : Nat → PciDev) (pa : Nat → Nat) (s : FilesState) : FilesAct → Option FilesState
  | .bus a => (busStep pci pa s.bus a).map fun bus => { s with bus := bus }
  | .opens iminor => (nacOpen s.bus.driver.slots iminor).map fun file => { s with files := file :: s.files }
  | .release file => if file ∈ s.files then some { s with files := s.files.erase file } else none

/-- The driver from the time it is loaded, with its files. -/
def files (pci : Nat → PciDev) (pa : Nat → Nat) (cards : List Card) : Machine FilesState FilesAct :=
  ⟨fun s => s = ⟨loaded cards, []⟩, filesStep pci pa⟩

/-! ## What a unit holds -/

/-- How many buffers at the address are in use. -/
def outstanding (pool : List Buffer) (vaddr : Nat) : Int :=
  ((pool.filter fun b => b.card.vaddr = vaddr).map Buffer.inuse).sum

/-- The unit's buffer has been taken out of the pool and not been given back. -/
structure HoldsBuffer (s : DriverState) (sc : Softc) : Prop where
  ne_zero : sc.mmbuf ≠ 0
  outstanding : 0 < outstanding s.pool sc.mmbuf
  card : ∃ b ∈ s.pool, b.card.vaddr = sc.mmbuf ∧ b.card.size = sc.bufSize

/-- The unit's registers have been mapped and the mapping not been undone. -/
structure HoldsRegisters (s : DriverState) (sc : Softc) : Prop where
  ne_zero : sc.mmio ≠ 0
  mapped : sc.mmio ∈ s.ioremaps

/-- The use is of what the card holds, and inside it. -/
def Allowed (pci : Nat → PciDev) (pa : Nat → Nat) (s : DriverState) (sc : Softc) : Use → Prop
  | .buffer start len => HoldsBuffer s sc ∧ sc.mmbuf ≤ start ∧ start + len ≤ sc.mmbuf + sc.bufSize
  | .registers start len => HoldsRegisters s sc ∧
      sc.mmio ≤ start ∧ start + len ≤ sc.mmio + u32 (pci sc.device).resourceLen.toNat
  | .mapBuffer m => HoldsBuffer s sc ∧
      m.range ⊆ Set.Ico (pa sc.mmbuf) (pa sc.mmbuf + sc.bufSize)
  | .mapRegisters m => HoldsRegisters s sc ∧ m.range ⊆ (pci sc.device).region
  | .duck duck => duck ≠ none

/-- Whatever the kernel adds, the operation uses what the unit holds and nothing else. -/
def Safe (pci : Nat → PciDev) (pa : Nat → Nat) (s : DriverState) (file : OpenFile)
    (op : FileOperation) : Prop :=
  ∀ k, ∀ use ∈ (fileOp pci k (s.slots file.unit) file.minor op).uses,
    Allowed pci pa s (s.slots file.unit) use

/-- A mapping that is refused, empty or neither before the area nor of negative length. -/
def MapFits (lo start len : Nat) (vma : VmAreaStruct) : Prop :=
  mmapVsize vma = 0 ∨ i64 (len - mmapOff vma) < mmapVsize vma ∨
    (0 ≤ mmapVsize vma ∧ (start : Int) - lo ≤ mmapOff vma)

/-- Everything but the clock's `ioctl`, with an argument that can be read, and mappings at
negative offsets. -/
def OpFits (pci : Nat → PciDev) (sc : Softc) (minor : Nat) : FileOperation → Prop
  | .read _ _ => True
  | .write _ _ => True
  | .ioctl cmd arg => ¬(cmd = NACIOCDUCK ∧ arg.accessOk = true ∧ arg.duckinf ≠ none)
  | .mmap vma =>
      sc.buf = 0 ∨
        if minor = NACMINOR_IOM then
          MapFits (u32 (pci sc.device).resourceStart.toNat) (pci sc.device).resourceStart.toNat
            (pci sc.device).resourceLen.toNat vma
        else MapFits sc.buf sc.buf sc.bufSize vma

end NacCard.Driver
