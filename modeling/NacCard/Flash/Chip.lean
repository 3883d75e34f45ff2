import NacCard.Base.Chunks

/-!
# The flash chip and the commands for it

The chip of an ideal card: it is always ready, no command fails, and no block is locked.

* `Chip` — its 16-bit words, what reads of each bank answer, and how much of a command
  it has been sent; `Chip.write` and `Chip.read` are the bus cycles.
* `Bus` — a device with such cycles.
* `flashWrite`, `flashRead` and the functions above them — the library's commands, for any
  device on the bus.  A program may end in them (`Stop`): by `exit`, in a wait that does not
  end, or with a value that is not there.
-/

namespace NacCard.Flash

open NacCard.Base

/-- `BANK_SIZE_W`: the words of a bank. -/
def BANK_SIZE_W : Nat := 512 * 1024
/-- `BLOCK_SIZE_W`: the words of a block, an eighth of a bank. -/
def BLOCK_SIZE_W : Nat := 64 * 1024

/-! ## The chip -/

/-- What a read of a bank answers. -/
inductive ReadMode where
  | array
  | status
  | id
  deriving Repr, DecidableEq

/-- The cycles of a command that are still to come. -/
inductive Pending where
  | none
  /-- after `0x60`: what to do with a lock bit or the configuration register -/
  | setup
  /-- after `0x20`: the confirmation of an erase -/
  | erase
  /-- after `0x40`: the word to program -/
  | word
  /-- after `0xE8`: one less than the number of words -/
  | count
  /-- `n` words, then the confirmation; `words` have come -/
  | load (n : Nat) (words : List (Nat × UInt16))

/-- The words stored, what each bank answers, and the command that has begun. -/
structure Chip where
  cells : Nat → UInt16
  mode : Nat → ReadMode
  pending : Pending

/-- The bank of a word. -/
def bankOf (addr : Nat) : Nat := addr / BANK_SIZE_W

/-- The cells after words have been stored in turn. -/
def store (cells : Nat → UInt16) (words : List (Nat × UInt16)) : Nat → UInt16 :=
  words.foldl (fun cells w => Function.update cells w.1 w.2) cells

namespace Chip

/-- What the bank at `addr` answers from now on. -/
def setMode (c : Chip) (addr : Nat) (m : ReadMode) : Chip :=
  { c with mode := Function.update c.mode (bankOf addr) m }

/-- A cycle that begins a command. -/
def command (c : Chip) (addr : Nat) (data : UInt16) : Chip :=
  if data = 0xff then c.setMode addr .array
  else if data = 0x90 then c.setMode addr .id
  else if data = 0x60 then { c with pending := .setup }
  else if data = 0x20 then { c with pending := .erase }
  else if data = 0x40 then { c with pending := .word }
  else if data = 0xe8 then { c.setMode addr .status with pending := .count }
  else c

/-- A write cycle. -/
def write (c : Chip) (addr : Nat) (data : UInt16) : Chip :=
  match c.pending with
  | .none => c.command addr data
  | .setup => { c with pending := .none }
  | .erase =>
      if data = 0xd0 then
        { c.setMode addr .status with
          pending := .none
          cells := fill (addr / BLOCK_SIZE_W * BLOCK_SIZE_W) BLOCK_SIZE_W (fun _ => 0xffff) c.cells }
      else { c with pending := .none }
  | .word =>
      { c.setMode addr .status with
        pending := .none
        cells := Function.update c.cells addr data }
  | .count => { c with pending := .load (data.toNat + 1) [] }
  | .load (n + 1) words => { c with pending := .load n (words ++ [(addr, data)]) }
  | .load 0 words =>
      if data = 0xd0 then
        { c.setMode addr .status with
          pending := .none
          cells := store c.cells words }
      else { c with pending := .none }

/-- A read cycle: the word, the status register (ready and no error), or the lock status of
a block (not locked). -/
def read (c : Chip) (addr : Nat) : UInt16 :=
  match c.mode (bankOf addr) with
  | .array => c.cells addr
  | .status => 0x80
  | .id => 0

/-- It expects a command. -/
def Ready (c : Chip) : Prop := c.pending = .none

/-- A chip that waits for a command. -/
def idle (cells : Nat → UInt16) (mode : Nat → ReadMode) : Chip :=
  { cells := cells, mode := mode, pending := .none }

end Chip

/-- A device on the flash bus. -/
class Bus (σ : Type) where
  write : σ → Nat → UInt16 → σ
  read : σ → Nat → UInt16

instance : Bus Chip := ⟨Chip.write, Chip.read⟩

/-! ## The library's commands -/

variable {σ : Type}

/-- How a program ends before its end. -/
inductive Stop where
  | exit (code : Nat)
  /-- a wait for a bit that is never set -/
  | hang
  /-- `flash_read` returns no value -/
  | undefined
  /-- a word behind the end of a file or an array is read -/
  | pastEnd
  deriving Repr, DecidableEq

/-- `bit_swap`: the 16 bits in reverse order. -/
def bitSwap (src : UInt16) : UInt16 :=
  (List.range 16).foldl (fun dst i =>
    dst ||| (if i < 8 then (src &&& (1 <<< UInt16.ofNat i)) <<< UInt16.ofNat (15 - i * 2)
      else (src &&& (1 <<< UInt16.ofNat i)) >>> UInt16.ofNat (2 * i - 15))) 0

variable [Bus σ]

/-- `flash_write`; an address behind the flash is ignored. -/
def flashWrite (c : σ) (addr : Nat) (data : UInt16) : σ :=
  if addr > 0x7fffff then c else Bus.write c addr data

/-- `flash_read`; behind the flash nothing is returned. -/
def flashRead (c : σ) (addr : Nat) : Except Stop UInt16 :=
  if addr > 0x7fffff then .error .undefined else .ok (Bus.read c addr)

/-- `do { stat_reg.value = flash_read(nacfd, addr); } while(stat_reg.SR_t.sr7 == 0)`; a chip
that is left alone keeps answering the same. -/
def pollStatus (c : σ) (addr : Nat) : Except Stop UInt16 := do
  let stat ← flashRead c addr
  if stat &&& 0x80 = 0 then .error .hang else .ok stat

/-- The tests of `sr3`, `sr4` and `sr1` after programming. -/
def checkProgram (stat : UInt16) (c : σ) : Except Stop σ :=
  if stat &&& 0x8 ≠ 0 then .error (.exit 1)
  else if stat &&& 0x10 ≠ 0 then .error (.exit 2)
  else if stat &&& 0x2 ≠ 0 then .error (.exit 3)
  else .ok c

/-- The tests after an erase. -/
def checkErase (stat : UInt16) (c : σ) : Except Stop σ :=
  if stat &&& 0x8 ≠ 0 then .error (.exit 1)
  else if stat &&& 0x10 ≠ 0 ∧ stat &&& 0x20 ≠ 0 then .error (.exit 2)
  else if stat &&& 0x20 ≠ 0 then .error (.exit 3)
  else if stat &&& 0x2 ≠ 0 then .error (.exit 4)
  else .ok c

/-- `set_config_register`: setup, and the confirmation at the same address. -/
def setConfigRegister (c : σ) (data : UInt16) : σ :=
  flashWrite (flashWrite c data.toNat 0x60) data.toNat 0x03

/-- `clear_stats_regs`: the command that clears the status. -/
def clearStatsRegs (c : σ) : σ := flashWrite c 0 0x50

/-- `word_program`: one word, without the buffer. -/
def wordProgram (c : σ) (addr : Nat) (data : UInt16) : Except Stop σ := do
  let c := flashWrite c addr 0x40
  let c := flashWrite c addr data
  let stat ← pollStatus c addr
  checkProgram stat c

/-- `pdata` is word `p` of `mem`. -/
def readWord (mem : List UInt16) (p : Nat) : Except Stop UInt16 :=
  match mem[p]? with
  | some w => .ok w
  | none => .error .pastEnd

/-- `buffer_program`: `n + 1` words, through the buffer of the chip. -/
def bufferProgram (c : σ) (startAddr : Nat) (n : Int) (mem : List UInt16) (p : Nat) :
    Except Stop σ := do
  if n < 0 ∨ n > 31 then .error (.exit 1)
  else
    let c := flashWrite c startAddr 0xe8
    let _ ← pollStatus c startAddr
    let c := flashWrite c startAddr (UInt16.ofNat n.toNat)
    let c ← (List.range (n.toNat + 1)).foldlM (fun c i => do
      let w ← readWord mem (p + i)
      .ok (flashWrite c (startAddr + i) (bitSwap w))) c
    let c := flashWrite c startAddr 0xd0
    let stat ← pollStatus c startAddr
    checkProgram stat c

/-- `block_program`: a block in pieces of 32 words, the last one as long as what is left. -/
def blockProgram (c : σ) (bank block wSize : Nat) (mem : List UInt16) (p : Nat) :
    Except Stop σ := do
  if wSize = 0 then .error (.exit 1)
  else
    let startAddr := bank * 0x80000 + block * 0x10000
    let needBuffer := chunkCount 32 wSize
    let lastWords := lastChunk 32 wSize
    let c ← (List.range (needBuffer - 1)).foldlM
      (fun c i => bufferProgram c (startAddr + i * 32) 31 mem (p + i * 32)) c
    bufferProgram c (startAddr + (needBuffer - 1) * 32) ((lastWords : Int) - 1) mem
      (p + (needBuffer - 1) * 32)

/-- The number of blocks is kept in 8 bits. -/
def bankProgram (c : σ) (bank wSize : Nat) (mem : List UInt16) (p : Nat) : Except Stop σ := do
  if wSize = 0 then .error (.exit 1)
  else
    let needBlock := chunkCount BLOCK_SIZE_W wSize % 256
    let lastWords := lastChunk BLOCK_SIZE_W wSize
    let lastBlock := (needBlock + 255) % 256
    let c ← (List.range (needBlock - 1)).foldlM
      (fun c i => blockProgram c bank (i % 256) BLOCK_SIZE_W mem (p + i * BLOCK_SIZE_W)) c
    blockProgram c bank lastBlock lastWords mem (p + (needBlock - 1) * BLOCK_SIZE_W)

/-- `block_unlock`, and the test that the lock bit is clear. -/
def blockUnlock (c : σ) (bank block : Nat) : Except Stop σ := do
  let c := flashWrite c (bank * 0x80000) 0x60
  let c := flashWrite c (bank * 0x80000 + block * 0x10000) 0xd0
  let c := flashWrite c (bank * 0x80000) 0x90
  let result ← flashRead c (bank * 0x80000 + block * 0x10000 + 2)
  if result ≠ 0 then .error (.exit 1) else .ok c

/-- `bank_unlock`: the eight blocks of a bank. -/
def bankUnlock (c : σ) (bank : Nat) : Except Stop σ :=
  (List.range 8).foldlM (fun c i => blockUnlock c bank i) c

/-- `block_erase`: setup, confirmation, and the wait. -/
def blockErase (c : σ) (bank block : Nat) : Except Stop σ := do
  let c := flashWrite c (bank * 0x80000) 0x20
  let c := flashWrite c (bank * 0x80000 + block * 0x10000) 0xd0
  let stat ← pollStatus c (bank * 0x80000)
  checkErase stat c

/-- `bank_erase`: the eight blocks of a bank. -/
def bankErase (c : σ) (bank : Nat) : Except Stop σ :=
  (List.range 8).foldlM (fun c i => blockErase c bank i) c

/-- `set_logic_num` and `set_hardware_num`, which differ in the block. -/
def setNum (block : Nat) (c : σ) (sn : UInt64) : Except Stop σ := do
  let c := clearStatsRegs (setConfigRegister c 0xbddf)
  let c ← blockUnlock c 14 block
  let c ← blockErase c 14 block
  let blockAddr := 14 * BANK_SIZE_W + block * 0x10000
  let c ← wordProgram c blockAddr ((sn &&& 0xffff000000000000) >>> 48).toUInt16
  let c ← wordProgram c (blockAddr + 1) ((sn &&& 0x0000ffff00000000) >>> 32).toUInt16
  let c ← wordProgram c (blockAddr + 2) ((sn &&& 0x00000000ffff0000) >>> 16).toUInt16
  wordProgram c (blockAddr + 3) (sn &&& 0x000000000000ffff).toUInt16

/-- `set_logic_num`, in block 0. -/
def setLogicNum : σ → UInt64 → Except Stop σ := setNum 0

/-- `set_hardware_num`, in block 1. -/
def setHardwareNum : σ → UInt64 → Except Stop σ := setNum 1

/-- `read_logic_num` and `read_hardware_num` -/
def readNum (block : Nat) (c : σ) : Except Stop (UInt64 × σ) := do
  let c := clearStatsRegs (setConfigRegister c 0xbddf)
  let c := flashWrite c (14 * BANK_SIZE_W) 0xff
  let blockAddr := 14 * BANK_SIZE_W + block * 0x10000
  let w0 ← flashRead c blockAddr
  let w1 ← flashRead c (blockAddr + 1)
  let w2 ← flashRead c (blockAddr + 2)
  let w3 ← flashRead c (blockAddr + 3)
  .ok (w0.toUInt64 <<< 48 ||| w1.toUInt64 <<< 32 ||| w2.toUInt64 <<< 16 ||| w3.toUInt64, c)

/-- `read_logic_num`, from block 0. -/
def readLogicNum : σ → Except Stop (UInt64 × σ) := readNum 0

/-- `read_hardware_num`, from block 1. -/
def readHardwareNum : σ → Except Stop (UInt64 × σ) := readNum 1

end NacCard.Flash
