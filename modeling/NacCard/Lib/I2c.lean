import NacCard.Base.Loop

/-!
# The I2C buses of a card

Each port has a controller with a memory at the other end of its two wires; the library reaches the
registers of the controller through one register of the card.

* `Slave` — a memory of 256 bytes with a pointer that moves on with every byte.
* `Line.execute` — a command: a start, a byte in one of the directions, a stop.
* `Controller` — executes a command at some time before the transfer bit clears, and reads of the
  status register pass the time; `settled` is the line when nothing is left to be executed.
* `wbWrite`, `wbRead`, `waitTransDone` — the functions of the library;
  `waitTransDone_returns` — the wait comes to its end.
-/

namespace NacCard.Lib.I2c

open NacCard.Base

/-! ## The slave -/

/-- What a slave expects on the line. -/
inductive Phase where
  | idle
  /-- the next byte says who is meant -/
  | addressing
  /-- the next byte sets the pointer -/
  | pointing
  | writing
  | reading
  deriving Repr, DecidableEq

/-- A slave with a memory of 256 bytes and a pointer into it. -/
structure Slave where
  /-- 7 bits -/
  address : Nat
  memory : UInt8 → UInt8
  pointer : UInt8
  phase : Phase

namespace Slave

/-- A byte from the master; the last bit of an address is the direction. -/
def receive (s : Slave) (b : UInt8) : Slave :=
  match s.phase with
  | .addressing =>
      if b.toNat / 2 ≠ s.address then { s with phase := .idle }
      else if b.toNat % 2 = 1 then { s with phase := .reading }
      else { s with phase := .pointing }
  | .pointing => { s with pointer := b, phase := .writing }
  | .writing =>
      { s with memory := Function.update s.memory s.pointer b, pointer := s.pointer + 1 }
  | .idle | .reading => s

/-- A byte for the master, which wants another one or not. -/
def send (s : Slave) (nack : Bool) : UInt8 × Slave :=
  match s.phase with
  | .reading =>
      (s.memory s.pointer,
        { s with pointer := s.pointer + 1, phase := if nack then .idle else .reading })
  | _ => (0xff, s)

end Slave

/-! ## The controller -/

/-- A value of `CR`, and `TXR` at that time. -/
structure Command where
  bits : UInt8
  byte : UInt8
  deriving Repr, DecidableEq

/-- The byte received last, and the slave. -/
structure Line where
  rxr : UInt8
  slave : Slave

/-- Start, then read (with ack or nack) or write, then stop. -/
def Line.execute (l : Line) (cmd : Command) : Line :=
  let slave := if cmd.bits &&& 0x80 ≠ 0 then { l.slave with phase := .addressing } else l.slave
  let l : Line :=
    if cmd.bits &&& 0x20 ≠ 0 then
      let (rxr, slave) := slave.send (cmd.bits &&& 0x08 ≠ 0)
      ⟨rxr, slave⟩
    else if cmd.bits &&& 0x10 ≠ 0 then ⟨l.rxr, slave.receive cmd.byte⟩
    else ⟨l.rxr, slave⟩
  if cmd.bits &&& 0x40 ≠ 0 then ⟨l.rxr, { l.slave with phase := .idle }⟩ else l

/-- The controller of a port; a command takes some time, and the transfer bit some more. -/
structure Controller where
  txr : UInt8
  line : Line
  pending : Option Command
  /-- so many reads of `SR` until the command is executed -/
  executeIn : Nat
  /-- so many reads of `SR` with the transfer bit set -/
  clearIn : Nat
  /-- both numbers for the commands to come -/
  delays : Nat → Nat × Nat
  issued : Nat
  /-- the other bits of `SR` -/
  flags : UInt8

/-- `TXR`, for writing. -/
def TXR : UInt8 := 0x03
/-- `CR`, for writing. -/
def CR : UInt8 := 0x04
/-- `RXR`, for reading. -/
def RXR : UInt8 := 0x03
/-- `SR`, for reading. -/
def SR : UInt8 := 0x04

namespace Controller

/-- The pending command is executed. -/
def settle (c : Controller) : Controller :=
  match c.pending with
  | none => c
  | some cmd => { c with line := c.line.execute cmd, pending := none }

/-- The line when nothing is pending any more. -/
def settled (c : Controller) : Line :=
  match c.pending with
  | none => c.line
  | some cmd => c.line.execute cmd

/-- Commands are executed in the order in which they are written. -/
def write (c : Controller) (addr data : UInt8) : Controller :=
  if addr = TXR then { c with txr := data }
  else if addr = CR then
    { c.settle with
      pending := some ⟨data, c.txr⟩
      executeIn := (c.delays c.issued).1
      clearIn := (c.delays c.issued).2
      issued := c.issued + 1 }
  else c

/-- One read of `SR` later. -/
def tick (c : Controller) : Controller :=
  let c := if c.executeIn = 0 then c.settle else { c with executeIn := c.executeIn - 1 }
  { c with clearIn := c.clearIn - 1 }

/-- A read of a register; time passes with those of `SR`. -/
def read (c : Controller) (addr : UInt8) : UInt8 × Controller :=
  if addr = RXR then (c.line.rxr, c)
  else if addr = SR then
    if c.clearIn = 0 then (c.flags &&& 0xfd, c.settle) else (c.flags &&& 0xfd ||| 0x2, c.tick)
  else (0, c)

variable {c c' : Controller}

theorem settled_of_none (h : c.pending = none) : c.settled = c.line := by
  rw [settled, h]

theorem settled_congr (hline : c'.line = c.line) (hpending : c'.pending = c.pending) :
    c'.settled = c.settled := by
  unfold settled
  rw [hline, hpending]

theorem settle_pending (c : Controller) : c.settle.pending = none := by
  unfold settle
  split
  · assumption
  · rfl

theorem settle_line (c : Controller) : c.settle.line = c.settled := by
  unfold settle settled
  split <;> rfl

@[simp] theorem settle_settled (c : Controller) : c.settle.settled = c.settled :=
  (settled_of_none c.settle_pending).trans c.settle_line

theorem write_txr (c : Controller) (data : UInt8) :
    (c.write TXR data).txr = data ∧ (c.write TXR data).settled = c.settled :=
  ⟨rfl, settled_congr rfl rfl⟩

/-- **A command** is what the line sees next. -/
theorem write_cr (c : Controller) (bits : UInt8) :
    (c.write CR bits).settled = c.settled.execute ⟨bits, c.txr⟩ :=
  congrArg (Line.execute · ⟨bits, c.txr⟩) c.settle_line

theorem tick_settled (c : Controller) : c.tick.settled = c.settled := by
  unfold tick
  split_ifs
  · exact (settled_congr rfl rfl).trans c.settle_settled
  · exact settled_congr rfl rfl

theorem tick_clearIn (c : Controller) : c.tick.clearIn = c.clearIn - 1 := by
  unfold tick settle
  split_ifs
  · split <;> rfl
  · rfl

theorem busy_clear (flags : UInt8) : flags &&& 0xfd &&& 0x2 = 0 := by
  rw [UInt8.and_assoc]
  exact UInt8.and_zero

theorem busy_set (flags : UInt8) : (flags &&& 0xfd ||| 0x2) &&& 0x2 = 2 := by
  have hdistrib : (flags &&& 0xfd ||| 0x2) &&& 0x2 = (flags &&& 0xfd &&& 0x2) ||| (0x2 &&& 0x2) :=
    UInt8.toBitVec_inj.1 BitVec.and_or_distrib_right
  rw [hdistrib, busy_clear]
  rfl

/-- A read of the status: nothing changes that a command could show. -/
theorem read_sr (c : Controller) :
    (c.read SR).2.settled = c.settled ∧
      ((c.read SR).1 &&& 0x2 = 0 ∧ (c.read SR).2.pending = none ∨
        (c.read SR).1 &&& 0x2 ≠ 0 ∧ (c.read SR).2.clearIn < c.clearIn) := by
  have hne : SR ≠ RXR := by decide
  rw [read, if_neg hne, if_pos rfl]
  split_ifs with hclear
  · exact ⟨c.settle_settled, .inl ⟨busy_clear _, c.settle_pending⟩⟩
  · refine ⟨c.tick_settled, .inr ⟨?_, ?_⟩⟩
    · dsimp only
      rw [busy_set]
      decide
    · dsimp only
      rw [tick_clearIn]
      omega

end Controller

/-! ## The registers of the card -/

/-- The register of a port, and what it was last asked for. -/
structure Bridge where
  controller : Controller
  value : UInt32

/-- Bit 31 makes it a write. -/
def Bridge.access (b : Bridge) (v : UInt32) : Bridge :=
  let addr := (v >>> 8).toUInt8
  if v &&& 0x80000000 ≠ 0 then { b with controller := b.controller.write addr v.toUInt8 }
  else
    let (q, controller) := b.controller.read addr
    ⟨controller, q.toUInt32⟩

/-- By the number of the register. -/
abbrev Card := Nat → Bridge

/-- `I2C_BASEADDR`, the register of the first port. -/
def I2C_BASEADDR : Nat := 0x600c0

/-- A write to the card, which matters where it is to one of the four registers. -/
def regWrite (card : Card) (offset : Nat) (value : UInt32) : Card :=
  if I2C_BASEADDR ≤ offset ∧ offset < I2C_BASEADDR + 16 ∧ offset % 4 = 0 then
    Function.update card ((offset - I2C_BASEADDR) / 4)
      ((card ((offset - I2C_BASEADDR) / 4)).access value)
  else card

/-- A read of the card. -/
def regRead (card : Card) (offset : Nat) : UInt32 :=
  if I2C_BASEADDR ≤ offset ∧ offset < I2C_BASEADDR + 16 ∧ offset % 4 = 0 then
    (card ((offset - I2C_BASEADDR) / 4)).value
  else 0

/-! ## The library -/

/-- `port = (port < 2) ? (port + 2) : (port - 2)` -/
def slot (port : UInt8) : Nat := (if port < 2 then port + 2 else port - 2).toNat

/-- `nac_wb_write`: address and data in one word, with the top bit set. -/
def wbWrite (card : Card) (port addr data : UInt8) : Card :=
  if addr > 4 ∨ port > 3 then card
  else
    regWrite card (I2C_BASEADDR + slot port * 4) (0x80000000 + addr.toUInt32 * 256 + data.toUInt32)

/-- None where nothing is returned. -/
def wbRead (card : Card) (port addr : UInt8) : Option (UInt8 × Card) :=
  if addr > 4 ∨ port > 3 then none
  else
    let card := regWrite card (I2C_BASEADDR + slot port * 4) (addr.toUInt32 * 256)
    some ((regRead card (I2C_BASEADDR + slot port * 4)).toUInt8, card)

/-- `while(q & 0x2) q = nac_wb_read(nacfd, port, SR);` -/
def waitTurn (port : UInt8) (s : UInt8 × Card) : Turn (UInt8 × Card) (Option Card) :=
  if s.1 &&& 0x2 ≠ 0 then
    match wbRead s.2 port SR with
    | none => .leave none
    | some s' => .again s'
  else .leave (some s.2)

/-- `nac_wait_trans_done`, as far as `fuel` turns of its loop. -/
def waitTransDone (fuel : Nat) (port : UInt8) (card : Card) : Option Card :=
  if port > 3 then some card
  else do
    let s ← wbRead card port SR
    let done ← loop (waitTurn port) fuel s
    done

/-! ## Through the register -/

section Register

variable {card : Card} {port addr data : UInt8}

theorem word_toNat (addr data : UInt8) :
    (0x80000000 + addr.toUInt32 * 256 + data.toUInt32 : UInt32).toNat =
      2147483648 + 256 * addr.toNat + data.toNat := by
  have haddr := addr.toNat_lt
  have hdata := data.toNat_lt
  simp [UInt32.toNat_add, UInt32.toNat_mul]
  omega

theorem request_toNat (addr : UInt8) : (addr.toUInt32 * 256 : UInt32).toNat = 256 * addr.toNat := by
  have haddr := addr.toNat_lt
  simp [UInt32.toNat_mul]
  omega

theorem slot_lt (h : port ≤ 3) : slot port < 4 := by
  have hall : ∀ p : Fin 256, UInt8.ofNat p ≤ 3 → slot (UInt8.ofNat p) < 4 := by decide +kernel
  have hport := hall ⟨port.toNat, port.toNat_lt⟩
  rw [UInt8.ofNat_toNat] at hport
  exact hport h

theorem byte_of_word {v : UInt32} {n : Nat} (h : v.toNat = 256 * n + data.toNat) : v.toUInt8 = data := by
  have hdata := data.toNat_lt
  apply UInt8.toNat_inj.1
  rw [UInt32.toNat_toUInt8, h]
  omega

theorem addr_of_word {v : UInt32} {k d : Nat} (h : v.toNat = 65536 * k + 256 * addr.toNat + d)
    (hd : d < 256) : (v >>> 8).toUInt8 = addr := by
  have haddr := addr.toNat_lt
  apply UInt8.toNat_inj.1
  rw [UInt32.toNat_toUInt8, UInt32.toNat_shiftRight, Nat.shiftRight_eq_div_pow, h]
  show (65536 * k + 256 * addr.toNat + d) / 2 ^ 8 % 256 = addr.toNat
  omega

/-- Bit 31. -/
theorem write_bit {v : UInt32} : v &&& 0x80000000 ≠ 0 ↔ 2147483648 ≤ v.toNat := by
  have hlt := v.toNat_lt
  rw [ne_eq, ← UInt32.toNat_inj, UInt32.toNat_and]
  show ¬v.toNat &&& 2 ^ 31 = 0 ↔ _
  rw [Nat.and_two_pow]
  constructor
  · intro hbit
    by_contra hsmall
    rw [Nat.testBit_lt_two_pow (not_le.1 hsmall)] at hbit
    exact hbit rfl
  · intro hlarge
    rw [Nat.testBit_of_two_pow_le_and_two_pow_add_one_gt hlarge hlt]
    decide

theorem access_write (b : Bridge) (addr data : UInt8) :
    b.access (0x80000000 + addr.toUInt32 * 256 + data.toUInt32) =
      { b with controller := b.controller.write addr data } := by
  have hword := word_toNat addr data
  have haddr : ((0x80000000 + addr.toUInt32 * 256 + data.toUInt32) >>> 8 : UInt32).toUInt8 = addr :=
    addr_of_word (k := 32768) (by omega) data.toNat_lt
  have hdata : (0x80000000 + addr.toUInt32 * 256 + data.toUInt32 : UInt32).toUInt8 = data :=
    byte_of_word (n := 8388608 + addr.toNat) (by omega)
  rw [Bridge.access, if_pos (write_bit.2 (by omega)), haddr, hdata]

theorem access_read (b : Bridge) (addr : UInt8) :
    b.access (addr.toUInt32 * 256) =
      ⟨(b.controller.read addr).2, (b.controller.read addr).1.toUInt32⟩ := by
  have hword := request_toNat addr
  have hlt := addr.toNat_lt
  have haddr : ((addr.toUInt32 * 256) >>> 8 : UInt32).toUInt8 = addr :=
    addr_of_word (k := 0) (d := 0) (by omega) (by decide)
  rw [Bridge.access, if_neg (fun hbit => absurd (write_bit.1 hbit) (by omega)), haddr]

/-- The controller of a port. -/
def on (card : Card) (port : UInt8) : Controller := (card (slot port)).controller

theorem regWrite_slot (h : port ≤ 3) (v : UInt32) :
    regWrite card (I2C_BASEADDR + slot port * 4) v =
      Function.update card (slot port) ((card (slot port)).access v) := by
  have hslot := slot_lt h
  have hindex : (I2C_BASEADDR + slot port * 4 - I2C_BASEADDR) / 4 = slot port := by omega
  rw [regWrite, if_pos ⟨by omega, by omega, by unfold I2C_BASEADDR; omega⟩, hindex]

theorem regRead_slot (h : port ≤ 3) :
    regRead card (I2C_BASEADDR + slot port * 4) = (card (slot port)).value := by
  have hslot := slot_lt h
  have hindex : (I2C_BASEADDR + slot port * 4 - I2C_BASEADDR) / 4 = slot port := by omega
  rw [regRead, if_pos ⟨by omega, by omega, by unfold I2C_BASEADDR; omega⟩, hindex]

/-- **A write** reaches the register of the controller. -/
theorem wbWrite_on (hport : port ≤ 3) (haddr : addr ≤ 4) :
    on (wbWrite card port addr data) port = (on card port).write addr data := by
  have hgood : ¬(addr > 4 ∨ port > 3) := by
    rintro (h | h)
    · exact UInt8.not_lt.2 haddr h
    · exact UInt8.not_lt.2 hport h
  rw [wbWrite, if_neg hgood, regWrite_slot hport, on, Function.update_self, access_write]
  rfl

/-- **A read** reads it. -/
theorem wbRead_on (hport : port ≤ 3) (haddr : addr ≤ 4) :
    ∃ card', wbRead card port addr = some (((on card port).read addr).1, card') ∧
      on card' port = ((on card port).read addr).2 := by
  have hgood : ¬(addr > 4 ∨ port > 3) := by
    rintro (h | h)
    · exact UInt8.not_lt.2 haddr h
    · exact UInt8.not_lt.2 hport h
  rw [wbRead, if_neg hgood]
  dsimp only
  rw [regWrite_slot hport, regRead_slot hport, Function.update_self, access_read]
  refine ⟨_, congrArg some (Prod.ext ?_ rfl), ?_⟩
  · show ((on card port).read addr).1.toUInt32.toUInt8 = _
    exact UInt8.toUInt8_toUInt32 _
  · rw [on, Function.update_self]
    rfl

/-- **The wait ends**, and everything has been executed. -/
theorem waitTransDone_returns (hport : port ≤ 3) (card : Card) :
    Returns (fun fuel => waitTransDone fuel port card) fun card' =>
      (on card' port).settled = (on card port).settled ∧ (on card' port).pending = none := by
  have hgood : ¬port > 3 := UInt8.not_lt.2 hport
  obtain ⟨card1, hread, hcard1⟩ := @wbRead_on card port SR hport (by decide)
  have hsr := (on card port).read_sr
  rw [← hcard1] at hsr
  have hloop : Returns (fun fuel => loop (waitTurn port) fuel (((on card port).read SR).1, card1))
      fun done => ∃ card', done = some card' ∧
        (on card' port).settled = (on card port).settled ∧ (on card' port).pending = none := by
    refine Returns.loop (fun s => (on s.2 port).settled = (on card port).settled ∧
        (s.1 &&& 0x2 = 0 → (on s.2 port).pending = none))
      (fun s => if s.1 &&& 0x2 = 0 then 0 else (on s.2 port).clearIn + 1) ?_ ⟨hsr.1, ?_⟩
    · rintro ⟨q, card2⟩ ⟨hsettled, hdone⟩
      by_cases hclear : q &&& 0x2 = 0
      · refine .inl ⟨some card2, ?_, card2, rfl, hsettled, hdone hclear⟩
        rw [waitTurn, if_neg (not_not.2 hclear)]
      · obtain ⟨card3, hread3, hcard3⟩ := @wbRead_on card2 port SR hport (by decide)
        obtain ⟨hsame, hnext⟩ := (on card2 port).read_sr
        refine .inr ⟨(((on card2 port).read SR).1, card3), ?_, ⟨?_, ?_⟩, ?_⟩
        · rw [waitTurn, if_pos hclear]
          dsimp only
          rw [hread3]
        · rw [hcard3]
          exact hsame.trans hsettled
        · intro hzero
          rw [hcard3]
          rcases hnext with ⟨-, hnone⟩ | ⟨hset, -⟩
          · exact hnone
          · exact absurd hzero hset
        · dsimp only
          rw [if_neg hclear, hcard3]
          rcases hnext with ⟨hzero, -⟩ | ⟨hset, hless⟩
          · rw [if_pos hzero]
            exact Nat.succ_pos _
          · rw [if_neg hset]
            exact Nat.succ_lt_succ hless
    · intro hzero
      rcases hsr.2 with ⟨-, hnone⟩ | ⟨hset, -⟩
      · exact hnone
      · exact absurd hzero hset
  refine (hloop.bind (g := fun done _ => done) (R := fun card' =>
      (on card' port).settled = (on card port).settled ∧ (on card' port).pending = none)
    fun done hdone => ?_).congr fun fuel => ?_
  · obtain ⟨card', rfl, hcard'⟩ := hdone
    exact Returns.of_some hcard'
  · rw [waitTransDone, if_neg hgood, hread]
    rfl

end Register

end NacCard.Lib.I2c
