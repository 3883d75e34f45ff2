import NacCard.Base.Chunks
import NacCard.Lib.I2c

/-!
# Reading a byte, and reading many

`nac_i2c_random_read8` and `nac_i2c_sequential_read` begin alike: they address the slave, set its
pointer and address it again to read.

* `randomRead8`, `sequentialRead` — the functions; the second one keeps what it stores.
* `Positioned` — the slave is about to send the bytes of its memory, from an address on.
* `randomRead8_returns`, `sequentialRead_returns` — what each of them comes to.
* `BurstIsSingles` — a burst is single reads, and stores nothing else.
* `sequentialRead_iff` — for all counts but 0.
-/

namespace NacCard.Lib.I2c

open NacCard.Base

/-! ## The functions -/

/-- `RD`: the bit of an address for reading. -/
def RD : UInt8 := 0x1
/-- `WR`: the bit for writing. -/
def WR : UInt8 := 0x0

/-- Present a byte, set the command, wait. -/
def sendByte (fuel : Nat) (port data command : UInt8) (card : Card) : Option Card :=
  let card := wbWrite card port TXR data
  let card := wbWrite card port CR command
  waitTransDone fuel port card

/-- Drive the slave's address, send the memory address, drive the slave's address to read. -/
def setAddress (fuel : Nat) (port slaveAddr memAddr : UInt8) (card : Card) : Option Card := do
  let card ← sendByte fuel port (slaveAddr + WR) 0x90 card
  let card ← sendByte fuel port memAddr 0x10 card
  sendByte fuel port (slaveAddr + RD) 0x90 card

/-- Set the command, wait, read `RXR`. -/
def readByte (fuel : Nat) (port command : UInt8) (card : Card) : Option (UInt8 × Card) := do
  let card := wbWrite card port CR command
  let card ← waitTransDone fuel port card
  wbRead card port RXR

/-- None for a port that there is not: nothing is returned. -/
def randomRead8 (fuel : Nat) (card : Card) (port slaveAddr memAddr : UInt8) :
    Option (UInt8 × Card) :=
  if port > 3 then none
  else do
    let card ← setAddress fuel port slaveAddr memAddr card
    let (result, card) ← readByte fuel port 0x28 card
    some (result, wbWrite card port CR 0x40)

/-- The bytes stored, with their addresses. -/
def sequentialRead (fuel : Nat) (card : Card) (port slaveAddr baseAddr : UInt8) (pdata : Int)
    (count : UInt8) : Option (List (Int × UInt8) × Card) :=
  if port > 3 then some ([], card)
  else do
    let card ← setAddress fuel port slaveAddr baseAddr card
    let (stores, card) ← (List.range (count.toNat - 1)).foldlM
      (fun (s : List (Int × UInt8) × Card) (i : Nat) => do
        let (b, card) ← readByte fuel port 0x20 s.2
        some (s.1 ++ [(pdata + i, b)], card)) ([], card)
    let (b, card) ← readByte fuel port 0x28 card
    some (stores ++ [(pdata + count.toNat - 1, b)], wbWrite card port CR 0x40)

/-! ## On the line -/

section Line

variable {l : Line} {memory : UInt8 → UInt8} {dev : Nat} {a : UInt8}

/-- A slave `dev` with this memory. -/
structure Holds (l : Line) (dev : Nat) (memory : UInt8 → UInt8) : Prop where
  address : l.slave.address = dev
  memory : l.slave.memory = memory

/-- It will send the byte at `a` next. -/
structure Positioned (l : Line) (dev : Nat) (memory : UInt8 → UInt8) (a : UInt8) : Prop
    extends Holds l dev memory where
  phase : l.slave.phase = .reading
  pointer : l.slave.pointer = a

/-- Start and a byte for the slave. -/
theorem execute_start_slave (l : Line) (b : UInt8) :
    (l.execute ⟨0x90, b⟩).slave = Slave.receive { l.slave with phase := .addressing } b := by
  unfold Line.execute
  dsimp only
  rw [if_pos (by decide : (0x90 : UInt8) &&& 0x80 ≠ 0),
    if_neg (by decide : ¬(0x90 : UInt8) &&& 0x20 ≠ 0),
    if_pos (by decide : (0x90 : UInt8) &&& 0x10 ≠ 0),
    if_neg (by decide : ¬(0x90 : UInt8) &&& 0x40 ≠ 0)]

theorem execute_write_slave (l : Line) (b : UInt8) :
    (l.execute ⟨0x10, b⟩).slave = l.slave.receive b := by
  unfold Line.execute
  dsimp only
  rw [if_neg (by decide : ¬(0x10 : UInt8) &&& 0x80 ≠ 0),
    if_neg (by decide : ¬(0x10 : UInt8) &&& 0x20 ≠ 0),
    if_pos (by decide : (0x10 : UInt8) &&& 0x10 ≠ 0),
    if_neg (by decide : ¬(0x10 : UInt8) &&& 0x40 ≠ 0)]

theorem execute_read (l : Line) (b : UInt8) :
    l.execute ⟨0x20, b⟩ = ⟨(l.slave.send false).1, (l.slave.send false).2⟩ := by
  unfold Line.execute
  dsimp only
  rw [if_neg (by decide : ¬(0x20 : UInt8) &&& 0x80 ≠ 0),
    if_pos (by decide : (0x20 : UInt8) &&& 0x20 ≠ 0),
    if_neg (by decide : ¬(0x20 : UInt8) &&& 0x40 ≠ 0),
    decide_eq_false (by decide : ¬(0x20 : UInt8) &&& 0x08 ≠ 0)]

theorem execute_read_nack (l : Line) (b : UInt8) :
    l.execute ⟨0x28, b⟩ = ⟨(l.slave.send true).1, (l.slave.send true).2⟩ := by
  unfold Line.execute
  dsimp only
  rw [if_neg (by decide : ¬(0x28 : UInt8) &&& 0x80 ≠ 0),
    if_pos (by decide : (0x28 : UInt8) &&& 0x20 ≠ 0),
    if_neg (by decide : ¬(0x28 : UInt8) &&& 0x40 ≠ 0),
    decide_eq_true (by decide : (0x28 : UInt8) &&& 0x08 ≠ 0)]

theorem execute_stop_slave (l : Line) (b : UInt8) :
    (l.execute ⟨0x40, b⟩).slave = { l.slave with phase := .idle } := by
  unfold Line.execute
  dsimp only
  rw [if_neg (by decide : ¬(0x40 : UInt8) &&& 0x80 ≠ 0),
    if_neg (by decide : ¬(0x40 : UInt8) &&& 0x20 ≠ 0),
    if_neg (by decide : ¬(0x40 : UInt8) &&& 0x10 ≠ 0),
    if_pos (by decide : (0x40 : UInt8) &&& 0x40 ≠ 0)]

/-- **The slave is addressed**, to be written to or to be read from. -/
theorem execute_start (h : Holds l dev memory) (b : UInt8) (hdev : b.toNat / 2 = dev) :
    Holds (l.execute ⟨0x90, b⟩) dev memory ∧
      (l.execute ⟨0x90, b⟩).slave.pointer = l.slave.pointer ∧
      (l.execute ⟨0x90, b⟩).slave.phase = if b.toNat % 2 = 1 then .reading else .pointing := by
  have hmine : ¬b.toNat / 2 ≠ l.slave.address := not_not.2 (hdev.trans h.address.symm)
  have hslave : (l.execute ⟨0x90, b⟩).slave =
      { l.slave with phase := if b.toNat % 2 = 1 then .reading else .pointing } := by
    rw [execute_start_slave, Slave.receive]
    dsimp only
    rw [if_neg hmine]
    split_ifs <;> rfl
  refine ⟨⟨?_, ?_⟩, ?_, ?_⟩ <;> rw [hslave]
  · exact h.address
  · exact h.memory

theorem execute_pointer (h : Holds l dev memory) (hphase : l.slave.phase = .pointing) :
    Holds (l.execute ⟨0x10, a⟩) dev memory ∧ (l.execute ⟨0x10, a⟩).slave.pointer = a := by
  have hslave : (l.execute ⟨0x10, a⟩).slave =
      { l.slave with pointer := a, phase := .writing } := by
    rw [execute_write_slave, Slave.receive, hphase]
  refine ⟨⟨?_, ?_⟩, ?_⟩ <;> rw [hslave]
  · exact h.address
  · exact h.memory

theorem Positioned.send (h : Positioned l dev memory a) (nack : Bool) :
    l.slave.send nack = (memory a,
      { l.slave with pointer := a + 1, phase := if nack then .idle else .reading }) := by
  rw [Slave.send, h.phase]
  dsimp only
  rw [h.pointer]
  exact Prod.ext (congrFun h.memory a) rfl

/-- A byte is read, and another one may follow. -/
theorem Positioned.read (h : Positioned l dev memory a) (b : UInt8) :
    (l.execute ⟨0x20, b⟩).rxr = memory a ∧ Positioned (l.execute ⟨0x20, b⟩) dev memory (a + 1) := by
  rw [execute_read, h.send]
  exact ⟨rfl, ⟨⟨h.address, h.memory⟩, rfl, rfl⟩⟩

theorem Positioned.read_nack (h : Positioned l dev memory a) (b : UInt8) :
    (l.execute ⟨0x28, b⟩).rxr = memory a ∧ Holds (l.execute ⟨0x28, b⟩) dev memory := by
  rw [execute_read_nack, h.send]
  exact ⟨rfl, ⟨h.address, h.memory⟩⟩

theorem Holds.stop (h : Holds l dev memory) (b : UInt8) : Holds (l.execute ⟨0x40, b⟩) dev memory := by
  constructor <;> rw [execute_stop_slave]
  · exact h.address
  · exact h.memory

end Line

/-! ## Through the controller -/

section Transfer

variable {card : Card} {port slaveAddr a data command : UInt8} {dev : Nat} {memory : UInt8 → UInt8}

/-- The line of a port once nothing is pending. -/
def lineOf (card : Card) (port : UInt8) : Line := (on card port).settled

theorem lineOf_write_cr (hport : port ≤ 3) (card : Card) (command : UInt8) :
    lineOf (wbWrite card port CR command) port =
      (lineOf card port).execute ⟨command, (on card port).txr⟩ := by
  rw [lineOf, wbWrite_on hport (by decide), Controller.write_cr]
  rfl

theorem sendByte_returns (hport : port ≤ 3) (card : Card) (data command : UInt8) :
    Returns (fun fuel => sendByte fuel port data command card) fun card' =>
      lineOf card' port = (lineOf card port).execute ⟨command, data⟩ := by
  refine (waitTransDone_returns hport _).imp fun card' hcard' => ?_
  have htxr : on (wbWrite card port TXR data) port = (on card port).write TXR data :=
    wbWrite_on hport (by decide)
  obtain ⟨hbyte, hline⟩ := (on card port).write_txr data
  refine hcard'.1.trans ((lineOf_write_cr hport _ command).trans ?_)
  rw [lineOf, htxr, hbyte, hline]
  rfl

theorem readByte_returns (hport : port ≤ 3) (card : Card) (command : UInt8) :
    Returns (fun fuel => readByte fuel port command card) fun r => ∃ byte,
      lineOf r.2 port = (lineOf card port).execute ⟨command, byte⟩ ∧
        r.1 = ((lineOf card port).execute ⟨command, byte⟩).rxr := by
  refine (waitTransDone_returns hport (wbWrite card port CR command)).bind fun card' hcard' => ?_
  have hline : lineOf card' port = _ := hcard'.1.trans (lineOf_write_cr hport card command)
  obtain ⟨card'', hread, hcard''⟩ := @wbRead_on card' _ RXR hport (by decide)
  have hvalue : (on card' port).read RXR = ((on card' port).line.rxr, on card' port) := rfl
  rw [hvalue] at hread hcard''
  refine ⟨_, ⟨(on card port).txr, ?_, ?_⟩, 0, fun _ _ => hread⟩
  · rw [← hline, lineOf, hcard'']
    rfl
  · rw [← hline, lineOf, Controller.settled_of_none hcard'.2]

/-- The address of a slave, with the bit for the direction. -/
theorem addressed (hdev : slaveAddr.toNat = 2 * dev) :
    (slaveAddr + WR).toNat / 2 = dev ∧ (slaveAddr + WR).toNat % 2 = 0 ∧
      (slaveAddr + RD).toNat / 2 = dev ∧ (slaveAddr + RD).toNat % 2 = 1 := by
  have hlt := slaveAddr.toNat_lt
  have hwr : (slaveAddr + WR).toNat = slaveAddr.toNat := by
    rw [UInt8.toNat_add]
    exact Nat.mod_eq_of_lt hlt
  have hrd : (slaveAddr + RD).toNat = slaveAddr.toNat + 1 := by
    rw [UInt8.toNat_add]
    refine Nat.mod_eq_of_lt ?_
    show slaveAddr.toNat + 1 < 2 ^ 8
    omega
  omega

/-- **The pointer is set.** -/
theorem setAddress_returns (hport : port ≤ 3) (hdev : slaveAddr.toNat = 2 * dev)
    (h : Holds (lineOf card port) dev memory) (a : UInt8) :
    Returns (fun fuel => setAddress fuel port slaveAddr a card) fun card' =>
      Positioned (lineOf card' port) dev memory a := by
  obtain ⟨hwr, hwrite, hrd, hread⟩ := addressed hdev
  refine (sendByte_returns hport card _ _).bind fun card1 h1 => ?_
  obtain ⟨hholds1, -, hphase1⟩ := execute_start h _ hwr
  rw [← h1] at hholds1 hphase1
  rw [if_neg (by omega)] at hphase1
  refine (sendByte_returns hport card1 _ _).bind fun card2 h2 => ?_
  obtain ⟨hholds2, hpointer2⟩ := execute_pointer (a := a) hholds1 hphase1
  rw [← h2] at hholds2 hpointer2
  refine (sendByte_returns hport card2 _ _).imp fun card3 h3 => ?_
  obtain ⟨hholds3, hpointer3, hphase3⟩ := execute_start hholds2 _ hrd
  rw [← h3] at hholds3 hpointer3 hphase3
  rw [if_pos hread] at hphase3
  exact ⟨hholds3, hphase3, hpointer3.trans hpointer2⟩

/-- **A single read.** -/
theorem randomRead8_returns (hport : port ≤ 3) (hdev : slaveAddr.toNat = 2 * dev)
    (h : Holds (lineOf card port) dev memory) (a : UInt8) :
    Returns (fun fuel => randomRead8 fuel card port slaveAddr a) fun r =>
      r.1 = memory a ∧ Holds (lineOf r.2 port) dev memory := by
  have hgood : ¬port > 3 := UInt8.not_lt.2 hport
  simp only [randomRead8, if_neg hgood]
  refine (setAddress_returns hport hdev h a).bind fun card1 h1 => ?_
  refine (readByte_returns hport card1 0x28).bind ?_
  rintro ⟨b, card2⟩ ⟨byte, hline, hb⟩
  obtain ⟨hrxr, hholds⟩ := h1.read_nack byte
  refine Returns.of_some ⟨hb.trans hrxr, ?_⟩
  rw [lineOf_write_cr hport]
  exact Holds.stop (hline ▸ hholds) _

/-! ## A burst -/

/-- The bytes of the memory from `base` on, and where the function puts them: the last one behind
the others, if there are any. -/
def burst (memory : UInt8 → UInt8) (base : UInt8) (pdata : Int) (count : Nat) : List (Int × UInt8) :=
  (List.range (count - 1)).map (fun (k : Nat) => (pdata + k, memory (base + UInt8.ofNat k))) ++
    [(pdata + count - 1, memory (base + UInt8.ofNat (count - 1)))]

/-- **A read of many bytes.** -/
theorem sequentialRead_returns (hport : port ≤ 3) (hdev : slaveAddr.toNat = 2 * dev)
    (h : Holds (lineOf card port) dev memory) (base : UInt8) (pdata : Int) (count : UInt8) :
    Returns (fun fuel => sequentialRead fuel card port slaveAddr base pdata count) fun r =>
      r.1 = burst memory base pdata count.toNat ∧ Holds (lineOf r.2 port) dev memory := by
  have hgood : ¬port > 3 := UInt8.not_lt.2 hport
  simp only [sequentialRead, if_neg hgood]
  refine (setAddress_returns hport hdev h base).bind fun card1 h1 => ?_
  refine (Returns.foldlM_range (s := ([], card1)) (fun i (s : List (Int × UInt8) × Card) => s.1 =
      (List.range i).map (fun (k : Nat) => (pdata + k, memory (base + UInt8.ofNat k))) ∧
      Positioned (lineOf s.2 port) dev memory (base + UInt8.ofNat i)) ?_ ⟨rfl, ?_⟩).bind ?_
  · rintro i ⟨stores, card2⟩ - ⟨hstores, hpos⟩
    refine (readByte_returns hport card2 0x20).bind ?_
    rintro ⟨b, card3⟩ ⟨byte, hline, hb⟩
    obtain ⟨hrxr, hnext⟩ := hpos.read byte
    refine Returns.of_some ⟨?_, ?_⟩
    · dsimp only at hstores hb ⊢
      rw [hstores, List.range_succ, List.map_append, List.map_singleton, hb, hrxr]
    · dsimp only at hline ⊢
      rw [hline, UInt8.ofNat_add, ← UInt8.add_assoc]
      exact hnext
  · have hfirst : base + UInt8.ofNat 0 = base := UInt8.add_zero base
    rw [hfirst]
    exact h1
  · rintro ⟨stores, card2⟩ ⟨hstores, hpos⟩
    refine (readByte_returns hport card2 0x28).bind ?_
    rintro ⟨b, card3⟩ ⟨byte, hline, hb⟩
    obtain ⟨hrxr, hholds⟩ := hpos.read_nack byte
    refine Returns.of_some ⟨?_, ?_⟩
    · dsimp only at hstores hb ⊢
      rw [hstores, hb, hrxr, burst]
    · dsimp only at hline ⊢
      rw [lineOf_write_cr hport, hline]
      exact hholds.stop _

theorem burst_of_pos (memory : UInt8 → UInt8) (base : UInt8) (pdata : Int) {count : Nat}
    (h : 0 < count) : burst memory base pdata count =
      (List.range count).map fun (k : Nat) => (pdata + k, memory (base + UInt8.ofNat k)) := by
  obtain ⟨n, rfl⟩ : ∃ n, count = n + 1 := ⟨count - 1, by omega⟩
  have hlast : pdata + ((n + 1 : Nat) : Int) - 1 = pdata + n := by
    push_cast
    ring
  rw [burst, Nat.add_sub_cancel, hlast, List.range_succ, List.map_append]
  rfl

/-- The same memory at the same address. -/
def SameSlave (card other : Card) (port : UInt8) : Prop :=
  Holds (lineOf other port) (lineOf card port).slave.address (lineOf card port).slave.memory

/-- Every byte is that of a single read, now or later, and nothing is stored behind or before them. -/
structure BurstIsSingles (card : Card) (port slaveAddr base : UInt8) (pdata : Int) (count : UInt8)
    (stores : List (Int × UInt8)) : Prop where
  bytes : ∀ k, k < count.toNat → ∃ b, (∀ mem, storeAll stores mem (pdata + k) = b) ∧
    ∀ other, SameSlave card other port →
      Returns (fun fuel => randomRead8 fuel other port slaveAddr (base + UInt8.ofNat k))
        fun r => r.1 = b
  inside : ∀ s ∈ stores, pdata ≤ s.1 ∧ s.1 < pdata + count.toNat

/-- **A burst is single reads** for all counts but 0, for which a byte is stored before `pdata`. -/
theorem sequentialRead_iff (hport : port ≤ 3)
    (hslave : slaveAddr.toNat = 2 * (lineOf card port).slave.address) (base : UInt8) (pdata : Int)
    (count : UInt8) :
    Returns (fun fuel => sequentialRead fuel card port slaveAddr base pdata count)
      (fun r => BurstIsSingles card port slaveAddr base pdata count r.1) ↔ 0 < count := by
  have hreturns := sequentialRead_returns hport hslave ⟨rfl, rfl⟩ base pdata count
  constructor
  · intro h
    obtain ⟨r, ⟨hstores, -⟩, hsingles⟩ := hreturns.both h
    by_contra hzero
    have hcount : count.toNat = 0 := by
      have hle := UInt8.le_iff_toNat_le.1 (UInt8.not_lt.1 hzero)
      exact Nat.le_zero.1 hle
    have hinside := hsingles.inside (pdata + count.toNat - 1,
      (lineOf card port).slave.memory (base + UInt8.ofNat (count.toNat - 1)))
    rw [hstores, burst] at hinside
    have hbefore := (hinside (List.mem_append_right _ (List.mem_singleton_self _))).1
    rw [hcount] at hbefore
    dsimp only at hbefore
    omega
  · intro hpos
    have hcount : 0 < count.toNat := UInt8.lt_iff_toNat_lt.1 hpos
    refine hreturns.imp ?_
    rintro ⟨stores, card'⟩ ⟨hstores, -⟩
    rw [burst_of_pos _ _ _ hcount] at hstores
    dsimp only at hstores
    subst hstores
    refine ⟨fun k hk => ⟨(lineOf card port).slave.memory (base + UInt8.ofNat k), fun mem => ?_,
      fun other hother => ?_⟩, ?_⟩
    · refine storeAll_range (p := fun (k : Nat) => pdata + k) ?_
        (fun k => (lineOf card port).slave.memory (base + UInt8.ofNat k)) mem hk
      exact fun i j hij => by simpa using hij
    · exact (randomRead8_returns hport hslave hother _).imp fun r hr => hr.1
    · intro s hs
      obtain ⟨k, hk, rfl⟩ := List.mem_map.1 hs
      have hlt := List.mem_range.1 hk
      dsimp only
      omega

end Transfer

/-! ## A port with a memory -/

/-- A memory at `0x50` whose bytes are their addresses; the commands take their time. -/
def idleCard : Card := fun _ =>
  { value := 0
    controller :=
      { txr := 0
        line := ⟨0, { address := 0x50, memory := id, pointer := 7, phase := .idle }⟩
        pending := some ⟨0x40, 0⟩
        executeIn := 1
        clearIn := 1
        delays := fun n => (n % 2, n % 3)
        issued := 0
        flags := 0x81 } }

theorem sequentialRead_three : (0xa0 : UInt8).toNat = 2 * (lineOf idleCard 2).slave.address ∧
    Returns (fun fuel => sequentialRead fuel idleCard 2 0xa0 254 1000 3)
      (fun r => BurstIsSingles idleCard 2 0xa0 254 1000 3 r.1) := by
  have hslave : (0xa0 : UInt8).toNat = 2 * (lineOf idleCard 2).slave.address := rfl
  exact ⟨hslave, (sequentialRead_iff (by decide) hslave 254 1000 3).2 (by decide)⟩

/-- Nothing is asked for, and one byte is stored. -/
theorem sequentialRead_none : ¬Returns (fun fuel => sequentialRead fuel idleCard 2 0xa0 5 1000 0)
    (fun r => BurstIsSingles idleCard 2 0xa0 5 1000 0 r.1) := by
  intro h
  have hslave : (0xa0 : UInt8).toNat = 2 * (lineOf idleCard 2).slave.address := rfl
  obtain ⟨r, ⟨hstores, -⟩, hsingles⟩ :=
    (sequentialRead_returns (by decide) hslave ⟨rfl, rfl⟩ 5 1000 0).both h
  have hinside := hsingles.inside (999, 5)
  rw [hstores] at hinside
  have hbefore := (hinside (List.mem_singleton_self _)).1
  exact absurd hbefore (by decide)

end NacCard.Lib.I2c
