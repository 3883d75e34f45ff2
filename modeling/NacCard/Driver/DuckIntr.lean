import NacCard.Base.Run
import NacCard.Driver.Duck

/-!
# The interrupt of the clock

Once a second `duck_intr` compares the clock of a card with that of the host, or with the pulses of
another card, and writes a new step width to its synthesizer.

* `NacDuck`, `DuckRegs`, `DuckCard` — the record and the registers it is written to.
* `duckNew`, `duckSet`, `duckStart`, `duckInit` — how the clock starts.
* `overflowStep` — an interrupt in overflow mode: the clock follows the host.
* `slaveStep` — an interrupt in RS422 mode: three pulses are measured, one is left out, and from
  then on the clock is tracked.
* `duckIntr`, `clock` — either of them, and the machine whose steps they are; there is no next state
  where a divisor is 0.

Integers are added and multiplied modulo `2 ^ 64`, signed ones too, as the kernel compiles them.
The timer that watches over the pulses and the waiting processes are left out.
-/

namespace NacCard.Driver

open NacCard.Base

/-! ## Record and registers -/

/-- `nac_duck_t` -/
structure NacDuck extends Duck where
  base : Nat
  dds : UInt32
  preDds : UInt32
  started : Nat
  lastDelta : Nat
  syncState : Nat
  deriving Repr, DecidableEq

/-- What has been written last. -/
structure DuckRegs where
  cmd : Nat
  conf : Nat
  hload : Nat
  dds : UInt32
  deriving Repr, DecidableEq

/-- A card: the driver's record of its clock, and the registers of the clock. -/
structure DuckCard where
  duck : NacDuck
  regs : DuckRegs
  deriving Repr, DecidableEq

/-- `struct timeval` as the kernel fills it in: the microseconds are below a second. -/
structure Timeval where
  tvSec : Int
  tvUsec : Nat
  usec_lt : tvUsec < 1000000
  deriving Repr, DecidableEq

/-- What an interrupt reads: the configuration, the card's running and its latched time, and the
time of the host, a second time where the clock is started again. -/
structure Interrupt where
  conf : Nat
  hread : UInt32
  lread : UInt32
  hread1 : UInt32
  lread1 : UInt32
  ts : Timeval
  tv : Timeval
  deriving Repr, DecidableEq

/-- `DUCK_BASE_ADDR`, where the clock's registers are. -/
def DUCK_BASE_ADDR : Nat := 0x60060
/-- `Duck_Cmd_Go`: the clock runs. -/
def Duck_Cmd_Go : Nat := 0x001
/-- `Duck_Cmd_Stop`: it stands still. -/
def Duck_Cmd_Stop : Nat := 0x002
/-- `Duck_Cmd_Load_Immed`: it takes over the time that was loaded. -/
def Duck_Cmd_Load_Immed : Nat := 0x100
/-- `Duck_Config_Muxin_RS422`: pulses come from another card. -/
def Duck_Config_Muxin_RS422 : Nat := 0x01
/-- `Duck_Config_Muxin_Ovrflow`: pulses come from the clock's own seconds. -/
def Duck_Config_Muxin_Ovrflow : Nat := 0x04

namespace DuckCard

/-- `DUCKW(sc, dds, duck->dds)` after `duck->dds` has been set. -/
def setDds (u : DuckCard) (dds : UInt32) : DuckCard :=
  { duck := { u.duck with dds := dds }, regs := { u.regs with dds := dds } }

end DuckCard

/-- The record is cleared, and nothing has been written yet. -/
def duckNew : DuckCard where
  duck :=
    { sfreq := 0, width := 0, cfreq := 0, pulses := 0, singleMisses := 0, longestMiss := 0
      badPulses := 0, freqError := 0, worstFreq := 0, phaseError := 0, worstPhase := 0
      statStart := 0, statEnd := 0, sickness := 0, health := 0, healthThreshold := 0, resyncs := 0
      last := 0, lastTsc := 0, base := 0, dds := 0, preDds := 0, started := 0, lastDelta := 0
      syncState := 0 }
  regs := { cmd := 0, conf := 0, hload := 0, dds := 0 }

/-- `duck_set`: the clock is stopped and its record set to the defaults. -/
def duckSet (u : DuckCard) : DuckCard :=
  { duck :=
      { u.duck with
        cfreq := 100000000 <<< cshift
        dds := 0xabcc7712
        preDds := 0xabcc7712
        sfreq := 67108864
        width := 26
        base := DUCK_BASE_ADDR
        healthThreshold := 0xc800
        started := 0 }
    regs := { u.regs with dds := 0xabcc7712, cmd := Duck_Cmd_Stop, conf := Duck_Config_Muxin_Ovrflow } }

/-- `duck_start`: the clock starts at the nearest second of the host. -/
def duckStart (tv : Timeval) (u : DuckCard) : DuckCard :=
  let start := if tv.tvUsec > 500000 then u32 (tv.tvSec + 1) else u32 tv.tvSec
  { duck := { u.duck with started := 1 }
    regs := { u.regs with hload := start, cmd := Duck_Cmd_Load_Immed ||| Duck_Cmd_Go } }

/-- Up to the timer that calls `duck_start`; `now` is the host's second. -/
def duckInit (now : Int) (u : DuckCard) : DuckCard :=
  let u := duckSet u
  { u with
    duck :=
      { u.duck with
        toDuck := { duckClearStats now u.duck.toDuck with last := 0, health := 0 }
        syncState := 0xffffffff } }

/-! ## Division -/

/-- None where the divisor is 0. -/
def divide (a b : Nat) : Option Nat := if b = 0 then none else some (a / b)

/-- Towards 0. -/
def divideInt (a : Int) (b : Nat) : Option Int := if b = 0 then none else some (a.tdiv b)

/-! ## Following the host -/

/-- Seconds and their `2 ^ 32`nd parts. -/
def hostNow (ts : Timeval) : Int :=
  i64 (i64 (ts.tvSec * 4294967296) + (ts.tvUsec * 4294967296 / 1000 / 1000 : Nat))

/-- `((uint64_t)high << 32) + low` -/
def latched (high low : UInt32) : Nat := high.toNat * 4294967296 + low.toNat

/-- `offset1`: how far the nearest second is away. -/
def phaseOffset (now : Int) : Int :=
  let low := now % 4294967296
  let offset := if low < 0x80000000 then low else 0 - (0x100000000 - low)
  0 - offset

/-- About a second. -/
def GoodPulse (delta : Int) : Prop := delta < 0x101000000 ∧ delta > 0xff000000

instance (delta : Int) : Decidable (GoodPulse delta) := inferInstanceAs (Decidable (_ ∧ _))

/-- `0xffffffffffffffffll / delta1`, which is unsigned. -/
def wavelength (delta : Int) : Int := (0xffffffffffffffff / delta.toNat : Nat)

/-- The errors of the wavelength and of the phase, and the largest so far. -/
def measured (duck : NacDuck) (err offset : Int) : NacDuck :=
  { duck with
    freqError := i32 err
    worstFreq := if duck.worstFreq < err.natAbs then u32 err.natAbs else duck.worstFreq
    phaseError := i32 offset
    worstPhase := if duck.worstPhase < offset.natAbs then u32 offset.natAbs else duck.worstPhase }

@[simp] theorem measured_width (duck : NacDuck) (err offset : Int) :
    (measured duck err offset).width = duck.width := rfl

@[simp] theorem measured_dds (duck : NacDuck) (err offset : Int) :
    (measured duck err offset).dds = duck.dds := rfl

@[simp] theorem measured_cfreq (duck : NacDuck) (err offset : Int) :
    (measured duck err offset).cfreq = duck.cfreq := rfl

/-- An eighth of the estimate is replaced, unless it is too far away. -/
def smoothed (duck : NacDuck) (tempFreq : Int) : NacDuck :=
  if (tempFreq - (duck.cfreq >>> cshift : Nat)).natAbs < 1000000 then
    { duck with cfreq := u32 (duck.cfreq - (duck.cfreq >>> cshift : Nat) + tempFreq) }
  else { duck with badPulses := u32 (duck.badPulses + 1) }

/-- Near the second the clock is healthy. -/
def healthy (duck : NacDuck) (offset : Int) : NacDuck :=
  if offset < duck.healthThreshold ∧ offset > -duck.healthThreshold then
    { duck with health := if duck.health = 0 then 1 else duck.health }
  else duck

/-- A pulse in time: the frequency that is wanted, and the new estimate of the crystal. -/
def goodPulse (duck : NacDuck) (now delta : Int) : Option (Int × NacDuck) := do
  let delta := wavelength delta
  let offset := phaseOffset now
  let duck := measured duck (delta - 0x100000000) offset
  let tempFreq ← divideInt (i64 (delta * 2 ^ duck.width)) duck.dds.toNat
  -- the shift of a negative number rounds down
  some (0x100000000 - offset / 2, healthy (smoothed duck tempFreq) offset)

/-- What is wanted after a pulse; one that is not good changes nothing. -/
def hostPulse (duck : NacDuck) (now delta : Int) : Option (Int × NacDuck) :=
  if GoodPulse delta then goodPulse duck now delta else some (0x100000000, duck)

/-- The step width that turns the estimate into what is wanted. -/
def desiredDds (want : Int) (duck : NacDuck) : Option UInt32 := do
  let q ← divideInt (i64 (want * 2 ^ (duck.width + cshift))) duck.cfreq
  some (UInt32.ofNat (u32 q))

/-- The card is a second or more away from the host. -/
def Interrupt.Resync (i : Interrupt) : Prop :=
  i64 (i64 (latched i.hread i.lread) - hostNow i.ts) > 0xffffffff ∨
    i64 (i64 (latched i.hread i.lread) - hostNow i.ts) < -0xffffffff

instance (i : Interrupt) : Decidable i.Resync := inferInstanceAs (Decidable (_ ∨ _))

/-- The time of the host since the last pulse. -/
def hostDelta (u : DuckCard) (i : Interrupt) : Int := i64 (hostNow i.ts - u.duck.last)

/-- The pulse is counted. -/
def counted (duck : NacDuck) (ts : Timeval) : NacDuck :=
  { duck with
    statEnd := if ts.tvUsec > 500000 then ts.tvSec + 1 else ts.tvSec
    pulses := u32 (duck.pulses + 1) }

/-- The branch that gives up and starts the clock again. -/
def resync (u : DuckCard) (i : Interrupt) : DuckCard :=
  let duck := counted u.duck i.ts
  let duck :=
    { duck with resyncs := u32 (duck.resyncs + 1), sickness := u32 (duck.sickness + 1), health := 0 }
  duckStart i.tv (duckSet { u with duck := duck })

/-- The branch of `duck_intr` for pulses of the clock's own seconds. -/
def overflowStep (u : DuckCard) (i : Interrupt) : Option DuckCard :=
  if i.Resync then some (resync u i)
  else
    let duck := { counted u.duck i.ts with healthThreshold := 0xc800 }
    if u.duck.last ≠ 0 ∧ hostDelta u i ≠ 0 then do
      let (want, duck) ← hostPulse duck (hostNow i.ts) (hostDelta u i)
      let dds ← desiredDds want duck
      let u := { u with duck := duck }.setDds dds
      some { u with duck := { u.duck with last := u64 (hostNow i.ts) } }
    else some { u with duck := { duck with last := u64 (hostNow i.ts) } }

/-! ## Following another card -/

/-- The latched time, a second later where it has not been counted on. -/
def syncNow (last now : Nat) : Nat :=
  if now < last then u64 (now + 0x100000000)
  else if (now - last) >>> 6 < 0x2000000 then u64 (now + 0x100000000)
  else now

/-- The time since the last pulse, in units of `2^-26` seconds. -/
def syncDelta (last now : Nat) : Nat := u64 ((now : Int) - last) >>> 6

/-- How far the pulse is from a full second, either way, in the same units. -/
def syncOffset (now : Nat) : Nat :=
  (if now % 4294967296 < 0x80000000 then now % 4294967296 else 0xffffffff - now % 4294967296) >>> 6

/-- The second pulse. -/
def firstDds (lastDelta delta : Nat) (dds : UInt32) : Option UInt32 := do
  let turns : Int := if lastDelta < 0x2000000 then 0x4000000 * 3 else 0x4000000 * 4
  let q ← divide (u64 ((turns - lastDelta - 2 * delta) * dds.toNat)) delta
  some (UInt32.ofNat q)

/-- The third pulse. -/
def measuredDds (delta : Nat) (preDds : UInt32) : Option UInt32 := do
  let q ← divide (0x4000000 * preDds.toNat) delta
  some (UInt32.ofNat q)

/-- What `pre_dds` is multiplied by in the tracking stage. -/
def trackedTurns (now : Nat) (tmp : UInt32) : Int :=
  let offset : Int := syncOffset now
  if tmp > 0x4000000 then
    let tmp := tmp - 0x4000000
    if now % 4294967296 < 0x80000000 then 0x4000000 - offset - tmp.toNat
    else 0x4000000 + offset - tmp.toNat
  else
    let tmp := 0x4000000 - tmp
    if now % 4294967296 < 0x80000000 then 0x4000000 - offset + tmp.toNat
    else 0x4000000 + offset + tmp.toNat

/-- A pulse in the tracking stage, before the filter. -/
def trackedDds (now delta : Nat) (dds preDds : UInt32) : Option UInt32 := do
  let q ← divide (u64 (delta * dds.toNat)) preDds.toNat
  let tmp := UInt32.ofNat q
  let q ← divide (u64 (trackedTurns now tmp * preDds.toNat)) delta
  some (UInt32.ofNat q)

/-- The filter: `dds_new` is at most `0x400` away from `duck->dds`. -/
def slew (dds ddsNew : UInt32) : UInt32 :=
  if ddsNew > dds then
    let tmp := ddsNew - dds
    if tmp > 0x400 then dds + 0x400 else ddsNew
  else
    let tmp := dds - ddsNew
    if tmp > 0x400 then dds - 0x400 else ddsNew

/-- One of the five stages. -/
def syncStage (u : DuckCard) (now delta : Nat) : Option DuckCard :=
  let duck := u.duck
  if duck.syncState = 0xffffffff then
    some { u with duck := { duck with last := now, lastDelta := delta &&& 0x3ffffff, syncState := 0 } }
  else if duck.syncState = 0 then do
    let ddsNew ← firstDds duck.lastDelta delta duck.dds
    let u := u.setDds ddsNew
    some { u with duck := { u.duck with last := now, lastDelta := delta, syncState := 1 } }
  else if duck.syncState = 1 then do
    let ddsNew ← measuredDds delta duck.preDds
    let u := u.setDds ddsNew
    some { u with duck := { u.duck with preDds := ddsNew, last := now, lastDelta := delta, syncState := 2 } }
  else if duck.syncState = 2 then some { u with duck := { duck with last := now, syncState := 3 } }
  else do
    let ddsNew ← trackedDds now delta duck.dds duck.preDds
    let u := u.setDds (slew duck.dds ddsNew)
    some { u with duck :=
      { u.duck with preDds := duck.dds, last := now, lastDelta := delta, syncState := 3 } }

/-- The branch of `duck_intr` for pulses from another card. -/
def slaveStep (u : DuckCard) (i : Interrupt) : Option DuckCard := do
  let now := syncNow u.duck.last (latched i.hread1 i.lread1)
  let u ← syncStage u now (syncDelta u.duck.last now)
  some { u with duck := { u.duck with pulses := u32 (u.duck.pulses + 1) } }

/-! ## Interrupts -/

/-- The interrupt is one of the clock's own seconds. -/
def Interrupt.Overflow (i : Interrupt) : Prop := i.conf &&& Duck_Config_Muxin_Ovrflow ≠ 0

/-- The interrupt is a pulse from another card. -/
def Interrupt.RS422 (i : Interrupt) : Prop :=
  ¬i.Overflow ∧ i.conf &&& Duck_Config_Muxin_RS422 ≠ 0

instance (i : Interrupt) : Decidable i.Overflow := inferInstanceAs (Decidable (_ ≠ _))
instance (i : Interrupt) : Decidable i.RS422 := inferInstanceAs (Decidable (_ ∧ _))

/-- `duck_intr`: nothing happens before `duck_set`, or for another source. -/
def duckIntr (u : DuckCard) (i : Interrupt) : Option DuckCard :=
  if u.duck.base = 0 then some u
  else if i.Overflow then overflowStep u i
  else if i.RS422 then slaveStep u i
  else some u

/-- The clock from `duck_init` on. -/
def clock : Machine DuckCard Interrupt where
  init u := ∃ now before, u = duckInit now before
  step := duckIntr

theorem duckIntr_rs422 {u : DuckCard} {i : Interrupt} (hbase : u.duck.base ≠ 0) (h : i.RS422) :
    duckIntr u i = slaveStep u i := by
  rw [duckIntr, if_neg hbase, if_neg h.1, if_pos h]

theorem duckIntr_overflow {u : DuckCard} {i : Interrupt} (hbase : u.duck.base ≠ 0) (h : i.Overflow) :
    duckIntr u i = overflowStep u i := by
  rw [duckIntr, if_neg hbase, if_pos h]

theorem divide_some {a b q : Nat} (h : divide a b = some q) : b ≠ 0 ∧ q = a / b := by
  unfold divide at h
  split_ifs at h with hb
  exact ⟨hb, (Option.some_inj.1 h).symm⟩

theorem divide_of_ne_zero {a b : Nat} (h : b ≠ 0) : divide a b = some (a / b) := if_neg h

theorem divideInt_of_ne_zero {a : Int} {b : Nat} (h : b ≠ 0) : divideInt a b = some (a.tdiv b) :=
  if_neg h

end NacCard.Driver
