import NacCard.Base.Words

/-!
# The clock of a card

`duck_ioctl` answers a request about the clock that is kept in a `nac_duck_t`.

* `Duck`, `Duckinf` — the record, as far as `duck_ioctl` reads it, and the request.
* `duckIoctl` — the answer, none where the code goes through a `NULL` pointer.
-/

namespace NacCard.Driver

open NacCard.Base

/-- `nac_duck_t`, as far as `duck_ioctl` reads and writes it. -/
structure Duck where
  sfreq : Nat
  width : Nat
  cfreq : Nat
  pulses : Nat
  singleMisses : Nat
  longestMiss : Nat
  badPulses : Nat
  freqError : Int
  worstFreq : Nat
  phaseError : Int
  worstPhase : Nat
  statStart : Int
  statEnd : Int
  sickness : Nat
  health : Nat
  healthThreshold : Int
  resyncs : Nat
  last : Nat
  lastTsc : Nat
  deriving Repr, DecidableEq

/-- `duckinf_t`, what is copied to the user. -/
structure Duckinf where
  lastTicks : Nat
  lastTsc : Nat
  statStart : Int
  statEnd : Int
  crystalFreq : Nat
  synthFreq : Nat
  resyncs : Nat
  badPulses : Nat
  worstFreqErr : Nat
  worstPhaseErr : Nat
  healthThresh : Nat
  pulses : Nat
  singlePulsesMissing : Nat
  longestPulseMissing : Nat
  health : Nat
  sickness : Nat
  freqErr : Int
  phaseErr : Int
  setDuckField : Nat
  deriving Repr, DecidableEq

/-- `Set_Duck_Clear_Stats`: the request is to clear the statistics. -/
def Set_Duck_Clear_Stats : Nat := 0x0001
/-- `Set_Duck_Health_Thresh`: the request is to set the threshold. -/
def Set_Duck_Health_Thresh : Nat := 0x0002

/-- `cshift`: so many bits of `cfreq` stand behind the point. -/
def cshift : Nat := 3

/-- `now` is the second `do_gettimeofday` answers. -/
def duckClearStats (now : Int) (duck : Duck) : Duck :=
  { duck with
    badPulses := 0
    worstFreq := 0
    worstPhase := 0
    pulses := 0
    singleMisses := 0
    longestMiss := 0
    sickness := 0
    resyncs := 0
    statStart := now
    statEnd := now }

/-- `duckinf->Health_Thresh` without the low `32 - width` bits, for widths of 1 to 32. -/
def Duck.setHealthThreshold (duck : Duck) (thresh : Nat) : Duck :=
  { duck with healthThreshold := i32 ((thresh >>> (32 - duck.width)) <<< (32 - duck.width)) }

/-- What is copied into the request; the flags of what has been done are cleared. -/
def Duckinf.fill (duckinf : Duckinf) (duck : Duck) : Duckinf :=
  { crystalFreq := duck.cfreq >>> cshift
    synthFreq := duck.sfreq
    lastTicks := duck.last
    resyncs := duck.resyncs
    badPulses := duck.badPulses
    worstFreqErr := duck.worstFreq
    worstPhaseErr := duck.worstPhase
    healthThresh := u32 duck.healthThreshold
    pulses := duck.pulses
    singlePulsesMissing := duck.singleMisses
    longestPulseMissing := duck.longestMiss
    health := duck.health
    sickness := duck.sickness
    freqErr := duck.freqError
    phaseErr := duck.phaseError
    statStart := duck.statStart
    statEnd := duck.statEnd
    lastTsc := duck.lastTsc
    setDuckField := duckinf.setDuckField }

/-- `x & ~flag`, for a flag that is a single bit. -/
def clearFlag (x flag : Nat) : Nat := if x &&& flag ≠ 0 then x - flag else x

/-- The pointer is none where it is `NULL`; the record and the request afterwards, where the value
returned is 0. -/
def duckIoctl (now : Int) (duck : Option Duck) (duckinf : Duckinf) : Option (Duck × Duckinf) :=
  duck.map fun duck =>
    let clear := duckinf.setDuckField &&& Set_Duck_Clear_Stats ≠ 0
    let duck := if clear then duckClearStats now duck else duck
    let field := clearFlag duckinf.setDuckField Set_Duck_Clear_Stats
    let duck := if field &&& Set_Duck_Health_Thresh ≠ 0 then duck.setHealthThreshold duckinf.healthThresh
      else duck
    (duck, { duckinf with setDuckField := clearFlag field Set_Duck_Health_Thresh }.fill duck)

end NacCard.Driver
