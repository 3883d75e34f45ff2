import NacCard.Driver.DuckIntr

/-!
# A clock that follows the host

In overflow mode `duck_intr` estimates the frequency of the crystal from the time of the host and
the step width, and from the estimate the next step width.

* `Used`, `crystal`, `estimate`, `wanted` — a pulse, its numbers taken from the state before it and
  the time of the host, without a width.
* `estimate_lt`, `le_wanted` — their bounds; `goodPulse_eq`, `hostPulse_eq` — what is computed.
* `HostInv.idle`, `overflowStep_used` — what an interrupt does.
* `HostOk` — bounds on the time of the host, by the step width and the estimate before the
  interrupt; `HostExact` — what is to hold of a pulse.
* `hostOk_iff` — the bounds say that the new step width fits into 32 bits.
* `HostOk.of_cfreq` — they are kept at whatever time while the estimate is far from both ends.
* `duckIntr_exact_iff` — in runs within the bounds every pulse is exact, and no other pulse is.
-/

namespace NacCard.Driver

open NacCard.Base

/-! ## A pulse -/

/-- A pulse that sets the step width. -/
def Used (u : DuckCard) (i : Interrupt) : Prop :=
  ¬i.Resync ∧ u.duck.last ≠ 0 ∧ hostDelta u i ≠ 0

instance (u : DuckCard) (i : Interrupt) : Decidable (Used u i) := inferInstanceAs (Decidable (_ ∧ _))

/-- The crystal, by the time of the host since the last pulse. -/
def crystal (u : DuckCard) (i : Interrupt) : Int :=
  wavelength (hostDelta u i) * 67108864 / u.duck.dds.toNat

/-- The last estimate with an eighth of it replaced, unless the crystal is too far away. -/
def estimate (u : DuckCard) (i : Interrupt) : Int :=
  if GoodPulse (hostDelta u i) ∧ |crystal u i - (u.duck.cfreq / 8 : Nat)| < 1000000 then
    u.duck.cfreq - (u.duck.cfreq / 8 : Nat) + crystal u i
  else u.duck.cfreq

/-- `2 ^ 32`, and half of what the pulse comes late by the time of the host. -/
def wanted (u : DuckCard) (i : Interrupt) : Int :=
  if GoodPulse (hostDelta u i) then 0x100000000 - phaseOffset (hostNow i.ts) / 2 else 0x100000000

/-- What an interrupt finds. -/
structure HostInv (u : DuckCard) : Prop where
  base : u.duck.base ≠ 0
  width : u.duck.width = 26
  cfreq_pos : 1 ≤ u.duck.cfreq
  cfreq_lt : u.duck.cfreq < 4294967296
  dds : u.duck.dds ≠ 0

section Bounds

variable {u : DuckCard} {i : Interrupt} {delta : Int}

theorem wavelength_nonneg (delta : Int) : 0 ≤ wavelength delta := Int.natCast_nonneg _

theorem wavelength_lt (h : GoodPulse delta) : wavelength delta < 0x200000000 := by
  have hlow : 0xff000001 ≤ delta.toNat := by
    have hdelta := h.2
    omega
  have hle : 0xffffffffffffffff / delta.toNat ≤ 0xffffffffffffffff / 0xff000001 :=
    Nat.div_le_div_left hlow (by decide)
  exact Int.ofNat_lt.2 (hle.trans_lt (by decide))

theorem phaseOffset_mem (now : Int) : -0x80000000 ≤ phaseOffset now ∧ phaseOffset now ≤ 0x80000000 := by
  unfold phaseOffset
  dsimp only
  split_ifs <;> omega

theorem le_wanted (u : DuckCard) (i : Interrupt) : 0xc0000000 ≤ wanted u i := by
  have hphase := phaseOffset_mem (hostNow i.ts)
  unfold wanted
  split_ifs <;> omega

theorem wanted_le (u : DuckCard) (i : Interrupt) : wanted u i ≤ 0x140000000 := by
  have hphase := phaseOffset_mem (hostNow i.ts)
  unfold wanted
  split_ifs <;> omega

theorem crystal_nonneg (u : DuckCard) (i : Interrupt) : 0 ≤ crystal u i :=
  Int.ediv_nonneg (mul_nonneg (wavelength_nonneg _) (by decide)) (Int.natCast_nonneg _)

theorem estimate_pos (h : HostInv u) : 1 ≤ estimate u i := by
  have hcfreq := h.cfreq_pos
  have hcrystal := crystal_nonneg u i
  unfold estimate
  split_ifs <;> omega

/-- One pulse adds less than a million. -/
theorem estimate_lt (h : HostInv u) : estimate u i < 4294967296 + 1000000 := by
  have hcfreq := h.cfreq_lt
  unfold estimate
  split_ifs with hgood
  · have hnear := abs_lt.1 hgood.2
    omega
  · omega

end Bounds

/-! ## What an interrupt does -/

section Step

variable {u u' : DuckCard} {i : Interrupt}

/-- What `goodPulse` leaves of the record. -/
structure Kept (duck duck' : NacDuck) : Prop where
  base : duck'.base = duck.base
  width : duck'.width = duck.width

theorem Kept.trans {duck duck' duck'' : NacDuck} (h : Kept duck duck') (h' : Kept duck' duck'') :
    Kept duck duck'' :=
  ⟨h'.base.trans h.base, h'.width.trans h.width⟩

theorem measured_kept (duck : NacDuck) (err offset : Int) : Kept duck (measured duck err offset) :=
  ⟨rfl, rfl⟩

theorem healthy_kept (duck : NacDuck) (offset : Int) :
    Kept duck (healthy duck offset) ∧ (healthy duck offset).cfreq = duck.cfreq := by
  unfold healthy
  split_ifs <;> exact ⟨⟨rfl, rfl⟩, rfl⟩

theorem smoothed_kept (duck : NacDuck) (tempFreq : Int) : Kept duck (smoothed duck tempFreq) := by
  unfold smoothed
  split_ifs <;> exact ⟨rfl, rfl⟩

theorem smoothed_cfreq {duck : NacDuck} (hcfreq : duck.cfreq < 4294967296) (tempFreq : Int) :
    (smoothed duck tempFreq).cfreq = u32 (if |tempFreq - (duck.cfreq / 8 : Nat)| < 1000000 then
      duck.cfreq - (duck.cfreq / 8 : Nat) + tempFreq else duck.cfreq) := by
  have hshift : duck.cfreq >>> cshift = duck.cfreq / 8 := Nat.shiftRight_eq_div_pow _ 3
  have hnear : |tempFreq - (duck.cfreq / 8 : Nat)| < 1000000 ↔
      (tempFreq - (duck.cfreq / 8 : Nat)).natAbs < 1000000 := by
    rw [Int.abs_eq_natAbs]
    omega
  unfold smoothed
  rw [hshift]
  by_cases hkept : (tempFreq - (duck.cfreq / 8 : Nat)).natAbs < 1000000
  · rw [if_pos hkept, if_pos (hnear.2 hkept)]
  · rw [if_neg hkept, if_neg (mt hnear.1 hkept), u32_natCast hcfreq]

/-- **A pulse in time** comes to what is wanted and to the new estimate. -/
theorem goodPulse_eq {duck : NacDuck} {now delta : Int} (hwidth : duck.width = 26)
    (hdds : duck.dds ≠ 0) (hgood : GoodPulse delta) :
    goodPulse duck now delta = some (0x100000000 - phaseOffset now / 2,
      healthy (smoothed (measured duck (wavelength delta - 0x100000000) (phaseOffset now))
        (wavelength delta * 67108864 / duck.dds.toNat)) (phaseOffset now)) := by
  have hdds' : duck.dds.toNat ≠ 0 := fun hzero => hdds (UInt32.toNat_inj.1 hzero)
  have hnonneg := wavelength_nonneg delta
  have hlt := wavelength_lt hgood
  have hexact : i64 (wavelength delta * 2 ^ duck.width) = wavelength delta * 67108864 := by
    rw [hwidth]
    exact i64_of_mem (by omega) (by omega)
  simp only [goodPulse, measured_width, measured_dds, hexact, divideInt_of_ne_zero hdds',
    Int.tdiv_eq_ediv_of_nonneg (mul_nonneg hnonneg (by decide : (0 : Int) ≤ 67108864)),
    Option.bind_eq_bind, Option.bind_some]

/-- What is wanted and the new estimate, of whatever pulse. -/
theorem hostPulse_eq (h : HostInv u) (i : Interrupt) (duck : NacDuck) (hkept : Kept u.duck duck)
    (hcfreq : duck.cfreq = u.duck.cfreq) (hdds : duck.dds = u.duck.dds) :
    ∃ duck', hostPulse duck (hostNow i.ts) (hostDelta u i) = some (wanted u i, duck') ∧
      Kept u.duck duck' ∧ duck'.cfreq = u32 (estimate u i) := by
  unfold hostPulse
  by_cases hgood : GoodPulse (hostDelta u i)
  · rw [if_pos hgood, goodPulse_eq (hkept.width.trans h.width) (hdds ▸ h.dds) hgood]
    refine ⟨_, by rw [wanted, if_pos hgood], ?_, ?_⟩
    · exact ((hkept.trans (measured_kept _ _ _)).trans (smoothed_kept _ _)).trans (healthy_kept _ _).1
    · rw [(healthy_kept _ _).2, smoothed_cfreq, measured_cfreq, hcfreq, hdds, estimate, crystal]
      · simp only [hgood, true_and]
      · rw [measured_cfreq, hcfreq]
        exact h.cfreq_lt
  · refine ⟨duck, ?_, hkept, ?_⟩
    · rw [if_neg hgood, wanted, if_neg hgood]
    · rw [hcfreq, estimate, if_neg (fun hboth => hgood hboth.1), u32_natCast h.cfreq_lt]

theorem desiredDds_eq {duck : NacDuck} {want : Int} (hwidth : duck.width = 26) (hlow : 0 ≤ want)
    (hhigh : want ≤ 0x140000000) (hcfreq : duck.cfreq ≠ 0) :
    desiredDds want duck = some (UInt32.ofNat (u32 (want * 536870912 / duck.cfreq))) := by
  have hexact : i64 (want * 2 ^ (duck.width + cshift)) = want * 536870912 := by
    rw [hwidth]
    exact i64_of_mem (show _ ≤ want * 536870912 by omega) (show want * 536870912 < _ by omega)
  rw [desiredDds, hexact, divideInt_of_ne_zero hcfreq, Int.tdiv_eq_ediv_of_nonneg (by omega)]
  rfl

/-- **A pulse that is used**, unless it divides by 0. -/
theorem overflowStep_used (h : HostInv u) (hused : Used u i) : ∃ duck, Kept u.duck duck ∧
    duck.cfreq = u32 (estimate u i) ∧ overflowStep u i = (desiredDds (wanted u i) duck).map fun dds =>
      { duck := { duck with dds := dds, last := u64 (hostNow i.ts) }
        regs := { u.regs with dds := dds } } := by
  obtain ⟨hsync, hlast, hdelta⟩ := hused
  obtain ⟨duck, hpulse, hkept, hcfreq⟩ := hostPulse_eq h i
    { counted u.duck i.ts with healthThreshold := 0xc800 } ⟨rfl, rfl⟩ rfl rfl
  refine ⟨duck, hkept, hcfreq, ?_⟩
  rw [overflowStep, if_neg hsync, if_pos ⟨hlast, hdelta⟩, hpulse]
  dsimp only [Option.bind_eq_bind, Option.bind_some]
  cases desiredDds (wanted u i) duck with
  | none => rfl
  | some dds => rfl

/-- An interrupt that leaves the step width as it is, or starts the clock again. -/
theorem HostInv.idle (h : HostInv u) (hidle : ¬Used u i) :
    ∃ u', overflowStep u i = some u' ∧ HostInv u' := by
  by_cases hsync : i.Resync
  · refine ⟨resync u i, if_pos hsync, ?_⟩
    exact ⟨show DUCK_BASE_ADDR ≠ 0 by decide, rfl, show 1 ≤ 800000000 by decide,
      show 800000000 < 4294967296 by decide, show (0xabcc7712 : UInt32) ≠ 0 by decide⟩
  · have hsame : ¬(u.duck.last ≠ 0 ∧ hostDelta u i ≠ 0) := fun hboth => hidle ⟨hsync, hboth⟩
    rw [overflowStep, if_neg hsync, if_neg hsame]
    exact ⟨_, rfl, h.base, h.width, h.cfreq_pos, h.cfreq_lt, h.dds⟩

/-- What a pulse that is used leaves. -/
structure Adjusted (u : DuckCard) (i : Interrupt) (u' : DuckCard) : Prop where
  base : u'.duck.base = u.duck.base
  width : u'.duck.width = u.duck.width
  cfreq : u'.duck.cfreq = u32 (estimate u i)
  dds : u'.duck.dds = UInt32.ofNat (u32 (wanted u i * 536870912 / u32 (estimate u i)))
  register : u'.regs.dds = u'.duck.dds

theorem overflowStep_adjusted (h : HostInv u) (hused : Used u i) (hcfreq : u32 (estimate u i) ≠ 0) :
    ∃ u', overflowStep u i = some u' ∧ Adjusted u i u' := by
  obtain ⟨duck, hkept, hestimate, hstep⟩ := overflowStep_used h hused
  have hlow := le_wanted u i
  rw [desiredDds_eq (hkept.width.trans h.width) (by omega) (wanted_le u i) (hestimate ▸ hcfreq),
    hestimate] at hstep
  exact ⟨_, hstep, hkept.base, hkept.width, rfl, rfl, rfl⟩

theorem overflowStep_none (h : HostInv u) (hused : Used u i) (hcfreq : u32 (estimate u i) = 0) :
    overflowStep u i = none := by
  obtain ⟨duck, -, hestimate, hstep⟩ := overflowStep_used h hused
  rw [hstep, desiredDds, hestimate, hcfreq]
  rfl

end Step

/-! ## Runs of pulses -/

section Runs

variable {u u' : DuckCard} {i : Interrupt}

/-- The time of the host since the last pulse is at most what makes a crystal of frequency `f`: the
step width counts its turns, `2 ^ 26` to a second. -/
def Within (u : DuckCard) (i : Interrupt) (f : Int) : Prop :=
  hostDelta u i * ((f * u.duck.dds.toNat + 67108863) / 67108864) < 18446744073709551616

instance (u : DuckCard) (i : Interrupt) (f : Int) : Decidable (Within u i f) :=
  inferInstanceAs (Decidable (_ < _))

/-- How long after the nearest second the host has the interrupt. -/
def lateness (now : Int) : Int :=
  if now % 4294967296 < 0x80000000 then now % 4294967296 else now % 4294967296 - 4294967296

/-- A second, and half the lateness of a pulse in time. -/
def due (u : DuckCard) (i : Interrupt) : Int :=
  if GoodPulse (hostDelta u i) then 0x100000000 + (lateness (hostNow i.ts) + 1) / 2 else 0x100000000

/-- A pulse in time, less than a million away from an eighth of the estimate. -/
def Accepted (u : DuckCard) (i : Interrupt) : Prop :=
  GoodPulse (hostDelta u i) ∧ Within u i ((u.duck.cfreq / 8 : Nat) - 999999) ∧
    ¬Within u i ((u.duck.cfreq / 8 : Nat) + 1000000)

instance (u : DuckCard) (i : Interrupt) : Decidable (Accepted u i) :=
  inferInstanceAs (Decidable (_ ∧ _))

/-- What is left of the estimate when an eighth of it is replaced. -/
def keptFreq (u : DuckCard) : Int := u.duck.cfreq - (u.duck.cfreq / 8 : Nat)

/-- **Bounds on an interrupt**, from the time of the host and the record before it.
* A pulse that is accepted comes neither so soon that the estimate leaves 32 bits, nor so long
  after the last one, or so late, that the step width does.
* At any other that is used, the estimate is more than an eighth of what is due. -/
structure HostOk (u : DuckCard) (i : Interrupt) : Prop where
  mode : i.Overflow
  soon : Used u i → Accepted u i → ¬Within u i (4294967296 - keptFreq u)
  long : Used u i → Accepted u i → Within u i (due u i / 8 + 1 - keptFreq u)
  other : Used u i → ¬Accepted u i → due u i < 8 * u.duck.cfreq

instance (u : DuckCard) (i : Interrupt) : Decidable (HostOk u i) :=
  decidable_of_iff (_ ∧ _ ∧ _ ∧ _)
    ⟨fun h => ⟨h.1, h.2.1, h.2.2.1, h.2.2.2⟩, fun h => ⟨h.mode, h.soon, h.long, h.other⟩⟩

/-- A time since the last pulse bounds the crystal from below. -/
theorem within_iff {f : Int} (h : HostInv u) (hgood : GoodPulse (hostDelta u i)) :
    Within u i f ↔ f ≤ crystal u i := by
  have hdds : (0 : Int) < u.duck.dds.toNat := by
    have hne : u.duck.dds.toNat ≠ 0 := fun hzero => h.dds (UInt32.toNat_inj.1 hzero)
    omega
  have hpos : 0 < hostDelta u i := by
    have hlow := hgood.2
    omega
  have hwave : wavelength (hostDelta u i) = 18446744073709551615 / hostDelta u i := by
    rw [wavelength, Int.natCast_ediv, Int.toNat_of_nonneg hpos.le]
    rfl
  generalize hturns : f * u.duck.dds.toNat = turns
  calc Within u i f
      ↔ (turns + 67108863) / 67108864 * hostDelta u i ≤ 18446744073709551615 := by
        rw [Within, hturns, mul_comm]
        omega
    _ ↔ (turns + 67108863) / 67108864 ≤ wavelength (hostDelta u i) := by
        rw [hwave, Int.le_ediv_iff_mul_le hpos]
    _ ↔ turns ≤ wavelength (hostDelta u i) * 67108864 := by omega
    _ ↔ f ≤ crystal u i := by rw [← hturns, crystal, Int.le_ediv_iff_mul_le hdds]

theorem due_eq_wanted (u : DuckCard) (i : Interrupt) : due u i = wanted u i := by
  unfold due wanted lateness phaseOffset
  dsimp only
  split_ifs <;> omega

theorem accepted_iff (h : HostInv u) : Accepted u i ↔
    GoodPulse (hostDelta u i) ∧ |crystal u i - (u.duck.cfreq / 8 : Nat)| < 1000000 := by
  refine and_congr_right fun hgood => ?_
  rw [within_iff h hgood, within_iff h hgood, abs_lt]
  omega

theorem estimate_accepted (h : HostInv u) (haccepted : Accepted u i) :
    estimate u i = keptFreq u + crystal u i := if_pos ((accepted_iff h).1 haccepted)

theorem estimate_other (h : HostInv u) (hother : ¬Accepted u i) : estimate u i = u.duck.cfreq :=
  if_neg (mt (accepted_iff h).2 hother)

/-- **Within the bounds the estimate and the step width fit**, and only there. -/
theorem hostOk_iff (h : HostInv u) : HostOk u i ↔
    i.Overflow ∧ (Used u i → estimate u i < 4294967296 ∧ wanted u i < 8 * estimate u i) := by
  have hlt := h.cfreq_lt
  rw [← due_eq_wanted]
  by_cases haccepted : Accepted u i
  · have hsoon : ¬Within u i (4294967296 - keptFreq u) ↔ estimate u i < 4294967296 := by
      rw [within_iff h haccepted.1, estimate_accepted h haccepted]
      omega
    have hlong : Within u i (due u i / 8 + 1 - keptFreq u) ↔ due u i < 8 * estimate u i := by
      rw [within_iff h haccepted.1, estimate_accepted h haccepted]
      omega
    constructor
    · intro hok
      exact ⟨hok.mode, fun hused =>
        ⟨hsoon.1 (hok.soon hused haccepted), hlong.1 (hok.long hused haccepted)⟩⟩
    · rintro ⟨hmode, hfits⟩
      exact ⟨hmode, fun hused _ => hsoon.2 (hfits hused).1, fun hused _ => hlong.2 (hfits hused).2,
        fun _ hother => absurd haccepted hother⟩
  · rw [estimate_other h haccepted]
    constructor
    · intro hok
      exact ⟨hok.mode, fun hused => ⟨by omega, hok.other hused haccepted⟩⟩
    · rintro ⟨hmode, hfits⟩
      exact ⟨hmode, fun _ h => absurd h haccepted, fun _ h => absurd h haccepted,
        fun hused _ => (hfits hused).2⟩

/-- Far from both ends the time of the host does not matter: a pulse adds or takes away less than a
million, and at most five quarters of a second are due. -/
theorem HostOk.of_cfreq (h : HostInv u) (hmode : i.Overflow) (hlow : 672088640 ≤ u.duck.cfreq)
    (hhigh : u.duck.cfreq ≤ 4293967296) : HostOk u i := by
  refine (hostOk_iff h).2 ⟨hmode, fun _ => ?_⟩
  have hwanted := wanted_le u i
  unfold estimate
  split_ifs with hnear
  · have habs := abs_lt.1 hnear.2
    omega
  · omega

/-- Nothing is cut off. -/
structure HostExact (u : DuckCard) (i : Interrupt) (u' : DuckCard) : Prop where
  cfreq : 1 ≤ u'.duck.cfreq
  dds : u'.duck.dds ≠ 0
  measured : Used u i → GoodPulse (hostDelta u i) →
    i64 (wavelength (hostDelta u i) * 2 ^ u.duck.width) = wavelength (hostDelta u i) * 2 ^ u.duck.width
  asked : Used u i →
    i64 (wanted u i * 2 ^ (u.duck.width + cshift)) = wanted u i * 2 ^ (u.duck.width + cshift)
  quotient : Used u i →
    (u'.duck.dds.toNat : Int) = wanted u i * 2 ^ (u.duck.width + cshift) / u'.duck.cfreq
  register : Used u i → u'.regs.dds = u'.duck.dds

/-- The shifts are exact, whatever the pulse. -/
theorem measured_exact (h : HostInv u) (hgood : GoodPulse (hostDelta u i)) :
    i64 (wavelength (hostDelta u i) * 2 ^ u.duck.width) =
      wavelength (hostDelta u i) * 2 ^ u.duck.width := by
  have hnonneg := wavelength_nonneg (hostDelta u i)
  have hlt := wavelength_lt hgood
  rw [h.width]
  exact i64_of_mem (by omega) (by omega)

theorem asked_exact (h : HostInv u) (i : Interrupt) :
    i64 (wanted u i * 2 ^ (u.duck.width + cshift)) = wanted u i * 2 ^ (u.duck.width + cshift) := by
  have hlow := le_wanted u i
  have hhigh := wanted_le u i
  rw [h.width]
  exact i64_of_mem (show _ ≤ wanted u i * 536870912 by omega) (show wanted u i * 536870912 < _ by omega)

/-- **A step width that fits** is the quotient, and is not 0. -/
theorem HostInv.exact (h : HostInv u) (hestimate : estimate u i < 4294967296)
    (hwanted : wanted u i < 8 * estimate u i) (hadjusted : Adjusted u i u') :
    HostInv u' ∧ HostExact u i u' := by
  have hpos := estimate_pos (i := i) h
  have hlow := le_wanted u i
  have hcfreq : (u32 (estimate u i) : Int) = estimate u i := u32_of_lt (by omega) hestimate
  have hfits : wanted u i * 536870912 / estimate u i < 4294967296 :=
    (Int.ediv_lt_iff_lt_mul (by omega)).2 (by omega)
  have hsome : 1 ≤ wanted u i * 536870912 / estimate u i :=
    (Int.le_ediv_iff_mul_le (by omega)).2 (by omega)
  have hdds : (u'.duck.dds.toNat : Int) = wanted u i * 536870912 / estimate u i := by
    have hu32 := u32_of_lt (by omega) hfits
    rw [hadjusted.dds, hcfreq, UInt32.toNat_ofNat_of_lt' (by simpa using u32_lt _), hu32]
  have hne : u'.duck.dds ≠ 0 := fun hzero => by
    rw [hzero, UInt32.toNat_zero] at hdds
    omega
  have hone : 1 ≤ u'.duck.cfreq := by
    rw [hadjusted.cfreq]
    omega
  refine ⟨⟨hadjusted.base ▸ h.base, hadjusted.width.trans h.width, hone, hadjusted.cfreq ▸ u32_lt _, hne⟩,
    ⟨hone, hne, fun _ => measured_exact h, fun _ => asked_exact h i, fun _ => ?_, fun _ => hadjusted.register⟩⟩
  rw [hadjusted.cfreq, hcfreq, h.width]
  exact hdds

/-- **And the other way round**: one that does not fit is not the quotient. -/
theorem HostExact.fits (h : HostInv u) (hused : Used u i) (hadjusted : Adjusted u i u')
    (hexact : HostExact u i u') : estimate u i < 4294967296 ∧ wanted u i < 8 * estimate u i := by
  have hpos := estimate_pos (i := i) h
  have hlt := estimate_lt (i := i) h
  have hlow := le_wanted u i
  have hcfreq : (u'.duck.cfreq : Int) = estimate u i % 4294967296 := by
    rw [hadjusted.cfreq]
    unfold u32
    omega
  have hone := hexact.cfreq
  have hbound := u'.duck.dds.toNat_lt
  have hquotient : wanted u i * 536870912 / u'.duck.cfreq < 4294967296 := by
    have hq := hexact.quotient hused
    rw [h.width] at hq
    have hq' : (u'.duck.dds.toNat : Int) = wanted u i * 536870912 / u'.duck.cfreq := hq
    omega
  rw [Int.ediv_lt_iff_lt_mul (by omega)] at hquotient
  omega

/-- An interrupt that is not used has nothing to cut off. -/
theorem HostExact.unused (hinv : HostInv u') (hunused : ¬Used u i) : HostExact u i u' where
  cfreq := hinv.cfreq_pos
  dds := hinv.dds
  measured hused := absurd hused hunused
  asked hused := absurd hused hunused
  quotient hused := absurd hused hunused
  register hused := absurd hused hunused

theorem HostInv.start (now : Int) (before : DuckCard) : HostInv (duckInit now before) where
  base := show DUCK_BASE_ADDR ≠ 0 by decide
  width := rfl
  cfreq_pos := show 1 ≤ 800000000 by decide
  cfreq_lt := show 800000000 < 4294967296 by decide
  dds := show (0xabcc7712 : UInt32) ≠ 0 by decide

/-- **One interrupt.** -/
theorem HostInv.step (h : HostInv u) (hok : HostOk u i) :
    ∃ u', duckIntr u i = some u' ∧ HostInv u' ∧ HostExact u i u' := by
  rw [duckIntr_overflow h.base hok.mode]
  by_cases hused : Used u i
  · obtain ⟨hestimate, hwanted⟩ := ((hostOk_iff h).1 hok).2 hused
    have hcfreq : u32 (estimate u i) ≠ 0 := by
      have hpos := estimate_pos (i := i) h
      have hsame := u32_of_lt (by omega) hestimate
      omega
    obtain ⟨u', hstep, hadjusted⟩ := overflowStep_adjusted h hused hcfreq
    exact ⟨u', hstep, h.exact hestimate hwanted hadjusted⟩
  · obtain ⟨u', hstep, hinv⟩ := h.idle hused
    exact ⟨u', hstep, hinv, .unused hinv hused⟩

theorem HostInv.reach (h : clock.Reach HostOk u) : HostInv u := by
  refine h.invariant ?_ ?_
  · rintro s ⟨now, before, rfl⟩
    exact HostInv.start now before
  · intro s i s' hs hok hstep
    obtain ⟨u', hu', hinv, -⟩ := hs.step hok
    exact Option.some_inj.1 (hu'.symm.trans hstep) ▸ hinv

/-- **Nothing is cut off** in a run within the bounds, nor at its next pulse; at one outside the
bounds something is.  With the estimate far from both ends every pulse is within them. -/
theorem duckIntr_exact_iff (h : clock.Reach HostOk u) (hmode : i.Overflow) :
    1 ≤ u.duck.cfreq ∧ u.duck.dds ≠ 0 ∧
      ((∃ u', duckIntr u i = some u' ∧ HostExact u i u') ↔ HostOk u i) ∧
      (672088640 ≤ u.duck.cfreq → u.duck.cfreq ≤ 4293967296 → HostOk u i) := by
  have hinv := HostInv.reach h
  refine ⟨hinv.cfreq_pos, hinv.dds, ⟨?_, ?_⟩, HostOk.of_cfreq hinv hmode⟩
  · rintro ⟨u', hstep, hexact⟩
    refine (hostOk_iff hinv).2 ⟨hmode, fun hused => ?_⟩
    rw [duckIntr_overflow hinv.base hmode] at hstep
    by_cases hcfreq : u32 (estimate u i) = 0
    · rw [overflowStep_none hinv hused hcfreq] at hstep
      cases hstep
    · obtain ⟨u1, hstep1, hadjusted⟩ := overflowStep_adjusted hinv hused hcfreq
      cases hstep1.symm.trans hstep
      exact hexact.fits hinv hused hadjusted
  · intro hok
    obtain ⟨u', hstep, -, hexact⟩ := hinv.step hok
    exact ⟨u', hstep, hexact⟩

/-- An interrupt that comes so many microseconds after the second. -/
def hostPulseAt (usec : Nat) (husec : usec < 1000000) (sec : Nat) : Interrupt where
  conf := Duck_Config_Muxin_Ovrflow
  hread := UInt32.ofNat sec
  lread := 0
  hread1 := 0
  lread1 := 0
  ts := ⟨sec, usec, husec⟩
  tv := ⟨sec, usec, husec⟩

/-- Three pulses on the second. -/
theorem duckIntr_exact_three : ∃ u, clock.Reach HostOk u ∧
    ∃ u', duckIntr u (hostPulseAt 0 (by decide) 1002) = some u' ∧
      HostExact u (hostPulseAt 0 (by decide) 1002) u' := by
  have hstart : clock.Reach HostOk (duckInit 0 duckNew) := .start ⟨0, duckNew, rfl⟩
  obtain ⟨u, hreach, hlast⟩ := Machine.exists_reach_of_run hstart
    [hostPulseAt 0 (by decide) 1000, hostPulseAt 0 (by decide) 1001]
    (fun u => decide (HostOk u (hostPulseAt 0 (by decide) 1002))) true (by decide +kernel)
  exact ⟨u, hreach, (duckIntr_exact_iff hreach (by decide)).2.2.1.2 (of_decide_eq_true hlast)⟩

/-- Pulses that come 20 milliseconds late, for five minutes. -/
theorem duckIntr_exact_late : ∃ u i, clock.Reach (fun _ i => i.Overflow) u ∧ i.Overflow ∧
    ¬∃ u', duckIntr u i = some u' ∧ HostExact u i u' := by
  have hstart : clock.Reach (fun _ i => i.Overflow) (duckInit 0 duckNew) := .start ⟨0, duckNew, rfl⟩
  obtain ⟨u, hreach, hlast⟩ := Machine.exists_reach_of_run hstart
    ((List.range' 1000 316).map (hostPulseAt 20000 (by decide)))
    (fun u => (duckIntr u (hostPulseAt 20000 (by decide) 1316)).map fun u' =>
      decide (Used u (hostPulseAt 20000 (by decide) 1316) ∧ (u'.duck.dds.toNat : Int) ≠
        wanted u (hostPulseAt 20000 (by decide) 1316) * 2 ^ (u.duck.width + cshift) / u'.duck.cfreq))
    (some true) (by decide +kernel)
  refine ⟨u, hostPulseAt 20000 (by decide) 1316, hreach, by decide, ?_⟩
  rintro ⟨u', hstep, hexact⟩
  rw [hstep] at hlast
  obtain ⟨hused, hne⟩ := of_decide_eq_true (Option.some_inj.1 hlast)
  exact hne (hexact.quotient hused)

end Runs

end NacCard.Driver
