import NacCard.Driver.DuckIntr

/-!
# A clock that follows another card

In RS422 mode `duck_intr` divides by the time that has passed since the last pulse, and in the
tracking stage by the step width of two pulses ago.

* `slew_le` — the filter moves the step width by `0x400` at most; `duckIntr_slew` — so do all
  interrupts of the tracking stage together, for each of them.
* `Backwards`, `elapsed_eq_zero` — the one second by which the time of the card may not go back.
* `SlaveOk` — a pulse that is not such, and after which no step width is 0.
* `syncStage_none_iff`, `slaveStep_none_iff` — when a stage divides by 0, and a pulse does.
* `SlaveInv` — what a pulse keeps.
* `duckIntr_divides` — in runs of such pulses no divisor is 0.
-/

namespace NacCard.Driver

open NacCard.Base

/-! ## The filter -/

section Filter

theorem toNat_sub_add {a b : UInt32} (h : b ≤ a) : (a - b).toNat + b.toNat = a.toNat := by
  rw [UInt32.toNat_sub_of_le _ _ h]
  exact Nat.sub_add_cancel (UInt32.le_iff_toNat_le.1 h)

/-- **The filter** does not wrap round. -/
theorem slew_toNat (dds ddsNew : UInt32) : (slew dds ddsNew).toNat =
    max (dds.toNat - 0x400) (min ddsNew.toNat (dds.toNat + 0x400)) := by
  have hlimit : (0x400 : UInt32).toNat = 0x400 := rfl
  have hbound := ddsNew.toNat_lt
  unfold slew
  dsimp only
  split_ifs with hup hfar hfar
  · have hsub := toNat_sub_add (UInt32.le_of_lt hup)
    have hmore := UInt32.lt_iff_toNat_lt.1 hfar
    rw [UInt32.toNat_add]
    omega
  · have hsub := toNat_sub_add (UInt32.le_of_lt hup)
    have hnear := UInt32.le_iff_toNat_le.1 (UInt32.not_lt.1 hfar)
    omega
  · have hsub := toNat_sub_add (UInt32.not_lt.1 hup)
    have hmore := UInt32.lt_iff_toNat_lt.1 hfar
    have hdown := toNat_sub_add (a := dds) (b := 0x400) (UInt32.le_iff_toNat_le.2 (by omega))
    omega
  · have hsub := toNat_sub_add (UInt32.not_lt.1 hup)
    have hnear := UInt32.le_iff_toNat_le.1 (UInt32.not_lt.1 hfar)
    omega

theorem slew_le (dds ddsNew : UInt32) : (slew dds ddsNew).toNat ≤ dds.toNat + 0x400 ∧
    dds.toNat ≤ (slew dds ddsNew).toNat + 0x400 := by
  rw [slew_toNat]
  omega

/-- It comes to 0 only from near 0. -/
theorem slew_ne_zero {dds ddsNew : UInt32} (h : 0x400 < dds.toNat ∨ ddsNew ≠ 0) :
    slew dds ddsNew ≠ 0 := by
  intro hzero
  have hnat := slew_toNat dds ddsNew
  rw [hzero, UInt32.toNat_zero] at hnat
  rcases h with hfar | hnew
  · omega
  · exact hnew (UInt32.toNat_inj.1 (by rw [UInt32.toNat_zero]; omega))

end Filter

/-! ## The tracking stage -/

section Tracking

variable {u u' : DuckCard} {i : Interrupt}

/-- One pulse: the register and the record have the same step width, near the last one. -/
structure Slewed (u u' : DuckCard) : Prop where
  state : u'.duck.syncState = 3
  up : u'.duck.dds.toNat ≤ u.duck.dds.toNat + 0x400
  down : u.duck.dds.toNat ≤ u'.duck.dds.toNat + 0x400
  register : u.duck.base ≠ 0 → u'.regs.dds = u'.duck.dds

theorem syncStage_tracks {now delta : Nat} (hstate : u.duck.syncState = 3)
    (h : syncStage u now delta = some u') :
    ∃ ddsNew, trackedDds now delta u.duck.dds u.duck.preDds = some ddsNew ∧
      u' = { u.setDds (slew u.duck.dds ddsNew) with
        duck := { (u.setDds (slew u.duck.dds ddsNew)).duck with
          preDds := u.duck.dds, last := now, lastDelta := delta, syncState := 3 } } := by
  rw [syncStage, hstate] at h
  obtain ⟨ddsNew, htracked, hu'⟩ := Option.bind_eq_some_iff.1 h
  exact ⟨ddsNew, htracked, (Option.some_inj.1 hu').symm⟩

theorem slaveStep_some (h : slaveStep u i = some u') :
    ∃ u1, syncStage u (syncNow u.duck.last (latched i.hread1 i.lread1))
        (syncDelta u.duck.last (syncNow u.duck.last (latched i.hread1 i.lread1))) = some u1 ∧
      u' = { u1 with duck := { u1.duck with pulses := u32 (u1.duck.pulses + 1) } } := by
  obtain ⟨u1, hstage, hu'⟩ := Option.bind_eq_some_iff.1 h
  exact ⟨u1, hstage, (Option.some_inj.1 hu').symm⟩

/-- **One pulse.** -/
theorem duckIntr_slewed (hstate : u.duck.syncState = 3) (hmode : i.RS422)
    (h : duckIntr u i = some u') : Slewed u u' := by
  by_cases hbase : u.duck.base = 0
  · rw [duckIntr, if_pos hbase] at h
    cases h
    exact ⟨hstate, Nat.le_add_right _ _, Nat.le_add_right _ _, fun hne => absurd hbase hne⟩
  · rw [duckIntr_rs422 hbase hmode] at h
    obtain ⟨u1, hstage, rfl⟩ := slaveStep_some h
    obtain ⟨ddsNew, -, rfl⟩ := syncStage_tracks hstate hstage
    have hslew := slew_le u.duck.dds ddsNew
    exact ⟨rfl, hslew.1, hslew.2, fun _ => rfl⟩

/-- Interrupts one after another. -/
def duckRun (u : DuckCard) (is : List Interrupt) : Option DuckCard := is.foldlM duckIntr u

/-- **The slew is bounded**: each pulse of the tracking stage moves the step width by `0x400` at
most, so `k` of them by `k` times as much. -/
theorem duckIntr_slew (u : DuckCard) (hstate : u.duck.syncState = 3) (is : List Interrupt)
    (hmode : ∀ i ∈ is, i.RS422) (u' : DuckCard) (hrun : duckRun u is = some u') :
    u'.duck.syncState = 3 ∧
    |(u'.duck.dds.toNat : Int) - u.duck.dds.toNat| ≤ is.length * 0x400 ∧
    ∀ before i after, is = before ++ i :: after → ∃ u1 u2, duckRun u before = some u1 ∧
      duckIntr u1 i = some u2 ∧ Slewed u1 u2 := by
  induction is generalizing u with
  | nil =>
      cases hrun
      refine ⟨hstate, by simp, ?_⟩
      intro before i after hsplit
      cases before <;> cases hsplit
  | cons j is ih =>
      obtain ⟨u1, hstep, hrest⟩ := Option.bind_eq_some_iff.1 hrun
      have hslewed := duckIntr_slewed hstate (hmode j (List.mem_cons_self ..)) hstep
      obtain ⟨hstate', hsum, heach⟩ := ih u1 hslewed.state
        (fun i hi => hmode i (List.mem_cons_of_mem j hi)) hrest
      refine ⟨hstate', ?_, ?_⟩
      · have hup := hslewed.up
        have hdown := hslewed.down
        rw [abs_le] at hsum ⊢
        rw [List.length_cons, Nat.cast_succ]
        omega
      · intro before i after hsplit
        cases before with
        | nil =>
            obtain ⟨rfl, rfl⟩ := List.cons.inj hsplit
            exact ⟨u, u1, rfl, hstep, hslewed⟩
        | cons k before =>
            obtain ⟨rfl, htail⟩ := List.cons.inj hsplit
            obtain ⟨u2, u3, hbefore, hnext, hs⟩ := heach before i after htail
            refine ⟨u2, u3, ?_, hnext, hs⟩
            rw [duckRun, List.foldlM_cons, hstep]
            exact hbefore

/-- The pulse of a second. -/
def pulse (sec : UInt32) : Interrupt where
  conf := Duck_Config_Muxin_RS422
  hread := 0
  lread := 0
  hread1 := sec
  lread1 := 0
  ts := ⟨0, 0, by decide⟩
  tv := ⟨0, 0, by decide⟩

/-- A clock that has been tracking since the second 1000. -/
def trackingClock : DuckCard :=
  let u := duckInit 0 duckNew
  { u with duck := { u.duck with last := 1000 * 4294967296, syncState := 3 } }

theorem duckIntr_slew_two : ∃ u', duckRun trackingClock [pulse 1001, pulse 1002] = some u' ∧
    |(u'.duck.dds.toNat : Int) - trackingClock.duck.dds.toNat| ≤ 2 * 0x400 := by
  have hsome : (duckRun trackingClock [pulse 1001, pulse 1002]).isSome := by decide +kernel
  obtain ⟨u', hrun⟩ := Option.isSome_iff_exists.1 hsome
  exact ⟨u', hrun, (duckIntr_slew trackingClock rfl _ (by decide) u' hrun).2.1⟩

end Tracking

/-! ## What is divided by -/

section Divisors

variable {u u' : DuckCard} {i : Interrupt} {last now delta : Nat}

/-- The latched time is a second before the last one, to within 64 units. -/
def Backwards (last now : Nat) : Prop :=
  now < last ∧ last ≤ now + 0x100000000 ∧ now + 0x100000000 < last + 64

instance (last now : Nat) : Decidable (Backwards last now) := inferInstanceAs (Decidable (_ ∧ _))

/-- The time since the last pulse, in units of 64; one that comes early is a second late. -/
def elapsed (last now : Nat) : Nat :=
  u64 ((if now < last + 0x80000000 then now + 0x100000000 else now : Nat) - (last : Int)) / 64

theorem latched_lt (high low : UInt32) : latched high low < 18446744073709551616 := by
  have hhigh := high.toNat_lt
  have hlow := low.toNat_lt
  unfold latched
  omega

theorem syncNow_lt (last : Nat) (hnow : now < 18446744073709551616) :
    syncNow last now < 18446744073709551616 := by
  unfold syncNow
  split_ifs
  · exact u64_lt _
  · exact u64_lt _
  · exact hnow

theorem syncDelta_eq (hnow : now < 18446744073709551616) :
    syncDelta last (syncNow last now) = elapsed last now := by
  rw [syncDelta, elapsed, Nat.shiftRight_eq_div_pow]
  congr 1
  unfold syncNow
  rw [Nat.shiftRight_eq_div_pow]
  unfold u64
  split_ifs <;> omega

/-- **No time has passed** only where the clock went back. -/
theorem elapsed_eq_zero (hlast : last < 18446744073709551616) (hnow : now < 18446744073709551616) :
    elapsed last now = 0 ↔ Backwards last now := by
  rw [elapsed, Nat.div_eq_zero_iff_lt (by decide), Backwards]
  unfold u64
  split_ifs <;> omega

/-- What the tracking stage divides by `delta`. -/
def trackedProduct (now delta : Nat) (dds preDds : UInt32) : Nat :=
  let offset : Int := syncOffset now
  let tmp : Int := (u64 (delta * dds.toNat) / preDds.toNat % 4294967296 : Nat)
  u64 ((if now % 4294967296 < 0x80000000 then 0x8000000 - offset - tmp else 0x8000000 + offset - tmp) *
    preDds.toNat)

/-- Both ways to `tmp` come to the same. -/
theorem trackedTurns_eq (now : Nat) (tmp : UInt32) : trackedTurns now tmp =
    if now % 4294967296 < 0x80000000 then 0x8000000 - (syncOffset now : Int) - tmp.toNat
    else 0x8000000 + (syncOffset now : Int) - tmp.toNat := by
  have hlimit : (0x4000000 : UInt32).toNat = 0x4000000 := rfl
  unfold trackedTurns
  dsimp only
  split_ifs with hlarge hearly hearly
  · have hsub := toNat_sub_add (UInt32.le_of_lt hlarge)
    omega
  · have hsub := toNat_sub_add (UInt32.le_of_lt hlarge)
    omega
  · have hsub := toNat_sub_add (UInt32.not_lt.1 hlarge)
    omega
  · have hsub := toNat_sub_add (UInt32.not_lt.1 hlarge)
    omega

theorem trackedDds_eq {dds preDds : UInt32} (hpre : preDds ≠ 0) (hdelta : delta ≠ 0) :
    trackedDds now delta dds preDds =
      some (UInt32.ofNat (trackedProduct now delta dds preDds / delta)) := by
  have hpre' : preDds.toNat ≠ 0 := fun hzero => hpre (UInt32.toNat_inj.1 hzero)
  rw [trackedDds, trackedProduct, divide_of_ne_zero hpre']
  dsimp only [Option.bind_eq_bind, Option.bind_some]
  rw [divide_of_ne_zero hdelta, trackedTurns_eq, UInt32.toNat_ofNat']
  rfl

/-- The second late does not count. -/
theorem trackedProduct_syncNow (dds preDds : UInt32) :
    trackedProduct (syncNow last now) delta dds preDds = trackedProduct now delta dds preDds := by
  have hlow : syncNow last now % 4294967296 = now % 4294967296 := by
    unfold syncNow u64
    split_ifs <;> omega
  rw [trackedProduct, trackedProduct, syncOffset, syncOffset, hlow]

/-- The low word of a quotient. -/
theorem ofNat_div_ne_zero {n : Nat} (hdelta : delta ≠ 0) (h : delta ≤ n % (delta * 4294967296)) :
    UInt32.ofNat (n / delta) ≠ 0 := by
  intro hzero
  have hnat : n / delta % 4294967296 = 0 := (UInt32.toNat_ofNat').symm.trans (congrArg UInt32.toNat hzero)
  rw [← Nat.mod_mul_right_div_self, Nat.div_eq_zero_iff_lt (Nat.pos_of_ne_zero hdelta)] at hnat
  exact absurd h (not_le.2 hnat)

theorem bind_some_eq_none {α β : Type} {x : Option α} {f : α → β} :
    (x.bind fun a => some (f a)) = none ↔ x = none := by
  cases x <;> simp

theorem divide_eq_none {a b : Nat} : divide a b = none ↔ b = 0 := by
  unfold divide
  split_ifs with hzero <;> simp [hzero]

theorem firstDds_eq_none {lastDelta : Nat} {dds : UInt32} :
    firstDds lastDelta delta dds = none ↔ delta = 0 := by
  unfold firstDds
  exact bind_some_eq_none.trans divide_eq_none

theorem measuredDds_eq_none {preDds : UInt32} : measuredDds delta preDds = none ↔ delta = 0 := by
  unfold measuredDds
  exact bind_some_eq_none.trans divide_eq_none

theorem trackedDds_eq_none {dds preDds : UInt32} :
    trackedDds now delta dds preDds = none ↔ delta = 0 ∨ preDds = 0 := by
  constructor
  · intro hnone
    by_contra hne
    rw [not_or] at hne
    rw [trackedDds_eq hne.2 hne.1] at hnone
    cases hnone
  · rintro (hdelta | hpre)
    · have hdivide (a : Nat) : divide a delta = none := divide_eq_none.2 hdelta
      simp [trackedDds, hdivide]
    · have hdivide (a : Nat) : divide a preDds.toNat = none :=
        divide_eq_none.2 (congrArg UInt32.toNat hpre)
      simp [trackedDds, hdivide]

/-- **A stage divides by 0** exactly where it divides and no time has passed, or where it tracks
and `pre_dds` is 0. -/
theorem syncStage_none_iff : syncStage u now delta = none ↔
    u.duck.syncState ≠ 0xffffffff ∧ u.duck.syncState ≠ 2 ∧ (delta = 0 ∨
      u.duck.syncState ≠ 0 ∧ u.duck.syncState ≠ 1 ∧ u.duck.preDds = 0) := by
  unfold syncStage
  dsimp only [Option.bind_eq_bind]
  split_ifs with hstart hsecond hthird hfourth
  · simp [hstart]
  · rw [bind_some_eq_none, firstDds_eq_none]
    simp [hsecond]
  · rw [bind_some_eq_none, measuredDds_eq_none]
    simp [hthird]
  · simp [hfourth]
  · rw [bind_some_eq_none, trackedDds_eq_none]
    simp [hstart, hsecond, hthird, hfourth]

end Divisors

/-! ## Runs of pulses -/

section Runs

variable {u u' : DuckCard} {i : Interrupt} {now delta : Nat}

/-- An interrupt after which no divisor is 0, in the stages that divide or leave a step width. -/
structure SlaveOk (u : DuckCard) (i : Interrupt) : Prop where
  mode : i.RS422
  time : u.duck.syncState = 0xffffffff ∨ u.duck.syncState = 2 ∨
    ¬Backwards u.duck.last (latched i.hread1 i.lread1)
  measured : u.duck.syncState = 1 →
    elapsed u.duck.last (latched i.hread1 i.lread1) ≤ 0x4000000 * u.duck.preDds.toNat %
      (elapsed u.duck.last (latched i.hread1 i.lread1) * 4294967296)
  tracked : u.duck.syncState = 3 → 0x400 < u.duck.dds.toNat ∨
    elapsed u.duck.last (latched i.hread1 i.lread1) ≤
      trackedProduct (latched i.hread1 i.lread1) (elapsed u.duck.last (latched i.hread1 i.lread1))
        u.duck.dds u.duck.preDds % (elapsed u.duck.last (latched i.hread1 i.lread1) * 4294967296)

instance (u : DuckCard) (i : Interrupt) : Decidable (SlaveOk u i) :=
  decidable_of_iff (_ ∧ _ ∧ _ ∧ _)
    ⟨fun h => ⟨h.1, h.2.1, h.2.2.1, h.2.2.2⟩, fun h => ⟨h.mode, h.time, h.measured, h.tracked⟩⟩

/-- From the start on. The step width of the second pulse is never a divisor. -/
structure SlaveInv (u : DuckCard) : Prop where
  base : u.duck.base ≠ 0
  last : u.duck.last < 18446744073709551616
  state : u.duck.syncState = 0xffffffff ∨ u.duck.syncState ≤ 3
  preDds : u.duck.preDds ≠ 0
  dds : u.duck.syncState = 2 ∨ u.duck.syncState = 3 → u.duck.dds ≠ 0

theorem SlaveInv.start (before : DuckCard) (now : Int) : SlaveInv (duckInit now before) where
  base := show DUCK_BASE_ADDR ≠ 0 by decide
  last := Nat.zero_lt_succ _
  state := .inl rfl
  preDds := show (0xabcc7712 : UInt32) ≠ 0 by decide
  dds := fun _ => show (0xabcc7712 : UInt32) ≠ 0 by decide

/-- What a stage keeps. -/
theorem SlaveInv.stage (h : SlaveInv u) (hnow : now < 18446744073709551616)
    (hmeasured : u.duck.syncState = 1 →
      delta ≤ 0x4000000 * u.duck.preDds.toNat % (delta * 4294967296))
    (htracked : u.duck.syncState = 3 → 0x400 < u.duck.dds.toNat ∨
      delta ≤ trackedProduct now delta u.duck.dds u.duck.preDds % (delta * 4294967296))
    (hstage : syncStage u now delta = some u') : SlaveInv u' := by
  unfold syncStage at hstage
  dsimp only at hstage
  split_ifs at hstage with hfirst hsecond hthird hfourth
  · cases hstage
    exact ⟨h.base, hnow, .inr (Nat.zero_le 3), h.preDds, by simp⟩
  · obtain ⟨ddsNew, -, hu'⟩ := Option.bind_eq_some_iff.1 hstage
    cases hu'
    exact ⟨h.base, hnow, .inr (show 1 ≤ 3 by decide), h.preDds, by simp⟩
  · obtain ⟨ddsNew, hnew, hu'⟩ := Option.bind_eq_some_iff.1 hstage
    obtain ⟨q, hq, hddsNew⟩ := Option.bind_eq_some_iff.1 hnew
    obtain ⟨hdelta, rfl⟩ := divide_some hq
    have hne : ddsNew ≠ 0 := Option.some_inj.1 hddsNew ▸ ofNat_div_ne_zero hdelta (hmeasured hthird)
    cases hu'
    exact ⟨h.base, hnow, .inr (show 2 ≤ 3 by decide), hne, fun _ => hne⟩
  · cases hstage
    exact ⟨h.base, hnow, .inr (show 3 ≤ 3 by decide), h.preDds, fun _ => h.dds (.inl hfourth)⟩
  · have hstate : u.duck.syncState = 3 := by
      have hstates := h.state
      omega
    obtain ⟨ddsNew, hnew, hu'⟩ := Option.bind_eq_some_iff.1 hstage
    have hdelta : delta ≠ 0 := fun hzero => by
      rw [trackedDds_eq_none.2 (.inl hzero)] at hnew
      cases hnew
    rw [trackedDds_eq h.preDds hdelta] at hnew
    have hslew : slew u.duck.dds ddsNew ≠ 0 := slew_ne_zero ((htracked hstate).imp_right fun hle =>
      Option.some_inj.1 hnew ▸ ofNat_div_ne_zero hdelta hle)
    cases hu'
    exact ⟨h.base, hnow, .inr le_rfl, h.dds (.inr hstate), fun _ => hslew⟩

/-- **When an interrupt divides by 0**: in one of the three stages that divide, after a step back. -/
theorem slaveStep_none_iff (h : SlaveInv u) : slaveStep u i = none ↔
    u.duck.syncState ≠ 0xffffffff ∧ u.duck.syncState ≠ 2 ∧
      Backwards u.duck.last (latched i.hread1 i.lread1) := by
  have hnow := latched_lt i.hread1 i.lread1
  unfold slaveStep
  dsimp only [Option.bind_eq_bind]
  rw [bind_some_eq_none, syncStage_none_iff, syncDelta_eq hnow, elapsed_eq_zero h.last hnow]
  simp [h.preDds]

/-- **One pulse.** -/
theorem SlaveInv.step (h : SlaveInv u) (hok : SlaveOk u i) (hstep : duckIntr u i = some u') :
    SlaveInv u' := by
  have hnow := latched_lt i.hread1 i.lread1
  rw [duckIntr_rs422 h.base hok.mode] at hstep
  obtain ⟨u1, hstage, rfl⟩ := slaveStep_some hstep
  rw [syncDelta_eq hnow] at hstage
  have htracked := hok.tracked
  rw [← @trackedProduct_syncNow u.duck.last] at htracked
  have hu1 := h.stage (syncNow_lt _ hnow) hok.measured htracked hstage
  exact ⟨hu1.base, hu1.last, hu1.state, hu1.preDds, hu1.dds⟩

/-- **No divisor is 0** in a run of such pulses, nor at its next one. -/
theorem duckIntr_divides (h : clock.Reach SlaveOk u) (hok : SlaveOk u i) : duckIntr u i ≠ none := by
  have hinv : SlaveInv u := by
    refine h.invariant ?_ ?_
    · rintro s ⟨now, before, rfl⟩
      exact SlaveInv.start before now
    · intro s i s' hs hok hstep
      exact hs.step hok hstep
  rw [duckIntr_rs422 hinv.base hok.mode, Ne, slaveStep_none_iff hinv]
  rintro ⟨hfirst, hfourth, hback⟩
  rcases hok.time with hstate | hstate | hforward
  · exact hfirst hstate
  · exact hfourth hstate
  · exact hforward hback

/-- Five pulses of a clock, the last in the tracking stage. -/
theorem duckIntr_divides_five : ∃ u, clock.Reach SlaveOk u ∧ u.duck.syncState = 3 ∧
    duckIntr u (pulse 1005) ≠ none := by
  have hstart : clock.Reach SlaveOk (duckInit 0 duckNew) := .start ⟨0, duckNew, rfl⟩
  obtain ⟨u, hreach, hlast⟩ := Machine.exists_reach_of_run hstart
    [pulse 1000, pulse 1001, pulse 1002, pulse 1003, pulse 1004]
    (fun u => decide (u.duck.syncState = 3 ∧ SlaveOk u (pulse 1005))) true (by decide +kernel)
  have hnext := of_decide_eq_true hlast
  exact ⟨u, hreach, hnext.1, duckIntr_divides hreach hnext.2⟩

/-- The second pulse of a clock is latched a second before the first. -/
theorem duckIntr_divides_back : ∃ u i, clock.Reach (fun _ i => i.RS422) u ∧ i.RS422 ∧
    duckIntr u i = none := by
  have hstart : clock.Reach (fun _ i => i.RS422) (duckInit 0 duckNew) := .start ⟨0, duckNew, rfl⟩
  obtain ⟨u, hreach, hlast⟩ := Machine.exists_reach_of_run hstart [pulse 1000]
    (fun u => duckIntr u (pulse 999)) none (by decide +kernel)
  exact ⟨u, pulse 999, hreach, by decide, hlast⟩

end Runs

end NacCard.Driver
