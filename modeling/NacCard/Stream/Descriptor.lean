import NacCard.Stream.Started

/-!
# The life of `pbm`

`pbm` is allocated by a configuration and freed by a detach, which leaves the pointer
and the buffer address as they are.  The checks of the calls test the flags, never the
pointer: a start reads through it before it checks anything, an attach does not need
it, a second detach goes by the buffer address.

* `PbmAlive` — an attached stream has its register addresses.
* `GoodCall` — a call that neither follows a dead pointer nor frees one, keeps
  `PbmAlive`, and fails when it is made in the wrong state.
* `FitsPbm` — the calls that are good.
* `pbm_alive` — after every run of such calls the stream is in order, and a call is
  good exactly when it is one of them.
* `detach_twice` — a stream that is detached and detached again.
-/

namespace NacCard.Stream

open NacCard.Base

/-- An attached stream has a `pbm` that is allocated and not freed. -/
def PbmAlive (i : Nat) (st : NacState) : Prop :=
  (st.sheep.stream i).attached = true → ∃ p, derefPbm st i = .ok p

/-- The states a call is not meant for. -/
def WrongState (i : Nat) (st : NacState) : LifeCall → Prop
  | .attach _ => pbmKind i st = .dead
  | .start => (view i st).attached = false ∨ (view i st).started = true
  | .stop => (view i st).attached = false ∨ (view i st).started = false
  | .advance _ _ _ => (view i st).attached = false
  | .detach => pbmKind i st = .dead ∧ (view i st).hasBuf = true
  | _ => False

/-- No fault, whether it returns or waits; when it returns the stream is in order, and
it has failed if it was called in the wrong state. -/
def GoodCall (env : Env) (i : Nat) (st : NacState) (c : LifeCall) : Prop :=
  (∀ e, c.run env i st ≠ .error e) ∧
    ∀ ok st', c.run env i st = .ok (some (ok, st')) →
      PbmAlive i st' ∧ (WrongState i st c → ok = false)

/-- The calls that are good. -/
def FitsPbm (env : Env) (i : Nat) (st : NacState) : LifeCall → Prop
  | .configure n => LosesPbm env i n st → (view i st).attached = false
  | .attach extra => AttachRefused env i extra st ∨ pbmKind i st ≠ .dead
  | .start => pbmKind i st ≠ .dead
  | .clearBuf => pbmKind i st ≠ .dead
  | .detach => pbmKind i st ≠ .dead ∨ (view i st).hasBuf = false
  | _ => True

instance (env : Env) (i : Nat) (n : Int) (st : NacState) : Decidable (LosesPbm env i n st) := by
  unfold LosesPbm
  infer_instance

instance (env : Env) (i : Nat) (st : NacState) (c : LifeCall) : Decidable (FitsPbm env i st c) :=
  match c with
  | .configure n =>
      inferInstanceAs (Decidable (LosesPbm env i n st → (view i st).attached = false))
  | .attach extra => inferInstanceAs (Decidable (AttachRefused env i extra st ∨ pbmKind i st ≠ .dead))
  | .start | .clearBuf => inferInstanceAs (Decidable (pbmKind i st ≠ .dead))
  | .detach => inferInstanceAs (Decidable (pbmKind i st ≠ .dead ∨ (view i st).hasBuf = false))
  | .stop | .advance _ _ _ | .clearCardBuf => inferInstanceAs (Decidable True)

/-! ## On views -/

/-- A view in order. -/
def LifeView.Alive (v : LifeView) : Prop := v.attached = true → v.pbm ≠ .dead

theorem pbmAlive_iff {i : Nat} {st : NacState} (h : LifeOk i st) :
    PbmAlive i st ↔ (view i st).Alive := by
  refine imp_congr_right fun _ => ⟨?_, ?_⟩
  · rintro ⟨p, hp⟩
    exact pbmKind_ne_dead h hp
  · exact h.deref

theorem LifeView.setRunning_pbm (v : LifeView) (b : Bool) : (v.setRunning b).pbm = v.pbm := by
  unfold LifeView.setRunning
  split_ifs <;> rfl

theorem LifeView.setRunning_attached (v : LifeView) (b : Bool) :
    (v.setRunning b).attached = v.attached := by
  unfold LifeView.setRunning
  split_ifs <;> rfl

theorem LifeView.Alive.setRunning {v : LifeView} (h : v.Alive) (b : Bool) :
    (v.setRunning b).Alive := by
  intro hatt
  rw [setRunning_attached] at hatt
  rw [setRunning_pbm]
  exact h hatt

/-! ## Each call -/

theorem ConfigureView.alive_iff {env : Env} {i : Nat} {n : Int} {st : NacState} {v : LifeView}
    (h : (view i st).Alive) (hv : ConfigureView env i n st v) :
    v.Alive ↔ FitsPbm env i st (.configure n) := by
  unfold FitsPbm
  cases hv with
  | reprogram hr hv =>
      rw [hv]
      refine ⟨fun _ hlose => ?_, fun _ _ => by simp⟩
      have hyes := hr.2.2 i (Nat.lt_succ_self i)
      rw [hlose.2.2.2] at hyes
      cases hyes
  | rft hr hv =>
      rw [hv]
      refine ⟨fun _ hlose => ?_, fun _ _ => by simp⟩
      have hyes := hr.2.2 i (Nat.lt_succ_self i)
      rw [hlose.2.2.2] at hyes
      cases hyes
  | lose hr hv =>
      rw [hv]
      constructor
      · intro halive _
        cases hatt : (view i st).attached with
        | false => rfl
        | true => exact absurd rfl (halive hatt)
      · intro hfree hatt
        rw [hfree hr] at hatt
        cases hatt
  | keep _ _ hr hv =>
      rw [hv]
      exact ⟨fun _ hlose => absurd hlose hr, fun _ => h⟩

/-- What a call that returns owes. -/
theorem Returns.good_iff {env : Env} {i : Nat} {st : NacState} {c : LifeCall} {ok : Bool}
    {v : LifeView} (h : (view i st).Alive) (hret : Returns env i st c ok v) :
    (v.Alive ∧ (WrongState i st c → ok = false)) ↔ FitsPbm env i st c := by
  cases hret with
  | configure hv =>
      rw [← hv.alive_iff h]
      exact ⟨And.left, fun halive => ⟨halive, fun hw => nomatch hw⟩⟩
  | attachRefused href => exact ⟨fun _ => .inl href, fun _ => ⟨h, fun _ => rfl⟩⟩
  | attach href b =>
      constructor
      · rintro ⟨halive, -⟩
        exact .inr (halive rfl)
      · rintro (hbad | hpbm)
        · exact absurd hbad href
        · exact ⟨fun _ => hpbm, fun hdead => absurd hdead hpbm⟩
  | startRefused hpbm hbad => exact ⟨fun _ => hpbm, fun _ => ⟨h, fun _ => rfl⟩⟩
  | start hpbm hatt hsta =>
      refine ⟨fun _ => hpbm, fun _ => ⟨h.setRunning true, ?_⟩⟩
      rintro (hno | hyes)
      · rw [hatt] at hno
        cases hno
      · rw [hsta] at hyes
        cases hyes
  | stopRefused hbad => exact ⟨fun _ => trivial, fun _ => ⟨h, fun _ => rfl⟩⟩
  | stop hpbm hatt hsta =>
      refine ⟨fun _ => trivial, fun _ => ⟨h.setRunning false, ?_⟩⟩
      rintro (hno | hyes)
      · rw [hatt] at hno
        cases hno
      · rw [hsta] at hyes
        cases hyes
  | advanceRefused hatt => exact ⟨fun _ => trivial, fun _ => ⟨h, fun _ => rfl⟩⟩
  | advance hpbm hatt =>
      refine ⟨fun _ => trivial, fun _ => ⟨h.setRunning true, fun hno => ?_⟩⟩
      rw [WrongState, hatt] at hno
      cases hno
  | clearBuf hpbm => exact ⟨fun _ => hpbm, fun _ => ⟨h.setRunning false, fun hw => nomatch hw⟩⟩
  | clearCardBuf => exact ⟨fun _ => trivial, fun _ => ⟨h, fun hw => nomatch hw⟩⟩
  | detach hatt hpbm =>
      refine ⟨fun _ => ?_, fun _ => ⟨?_, ?_⟩⟩
      · cases hbuf : (view i st).hasBuf with
        | false => exact .inr hbuf
        | true => exact .inl (hpbm hbuf)
      · intro hyes
        rw [hatt] at hyes
        cases hyes
      · rintro ⟨hdead, hbuf⟩
        exact absurd hdead (hpbm hbuf)

/-- A call that faults does not fit. -/
theorem Faults.not_fits {env : Env} {i : Nat} {st : NacState} {c : LifeCall}
    (h : (view i st).Alive) (hfault : Faults i st c) : ¬FitsPbm env i st c := by
  cases c with
  | start => exact not_not.2 hfault
  | clearBuf => exact not_not.2 hfault
  | stop => exact absurd hfault.1 (h hfault.2.1)
  | advance bottom reading polls => exact absurd hfault.1 (h hfault.2)
  | detach =>
      rintro (hpbm | hbuf)
      · exact hpbm hfault.1
      · rw [hfault.2] at hbuf
        cases hbuf
  | configure n => cases hfault
  | attach extra => cases hfault
  | clearCardBuf => cases hfault

/-- **A call is good exactly when it fits.** -/
theorem goodCall_iff {env : Env} {i : Nat} {st : NacState} {c : LifeCall} (hok : LifeOk i st)
    (h : (view i st).Alive) : GoodCall env i st c ↔ FitsPbm env i st c := by
  unfold GoodCall
  rcases @LifeCall.run_view env i st hok c with ⟨e, hr, hfault⟩ |
    ⟨hr, bottom, reading, polls, rfl⟩ | ⟨ok, r, hr, hok', hret⟩
  · rw [hr]
    exact ⟨fun hgood => absurd rfl (hgood.1 e), fun hfits => absurd hfits (hfault.not_fits h)⟩
  · -- a call that waits is one of `nac_advance_stream`
    rw [hr]
    refine ⟨fun _ => trivial, fun _ => ⟨?_, ?_⟩⟩
    · intro e he
      cases he
    · intro ok r hwait
      cases hwait
  · rw [hr, ← hret.good_iff h, ← pbmAlive_iff hok']
    constructor
    · rintro ⟨-, hall⟩
      exact hall ok r rfl
    · intro hgood
      refine ⟨?_, ?_⟩
      · intro e he
        cases he
      intro ok' r' hr'
      cases hr'
      exact hgood

/-! ## Any calls -/

theorem JustOpened.alive {i : Nat} {st : NacState} (h : JustOpened st) : (view i st).Alive := by
  intro hatt
  have hno : (view i st).attached = false := by
    simp [view, h.stream i]
  rw [hno] at hatt
  cases hatt

/-- **The life of `pbm`**: after any run of calls that fit, an attached stream has its
register addresses, and the next call neither follows a dead pointer nor frees one,
keeps the stream in order and fails where it should, if and only if it fits. -/
theorem pbm_alive {env : Env} {i : Nat} {st : NacState}
    (h : (lifecycle env i).Reach (FitsPbm env i) st) :
    PbmAlive i st ∧ ∀ c, GoodCall env i st c ↔ FitsPbm env i st c := by
  have hinv : LifeOk i st ∧ (view i st).Alive := by
    refine h.invariant (I := fun st => LifeOk i st ∧ (view i st).Alive) ?_ ?_
    · intro s hs
      exact ⟨.justOpened hs, hs.alive⟩
    · rintro s c s' ⟨hok, halive⟩ hfits hstep
      obtain ⟨hok', ok, hret⟩ := lifecycle_step hok hstep
      exact ⟨hok', ((hret.good_iff halive).2 hfits).1⟩
  exact ⟨(pbmAlive_iff hinv.1).2 hinv.2, fun c => goodCall_iff hinv.1 hinv.2⟩

/-- Configured, attached and detached, the stream must be configured again. -/
theorem pbm_alive_after_detach : ∃ st, PbmAlive 0 st ∧ (view 0 st).attached = true := by
  obtain ⟨st, hreach, hst⟩ := Machine.exists_reach_of_run
    (openedCard_reach grantAll 0 (FitsPbm grantAll 0))
    [.configure 1, .attach 0, .start, .detach, .configure 1, .attach 0]
    (fun st => (view 0 st).attached) true (by decide +kernel)
  exact ⟨st, (pbm_alive hreach).1, hst⟩

/-- The fault of a call. -/
def faultOf (r : Except Fault (Option (Bool × NacState))) : Option Fault :=
  match r with
  | .error e => some e
  | .ok _ => none

/-- A second detach follows the freed pointer. -/
theorem detach_twice : ∃ st, (lifecycle grantAll 0).Reach (fun _ _ => True) st ∧
    ¬GoodCall grantAll 0 st .detach := by
  obtain ⟨st, hreach, hst⟩ := Machine.exists_reach_of_run
    (openedCard_reach grantAll 0 fun _ _ => True) [.configure 1, .attach 0, .detach]
    (fun st => faultOf (LifeCall.detach.run grantAll 0 st)) (some .badPointer) (by decide +kernel)
  refine ⟨st, hreach, ?_⟩
  rintro ⟨hfault, -⟩
  cases hr : LifeCall.detach.run grantAll 0 st with
  | error e => exact hfault e hr
  | ok r =>
      rw [hr] at hst
      cases hst

end NacCard.Stream
