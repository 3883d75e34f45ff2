import NacCard.Stream.LifeView

/-!
# The started flag and the card

`started` is meant to say whether the DMA of an attached stream runs.  Five calls
change one without the other under some condition: a configuration and
`nac_clear_buf` stop the DMA of a started stream, `nac_advance_stream` starts the one
of a stopped stream, an attach takes back the flag alone, and once a stream's pointer
leads to the flow table's registers a start or stop does not reach its own.

* `FlagAgrees` — the agreement.
* `KeepsFlag` — the calls that keep it.
* `started_flag_agrees` — it holds after every run of such calls, and the first call
  that is not one of them breaks it.
* `advance_restarts` — a stopped stream, advanced.
-/

namespace NacCard.Stream

open NacCard.Base

/-- The run bit of an attached stream is its flag. -/
def FlagAgrees (i : Nat) (st : NacState) : Prop :=
  (st.sheep.stream i).attached = true →
    ((st.regs (rxPbm i).dmaCtlReg).testBit 3 = true ↔ (st.sheep.stream i).started = true)

/-- The calls that keep the agreement. -/
def KeepsFlag (env : Env) (i : Nat) (st : NacState) : LifeCall → Prop
  | .configure n =>
      Reprograms env i n st → (view i st).attached = false ∨ (view i st).started = false
  | .attach extra => AttachRefused env i extra st ∨ (view i st).running = false
  | .start => pbmKind i st ≠ .rft ∨ (view i st).attached = false ∨ (view i st).started = true
  | .stop => pbmKind i st ≠ .rft ∨ (view i st).attached = false ∨ (view i st).started = false
  | .advance _ _ _ =>
      pbmKind i st ≠ .own ∨ (view i st).attached = false ∨ (view i st).started = true
  | .clearBuf => pbmKind i st ≠ .own ∨ (view i st).attached = false ∨ (view i st).started = false
  | .clearCardBuf => True
  | .detach => True

instance (env : Env) (k : Nat) (st : NacState) : Decidable (MallocsOk env st k) := by
  unfold MallocsOk
  infer_instance

instance (env : Env) (i : Nat) (n : Int) (st : NacState) : Decidable (Reprograms env i n st) := by
  unfold Reprograms
  infer_instance

instance (env : Env) (i extra : Nat) (st : NacState) : Decidable (AttachRefused env i extra st) := by
  unfold AttachRefused RingRefused
  infer_instance

instance (env : Env) (i : Nat) (st : NacState) (c : LifeCall) : Decidable (KeepsFlag env i st c) :=
  match c with
  | .configure n => inferInstanceAs (Decidable
      (Reprograms env i n st → (view i st).attached = false ∨ (view i st).started = false))
  | .attach extra =>
      inferInstanceAs (Decidable (AttachRefused env i extra st ∨ (view i st).running = false))
  | .start => inferInstanceAs (Decidable
      (pbmKind i st ≠ .rft ∨ (view i st).attached = false ∨ (view i st).started = true))
  | .stop => inferInstanceAs (Decidable
      (pbmKind i st ≠ .rft ∨ (view i st).attached = false ∨ (view i st).started = false))
  | .advance _ _ _ => inferInstanceAs (Decidable
      (pbmKind i st ≠ .own ∨ (view i st).attached = false ∨ (view i st).started = true))
  | .clearBuf => inferInstanceAs (Decidable
      (pbmKind i st ≠ .own ∨ (view i st).attached = false ∨ (view i st).started = false))
  | .clearCardBuf | .detach => inferInstanceAs (Decidable True)

/-! ## On views -/

/-- The agreement, on a view. -/
def LifeView.Agrees (v : LifeView) : Prop := v.attached = true → v.running = v.started

theorem flagAgrees_iff {i : Nat} {st : NacState} : FlagAgrees i st ↔ (view i st).Agrees := by
  simp only [FlagAgrees, LifeView.Agrees, view]
  exact imp_congr_right fun _ => Bool.eq_iff_iff.symm

namespace LifeView

variable {v : LifeView}

/-- The pointer does not matter … -/
theorem Agrees.pbm (h : v.Agrees) (k : PbmKind) : ({ v with pbm := k } : LifeView).Agrees := h

/-- … a stopped DMA agrees with what is not both attached and started … -/
theorem agrees_paused_iff (k : PbmKind) : ({ v with pbm := k, running := false } : LifeView).Agrees ↔
    v.attached = false ∨ v.started = false := by
  cases v.attached with
  | false => simp [Agrees]
  | true => simp [Agrees]

/-- … and one that runs with what is started. -/
theorem agrees_running_iff : ({ v with running := true } : LifeView).Agrees ↔
    v.attached = false ∨ v.started = true := by
  cases v.attached with
  | false => simp [Agrees]
  | true => simp [Agrees]

end LifeView

/-- A write to the run bit keeps the agreement exactly when it does not reach the
stream's register or the bit becomes what the flag is. -/
theorem agrees_setRunning_false {v : LifeView} (h : v.Agrees) :
    (v.setRunning false).Agrees ↔ v.pbm ≠ .own ∨ v.attached = false ∨ v.started = false := by
  unfold LifeView.setRunning
  split_ifs with hown
  · rw [LifeView.agrees_paused_iff v.pbm]
    exact ⟨.inr, fun h => h.resolve_left (not_not.2 hown)⟩
  · exact ⟨fun _ => .inl hown, fun _ => h⟩

theorem agrees_setRunning_true {v : LifeView} (h : v.Agrees) :
    (v.setRunning true).Agrees ↔ v.pbm ≠ .own ∨ v.attached = false ∨ v.started = true := by
  unfold LifeView.setRunning
  split_ifs with hown
  · rw [LifeView.agrees_running_iff]
    exact ⟨.inr, fun h => h.resolve_left (not_not.2 hown)⟩
  · exact ⟨fun _ => .inl hown, fun _ => h⟩

/-- A start or a stop, from the other flag: the bit follows only in the stream's own
register. -/
theorem agrees_flip {v : LifeView} {b : Bool} (h : v.Agrees) (hatt : v.attached = true)
    (hsta : v.started = !b) (hpbm : v.pbm ≠ .dead) :
    ({ v.setRunning b with started := b } : LifeView).Agrees ↔ v.pbm ≠ .rft := by
  unfold LifeView.setRunning
  split_ifs with hown
  · rw [hown]
    exact ⟨fun _ => by decide, fun _ _ => rfl⟩
  · have hrft : v.pbm = .rft := by
      cases hk : v.pbm with
      | dead => exact absurd hk hpbm
      | own => exact absurd hk hown
      | rft => rfl
    have hrun := (h hatt).trans hsta
    constructor
    · intro hagree
      have hrun' : v.running = b := hagree hatt
      rw [hrun] at hrun'
      cases b <;> cases hrun'
    · intro hne
      exact absurd hrft hne

/-! ## Each call -/

theorem ConfigureView.agrees_iff {env : Env} {i : Nat} {n : Int} {st : NacState} {v : LifeView}
    (h : (view i st).Agrees) (hv : ConfigureView env i n st v) :
    v.Agrees ↔ KeepsFlag env i st (.configure n) := by
  unfold KeepsFlag
  cases hv with
  | reprogram hr hv =>
      rw [hv, LifeView.agrees_paused_iff]
      exact ⟨fun hp _ => hp, fun hp => hp hr⟩
  | rft hr hv =>
      rw [hv]
      refine ⟨fun _ hrep => ?_, fun _ => h.pbm _⟩
      have hlt := hrep.2.1
      have heq := hr.2.1
      omega
  | lose hr hv =>
      rw [hv]
      refine ⟨fun _ hrep => ?_, fun _ => h.pbm _⟩
      have hyes := hrep.2.2 i (Nat.lt_succ_self i)
      rw [hr.2.2.2] at hyes
      cases hyes
  | keep hr _ _ hv =>
      rw [hv]
      exact ⟨fun _ hrep => absurd hrep hr, fun _ => h⟩

/-- **A call keeps the agreement exactly when it is one of those named.** -/
theorem Returns.agrees_iff {env : Env} {i : Nat} {st : NacState} {c : LifeCall} {ok : Bool}
    {v : LifeView} (h : (view i st).Agrees) (hret : Returns env i st c ok v) :
    v.Agrees ↔ KeepsFlag env i st c := by
  cases hret with
  | configure hv => exact hv.agrees_iff h
  | attachRefused href => exact ⟨fun _ => .inl href, fun _ => h⟩
  | attach href b =>
      constructor
      · intro hagree
        exact .inr (hagree rfl)
      · rintro (hbad | hrun) -
        · exact absurd hbad href
        · exact hrun
  | startRefused _ hbad => exact ⟨fun _ => .inr hbad, fun _ => h⟩
  | start hpbm hatt hsta =>
      rw [@agrees_flip _ true h hatt hsta hpbm]
      refine ⟨.inl, ?_⟩
      rintro (hne | hno | hyes)
      · exact hne
      · rw [hatt] at hno
        cases hno
      · rw [hsta] at hyes
        cases hyes
  | stopRefused hbad => exact ⟨fun _ => .inr hbad, fun _ => h⟩
  | stop hpbm hatt hsta =>
      rw [@agrees_flip _ false h hatt hsta hpbm]
      refine ⟨.inl, ?_⟩
      rintro (hne | hno | hyes)
      · exact hne
      · rw [hatt] at hno
        cases hno
      · rw [hsta] at hyes
        cases hyes
  | advanceRefused hatt => exact ⟨fun _ => .inr (.inl hatt), fun _ => h⟩
  | advance hpbm hatt => exact agrees_setRunning_true h
  | clearBuf hpbm => exact agrees_setRunning_false h
  | clearCardBuf => exact ⟨fun _ => trivial, fun _ => h⟩
  | detach hatt hpbm =>
      refine ⟨fun _ => trivial, fun _ hyes => ?_⟩
      rw [hatt] at hyes
      cases hyes

/-! ## Any calls -/

theorem JustOpened.agrees {i : Nat} {st : NacState} (h : JustOpened st) : (view i st).Agrees := by
  intro hatt
  have hno : (view i st).attached = false := by
    simp [view, h.stream i]
  rw [hno] at hatt
  cases hatt

/-- **The started flag agrees with the card** after any run of calls that keep it, and
the first call that is not one of them breaks the agreement: on every stream, whatever
the registers of the card held, and whichever requests the C library refuses. -/
theorem started_flag_agrees {env : Env} {i : Nat} {st : NacState}
    (h : (lifecycle env i).Reach (KeepsFlag env i) st) :
    FlagAgrees i st ∧ ∀ c st', (lifecycle env i).step st c = some st' →
      (FlagAgrees i st' ↔ KeepsFlag env i st c) := by
  have hinv : LifeOk i st ∧ (view i st).Agrees := by
    refine h.invariant (I := fun st => LifeOk i st ∧ (view i st).Agrees) ?_ ?_
    · intro s hs
      exact ⟨.justOpened hs, hs.agrees⟩
    · rintro s c s' ⟨hok, hagree⟩ hkeeps hstep
      obtain ⟨hok', ok, hret⟩ := lifecycle_step hok hstep
      exact ⟨hok', (hret.agrees_iff hagree).2 hkeeps⟩
  refine ⟨flagAgrees_iff.2 hinv.2, ?_⟩
  intro c st' hstep
  obtain ⟨-, ok, hret⟩ := lifecycle_step hinv.1 hstep
  rw [flagAgrees_iff]
  exact hret.agrees_iff hinv.2

/-- The card of the runs below: 64 MB, just opened. -/
def openedCard : NacState := freshCard 0x10000000 0x4000000

theorem openedCard_reach (env : Env) (i : Nat) (ok : NacState → LifeCall → Prop) :
    (lifecycle env i).Reach ok openedCard :=
  .start ⟨rfl, fun _ => rfl, fun _ => rfl⟩

/-- Up to the first record, the agreement holds. -/
theorem started_after_advance : ∃ st, FlagAgrees 0 st ∧ (view 0 st).started = true := by
  obtain ⟨st, hreach, hst⟩ := Machine.exists_reach_of_run
    (openedCard_reach grantAll 0 (KeepsFlag grantAll 0))
    [.configure 1, .attach 0, .start, .advance 0 0x10001000 []]
    (fun st => (view 0 st).started) true (by decide +kernel)
  exact ⟨st, (started_flag_agrees hreach).1, hst⟩

/-- A stream that is stopped and then advanced runs again. -/
theorem advance_restarts : ∃ st, (lifecycle grantAll 0).Reach (fun _ _ => True) st ∧
    ¬FlagAgrees 0 st := by
  obtain ⟨st, hreach, hst⟩ := Machine.exists_reach_of_run
    (openedCard_reach grantAll 0 fun _ _ => True)
    [.configure 1, .attach 0, .start, .stop, .advance 0 0x10001000 []]
    (view 0) ⟨.own, true, true, false, true⟩ (by decide +kernel)
  refine ⟨st, hreach, ?_⟩
  rw [flagAgrees_iff, hst]
  intro hagree
  cases hagree rfl

end NacCard.Stream
