import NacCard.Rx.Walk

/-!
# The loop catches up

Every record that a safety window follows is worked on, in whatever order the card and the thread
go on: a bounded number of the thread's own steps is enough.

* `Core.le_topFor` — what the address returned leaves out of what the card has written.
* `advances` — the steps of the thread that are counted, all but the turns of the wait loop.
* `Covers`, `phase` — how far the thread is from its next record; `phase_step` — no step raises that,
  and a step that is counted lowers it or works on the record.
* `caughtUp_of_counted` — the run lemma; `Written.can_advance` — and a step is always
  possible.
* `walk_catches_up` — both together.

The thread can end before it has caught up: when it has found no record for 20 seconds, or a file
cannot be opened.  Both are an outcome of the theorem.
-/

namespace NacCard.Rx

open NacCard.Base NacCard.Stream

variable {σ : Type} {g : RxRing} {R : Records g} {mindata : Nat}
  {body : List UInt8 → σ → Option σ} {start : σ}

/-! ## What an address leaves out -/

/-- The record pointer, lifted where it is behind the bottom, is what has been written. -/
theorem Core.lift_eq {data : Nat → UInt8} {e : Engine UInt8} {p n b : Nat}
    (h : Core g data e p n b) :
    n * g.size + lift g.size (alignDown 128 b) e.record = e.written := by
  have hle := h.stands.lift_le h.lap h.passed_le (alignDown_le 128 b)
  refine Nat.le_antisymm hle (Nat.le_of_not_lt ?_)
  intro hlt
  obtain ⟨t, ht⟩ := h.turn
  obtain ⟨m, l, hl0, -, -, hw, hstop, hend⟩ := h.limit
  have hstopEq := stopAt_eq g.size n b
  have hb := h.lap.le
  have hal := alignDown_le 128 b
  unfold lift at hlt
  split_ifs at hlt with hbehind
  · -- the card is no more than a lap ahead
    have hturns : n + 2 ≤ t := by
      by_contra hfew
      have hmul : t * g.size ≤ (n + 1) * g.size := Nat.mul_le_mul_right g.size (by omega)
      rw [Nat.succ_mul] at hmul
      omega
    have hmul : (n + 2) * g.size ≤ t * g.size := Nat.mul_le_mul_right g.size hturns
    rw [Nat.add_mul, Nat.two_mul] at hmul
    omega
  · have hturns : n + 1 ≤ t := by
      by_contra hfew
      have hmul : t * g.size ≤ n * g.size := Nat.mul_le_mul_right g.size (by omega)
      omega
    have hmul : (n + 1) * g.size ≤ t * g.size := Nat.mul_le_mul_right g.size hturns
    rw [Nat.succ_mul] at hmul
    have hfull : e.record = l := hend (by omega)
    omega

theorem le_advanceTop_add {a r : Nat} :
    g.buf + min (lift g.size a r) (g.size + g.extra) ≤
      g.advanceTop (g.buf + a) (g.buf + r) + 128 := by
  have hW : (SAFETY_WINDOW : Int) = 128 := rfl
  unfold RxRing.advanceTop lift
  rw [hW]
  dsimp only
  split_ifs <;> omega

/-- What a call returns when the wait loop gives up at once. -/
theorem Core.le_topFor {data : Nat → UInt8} {e : Engine UInt8} {p n b : Nat}
    (h : Core g data e p n b) :
    g.buf + min (b + (e.written - p)) (g.size + g.extra) ≤
      g.topFor (g.buf + b) (g.recordPtr e) + 128 := by
  have hlift := h.lift_eq
  have hb := h.lap.le
  have heq := h.lap.eq
  have hp := h.passed_le
  have hrec : g.recordAddr (g.recordPtr e) = g.buf + e.record := recordAddr_eq h.record_le
  have hge := @le_advanceTop_add g (alignDown 128 b) e.record
  have hfar : b + (e.written - p) = lift g.size (alignDown 128 b) e.record := by omega
  rw [RxRing.topFor, bottomAlign_eq (by omega), hrec, hfar]
  exact hge

/-! ## Records that are there -/

theorem startOf_mono {rlen : Nat → Nat} {i j : Nat} (h : i ≤ j) : startOf rlen i ≤ startOf rlen j := by
  induction h with
  | refl => exact le_rfl
  | step _ ih => exact ih.trans (Nat.le_add_right _ _)

theorem Records.fold_isSome {i j : Nat} (h : i ≤ j) (hj : (R.fold body start j).isSome) :
    (R.fold body start i).isSome := by
  induction h with
  | refl => exact hj
  | step _ ih =>
      rw [Records.fold_succ] at hj
      exact ih (Option.isSome_of_isSome_bind hj)

/-- The next record of the stream lies below `top`. -/
def Covers (R : Records g) (s : WalkState σ) (top : Nat) : Prop :=
  s.reader.bottom + 16 < top ∧ s.reader.bottom + R.rlen s.results.length ≤ top

instance (R : Records g) (s : WalkState σ) (top : Nat) : Decidable (Covers R s top) :=
  inferInstanceAs (Decidable (_ ∧ _))

/-- The inner loop works on the records that are there. -/
theorem WalkInv.more_iff_covers {s : WalkState σ} (h : WalkInv g R body start s) {top : Nat}
    (hidle : s.reader.pc = .idle top) : g.more s.reader = true ↔ Covers R s top := by
  rw [more_iff]
  constructor
  · rintro ⟨top', hidle', hlt, hle⟩
    obtain rfl : top = top' := ReaderPc.idle.inj (hidle.symm.trans hidle')
    rw [h.rlen hidle hlt] at hle
    exact ⟨hlt, hle⟩
  · rintro ⟨hlt, hle⟩
    exact ⟨top, hidle, hlt, (h.rlen hidle hlt).symm ▸ hle⟩

/-- The next record is followed by a window, and not too long for the extra window. -/
structure NextReady (g : RxRing) (R : Records g) (s : WalkState σ) : Prop where
  rlen_min : 16 < R.rlen s.results.length
  rlen_max : R.rlen s.results.length + 128 ≤ g.extra
  written : startOf R.rlen (s.results.length + 1) + 128 ≤ s.reader.engine.written

/-- **A fresh reading of the record pointer** is enough for it. -/
theorem WalkInv.covers_fresh {s : WalkState σ} (h : WalkInv g R body start s) (hready : NextReady g R s)
    (hpc : s.reader.pc = .read (g.recordPtr s.reader.engine) ∨
      s.reader.pc = .poll (g.recordPtr s.reader.engine)) :
    Covers R s (g.topFor s.reader.bottom (g.recordPtr s.reader.engine)) := by
  obtain ⟨hmin, hmax, hw⟩ := hready
  obtain ⟨n, b, hcore⟩ := h.reader.core
  have hpolling : ∃ r, Polling g s.reader.engine s.reader.passed s.reader.bottom r := by
    have hok := h.reader.pc
    rcases hpc with hpc | hpc <;> rw [PcOk, hpc] at hok <;> exact ⟨_, hok⟩
  obtain ⟨r, n', b', x, hlap, hbottom, -⟩ := hpolling
  obtain ⟨rfl, rfl⟩ := hcore.lap.unique hlap
  have hfar := hcore.le_topFor
  have hb := hlap.le
  have hpassed := h.passed
  have hsucc : startOf R.rlen (s.results.length + 1) =
      startOf R.rlen s.results.length + R.rlen s.results.length := rfl
  unfold Covers
  rw [hbottom]
  omega

/-! ## How far it is to the next record -/

/-- A step of the thread that is no turn of the wait loop of `nac_advance_stream`. -/
def advances (g : RxRing) (mindata : Nat) (s : WalkState σ) : WalkAct → Bool
  | .card => false
  | .tick =>
      match s.reader.pc with
      | .poll r => !g.waits mindata s.reader.bottom r
      | _ => true
  | _ => true

/-- These are the steps that are counted. -/
def Advances (g : RxRing) (mindata : Nat) (s : WalkState σ) (a : WalkAct) : Prop :=
  advances g mindata s a = true

instance (g : RxRing) (mindata : Nat) (s : WalkState σ) (a : WalkAct) :
    Decidable (Advances g mindata s a) := inferInstanceAs (Decidable (_ = true))

/-- The steps before the next record, at most: reading the pointer, writing the limit, leaving the
wait loop.  An address that was returned before the record was there costs another call. -/
def phase (R : Records g) (s : WalkState σ) : Nat :=
  match s.reader.pc with
  | .idle top => if Covers R s top then 0 else 3
  | .read r => if Covers R s (g.topFor s.reader.bottom r) then 2 else 5
  | .poll r => if Covers R s (g.topFor s.reader.bottom r) then 1 else 4

theorem phase_idle {s : WalkState σ} {top : Nat} (hpc : s.reader.pc = .idle top) :
    phase R s = if Covers R s top then 0 else 3 := by
  rw [phase, hpc]

theorem phase_read {s : WalkState σ} {r : Nat} (hpc : s.reader.pc = .read r) :
    phase R s = if Covers R s (g.topFor s.reader.bottom r) then 2 else 5 := by
  rw [phase, hpc]

theorem phase_poll {s : WalkState σ} {r : Nat} (hpc : s.reader.pc = .poll r) :
    phase R s = if Covers R s (g.topFor s.reader.bottom r) then 1 else 4 := by
  rw [phase, hpc]

theorem phase_le (R : Records g) (s : WalkState σ) : phase R s ≤ 5 := by
  unfold phase
  split <;> split_ifs <;> decide

/-- What a step makes of the phase. -/
inductive PhaseStep (g : RxRing) (R : Records g) (mindata : Nat) (s s' : WalkState σ) (a : WalkAct) :
    Prop
  /-- the thread ends -/
  | ended : s'.left = true → PhaseStep g R mindata s s' a
  /-- the record is worked on -/
  | worked : s'.results.length = s.results.length + 1 → phase R s = 0 → phase R s' ≤ 3 →
      s'.left = s.left → PhaseStep g R mindata s s' a
  /-- it comes nearer -/
  | nearer : s'.results.length = s.results.length → phase R s' ≤ phase R s →
      (Advances g mindata s a → phase R s' < phase R s) → s'.left = s.left →
        PhaseStep g R mindata s s' a

/-- The limit is written, and the pointer that has been read is kept. -/
theorem phase_limit {s : WalkState σ} {a : WalkAct} {r : Nat} {e : Engine UInt8}
    (hread : s.reader.pc = .read r) :
    PhaseStep g R mindata s
      { s with reader := { s.reader with engine := e, pc := .poll r } } a := by
  have hbefore := @phase_read _ _ R _ _ hread
  have hafter : phase R { s with reader := { s.reader with engine := e, pc := .poll r } } =
      if Covers R s (g.topFor s.reader.bottom r) then 1 else 4 := phase_poll rfl
  split_ifs at hbefore hafter <;> exact .nearer rfl (by omega) (fun _ => by omega) rfl

/-- The call returns. -/
theorem phase_returned {s : WalkState σ} {a : WalkAct} {r : Nat} (hpoll : s.reader.pc = .poll r) :
    PhaseStep g R mindata s
      { s with reader := { s.reader with pc := .idle (g.topFor s.reader.bottom r) } } a := by
  have hbefore := @phase_poll _ _ R _ _ hpoll
  have hafter : phase R { s with reader := { s.reader with pc := .idle (g.topFor s.reader.bottom r) } } =
      if Covers R s (g.topFor s.reader.bottom r) then 0 else 3 := phase_idle rfl
  split_ifs at hbefore hafter <;> exact .nearer rfl (by omega) (fun _ => by omega) rfl

/-- A call is made where the last one has not returned the record, and reads the pointer. -/
theorem phase_called {s : WalkState σ} {a : WalkAct} {top bottom : Nat} (h : WalkInv g R body start s)
    (hready : NextReady g R s) (hidle : s.reader.pc = .idle top) (hmore : g.more s.reader = false)
    (h' : WalkInv g R body start { s with reader :=
      { s.reader with bottom := bottom, pc := .read (g.recordPtr s.reader.engine) } }) :
    PhaseStep g R mindata s { s with reader :=
      { s.reader with bottom := bottom, pc := .read (g.recordPtr s.reader.engine) } } a := by
  have hnone : ¬Covers R s top := by
    rw [← h.more_iff_covers hidle, hmore]
    simp
  have hfresh := h'.covers_fresh ⟨hready.rlen_min, hready.rlen_max, hready.written⟩ (.inl rfl)
  have hbefore : phase R s = 3 := by rw [phase_idle hidle, if_neg hnone]
  have hafter := (phase_read (R := R) rfl).trans (if_pos hfresh)
  exact .nearer rfl (by omega) (fun _ => by omega) rfl

/-- The wait loop goes round once more and reads the pointer again. -/
theorem phase_again {s : WalkState σ} {r : Nat} (hready : NextReady g R s)
    (hpoll : s.reader.pc = .poll r) (hwaits : g.waits mindata s.reader.bottom r = true)
    (h' : WalkInv g R body start
      { s with reader := { s.reader with pc := .poll (g.recordPtr s.reader.engine) } }) :
    PhaseStep g R mindata s
      { s with reader := { s.reader with pc := .poll (g.recordPtr s.reader.engine) } } .tick := by
  have hfresh := h'.covers_fresh ⟨hready.rlen_min, hready.rlen_max, hready.written⟩ (.inr rfl)
  have hafter := (@phase_poll _ _ R _ _ rfl).trans (if_pos hfresh)
  have hbefore : 1 ≤ phase R s := by
    rw [phase_poll hpoll]
    split_ifs <;> decide
  refine .nearer rfl (by omega) (fun hadvances => ?_) rfl
  simp [Advances, advances, hpoll, hwaits] at hadvances

/-- **One step.** -/
theorem phase_step {s s' : WalkState σ} {a : WalkAct} (h : WalkInv g R body start s)
    (hready : NextReady g R s) (hstep : g.walkStep R.data mindata body s a = some s') :
    PhaseStep g R mindata s s' a := by
  have hinv := h.step hstep
  cases a with
  | card =>
      obtain ⟨r, hr, rfl⟩ := Option.map_eq_some_iff.1 hstep
      obtain ⟨e, -, rfl⟩ := Option.map_eq_some_iff.1 hr
      exact .nearer rfl le_rfl nofun rfl
  | call =>
      simp only [RxRing.walkStep, RxRing.readerStep] at hstep
      split_ifs at hstep with hruns
      split at hstep <;> cases hstep
      next top hidle =>
        simp only [Bool.and_eq_true, Bool.not_eq_true'] at hruns
        exact phase_called h hready hidle hruns.2 hinv
  | tick =>
      simp only [RxRing.walkStep, RxRing.readerStep] at hstep
      split_ifs at hstep
      split at hstep
      next r hread =>
        cases hstep
        exact phase_limit hread
      next r hpoll =>
        split_ifs at hstep with hwaits <;> cases hstep
        · exact phase_again hready hpoll hwaits hinv
        · exact phase_returned hpoll
      next => cases hstep
  | timeout =>
      simp only [RxRing.walkStep, RxRing.readerStep] at hstep
      split_ifs at hstep
      split at hstep <;> cases hstep
      next r hpoll => exact phase_returned hpoll
  | record =>
      simp only [RxRing.walkStep] at hstep
      split_ifs at hstep with hruns
      cases hstep
      rw [Bool.and_eq_true] at hruns
      obtain ⟨top, hidle, -⟩ := more_iff.1 hruns.2
      refine .worked List.length_append ?_ ?_ rfl
      · rw [phase_idle hidle, if_pos ((h.more_iff_covers hidle).1 hruns.2)]
      · rw [@phase_idle _ _ R (g.walkRecord body s) top hidle]
        split_ifs <;> decide
  | leave =>
      simp only [RxRing.walkStep] at hstep
      split at hstep
      next => split_ifs at hstep; cases hstep; exact .ended rfl
      next => cases hstep
  | exit =>
      simp only [RxRing.walkStep] at hstep
      split_ifs at hstep
      cases hstep
      exact .ended rfl

/-! ## Runs -/

/-- Record `k` has been worked on, or the thread has ended. -/
def CaughtUp (k : Nat) (s : WalkState σ) : Prop := k ≤ s.results.length ∨ s.left = true

/-- What has been written up to some moment, and a window. -/
structure Written (g : RxRing) (R : Records g) (body : List UInt8 → σ → Option σ) (start : σ) (k : Nat)
    (s : WalkState σ) : Prop where
  inv : WalkInv g R body start s
  written : startOf R.rlen k + 128 ≤ s.reader.engine.written

/-- The records are no shorter than a header and fit the extra window with a safety window. -/
def Fit (g : RxRing) (R : Records g) (k : Nat) : Prop :=
  ∀ i < k, 16 < R.rlen i ∧ R.rlen i + 128 ≤ g.extra

section Runs

variable {k : Nat} {s s' : WalkState σ} {a : WalkAct}

theorem Written.step (h : Written g R body start k s)
    (hstep : g.walkStep R.data mindata body s a = some s') : Written g R body start k s' := by
  have hw := h.written
  refine ⟨h.inv.step hstep, ?_⟩
  rcases walkStep_written hstep with hsame | ⟨-, hnext⟩ <;> omega

theorem Written.ready (h : Written g R body start k s) (hfit : Fit g R k)
    (hlt : s.results.length < k) : NextReady g R s :=
  ⟨(hfit _ hlt).1, (hfit _ hlt).2, (Nat.add_le_add_right (startOf_mono hlt) 128).trans h.written⟩

/-- Nothing is taken back. -/
theorem CaughtUp.step (h : CaughtUp k s) (hstep : g.walkStep R.data mindata body s a = some s') :
    CaughtUp k s' := by
  rcases walkStep_cases hstep with ⟨b, r, -, -, rfl⟩ | ⟨-, -, rfl⟩ | ⟨-, rfl⟩
  · exact h
  · refine h.imp_left fun hle => hle.trans ?_
    rw [RxRing.walkRecord, List.length_append]
    exact Nat.le_add_right _ _
  · exact .inr rfl

/-- Four steps for each record, and the rest of a call that was under way. -/
def stepsLeft (R : Records g) (k : Nat) (s : WalkState σ) : Nat :=
  4 * (k - s.results.length - 1) + phase R s

theorem stepsLeft_step (h : Written g R body start k s) (hfit : Fit g R k) (hnot : ¬CaughtUp k s)
    (hstep : g.walkStep R.data mindata body s a = some s') :
    CaughtUp k s' ∨ stepsLeft R k s' ≤ stepsLeft R k s ∧
      (Advances g mindata s a → stepsLeft R k s' < stepsLeft R k s) := by
  have hlt : s.results.length < k := by
    by_contra hge
    exact hnot (.inl (not_lt.1 hge))
  unfold stepsLeft
  cases phase_step h.inv (h.ready hfit hlt) hstep with
  | ended hleft => exact .inl (.inr hleft)
  | worked hcount hzero hphase _ =>
      by_cases hk : k ≤ s'.results.length
      · exact .inl (.inl hk)
      · exact .inr ⟨by omega, fun _ => by omega⟩
  | nearer hcount hle hlt' _ =>
      rw [hcount]
      exact .inr ⟨by omega, fun hadvances => by have := hlt' hadvances; omega⟩

/-- **The run lemma.** -/
theorem caughtUp_of_counted {n : Nat} (h : Written g R body start k s) (hfit : Fit g R k)
    (hrun : (g.walk R.data mindata body start).Counted (Advances g mindata) n s s')
    (hn : 4 * (k - s.results.length) + 2 ≤ n) : CaughtUp k s' := by
  by_cases hdone : CaughtUp k s
  · exact hrun.invariant (fun _ _ _ hc hstep => hc.step hstep) hdone
  · have hlt : s.results.length < k := by
      by_contra hge
      exact hdone (.inl (not_lt.1 hge))
    have hphase := phase_le R s
    refine hrun.rank (I := Written g R body start k) (stepsLeft R k) (fun _ _ _ hw hstep => hw.step hstep)
      (fun _ _ _ hc hstep => hc.step hstep) ?_ ?_ h ?_
    · exact fun _ _ _ hw hnot hstep => (stepsLeft_step hw hfit hnot hstep).imp_right And.left
    · exact fun _ _ _ hw hnot hadvances hstep =>
        (stepsLeft_step hw hfit hnot hstep).imp_right fun hsteps => hsteps.2 hadvances
    · unfold stepsLeft
      omega

/-- A thread that has not ended always has a step to take. -/
theorem exists_advance (hruns : s.runs = true) : ∃ a s', Advances g mindata s a ∧ a.Stays ∧
    g.walkStep R.data mindata body s a = some s' := by
  cases hpc : s.reader.pc with
  | idle top =>
      cases hmore : g.more s.reader with
      | true => exact ⟨.record, _, rfl, trivial, by simp [RxRing.walkStep, hruns, hmore]; rfl⟩
      | false =>
          exact ⟨.call, _, rfl, trivial, by
            simp [RxRing.walkStep, RxRing.readerStep, hruns, hmore, hpc]; rfl⟩
  | read r =>
      exact ⟨.tick, _, by simp [Advances, advances, hpc], trivial, by
        simp [RxRing.walkStep, RxRing.readerStep, hruns, hpc]; rfl⟩
  | poll r =>
      exact ⟨.timeout, _, rfl, trivial, by
        simp [RxRing.walkStep, RxRing.readerStep, hruns, hpc]; rfl⟩

/-- **It can catch up by itself**, and stay. -/
theorem Written.comes_to (h : Written g R body start k s) (hfit : Fit g R k)
    (hbody : (R.fold body start k).isSome) (hleft : s.left = false) :
    ∃ s', (g.walk R.data mindata body start).Steps WalkAct.Stays s s' ∧ k ≤ s'.results.length ∧
      s'.left = false := by
  -- on the number of steps that are left
  obtain ⟨m, hm⟩ : ∃ m, stepsLeft R k s = m := ⟨_, rfl⟩
  induction m using Nat.strong_induction_on generalizing s with
  | _ m ih =>
      by_cases hk : k ≤ s.results.length
      · exact ⟨s, .refl s, hk, hleft⟩
      · have hnot : ¬CaughtUp k s := by simp [CaughtUp, hk, hleft]
        have hacc : s.acc.isSome = true := by
          rw [h.inv.acc]
          exact R.fold_isSome (not_le.1 hk).le hbody
        obtain ⟨a, s1, hadvances, hstays, hstep⟩ : ∃ a s', Advances g mindata s a ∧ a.Stays ∧
            g.walkStep R.data mindata body s a = some s' :=
          exists_advance (WalkState.runs_iff.2 ⟨hacc, hleft⟩)
        have hleft1 : s1.left = false := (walkStep_left hstays hstep).trans hleft
        rcases stepsLeft_step h hfit hnot hstep with hdone | ⟨-, hlt⟩
        · have hk1 : k ≤ s1.results.length := hdone.resolve_right (by simp [hleft1])
          exact ⟨s1, .single hstays hstep, hk1, hleft1⟩
        · obtain ⟨s', hsteps, hk', hleft'⟩ := ih _ (hm ▸ hlt hadvances) (h.step hstep) hleft1 rfl
          exact ⟨s', .step hstays hstep hsteps, hk', hleft'⟩

/-- A thread that is behind has a step to take. -/
theorem Written.can_advance (h : Written g R body start k s) (hbody : (R.fold body start k).isSome) :
    CaughtUp k s ∨ ∃ a s', Advances g mindata s a ∧ a.Stays ∧
      g.walkStep R.data mindata body s a = some s' := by
  by_cases hdone : CaughtUp k s
  · exact .inl hdone
  · obtain ⟨hlt, hleft⟩ := not_or.1 hdone
    have hacc : s.acc.isSome = true := by
      rw [h.inv.acc]
      exact R.fold_isSome (not_le.1 hlt).le hbody
    exact .inr (exists_advance (WalkState.runs_iff.2 ⟨hacc, by simpa using hleft⟩))

end Runs

/-- **It catches up**, whatever the order in which the card and the thread go on: when the card has
written the first `k` records and a window behind them, they have all been worked on after four steps
of the thread for each that is left and two more, turns of the wait loop not counted, or the thread
has ended by its clock or for a file; and until then there is such a step to take.  No record may be
too short for a header or too long for the extra window, and the work on them must not make the
thread return. -/
theorem walk_catches_up {s : WalkState σ} {k : Nat}
    (h : (g.walk R.data mindata body start).Reach (fun _ _ => True) s) (hfit : Fit g R k)
    (hbody : (R.fold body start k).isSome)
    (hw : startOf R.rlen k + 128 ≤ s.reader.engine.written) :
    (∀ n s', (g.walk R.data mindata body start).Counted (Advances g mindata) n s s' →
      4 * (k - s.results.length) + 2 ≤ n → CaughtUp k s') ∧
    ∀ s', (g.walk R.data mindata body start).Steps (fun _ => True) s s' → CaughtUp k s' ∨
      ∃ a s'', Advances g mindata s' a ∧ a.Stays ∧
        (g.walk R.data mindata body start).step s' a = some s'' := by
  have hwritten : Written g R body start k s := ⟨walk_inv h, hw⟩
  refine ⟨fun n s' hrun hn => caughtUp_of_counted hwritten hfit hrun hn, fun s' hsteps => ?_⟩
  have hwritten' : Written g R body start k s' :=
    hsteps.invariant (fun _ _ _ hw _ hstep => hw.step hstep) hwritten
  exact hwritten'.can_advance hbody

/-! ## Two records -/

/-- Ten steps, of which the second record takes the fifth. -/
def tenSteps : List WalkAct :=
  [.call, .tick, .tick, .record, .record, .call, .tick, .tick, .call, .tick]

theorem walk_catches_two : ∃ s s' : WalkState (List Nat), s.results = [] ∧
    (rx4k.walk longRecords.data 16 collect []).Counted (Advances rx4k 16) 10 s s' ∧
      CaughtUp 2 s' := by
  obtain ⟨s, hreach, hs⟩ := Machine.exists_reach_of_run walkStart_reach (List.replicate 448 .card)
    (fun s => (s.results, s.reader.engine.written,
      ((rx4k.walk longRecords.data 16 collect []).run (Advances rx4k 16) s tenSteps).isSome))
    ([], 448, true) (by decide +kernel)
  obtain ⟨hresults, hw, hsome⟩ : s.results = [] ∧ s.reader.engine.written = 448 ∧ _ = true := by
    simpa using hs
  obtain ⟨s', hs'⟩ := Option.isSome_iff_exists.1 hsome
  have hrun := Machine.counted_of_run hs'
  have hfit : Fit rx4k longRecords 2 :=
    fun _ _ => ⟨(by decide : 16 < 160), (by decide : 160 + 128 ≤ 4096)⟩
  refine ⟨s, s', hresults, hrun, (walk_catches_up hreach hfit (by decide) ?_).1 10 s' hrun ?_⟩
  · rw [hw]
    decide
  · rw [hresults]
    decide

end NacCard.Rx
