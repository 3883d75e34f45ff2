import NacCard.Rx.CatchUp

/-!
# The loop never gets stuck

* `not_atLimit` — behind the limit that a call has written the card goes on until it comes there;
  `steps_write` — so it can write everything up to there.
* `limit_far` — that is a ring but two windows ahead of the bottom.
* `WalkInv.goes_on` — the call under way comes to its end, the next one writes the limit, the card
  writes the record and a window behind it, and the record is worked on.
* `walk_goes_on` — from any moment at which the thread has not ended every number of records can be
  reached: neither the limit nor a window is in the way.

This is about what the two can do.  That the card goes on before the thread's 20 seconds are over,
and that files can be opened, is up to the world outside.
-/

namespace NacCard.Rx

open NacCard.Base NacCard.Stream

variable {σ : Type} {g : RxRing} {R : Records g} {mindata : Nat}
  {body : List UInt8 → σ → Option σ} {start : σ}

/-! ## The card behind the limit -/

theorem limit_far {size p n b : Nat} (h : Lap size p n b) : p + size < stopAt size n b + 256 := by
  have heq := h.eq
  have hstop := stopAt_eq size n b
  have hlt := lt_alignDown_add (show 0 < 128 by decide) b
  omega

/-- Where the limit is the one for the bottom, the card is not there before index `stopAt`. -/
theorem not_atLimit {β : Type} {data : Nat → β} {e : Engine β} {p n b : Nat}
    (h : Core g data e p n b) (hlimit : e.limitPtr = g.limitFor (g.buf + alignDown 128 b))
    (hlt : e.written < stopAt g.size n b) : g.recordPtr e ≠ e.limitPtr := by
  obtain ⟨a, ha⟩ := h.turn
  have hp := h.passed_le
  have heq := h.lap.eq
  have hzero := h.lap.zero
  have hle := h.lap.le
  have hal := alignDown_le 128 b
  have hstop := stopAt_eq g.size n b
  intro hat
  rw [recordPtr_eq h.record_le, hlimit, limitFor_eq (hal.trans hle)] at hat
  split_ifs at hat with hnear
  · -- the end of the buffer, in the lap before
    have hturns : a + 1 ≤ n := by
      by_contra hfew
      have hmul : (n + 1) * g.size ≤ (a + 1) * g.size := Nat.mul_le_mul_right g.size (by omega)
      rw [Nat.succ_mul, Nat.succ_mul] at hmul
      omega
    have hmul : (a + 1) * g.size ≤ n * g.size := Nat.mul_le_mul_right g.size hturns
    rw [Nat.succ_mul] at hmul
    omega
  · have hturns : a ≤ n := by
      by_contra hfew
      have hmul : (n + 1) * g.size ≤ a * g.size := Nat.mul_le_mul_right g.size (by omega)
      rw [Nat.succ_mul] at hmul
      omega
    have hmul : a * g.size ≤ n * g.size := Nat.mul_le_mul_right g.size hturns
    omega

/-- Nothing but the card has moved. -/
structure CardOnly (s s' : WalkState σ) : Prop where
  pc : s'.reader.pc = s.reader.pc
  acc : s'.acc = s.acc
  results : s'.results = s.results
  passed : s'.reader.passed = s.reader.passed
  left : s'.left = s.left

theorem CardOnly.trans {s s1 s' : WalkState σ} (h : CardOnly s s1) (h' : CardOnly s1 s') :
    CardOnly s s' :=
  ⟨h'.pc.trans h.pc, h'.acc.trans h.acc, h'.results.trans h.results, h'.passed.trans h.passed,
    h'.left.trans h.left⟩

/-- A turn at the end of the buffer, and a byte. -/
theorem step_write {s : WalkState σ} {n b : Nat}
    (hcore : Core g R.data s.reader.engine s.reader.passed n b)
    (hlimit : s.reader.engine.limitPtr = g.limitFor (g.buf + alignDown 128 b))
    (hlt : s.reader.engine.written < stopAt g.size n b) :
    ∃ s', (g.walk R.data mindata body start).Steps (· = .card) s s' ∧ CardOnly s s' ∧
      s'.reader.engine.written = s.reader.engine.written + 1 ∧
      s'.reader.engine.limitPtr = s.reader.engine.limitPtr ∧
      Core g R.data s'.reader.engine s.reader.passed n b := by
  have hcard {s1 : WalkState σ} {e : Engine UInt8}
      (he : g.engineStep R.data s1.reader.engine = some e) :
      (g.walk R.data mindata body start).step s1 .card =
        some { s1 with reader := { s1.reader with engine := e } } := by
    simp [RxRing.walk, RxRing.walkStep, RxRing.readerStep, he]
  have hbyte {e : Engine UInt8} (hcore : Core g R.data e s.reader.passed n b)
      (hlimit : e.limitPtr = g.limitFor (g.buf + alignDown 128 b))
      (hlt : e.written < stopAt g.size n b) (hin : e.record ≠ g.size) :
      ∃ e', g.engineStep R.data e = some e' ∧ e'.written = e.written + 1 ∧
        e'.limitPtr = e.limitPtr := by
    have hne := not_atLimit hcore hlimit hlt
    have he : g.engineStep R.data e = some
        { e with
          ring := Function.update e.ring e.record (R.data e.written)
          record := e.record + 1
          written := e.written + 1 } := by
      rw [RxRing.engineStep, if_neg hne, if_neg hin]
    exact ⟨_, he, rfl, rfl⟩
  by_cases hend : s.reader.engine.record = g.size
  · have hne := not_atLimit hcore hlimit hlt
    have hturn : g.engineStep R.data s.reader.engine = some { s.reader.engine with record := 0 } := by
      rw [RxRing.engineStep, if_neg hne, if_pos hend]
    have hcore1 := (hcore.engine hturn).1
    obtain ⟨e, he, hw, hl⟩ := hbyte hcore1 hlimit hlt (by show 0 ≠ g.size; exact g.size_pos.ne)
    exact ⟨_, .step rfl (hcard hturn) (.single rfl (hcard he)), ⟨rfl, rfl, rfl, rfl, rfl⟩, hw, hl,
      (hcore1.engine he).1⟩
  · obtain ⟨e, he, hw, hl⟩ := hbyte hcore hlimit hlt hend
    exact ⟨_, .single rfl (hcard he), ⟨rfl, rfl, rfl, rfl, rfl⟩, hw, hl, (hcore.engine he).1⟩

/-- **The card alone** writes everything up to the limit. -/
theorem steps_write {s : WalkState σ} {n b k : Nat}
    (hcore : Core g R.data s.reader.engine s.reader.passed n b)
    (hlimit : s.reader.engine.limitPtr = g.limitFor (g.buf + alignDown 128 b))
    (hle : s.reader.engine.written + k ≤ stopAt g.size n b) :
    ∃ s', (g.walk R.data mindata body start).Steps (· = .card) s s' ∧ CardOnly s s' ∧
      s'.reader.engine.written = s.reader.engine.written + k := by
  induction k generalizing s with
  | zero => exact ⟨s, .refl s, ⟨rfl, rfl, rfl, rfl, rfl⟩, rfl⟩
  | succ k ih =>
      obtain ⟨s1, hstep, hsame, hw, hl, hcore1⟩ := step_write hcore hlimit (by omega)
      obtain ⟨s', hsteps, hsame', hw'⟩ :=
        ih (hsame.passed ▸ hcore1) (hl.trans hlimit) (by rw [hw]; omega)
      refine ⟨s', hstep.trans hsteps, hsame.trans hsame', ?_⟩
      rw [hw', hw]
      omega

/-! ## Calls -/

/-- A call whose wait loop gives up at once. -/
def called (s : WalkState σ) : WalkState σ :=
  let bottom := g.normBottom s.reader.bottom
  { s with
    reader :=
      { s.reader with
        engine := g.writeLimit bottom s.reader.engine
        bottom := bottom
        pc := .idle (g.topFor bottom (g.recordPtr s.reader.engine)) } }

theorem steps_called {s : WalkState σ} {top : Nat} (hidle : s.reader.pc = .idle top)
    (hruns : s.runs = true) (hmore : g.more s.reader = false) :
    (g.walk R.data mindata body start).Steps WalkAct.Stays s (called (g := g) s) := by
  obtain ⟨s1, hs1⟩ : ∃ s1 : WalkState σ, s1 =
      { s with
        reader :=
          { s.reader with
            bottom := g.normBottom s.reader.bottom
            pc := .read (g.recordPtr s.reader.engine) } } := ⟨_, rfl⟩
  obtain ⟨s2, hs2⟩ : ∃ s2 : WalkState σ, s2 =
      { s1 with
        reader :=
          { s1.reader with
            engine := g.writeLimit s1.reader.bottom s1.reader.engine
            pc := .poll (g.recordPtr s.reader.engine) } } := ⟨_, rfl⟩
  have hruns1 : s1.runs = true := by rw [hs1]; exact hruns
  have hruns2 : s2.runs = true := by rw [hs2]; exact hruns1
  have hread : s1.reader.pc = .read (g.recordPtr s.reader.engine) := by rw [hs1]
  have hpoll : s2.reader.pc = .poll (g.recordPtr s.reader.engine) := by rw [hs2]
  have hcall : (g.walk R.data mindata body start).step s .call = some s1 := by
    simp [RxRing.walk, RxRing.walkStep, RxRing.readerStep, hidle, hruns, hmore, hs1]
  have htick : (g.walk R.data mindata body start).step s1 .tick = some s2 := by
    simp [RxRing.walk, RxRing.walkStep, RxRing.readerStep, hruns1, hread, hs2]
  have hreturned : called (g := g) s =
      { s2 with
        reader :=
          { s2.reader with
            pc := .idle (g.topFor s2.reader.bottom (g.recordPtr s.reader.engine)) } } := by
    simp [hs1, hs2, called]
  have htimeout : (g.walk R.data mindata body start).step s2 .timeout = some (called (g := g) s) := by
    simp [RxRing.walk, RxRing.walkStep, RxRing.readerStep, hruns2, hpoll, hreturned]
  exact .step (a := .call) trivial hcall
    (.step (a := .tick) trivial htick (.single (a := .timeout) trivial htimeout))

/-- The call under way comes to its end. -/
theorem steps_idle {s : WalkState σ} (hruns : s.runs = true) :
    ∃ s', (g.walk R.data mindata body start).Steps WalkAct.Stays s s' ∧
      (∃ top, s'.reader.pc = .idle top) ∧ s'.runs = true ∧ s'.results = s.results := by
  have hends {s1 : WalkState σ} (hruns1 : s1.runs = true) {r : Nat} (hpoll : s1.reader.pc = .poll r) :
      (g.walk R.data mindata body start).step s1 .timeout =
        some { s1 with reader := { s1.reader with pc := .idle (g.topFor s1.reader.bottom r) } } := by
    simp [RxRing.walk, RxRing.walkStep, RxRing.readerStep, hruns1, hpoll]
  cases hpc : s.reader.pc with
  | idle top => exact ⟨s, .refl s, ⟨top, hpc⟩, hruns, rfl⟩
  | poll r => exact ⟨_, .single (a := .timeout) trivial (hends hruns hpc), ⟨_, rfl⟩, hruns, rfl⟩
  | read r =>
      obtain ⟨s1, hs1⟩ : ∃ s1 : WalkState σ, s1 =
          { s with
            reader :=
              { s.reader with
                engine := g.writeLimit s.reader.bottom s.reader.engine
                pc := .poll r } } := ⟨_, rfl⟩
      have htick : (g.walk R.data mindata body start).step s .tick = some s1 := by
        simp [RxRing.walk, RxRing.walkStep, RxRing.readerStep, hruns, hpc, hs1]
      have hruns1 : s1.runs = true := by
        rw [hs1]
        exact hruns
      have hpoll : s1.reader.pc = .poll r := by rw [hs1]
      refine ⟨_, .step (a := .tick) trivial htick (.single (a := .timeout) trivial (hends hruns1 hpoll)),
        ⟨_, rfl⟩, hruns1, ?_⟩
      rw [hs1]

/-! ## The next record -/

/-- What the next record wants of the ring. -/
def RecordFits (g : RxRing) (rlen : Nat) : Prop :=
  16 < rlen ∧ rlen + 128 ≤ g.extra ∧ rlen + 384 ≤ g.size

/-- One record more, with the card's help. -/
theorem WalkInv.goes_on {s : WalkState σ} (h : WalkInv g R body start s)
    (hfits : ∀ i ≤ s.results.length, RecordFits g (R.rlen i))
    (hbody : (R.fold body start (s.results.length + 1)).isSome) (hleft : s.left = false) :
    ∃ s', (g.walk R.data mindata body start).Steps WalkAct.Stays s s' ∧
      s.results.length < s'.results.length ∧ s'.left = false := by
  have hkeep {s1 s2 : WalkState σ}
      (hsteps : (g.walk R.data mindata body start).Steps WalkAct.Stays s1 s2)
      (hinv : WalkInv g R body start s1) : WalkInv g R body start s2 :=
    hsteps.invariant (fun _ _ _ hI _ hstep => hI.step hstep) hinv
  obtain ⟨hmin, hextra, hroom⟩ := hfits _ le_rfl
  have hacc : s.acc.isSome = true := by
    rw [h.acc]
    exact R.fold_isSome (Nat.le_succ _) hbody
  obtain ⟨s1, hsteps1, ⟨top, hidle⟩, hruns1, hresults⟩ :=
    @steps_idle _ _ R mindata body start _ (WalkState.runs_iff.2 ⟨hacc, hleft⟩)
  have h1 := hkeep hsteps1 h
  rw [← hresults] at hmin hextra hroom hbody hfits ⊢
  cases hmore : g.more s1.reader with
  | true =>
      have hturn : (g.walk R.data mindata body start).step s1 .record = some (g.walkRecord body s1) := by
        simp [RxRing.walk, RxRing.walkStep, hruns1, hmore]
      refine ⟨_, hsteps1.trans (.single (a := .record) trivial hturn), ?_, (WalkState.runs_iff.1 hruns1).2⟩
      rw [RxRing.walkRecord, List.length_append]
      exact Nat.lt_succ_self _
  | false =>
      have hcalled : (g.walk R.data mindata body start).Steps WalkAct.Stays s1 (called (g := g) s1) :=
        steps_called hidle hruns1 hmore
      have h2 := hkeep hcalled h1
      -- the limit is now the one for the bottom
      have hpc := h1.reader.pc
      rw [PcOk, hidle] at hpc
      obtain ⟨n, b, hlap, hnorm⟩ := hpc.norm
      obtain ⟨n', b', hcore⟩ := h2.reader.core
      obtain ⟨rfl, rfl⟩ := hcore.lap.unique hlap
      have hlimit : (called (g := g) s1).reader.engine.limitPtr =
          g.limitFor (g.buf + alignDown 128 b') := by
        show g.limitFor (RxRing.bottomAlign (g.normBottom s1.reader.bottom)) = _
        rw [hnorm, bottomAlign_eq (by have := hlap.le; omega)]
      have hfar := limit_far hlap
      have hpassed := h1.passed
      have hsucc : startOf R.rlen (s1.results.length + 1) =
          startOf R.rlen s1.results.length + R.rlen s1.results.length := rfl
      have hstop := hcore.stops.le
      obtain ⟨k, hk⟩ : ∃ k, k = startOf R.rlen (s1.results.length + 1) + 128 -
          (called (g := g) s1).reader.engine.written := ⟨_, rfl⟩
      obtain ⟨s3, hcard, hsame, hw⟩ := @steps_write _ _ R mindata body start _ _ _ k hcore hlimit
        (by omega)
      have hcard' : (g.walk R.data mindata body start).Steps WalkAct.Stays (called (g := g) s1) s3 :=
        hcard.mono (by rintro a rfl; trivial)
      have hleft3 : s3.left = false := hsame.left.trans (WalkState.runs_iff.1 hruns1).2
      have hwritten : Written g R body start (s1.results.length + 1) s3 := by
        refine ⟨hkeep hcard' h2, ?_⟩
        omega
      obtain ⟨s', hlast, hcount, hleft'⟩ := @Written.comes_to _ _ R mindata body start _ _ hwritten
        (fun i hi => ⟨(hfits i (Nat.le_of_lt_succ hi)).1, (hfits i (Nat.le_of_lt_succ hi)).2.1⟩)
        hbody hleft3
      exact ⟨s', hsteps1.trans (hcalled.trans (hcard'.trans hlast)), hcount, hleft'⟩

theorem WalkInv.reaches {s : WalkState σ} {k : Nat} (h : WalkInv g R body start s)
    (hleft : s.left = false) (hfits : ∀ i < k, RecordFits g (R.rlen i))
    (hbody : (R.fold body start k).isSome) :
    ∃ s', (g.walk R.data mindata body start).Steps WalkAct.Stays s s' ∧ k ≤ s'.results.length ∧
      s'.left = false := by
  -- on the number of records that are left
  obtain ⟨m, hm⟩ : ∃ m, k - s.results.length = m := ⟨_, rfl⟩
  induction m using Nat.strong_induction_on generalizing s with
  | _ m ih =>
      by_cases hk : k ≤ s.results.length
      · exact ⟨s, .refl s, hk, hleft⟩
      · obtain ⟨s1, hsteps, hcount, hleft1⟩ := @WalkInv.goes_on _ _ R mindata body start _ h
          (fun i hi => hfits i (by omega)) (R.fold_isSome (by omega) hbody) hleft
        have h1 : WalkInv g R body start s1 :=
          hsteps.invariant (fun _ _ _ hI _ hstep => hI.step hstep) h
        obtain ⟨s', hrest, hk', hleft'⟩ := ih _ (by omega) h1 hleft1 rfl
        exact ⟨s', hsteps.trans hrest, hk', hleft'⟩

/-- **It never gets stuck**: from every moment at which the thread has not ended any number of records
can still be worked on, if each fits the ring and the work on them does not make the thread return;
no limit and no window is ever in the way for good. -/
theorem walk_goes_on {s : WalkState σ} {k : Nat}
    (h : (g.walk R.data mindata body start).Reach (fun _ _ => True) s) (hleft : s.left = false)
    (hfits : ∀ i < k, RecordFits g (R.rlen i)) (hbody : (R.fold body start k).isSome) :
    ∃ s', (g.walk R.data mindata body start).Steps WalkAct.Stays s s' ∧ k ≤ s'.results.length ∧
      s'.left = false :=
  (walk_inv h).reaches hleft hfits hbody

theorem fold_collect {g : RxRing} (R : Records g) (k : Nat) : (R.fold collect [] k).isSome := by
  induction k with
  | zero => rfl
  | succ k ih =>
      obtain ⟨acc, hacc⟩ := Option.isSome_iff_exists.1 ih
      rw [Records.fold_succ, hacc]
      rfl

/-- Four laps of the ring. -/
theorem walk_goes_on_hundred : ∃ s' : WalkState (List Nat),
    (rx4k.walk longRecords.data 16 collect []).Steps WalkAct.Stays walkStart s' ∧
      100 ≤ s'.results.length ∧ s'.left = false :=
  walk_goes_on walkStart_reach rfl
    (fun _ _ => ⟨(by decide : 16 < 160), (by decide : 160 + 128 ≤ 4096), (by decide : 160 + 384 ≤ 4096)⟩)
    (fold_collect longRecords 100)

end NacCard.Rx
