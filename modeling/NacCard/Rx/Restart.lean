import NacCard.Rx.Reader

/-!
# Stopping and restarting a receive stream

`nac_start_stream` writes the limit for an empty ring: the end of the buffer.  Here a
reader also stops and starts its stream, any number of times.

* `RestartState`, `restartStep` — the reader with the stream's `started` flag and the
  run bit of the card, which moves only while that is set.
* `RestartSafe` — from the stop to the next call of `nac_advance_stream`, no byte
  written before the stop is overwritten before the reader's bottom has passed it.
* `Resumed` — what can have happened since the stop: the card goes to the end of its
  lap at most.
* `restart_safe_iff` — that is harmless exactly if the reader has passed all earlier
  laps, or the card already stands at the end.
-/

namespace NacCard.Rx

open NacCard.Base NacCard.Stream

variable {β : Type}

/-! ## The machine -/

/-- A reader, and whether the stream is started. -/
structure RestartState (β : Type) where
  reader : ReaderState β
  /-- `stream->started` -/
  started : Bool
  /-- `dma_pause_n` -/
  running : Bool

/-- A step of the reader, or a call that starts or stops the stream. -/
inductive RestartAct where
  | reader (a : ReaderAct)
  /-- `nac_start_stream` -/
  | start
  /-- `nac_stop_stream` -/
  | stop
  deriving DecidableEq

/-- `nac_advance_stream` ends its pause right after the limit write, whether the stream
was started or not. -/
def clearsPause (a : ReaderAct) : ReaderPc → Bool
  | .read _ => a = .tick
  | _ => false

/-- An attached stream that was never started. -/
structure RestartFresh (s : RestartState β) : Prop where
  written : s.reader.engine.written = 0
  record : s.reader.engine.record = 0
  bottom : s.reader.bottom = 0
  pc : s.reader.pc = .idle 0
  passed : s.reader.passed = 0
  started : s.started = false
  running : s.running = false

namespace RxRing

variable (g : RxRing)

/-- The limit `nac_start_stream` writes. -/
def startLimit (e : Engine β) : Engine β := { e with limitPtr := u32 (g.phyaddr + i32 g.size) }

/-- The flag is tested by start and stop, which are calls of the process that reads. -/
def restartStep (data : Nat → β) (mindata : Nat) (s : RestartState β) :
    RestartAct → Option (RestartState β)
  | .reader a =>
      if a = .card ∧ s.running = false then none
      else
        (g.readerStep data mindata s.reader a).map fun r =>
          { s with reader := r, running := s.running || clearsPause a s.reader.pc }
  | .start =>
      match s.reader.pc with
      | .idle _ =>
          if s.started then none
          else
            some
              { reader := { s.reader with engine := g.startLimit s.reader.engine }
                started := true
                running := true }
      | _ => none
  | .stop =>
      match s.reader.pc with
      | .idle _ => if s.started then some { s with started := false, running := false } else none
      | _ => none

/-- Reading with stops and starts, in any order. -/
def restart (data : Nat → β) (mindata : Nat) : Machine (RestartState β) RestartAct :=
  ⟨RestartFresh, g.restartStep data mindata⟩

/-- The runs that go on from the state `s`. -/
def restartFrom (data : Nat → β) (mindata : Nat) (s : RestartState β) :
    Machine (RestartState β) RestartAct :=
  ⟨fun s' => s' = s, g.restartStep data mindata⟩

end RxRing

variable {g : RxRing} {data : Nat → β} {mindata : Nat}

/-- The next step of the card writes a byte to slot `o`. -/
def WritesSlot (g : RxRing) (data : Nat → β) (mindata : Nat) (s : RestartState β) (o : Nat) : Prop :=
  s.reader.engine.record = o ∧
    ∃ s', g.restartStep data mindata s (.reader .card) = some s' ∧
      s.reader.engine.written < s'.reader.engine.written

/-- Until `nac_advance_stream` is called again, the card overwrites no byte that is written
in `s` and not passed. -/
def RestartSafe (g : RxRing) (data : Nat → β) (mindata : Nat) (s : RestartState β) : Prop :=
  ∀ s', (g.restartFrom data mindata s).Reach (fun _ a => a ≠ .reader .call) s' →
    ∀ j, s'.reader.passed ≤ j → j < s.reader.engine.written →
      ¬WritesSlot g data mindata s' (j % g.size)

/-- The bottom has passed all laps of the card but the last, or the card is at its end. -/
def PassedLaps (g : RxRing) (s : RestartState β) : Prop :=
  s.reader.engine.written - s.reader.engine.record ≤ s.reader.passed ∨
    s.reader.engine.record = g.size

/-! ## What a step can do -/

theorem reader_step {s s' : RestartState β} {a : ReaderAct}
    (h : g.restartStep data mindata s (.reader a) = some s') :
    (a = .card → s.running = true) ∧ s'.started = s.started ∧
      s'.running = (s.running || clearsPause a s.reader.pc) ∧
        g.readerStep data mindata s.reader a = some s'.reader := by
  simp only [RxRing.restartStep] at h
  split_ifs at h with hcard
  obtain ⟨r, hr, rfl⟩ := Option.map_eq_some_iff.1 h
  refine ⟨?_, rfl, rfl, hr⟩
  intro ha
  simpa [ha] using hcard

theorem start_step {s s' : RestartState β} (h : g.restartStep data mindata s .start = some s') :
    s.started = false ∧
      s' = ⟨{ s.reader with engine := { s.reader.engine with limitPtr := g.phyaddr + g.size } },
        true, true⟩ := by
  simp only [RxRing.restartStep] at h
  split at h
  · split_ifs at h with hstarted
    cases h
    refine ⟨by simpa using hstarted, ?_⟩
    rw [RxRing.startLimit, startLimit_eq]
  · cases h

theorem stop_step {s s' : RestartState β} (h : g.restartStep data mindata s .stop = some s') :
    (∃ top, s.reader.pc = .idle top) ∧ s' = { s with started := false, running := false } := by
  simp only [RxRing.restartStep] at h
  split at h
  next top hpc =>
    split_ifs at h with hstarted
    cases h
    exact ⟨⟨top, hpc⟩, rfl⟩
  next => cases h

/-- The card is off the limit, and writes. -/
theorem WritesSlot.writes {s : RestartState β} {o : Nat} (h : WritesSlot g data mindata s o) :
    s.running = true ∧ s.reader.engine.record = o ∧ o ≠ g.size := by
  obtain ⟨ho, s', hstep, hw⟩ := h
  obtain ⟨hrunning, -, -, hreader⟩ := reader_step hstep
  obtain ⟨e, he, hengine⟩ := Option.map_eq_some_iff.1 hreader
  rw [← hengine] at hw
  refine ⟨hrunning rfl, ho, ?_⟩
  obtain ⟨-, ⟨-, rfl⟩ | ⟨hin, -⟩⟩ := engineStep_cases he
  · exact absurd hw (lt_irrefl _)
  · exact ho ▸ hin

/-! ## The reader follows the card -/

theorem Follows.restartStep {s s' : RestartState β} {a : RestartAct} (h : Follows g s.reader)
    (hstep : g.restartStep data mindata s a = some s') : Follows g s'.reader := by
  cases a with
  | reader a => exact h.step (reader_step hstep).2.2.2
  | start =>
      obtain ⟨-, rfl⟩ := start_step hstep
      exact ⟨⟨h.turn.record_le, h.turn.turn⟩, h.passed_le, h.pc.engine le_rfl⟩
  | stop =>
      obtain ⟨-, rfl⟩ := stop_step hstep
      exact h

theorem follows_of_reach {s : RestartState β}
    (h : (g.restart data mindata).Reach (fun _ _ => True) s) : Follows g s.reader := by
  refine @Machine.Reach.invariant _ _ _ _ (fun s => Follows g s.reader) ?_ ?_ s h
  · rintro s ⟨hwritten, hrecord, hbottom, hpc, hpassed, -, -⟩
    refine ⟨⟨?_, 0, ?_⟩, ?_, ?_⟩
    · rw [hrecord]
      exact Nat.zero_le _
    · rw [hwritten, hrecord, Nat.zero_mul]
    · rw [hwritten, hpassed]
    · rw [PcOk, hpc]
      exact .inl ⟨hbottom, rfl, hpassed⟩
  · intro s a s' hfollows _ hstep
    exact hfollows.restartStep hstep

/-! ## From the stop to the next call -/

/-- Since the stop in state `s`, the card has gone on in its lap, if at all. -/
structure Resumed (g : RxRing) (s s' : RestartState β) : Prop where
  idle : ∃ top, s'.reader.pc = .idle top
  passed_le : s.reader.passed ≤ s'.reader.passed
  limit : s'.running = true → s'.reader.engine.limitPtr = g.phyaddr + g.size
  record_le : s.reader.engine.record ≤ s'.reader.engine.record
  record_size : s'.reader.engine.record ≤ g.size

theorem Resumed.reader {s s' s'' : RestartState β} {a : ReaderAct} (h : Resumed g s s')
    (ha : a ≠ .call) (hstep : g.restartStep data mindata s' (.reader a) = some s'') :
    Resumed g s s'' := by
  obtain ⟨top, hidle⟩ := h.idle
  obtain ⟨hcard, -, hrunning, hreader⟩ := reader_step hstep
  have hrunning' : s''.running = s'.running := by simpa [hidle, clearsPause] using hrunning
  cases a with
  | card =>
      obtain ⟨e, he, hengine⟩ := Option.map_eq_some_iff.1 hreader
      have hlimit := h.limit (hcard rfl)
      have hsize := h.record_size
      obtain ⟨hoff, ⟨hend, -⟩ | ⟨hin, heq⟩⟩ := engineStep_cases he
      · -- the end of the buffer is the limit
        rw [recordPtr_eq hsize, hlimit, hend] at hoff
        exact absurd rfl hoff
      · have hrecord : e.record = s'.reader.engine.record + 1 := by rw [heq]
        refine ⟨⟨top, ?_⟩, ?_, ?_, ?_, ?_⟩
        · rw [← hengine]
          exact hidle
        · rw [← hengine]
          exact h.passed_le
        · intro _
          rw [← hengine]
          show e.limitPtr = g.phyaddr + g.size
          rw [heq]
          exact hlimit
        · rw [← hengine]
          exact h.record_le.trans (hrecord ▸ Nat.le_succ _)
        · rw [← hengine]
          show e.record ≤ g.size
          rw [hrecord]
          exact lt_of_le_of_ne hsize hin
  | call => exact absurd rfl ha
  | tick => simp [RxRing.readerStep, hidle] at hreader
  | timeout => simp [RxRing.readerStep, hidle] at hreader
  | move p =>
      simp only [RxRing.readerStep, hidle] at hreader
      split_ifs at hreader with hmove
      have hr := Option.some.inj hreader
      refine ⟨⟨top, ?_⟩, ?_, ?_, ?_, ?_⟩
      · rw [← hr]
      · rw [← hr]
        exact h.passed_le.trans (Nat.le_add_right _ _)
      · rw [← hr, hrunning']
        exact h.limit
      · rw [← hr]
        exact h.record_le
      · rw [← hr]
        exact h.record_size

theorem Resumed.step {s s' s'' : RestartState β} {a : RestartAct} (h : Resumed g s s')
    (hok : a ≠ .reader .call) (hstep : g.restartStep data mindata s' a = some s'') :
    Resumed g s s'' := by
  cases a with
  | reader a =>
      refine h.reader ?_ hstep
      rintro rfl
      exact hok rfl
  | start =>
      obtain ⟨-, rfl⟩ := start_step hstep
      exact ⟨h.idle, h.passed_le, fun _ => rfl, h.record_le, h.record_size⟩
  | stop =>
      obtain ⟨-, rfl⟩ := stop_step hstep
      refine ⟨h.idle, h.passed_le, ?_, h.record_le, h.record_size⟩
      intro hrunning
      cases hrunning

/-- A run from the stop to the next call. -/
theorem resumed_of_reach {s s' : RestartState β} (hidle : ∃ top, s.reader.pc = .idle top)
    (hpaused : s.running = false) (hsize : s.reader.engine.record ≤ g.size)
    (h : (g.restartFrom data mindata s).Reach (fun _ a => a ≠ .reader .call) s') : Resumed g s s' := by
  refine @Machine.Reach.invariant _ _ _ _ (Resumed g s) ?_ ?_ s' h
  · rintro _ rfl
    refine ⟨hidle, le_rfl, ?_, le_rfl, hsize⟩
    intro hrunning
    rw [hpaused] at hrunning
    cases hrunning
  · intro s1 a s2 hresumed hok hstep
    exact hresumed.step hok hstep

/-- **A restart is safe** once the reader has passed the earlier laps. -/
theorem RestartSafe.of_passedLaps {s : RestartState β} (hidle : ∃ top, s.reader.pc = .idle top)
    (hpaused : s.running = false) (hturn : Turn g s.reader.engine) (h : PassedLaps g s) :
    RestartSafe g data mindata s := by
  intro s' hreach j hj hlt hwrites
  have hresumed := resumed_of_reach hidle hpaused hturn.record_le hreach
  obtain ⟨-, hslot, hin⟩ := hwrites.writes
  have hrec := hresumed.record_le
  have hsize := hresumed.record_size
  have hpassed := hresumed.passed_le
  obtain ⟨a, ha⟩ := hturn.turn
  rcases h with hlaps | hend
  · -- the byte is one of the last lap, and the card is past those
    have hj' : j = a * g.size + (j - a * g.size) := by omega
    have hmod : j % g.size = j - a * g.size := by
      rw [hj', slot_lt (by omega)]
      omega
    omega
  · omega

theorem start_enabled {s : RestartState β} {top : Nat} (hidle : s.reader.pc = .idle top)
    (hstarted : s.started = false) : ∃ s', g.restartStep data mindata s .start = some s' := by
  simp [RxRing.restartStep, hidle, hstarted]

/-- Before the end of the buffer a started card writes. -/
theorem card_enabled {s : RestartState β} (hrunning : s.running = true)
    (hlimit : s.reader.engine.limitPtr = g.phyaddr + g.size)
    (hin : s.reader.engine.record < g.size) :
    ∃ s', g.restartStep data mindata s (.reader .card) = some s' ∧
      s'.reader.passed = s.reader.passed ∧ s'.running = true ∧
        s'.reader.engine.limitPtr = g.phyaddr + g.size ∧
          s'.reader.engine.record = s.reader.engine.record + 1 ∧
            s.reader.engine.written < s'.reader.engine.written := by
  have hoff : ¬g.recordPtr s.reader.engine = g.phyaddr + g.size := by
    rw [recordPtr_eq hin.le]
    omega
  simp [RxRing.restartStep, RxRing.readerStep, RxRing.engineStep, hrunning, hoff, hin.ne, hlimit]

/-- After the start the card fills its lap. -/
theorem fills {s : RestartState β} {top : Nat} (hidle : s.reader.pc = .idle top)
    (hstarted : s.started = false) :
    ∀ k, s.reader.engine.record + k ≤ g.size →
      ∃ s', (g.restartFrom data mindata s).Reach (fun _ a => a ≠ .reader .call) s' ∧
        s'.reader.passed = s.reader.passed ∧ s'.running = true ∧
          s'.reader.engine.limitPtr = g.phyaddr + g.size ∧
            s'.reader.engine.record = s.reader.engine.record + k := by
  intro k
  induction k with
  | zero =>
      intro _
      obtain ⟨s', hstep⟩ := @start_enabled _ g data mindata s top hidle hstarted
      refine ⟨s', @Machine.Reach.next _ _ _ _ _ _ .start (.start rfl) (by simp) hstep, ?_⟩
      obtain ⟨-, rfl⟩ := start_step hstep
      simp
  | succ k ih =>
      intro hk
      obtain ⟨s', hreach, hpassed, hrunning, hlimit, hrecord⟩ := ih (by omega)
      obtain ⟨s'', hstep, hpassed', hrunning', hlimit', hrecord', -⟩ :=
        @card_enabled _ g data mindata s' hrunning hlimit (by omega)
      refine ⟨s'', @Machine.Reach.next _ _ _ _ _ _ (.reader .card) hreach (by simp) hstep, ?_,
        hrunning', hlimit', ?_⟩
      · rw [hpassed', hpassed]
      · rw [hrecord', hrecord, Nat.add_assoc]

/-- **A restart overwrites** the last byte of an earlier lap that was not passed. -/
theorem PassedLaps.of_restartSafe {s : RestartState β} {top : Nat}
    (hidle : s.reader.pc = .idle top) (hstarted : s.started = false)
    (hturn : Turn g s.reader.engine) (h : RestartSafe g data mindata s) : PassedLaps g s := by
  by_contra hlaps
  rw [PassedLaps, not_or, not_le] at hlaps
  obtain ⟨hpassed, hend⟩ := hlaps
  have hin := lt_of_le_of_ne hturn.record_le hend
  obtain ⟨a, ha⟩ := hturn.turn
  obtain ⟨c, rfl⟩ : ∃ c, a = c + 1 := by
    cases a with
    | zero => omega
    | succ c => exact ⟨c, rfl⟩
  rw [Nat.succ_mul] at ha
  obtain ⟨s', hreach, hsame, hrunning, hlimit, hrecord⟩ :=
    @fills _ g data mindata s top hidle hstarted (g.size - 1 - s.reader.engine.record) (by omega)
  obtain ⟨s'', hstep, -, -, -, -, hw⟩ :=
    @card_enabled _ g data mindata s' hrunning hlimit (by omega)
  have hslot : (c * g.size + (g.size - 1)) % g.size = g.size - 1 := slot_lt (by omega)
  refine h s' hreach (c * g.size + (g.size - 1)) (by omega) (by omega) ⟨?_, s'', hstep, hw⟩
  rw [hslot]
  omega

/-! ## When a restart is safe -/

/-- **Restarting keeps unread data exactly if** the reader has passed the laps before the
card's last one, or the card is at the end of the ring: in every state that any run of
calls, stops, starts, reading and receiving reaches. -/
theorem restart_safe_iff {s s' : RestartState β}
    (h : (g.restart data mindata).Reach (fun _ _ => True) s)
    (hstop : g.restartStep data mindata s .stop = some s') :
    RestartSafe g data mindata s' ↔ PassedLaps g s := by
  have hturn := (follows_of_reach h).turn
  obtain ⟨⟨top, hidle⟩, rfl⟩ := stop_step hstop
  constructor
  · exact PassedLaps.of_restartSafe (s := ⟨s.reader, false, false⟩) hidle rfl hturn
  · exact RestartSafe.of_passedLaps (s := ⟨s.reader, false, false⟩) ⟨top, hidle⟩ rfl hturn

/-- A ring of 384 bytes at `0x10000000`. -/
def rx384 : RxRing where
  size := 384
  extra := 384
  phyaddr := 0x10000000
  buf := 0x7f0000000000
  size_pos := by decide
  size_align := by decide
  size_lt := by decide
  extra_le := by decide
  top_lt := by decide
  buf_pos := rx4k.buf_pos
  buf_page := rx4k.buf_page
  buf_lt := by decide

/-- The stream just attached, on memory full of zeros. -/
def attached384 : RestartState Nat := ⟨⟨⟨0, 0, 0, fun _ => 0⟩, 0, .idle 0, 0⟩, false, false⟩

theorem attached384_reach : (rx384.restart id 16).Reach (fun _ _ => True) attached384 :=
  .start ⟨rfl, rfl, rfl, rfl, rfl, rfl, rfl⟩

/-- Twenty bytes are received in the first lap; stopping and starting keeps them. -/
theorem restart_after_twenty : ∃ s s' : RestartState Nat,
    (s.reader.passed, s.reader.engine.written, s.reader.engine.record) = (0, 20, 20) ∧
      rx384.restartStep id 16 s .stop = some s' ∧ RestartSafe rx384 id 16 s' := by
  obtain ⟨s, hreach, hs⟩ := Machine.exists_reach_of_run attached384_reach
    (.start :: List.replicate 20 (.reader .card))
    (fun s => (s.started, s.reader.pc, s.reader.passed, s.reader.engine.written,
      s.reader.engine.record))
    (true, .idle 0, 0, 20, 20) (by decide +kernel)
  simp only [Prod.mk.injEq] at hs
  obtain ⟨hstarted, hidle, hpassed, hwritten, hrecord⟩ := hs
  have hstop : rx384.restartStep id 16 s .stop = some ⟨s.reader, false, false⟩ := by
    simp [RxRing.restartStep, hidle, hstarted]
  refine ⟨s, _, by simp [hpassed, hwritten, hrecord], hstop,
    (restart_safe_iff hreach hstop).2 (.inl ?_)⟩
  rw [hwritten, hrecord, hpassed]

/-- The card has filled the ring, the reader has passed 256 bytes and moved the limit, and
the card has gone on to offset 128 of the second lap.  A restart lets it run over the
128 bytes that were not read. -/
theorem restart_overwrites : ∃ s s' : RestartState Nat,
    (rx384.restart id 16).Reach (fun _ _ => True) s ∧
      (s.reader.passed, s.reader.engine.written, s.reader.engine.record) = (256, 512, 128) ∧
        rx384.restartStep id 16 s .stop = some s' ∧ ¬RestartSafe rx384 id 16 s' := by
  obtain ⟨s, hreach, hs⟩ := Machine.exists_reach_of_run attached384_reach
    (.start :: List.replicate 384 (.reader .card) ++
      [.reader .call, .reader .tick, .reader .tick, .reader (.move (rx384.buf + 256)),
        .reader .call, .reader .tick, .reader .tick] ++ List.replicate 129 (.reader .card))
    (fun s => (s.started, s.reader.pc, s.reader.passed, s.reader.engine.written,
      s.reader.engine.record))
    (true, .idle (rx384.buf + 256), 256, 512, 128) (by decide +kernel)
  simp only [Prod.mk.injEq] at hs
  obtain ⟨hstarted, hidle, hpassed, hwritten, hrecord⟩ := hs
  have hstop : rx384.restartStep id 16 s .stop = some ⟨s.reader, false, false⟩ := by
    simp [RxRing.restartStep, hidle, hstarted]
  refine ⟨s, _, hreach, by simp [hpassed, hwritten, hrecord], hstop, ?_⟩
  intro hsafe
  have hlaps : PassedLaps rx384 s :=
    PassedLaps.of_restartSafe (s := ⟨s.reader, false, false⟩) hidle rfl
      (follows_of_reach hreach).turn hsafe
  rw [PassedLaps, hwritten, hrecord, hpassed] at hlaps
  revert hlaps
  decide

end NacCard.Rx
