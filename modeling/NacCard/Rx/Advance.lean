import NacCard.Rx.Engine

/-!
# Laps of a receive ring

Where three pointers chase each other round a ring, positions are compared as
indices into the whole stream.

* `Lap` — a stream index as a number of laps and an offset; offset `size` stands
  for the end of a lap, as `nac_advance_stream` keeps it.
* `stopAt` — how far the card may go for a given bottom.
* `Turn`, `StopsBy` — where the card stands and where it stops; each is kept by the
  card's step, the second by the library's limit write.
* `Core` — the card between bottom and limit, and what the ring shows.
* `Core.engine`, `Core.limit_write`, `Core.pass` — the card's step, the library's
  limit write and the reader's progress keep it.
* `Polling.top` — every byte below the address `nac_advance_stream` returns has been
  written.
* `BottomAt` — a pointer into either mapping, and the byte it reads.
-/

namespace NacCard.Rx

open NacCard.Base NacCard.Stream

variable {β : Type} {g : RxRing} {data : Nat → β}

/-! ## Laps -/

/-- Index `p` of the stream is offset `b` of lap `n`; only the very first byte has
offset 0, later laps end at offset `size`. -/
structure Lap (size p n b : Nat) : Prop where
  eq : p = n * size + b
  le : b ≤ size
  zero : b = 0 → n = 0

/-- The index the card may go up to when the bottom is at offset `b` of lap `n`. -/
def stopAt (size n b : Nat) : Nat := (n + 1) * size + (alignDown 128 b - 128)

theorem stopAt_eq (size n b : Nat) :
    stopAt size n b = n * size + size + (alignDown 128 b - 128) := by
  unfold stopAt
  rw [Nat.succ_mul]

namespace Lap

variable {size p n b p' n' b' : Nat}

theorem stopAt_le (h : Lap size p n b) : stopAt size n b ≤ p + size := by
  have hle := alignDown_le 128 b
  have heq := h.eq
  have hstop := stopAt_eq size n b
  omega

/-- Offsets up to `size` determine the lap. -/
theorem le_of_le (h : Lap size p n b) (h' : Lap size p' n' b') (hp : p ≤ p') : n ≤ n' := by
  by_contra hlt
  have hmul : (n' + 1) * size ≤ n * size := Nat.mul_le_mul_right size (by omega)
  have heq := h.eq
  have heq' := h'.eq
  have hle' := h'.le
  have hzero := h.zero
  rw [Nat.succ_mul] at hmul
  omega

theorem unique (h : Lap size p n b) (h' : Lap size p n' b') : n = n' ∧ b = b' := by
  obtain rfl : n = n' := Nat.le_antisymm (h.le_of_le h' le_rfl) (h'.le_of_le h le_rfl)
  have heq := h.eq
  have heq' := h'.eq
  omega

/-- **The limit moves forward only.** -/
theorem stopAt_mono (h : Lap size p n b) (h' : Lap size p' n' b') (hp : p ≤ p') :
    stopAt size n b ≤ stopAt size n' b' := by
  have hn := h.le_of_le h' hp
  have heq := h.eq
  have heq' := h'.eq
  have hle := h.le
  have hstop := stopAt_eq size n b
  have hstop' := stopAt_eq size n' b'
  rcases Nat.lt_or_eq_of_le hn with hlt | rfl
  · have hmul : (n + 1) * size ≤ n' * size := Nat.mul_le_mul_right size hlt
    have hal := alignDown_le 128 b
    rw [Nat.succ_mul] at hmul
    omega
  · have hal := alignDown_mono 128 (show b ≤ b' by omega)
    omega

/-- The lap of an index given by any offset below two sizes. -/
theorem of_offset {k o : Nat} (hp : p = k * size + o) (ho : o ≤ 2 * size) (hzero : o = 0 → k = 0) :
    o ≤ size ∧ Lap size p k o ∨ size < o ∧ Lap size p (k + 1) (o - size) := by
  by_cases h : o ≤ size
  · exact .inl ⟨h, hp, h, hzero⟩
  · refine .inr ⟨not_le.1 h, ?_, by omega, by omega⟩
    rw [hp, Nat.succ_mul]
    omega

end Lap

/-! ## Addresses -/

theorem bottomAlign_eq {b : Nat} (hb : b ≤ 2 * g.size) :
    RxRing.bottomAlign (g.buf + b) = g.buf + alignDown 128 b := by
  have hlt := g.buf_lt
  have hsize := g.size_pos
  have hdvd : 128 ∣ g.buf := Dvd.dvd.trans (by decide) g.buf_page
  by_cases hend : b < 2 * g.size
  · rw [RxRing.bottomAlign, land_not127 (by omega), alignDown_add (by decide) hdvd]
  · rw [RxRing.bottomAlign, land_not127 (by omega), alignDown_add (by decide) hdvd]

theorem recordAddr_eq {r : Nat} (hr : r ≤ g.size) :
    g.recordAddr (u32 (g.phyaddr + r)) = g.buf + r := by
  have hsize := g.size_lt
  rw [RxRing.recordAddr, u32_add_sub_cancel (by omega), Nat.add_comm]

/-- The limit that is written for an aligned bottom at offset `a`. -/
theorem limitFor_eq {a : Nat} (ha : a ≤ g.size) :
    g.limitFor (g.buf + a) = g.phyaddr + (if a ≤ 128 then g.size else a - 128) := by
  have hsize := g.size_lt
  have htop := g.top_lt
  have hW : (SAFETY_WINDOW : Int) = 128 := rfl
  unfold RxRing.limitFor RxRing.wrsafe u32
  rw [hW]
  split_ifs <;> omega

/-- The offset of the record pointer, lifted by a lap where it is behind the bottom. -/
def lift (size a r : Nat) : Nat := if r < a then r + size else r

theorem advanceTop_le {a r : Nat} :
    g.advanceTop (g.buf + a) (g.buf + r) ≤ g.buf + lift g.size a r ∧
      g.advanceTop (g.buf + a) (g.buf + r) ≤ g.buf + g.size + g.extra := by
  unfold RxRing.advanceTop lift
  dsimp only
  split_ifs <;> omega

theorem le_advanceTop {a r : Nat} (ha : a ≤ g.size) :
    g.buf + a ≤ g.advanceTop (g.buf + a) (g.buf + r) := by
  have hW : (SAFETY_WINDOW : Int) = 128 := rfl
  unfold RxRing.advanceTop
  rw [hW]
  dsimp only
  split_ifs <;> omega

/-! ## Steps of the card -/

/-- The register values of different positions are different. -/
theorem recordPtr_eq {e : Engine β} (h : e.record ≤ g.size) : g.recordPtr e = g.phyaddr + e.record := by
  have htop := g.top_lt
  rw [RxRing.recordPtr, ← Nat.cast_add, u32_natCast (by omega)]

/-- The card goes on only off the limit: it turns at the end of the buffer, or writes a byte. -/
theorem engineStep_cases {e e' : Engine β} (h : g.engineStep data e = some e') :
    g.recordPtr e ≠ e.limitPtr ∧
      (e.record = g.size ∧ e' = { e with record := 0 } ∨
        e.record ≠ g.size ∧ e' =
          { e with
            ring := Function.update e.ring e.record (data e.written)
            record := e.record + 1
            written := e.written + 1 }) := by
  unfold RxRing.engineStep at h
  split_ifs at h with hfull hwrap
  · cases h
    exact ⟨hfull, .inl ⟨hwrap, rfl⟩⟩
  · cases h
    exact ⟨hfull, .inr ⟨hwrap, rfl⟩⟩

/-- The card stands at offset `record` of some lap. -/
structure Turn (g : RxRing) (e : Engine β) : Prop where
  record_le : e.record ≤ g.size
  turn : ∃ a, e.written = a * g.size + e.record

namespace Turn

variable {e e' : Engine β}

theorem written_le (hstep : g.engineStep data e = some e') : e.written ≤ e'.written := by
  obtain ⟨-, ⟨-, rfl⟩ | ⟨-, rfl⟩⟩ := engineStep_cases hstep
  · exact le_rfl
  · exact Nat.le_succ _

theorem engine (h : Turn g e) (hstep : g.engineStep data e = some e') : Turn g e' := by
  have hrec := h.record_le
  obtain ⟨a, ha⟩ := h.turn
  obtain ⟨-, ⟨hend, rfl⟩ | ⟨hin, rfl⟩⟩ := engineStep_cases hstep
  · refine ⟨Nat.zero_le _, a + 1, ?_⟩
    show e.written = (a + 1) * g.size + 0
    rw [ha, hend, Nat.succ_mul, Nat.add_zero]
  · refine ⟨?_, a, ?_⟩
    · show e.record + 1 ≤ g.size
      omega
    · show e.written + 1 = a * g.size + (e.record + 1)
      rw [ha, Nat.add_assoc]

/-- A byte goes to the slot of its index. -/
theorem slot (h : Turn g e) (hin : e.record ≠ g.size) : e.written % g.size = e.record := by
  obtain ⟨a, ha⟩ := h.turn
  rw [ha]
  exact slot_lt (lt_of_le_of_ne h.record_le hin)

/-- The ring keeps what is wanted, as long as that is less than a lap. -/
theorem shows {lo : Nat} (h : Turn g e) (hstep : g.engineStep data e = some e')
    (hshows : Shows g.size e.ring data lo e.written) (hroom : e'.written ≤ lo + g.size) :
    Shows g.size e'.ring data lo e'.written := by
  obtain ⟨-, ⟨-, rfl⟩ | ⟨hin, rfl⟩⟩ := engineStep_cases hstep
  · exact hshows
  · dsimp only
    rw [← h.slot hin]
    exact hshows.push hroom

/-- The record pointer, lifted where it is behind the bottom or an offset before that, is an
index that has been written. -/
theorem lift_le {p n b c : Nat} (h : Turn g e) (hlap : Lap g.size p n b) (hp : p ≤ e.written)
    (hc : c ≤ b) : n * g.size + lift g.size c e.record ≤ e.written := by
  obtain ⟨a, ha⟩ := h.turn
  have hrec := h.record_le
  have heq := hlap.eq
  have hzero := hlap.zero
  have hna : n ≤ a := by
    by_contra hlt
    have hmul : (a + 1) * g.size ≤ n * g.size := Nat.mul_le_mul_right g.size (by omega)
    rw [Nat.succ_mul] at hmul
    omega
  have hmul : n * g.size ≤ a * g.size := Nat.mul_le_mul_right g.size hna
  unfold lift
  split_ifs with hbehind
  · have hlt : n < a := by
      by_contra hge
      obtain rfl : n = a := by omega
      omega
    have hmul' : (n + 1) * g.size ≤ a * g.size := Nat.mul_le_mul_right g.size hlt
    rw [Nat.succ_mul] at hmul'
    omega
  · omega

end Turn

/-- The limit is at offset `l` of a lap `m`; the card stops there, and not behind index `stop`. -/
def StopsBy (g : RxRing) (e : Engine β) (stop : Nat) : Prop :=
  ∃ m l, 0 < l ∧ l ≤ g.size ∧ e.limitPtr = g.phyaddr + l ∧ e.written ≤ m * g.size + l ∧
    m * g.size + l ≤ stop ∧ (e.written = m * g.size + l → e.record = l)

namespace StopsBy

variable {e e' : Engine β} {stop stop' : Nat}

theorem mono (h : StopsBy g e stop) (hle : stop ≤ stop') : StopsBy g e stop' := by
  obtain ⟨m, l, hl0, hl, hlimit, hw, hstop, hend⟩ := h
  exact ⟨m, l, hl0, hl, hlimit, hw, hstop.trans hle, hend⟩

theorem le (h : StopsBy g e stop) : e.written ≤ stop := by
  obtain ⟨m, l, -, -, -, hw, hstop, -⟩ := h
  exact hw.trans hstop

theorem engine (h : StopsBy g e stop) (ht : Turn g e) (hstep : g.engineStep data e = some e') :
    StopsBy g e' stop := by
  have hrec := ht.record_le
  obtain ⟨a, ha⟩ := ht.turn
  obtain ⟨m, l, hl0, hl, hlimit, hw, hstop, hend⟩ := h
  obtain ⟨hfull, hcases⟩ := engineStep_cases hstep
  have hne : e.record ≠ l := by
    intro heq
    rw [recordPtr_eq hrec, hlimit, heq] at hfull
    exact hfull rfl
  have hlt : e.written < m * g.size + l := by
    refine lt_of_le_of_ne hw ?_
    intro heq
    exact hne (hend heq)
  rcases hcases with ⟨-, rfl⟩ | ⟨hin, rfl⟩
  · refine ⟨m, l, hl0, hl, hlimit, hw, hstop, ?_⟩
    intro heq
    exact absurd heq hlt.ne
  · refine ⟨m, l, hl0, hl, hlimit, hlt, hstop, ?_⟩
    -- both are offsets between 1 and `size` of the same index
    dsimp only
    intro heq
    have hlap : Lap g.size (e.written + 1) a (e.record + 1) := ⟨by omega, by omega, by omega⟩
    exact (hlap.unique ⟨heq, hl, by omega⟩).2

/-- **The limit write** for a bottom at offset `b` of lap `n`. -/
theorem write {n b : Nat} (h : StopsBy g e (stopAt g.size n b)) (hb : b ≤ g.size) :
    StopsBy g { e with limitPtr := g.limitFor (g.buf + alignDown 128 b) } (stopAt g.size n b) := by
  have hal := alignDown_le 128 b
  have hpos := g.size_pos
  obtain ⟨m, l, hl0, hl, hlimit, hw, hstop, hend⟩ := h
  -- where the new limit lies
  obtain ⟨m', l', hl0', hl', hnew, heq⟩ : ∃ m' l', 0 < l' ∧ l' ≤ g.size ∧
      g.limitFor (g.buf + alignDown 128 b) = g.phyaddr + l' ∧
        m' * g.size + l' = stopAt g.size n b := by
    have heq := stopAt_eq g.size n b
    by_cases hnear : alignDown 128 b ≤ 128
    · refine ⟨n, g.size, hpos, le_rfl, ?_, ?_⟩
      · rw [limitFor_eq (by omega), if_pos hnear]
      · omega
    · refine ⟨n + 1, alignDown 128 b - 128, by omega, by omega, ?_, rfl⟩
      rw [limitFor_eq (by omega), if_neg hnear]
  refine ⟨m', l', hl0', hl', hnew, ?_, heq.le, ?_⟩
  · exact (hw.trans hstop).trans heq.ge
  dsimp only
  intro hfull
  have hold : e.written = m * g.size + l := by omega
  have hlap : Lap g.size e.written m l := ⟨hold, hl, by omega⟩
  rw [hend hold]
  exact (hlap.unique ⟨hfull, hl', by omega⟩).2

end StopsBy

/-! ## The card between bottom and limit -/

/-- The bottom is at index `p`, which is offset `b` of lap `n`. -/
structure Core (g : RxRing) (data : Nat → β) (e : Engine β) (p n b : Nat) : Prop where
  lap : Lap g.size p n b
  passed_le : p ≤ e.written
  record_le : e.record ≤ g.size
  turn : ∃ a, e.written = a * g.size + e.record
  /-- the card stops at offset `l` of lap `m`, at the latest -/
  limit : ∃ m l, 0 < l ∧ l ≤ g.size ∧ e.limitPtr = g.phyaddr + l ∧ e.written ≤ m * g.size + l ∧
    m * g.size + l ≤ stopAt g.size n b ∧ (e.written = m * g.size + l → e.record = l)
  shows : Shows g.size e.ring data p e.written

theorem Core.stands {e : Engine β} {p n b : Nat} (h : Core g data e p n b) : Turn g e :=
  ⟨h.record_le, h.turn⟩

theorem Core.stops {e : Engine β} {p n b : Nat} (h : Core g data e p n b) :
    StopsBy g e (stopAt g.size n b) := h.limit

theorem Core.written_le {e : Engine β} {p n b : Nat} (h : Core g data e p n b) :
    e.written ≤ p + g.size := h.stops.le.trans h.lap.stopAt_le

/-- The limit `nac_start_stream` writes is the end of the buffer. -/
theorem startLimit_eq : u32 (g.phyaddr + i32 g.size) = g.phyaddr + g.size := by
  have hsize := g.size_lt
  have htop := g.top_lt
  rw [i32_of_mem (by omega) (by omega), ← Nat.cast_add, u32_natCast (by omega)]

/-- A started card. -/
theorem Core.started {e : Engine β} (h : g.Started e) : Core g data e 0 0 0 := by
  have hpos := g.size_pos
  refine ⟨⟨by omega, by omega, fun _ => rfl⟩, Nat.zero_le _, ?_, ⟨0, ?_⟩, ⟨0, g.size, ?_⟩, ?_⟩
  · rw [h.record]
    exact Nat.zero_le _
  · rw [h.written, h.record, Nat.zero_mul]
  · have hlimit : e.limitPtr = g.phyaddr + g.size := h.limitPtr.trans startLimit_eq
    refine ⟨hpos, le_rfl, hlimit, ?_, ?_, ?_⟩
    · rw [h.written]
      exact Nat.zero_le _
    · have hstop := stopAt_eq g.size 0 0
      omega
    · rw [h.written]
      omega
  · intro k hk hlt
    rw [h.written] at hlt
    omega

/-- **A step of the card.** -/
theorem Core.engine {e e' : Engine β} {p n b : Nat} (h : Core g data e p n b)
    (hstep : g.engineStep data e = some e') : Core g data e' p n b ∧ e.written ≤ e'.written := by
  have hturn := h.stands.engine hstep
  have hstops := h.stops.engine h.stands hstep
  have hw := Turn.written_le hstep
  have hroom : e'.written ≤ p + g.size := hstops.le.trans h.lap.stopAt_le
  exact ⟨⟨h.lap, h.passed_le.trans hw, hturn.record_le, hturn.turn, hstops,
    h.stands.shows hstep h.shows hroom⟩, hw⟩

/-- **The limit write**, for the bottom as it is. -/
theorem Core.limit_write {e : Engine β} {p n b : Nat} (h : Core g data e p n b) :
    Core g data { e with limitPtr := g.limitFor (g.buf + alignDown 128 b) } p n b :=
  ⟨h.lap, h.passed_le, h.record_le, h.turn, h.stops.write h.lap.le, h.shows⟩

/-- **The reader's progress**, up to what has been written. -/
theorem Core.pass {e : Engine β} {p n b p' n' b' : Nat} (h : Core g data e p n b)
    (hlap : Lap g.size p' n' b') (hp : p ≤ p') (hw : p' ≤ e.written) : Core g data e p' n' b' :=
  ⟨hlap, hw, h.record_le, h.turn, h.stops.mono (h.lap.stopAt_mono hlap hp), h.shows.mono hp⟩

/-! ## What a reading of the record pointer promises -/

/-- A call of `nac_advance_stream` is under way: its bottom is index `p`, and `r` is
a value the record register had since the call began. -/
def Polling (g : RxRing) (e : Engine β) (p bottom r : Nat) : Prop :=
  ∃ n b x, Lap g.size p n b ∧ bottom = g.buf + b ∧ x ≤ g.size ∧ r = u32 (g.phyaddr + x) ∧
    n * g.size + lift g.size (alignDown 128 b) x ≤ e.written

theorem Turn.polling {e : Engine β} {p n b : Nat} (h : Turn g e) (hlap : Lap g.size p n b)
    (hp : p ≤ e.written) : Polling g e p (g.buf + b) (g.recordPtr e) :=
  ⟨n, b, e.record, hlap, rfl, h.record_le, rfl, h.lift_le hlap hp (alignDown_le 128 b)⟩

theorem Polling.read {e : Engine β} {p n b : Nat} (h : Core g data e p n b) :
    Polling g e p (g.buf + b) (g.recordPtr e) := h.stands.polling h.lap h.passed_le

theorem Polling.mono {e e' : Engine β} {p bottom r : Nat} (h : Polling g e p bottom r)
    (hw : e.written ≤ e'.written) : Polling g e' p bottom r := by
  obtain ⟨n, b, x, hlap, hbottom, hx, hr, hle⟩ := h
  exact ⟨n, b, x, hlap, hbottom, hx, hr, hle.trans hw⟩

/-- **Everything below the returned address has been written**, and the address lies
inside the mapping. -/
theorem Polling.top {e : Engine β} {p bottom r : Nat} (h : Polling g e p bottom r)
    (hp : p ≤ e.written) :
    p + (g.topFor bottom r - bottom) ≤ e.written ∧ g.topFor bottom r ≤ g.buf + g.size + g.extra := by
  obtain ⟨n, b, x, hlap, rfl, hx, rfl, hle⟩ := h
  have hb := hlap.le
  have heq := hlap.eq
  rw [RxRing.topFor, bottomAlign_eq (by omega), recordAddr_eq hx]
  obtain ⟨h1, h2⟩ := @advanceTop_le g (alignDown 128 b) x
  refine ⟨?_, h2⟩
  omega

/-- It may lie below the bottom, though not by a window. -/
theorem Polling.top_ge {e : Engine β} {p bottom r : Nat} (h : Polling g e p bottom r) :
    bottom < g.topFor bottom r + 128 := by
  obtain ⟨n, b, x, hlap, rfl, hx, rfl, -⟩ := h
  have hb := hlap.le
  have hal := alignDown_le 128 b
  have hlt := lt_alignDown_add (show 0 < 128 by decide) b
  rw [RxRing.topFor, bottomAlign_eq (by omega), recordAddr_eq hx]
  have hge := @le_advanceTop g (alignDown 128 b) x (by omega)
  omega

/-! ## Pointers into the two mappings -/

/-- `bottom` points to the byte with index `p`, through either mapping. -/
def BottomAt (g : RxRing) (p bottom : Nat) : Prop :=
  ∃ k o, bottom = g.buf + o ∧ o ≤ 2 * g.size ∧ p = k * g.size + o ∧ (o = 0 → k = 0)

theorem BottomAt.norm {p bottom : Nat} (h : BottomAt g p bottom) :
    ∃ n b, Lap g.size p n b ∧ g.normBottom bottom = g.buf + b := by
  obtain ⟨k, o, rfl, ho, hp, hzero⟩ := h
  have hbuf := g.buf_pos
  have hne : ¬g.buf + o = 0 := by omega
  unfold RxRing.normBottom
  dsimp only
  rw [if_neg hne]
  rcases Lap.of_offset hp ho hzero with ⟨hle, hlap⟩ | ⟨hlt, hlap⟩
  · refine ⟨k, o, hlap, ?_⟩
    rw [if_neg (by omega)]
  · refine ⟨k + 1, o - g.size, hlap, ?_⟩
    rw [if_pos (by omega)]
    omega

theorem BottomAt.null : ∃ n b, Lap g.size 0 n b ∧ g.normBottom 0 = g.buf + b := by
  refine ⟨0, 0, ⟨by omega, by omega, fun _ => rfl⟩, ?_⟩
  unfold RxRing.normBottom
  dsimp only
  rw [if_pos rfl, if_neg (by omega), Nat.add_zero]

theorem Lap.bottomAt {p n b : Nat} (h : Lap g.size p n b) : BottomAt g p (g.buf + b) := by
  have hle := h.le
  exact ⟨n, b, rfl, by omega, h.eq, h.zero⟩

/-- Moving `bottom` forward moves the index with it. -/
theorem BottomAt.move {p bottom q : Nat} (h : BottomAt g p bottom) (hle : bottom ≤ q)
    (hq : q ≤ g.buf + g.size + g.extra) :
    BottomAt g (p + (q - bottom)) q ∧ ∃ n b, Lap g.size (p + (q - bottom)) n b := by
  have hextra := g.extra_le
  obtain ⟨k, o, rfl, ho, hp, hzero⟩ := h
  have hmoved : BottomAt g (p + (q - (g.buf + o))) q :=
    ⟨k, q - g.buf, by omega, by omega, by omega, by omega⟩
  obtain ⟨n, b, hlap, -⟩ := hmoved.norm
  exact ⟨hmoved, n, b, hlap⟩

/-- The byte at an address behind `bottom`. -/
theorem BottomAt.readByte {e : Engine β} {p bottom q : Nat} (h : BottomAt g p bottom)
    (hle : bottom ≤ q) (hq : q < g.buf + g.size + g.extra) :
    g.readByte e q = e.ring ((p + (q - bottom)) % g.size) := by
  have hextra := g.extra_le
  obtain ⟨k, o, rfl, ho, hp, -⟩ := h
  have hindex : p + (q - (g.buf + o)) = k * g.size + (q - g.buf) := by omega
  unfold RxRing.readByte
  rw [hindex]
  split_ifs with hin
  · rw [slot_lt hin]
  · rw [slot_wrap (by omega) (by omega)]

end NacCard.Rx
