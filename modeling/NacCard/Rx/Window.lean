import NacCard.Rx.Advance

/-!
# What a call of `nac_advance_stream` offers

* `waitLoop`, `advanceCall` — a whole call, from the positions the card reports to it.
* `waitLoop_enough` — what the wait loop waits for.
* `shown` — how far the card's bytes can be read without a break.
* `topFor_eq` — the address that is returned, from that.
* `nacAdvanceStream_minData_iff` — when `mindata` bytes are offered: the loop counts from the
  aligned bottom, and the safety window comes off afterwards.
* `nacAdvanceStream_offer_iff` — when bytes once offered stay offered: the safety window
  comes off from 128 bytes on only.
-/

namespace NacCard.Rx

open NacCard.Base NacCard.Stream

/-! ## A call -/

namespace RxRing

variable (g : RxRing)

/-- The wait loop, with the card at offset `r` at first.  At each test `env` has whether `now` is
past `expire`, and the offset of the next reading.  What is left is the offset that was read
last, and whether the loop ended for the time. -/
def waitLoop (mindata bottom : Nat) : Nat → List (Bool × Nat) → Option (Nat × Bool)
  | r, [] => if g.waits mindata bottom (u32 (g.phyaddr + r)) then none else some (r, false)
  | r, (expired, next) :: env =>
      if g.waits mindata bottom (u32 (g.phyaddr + r)) then
        if expired then some (r, true) else waitLoop mindata bottom next env
      else some (r, false)

end RxRing

/-- What a call leaves: `*bottom`, the address it returns, the offset it read last, and
whether `maxwait` has expired. -/
structure AdvanceResult where
  bottom : Nat
  top : Nat
  record : Nat
  expired : Bool
  deriving Repr, DecidableEq

/-- A call of `nac_advance_stream` in which the record register is read as in `env`. -/
def RxRing.advanceCall (g : RxRing) (mindata bottom r : Nat) (env : List (Bool × Nat)) :
    Option AdvanceResult :=
  (g.waitLoop mindata (g.normBottom bottom) r env).map fun x =>
    { bottom := g.normBottom bottom
      top := g.topFor (g.normBottom bottom) (u32 (g.phyaddr + x.1))
      record := x.1
      expired := x.2 }

/-- How far the bytes in front of the card reach in the mappings, from offset `a` on. -/
def RxRing.shown (g : RxRing) (a r : Nat) : Nat := min (lift g.size a r) (g.size + g.extra)

variable {g : RxRing}

/-- The loop ends by itself only with `mindata` bytes. -/
theorem waitLoop_enough {mindata bottom r last : Nat} {env : List (Bool × Nat)}
    (h : g.waitLoop mindata bottom r env = some (last, false)) :
    g.waits mindata bottom (u32 (g.phyaddr + last)) = false := by
  induction env generalizing r with
  | nil =>
      rw [RxRing.waitLoop] at h
      split_ifs at h with hwaits
      obtain rfl : r = last := by simpa using h
      exact Bool.eq_false_of_not_eq_true hwaits
  | cons test env ih =>
      rw [RxRing.waitLoop] at h
      split_ifs at h with hwaits hexpired
      · simp at h
      · exact ih h
      · obtain rfl : r = last := by simpa using h
        exact Bool.eq_false_of_not_eq_true hwaits

/-- Every position the loop ends with is one that was reported. -/
theorem waitLoop_mem {mindata bottom r : Nat} {env : List (Bool × Nat)} {x : Nat × Bool}
    (h : g.waitLoop mindata bottom r env = some x) : x.1 ∈ r :: env.map Prod.snd := by
  induction env generalizing r with
  | nil =>
      rw [RxRing.waitLoop] at h
      split_ifs at h
      cases h
      exact List.mem_cons_self
  | cons test env ih =>
      rw [RxRing.waitLoop] at h
      split_ifs at h
      · cases h
        exact List.mem_cons_self
      · exact List.mem_cons_of_mem _ (ih h)
      · cases h
        exact List.mem_cons_self

/-- `*bottom` points into the first mapping, or at its end. -/
theorem normBottom_mem {bottom : Nat} (hlow : g.buf ≤ bottom) (hhigh : bottom ≤ g.buf + 2 * g.size) :
    ∃ b, b ≤ g.size ∧ g.normBottom bottom = g.buf + b := by
  have hbuf := g.buf_pos
  have hne : bottom ≠ 0 := by omega
  unfold RxRing.normBottom
  dsimp only
  rw [if_neg hne]
  split_ifs with hfar
  · exact ⟨bottom - g.size - g.buf, by omega, by omega⟩
  · exact ⟨bottom - g.buf, by omega, by omega⟩

/-- What the loop compares, by offsets. -/
theorem waits_eq_false {mindata b r : Nat} (hb : b ≤ g.size) (hr : r ≤ g.size) :
    g.waits mindata (g.buf + b) (u32 (g.phyaddr + r)) = false ↔
      alignDown 128 b + mindata ≤ lift g.size (alignDown 128 b) r := by
  have hsize := g.size_lt
  have hal := alignDown_le 128 b
  rw [RxRing.waits, decide_eq_false_iff_not, not_lt, bottomAlign_eq (by omega), recordAddr_eq hr,
    RxRing.available, lift]
  by_cases hback : r < alignDown 128 b
  · have hdist : ((g.size : Int) - (g.buf + alignDown 128 b : Nat) + (g.buf + r : Nat)) =
        (r + g.size - alignDown 128 b : Nat) := by omega
    rw [if_neg (by omega), if_pos hback, hdist, u32_natCast (by omega)]
    omega
  · have hdist : ((g.buf + r : Nat) : Int) - (g.buf + alignDown 128 b : Nat) =
        (r - alignDown 128 b : Nat) := by omega
    rw [if_pos (by omega), if_neg hback, hdist, u32_natCast (by omega)]
    omega

/-- **The address that is returned**: the end of what is shown, less the safety window where
that leaves something of the aligned bottom. -/
theorem topFor_eq {b r : Nat} (hb : b ≤ g.size) (hr : r ≤ g.size) :
    g.topFor (g.buf + b) (u32 (g.phyaddr + r)) =
      g.buf + (if alignDown 128 b + 128 ≤ g.shown (alignDown 128 b) r then
        g.shown (alignDown 128 b) r - 128 else g.shown (alignDown 128 b) r) := by
  have hal := alignDown_le 128 b
  have hW : (SAFETY_WINDOW : Int) = 128 := rfl
  have hW' : SAFETY_WINDOW = 128 := rfl
  rw [RxRing.topFor, bottomAlign_eq (by omega), recordAddr_eq hr, RxRing.advanceTop, hW, hW',
    RxRing.shown, lift]
  split_ifs <;> omega

/-- A call, by offsets: what is reported to it lies in the ring. -/
theorem advanceCall_eq {mindata bottom r : Nat} {env : List (Bool × Nat)} {ret : AdvanceResult}
    (hlow : g.buf ≤ bottom) (hhigh : bottom ≤ g.buf + 2 * g.size)
    (hcard : ∀ x ∈ r :: env.map Prod.snd, x ≤ g.size)
    (h : g.advanceCall mindata bottom r env = some ret) :
    ∃ b, b ≤ g.size ∧ g.normBottom bottom = g.buf + b ∧ ret.bottom = g.buf + b ∧
      ret.record ≤ g.size ∧ ret.top = g.topFor (g.buf + b) (u32 (g.phyaddr + ret.record)) ∧
      g.waitLoop mindata (g.buf + b) r env = some (ret.record, ret.expired) := by
  obtain ⟨b, hb, hnorm⟩ := normBottom_mem hlow hhigh
  rw [RxRing.advanceCall, hnorm] at h
  obtain ⟨⟨last, expired⟩, hloop, rfl⟩ := Option.map_eq_some_iff.1 h
  exact ⟨b, hb, hnorm, rfl, hcard _ (waitLoop_mem hloop), rfl, hloop⟩

/-! ## Minimum data -/

/-- With the card at offset `r`, the bytes shown go on to `mindata` and the safety window behind
offset `b`, or to `mindata` and not to the safety window. -/
def MinDataShown (g : RxRing) (b mindata r : Nat) : Prop :=
  b + mindata + 128 ≤ g.shown (alignDown 128 b) r ∨
    b + mindata ≤ g.shown (alignDown 128 b) r ∧
      g.shown (alignDown 128 b) r < alignDown 128 b + 128

/-- **When `mindata` bytes are offered.**  The loop has waited for that many bytes behind the
aligned bottom; they are there behind `*bottom` exactly when the card, at its last report, has
left the safety window besides. -/
theorem nacAdvanceStream_minData_iff (g : RxRing) {mindata bottom r : Nat}
    {env : List (Bool × Nat)} {ret : AdvanceResult} (hlow : g.buf ≤ bottom)
    (hhigh : bottom ≤ g.buf + 2 * g.size) (hcard : ∀ x ∈ r :: env.map Prod.snd, x ≤ g.size)
    (h : g.advanceCall mindata bottom r env = some ret) :
    ret.bottom + mindata ≤ ret.top ↔
      MinDataShown g (g.normBottom bottom - g.buf) mindata ret.record := by
  obtain ⟨b, hb, hnorm, hbottom, hrecord, htop, -⟩ := advanceCall_eq hlow hhigh hcard h
  have hal := alignDown_le 128 b
  rw [hbottom, htop, topFor_eq hb hrecord, hnorm, Nat.add_sub_cancel_left, MinDataShown]
  split_ifs <;> omega

/-- 384 bytes are there, and 200 were asked for. -/
theorem minData_shown :
    rx4k.buf + 200 ≤ rx4k.buf + 256 ↔ MinDataShown rx4k (rx4k.normBottom rx4k.buf - rx4k.buf) 200 384 :=
  @nacAdvanceStream_minData_iff rx4k _ _ 128 [(false, 384)] ⟨rx4k.buf, rx4k.buf + 256, 384, false⟩
    le_rfl (by decide) (by decide) (by decide)

/-- 128 bytes are there and were asked for, and none is offered. -/
theorem minData_lost :
    ∃ ret, rx4k.advanceCall 128 rx4k.buf 128 [] = some ret ∧ ret.expired = false ∧
      128 + 2 * SAFETY_WINDOW ≤ rx4k.size ∧ ¬ret.bottom + 128 ≤ ret.top :=
  ⟨⟨rx4k.buf, rx4k.buf, 128, false⟩, by decide, rfl, by decide, by decide⟩

/-- What is missing of `mindata` bytes is less than two windows, if the mapping does not end. -/
theorem minData_missing {mindata bottom r : Nat} {env : List (Bool × Nat)} {ret : AdvanceResult}
    (hlow : g.buf ≤ bottom) (hhigh : bottom ≤ g.buf + 2 * g.size)
    (hcard : ∀ x ∈ r :: env.map Prod.snd, x ≤ g.size) (hextra : g.extra = g.size)
    (h : g.advanceCall mindata bottom r env = some ret) (hdata : ret.expired = false) :
    ret.bottom + mindata < ret.top + 256 := by
  obtain ⟨b, hb, -, hbottom, hrecord, htop, hloop⟩ := advanceCall_eq hlow hhigh hcard h
  have hal := lt_alignDown_add (show 0 < 128 by decide) b
  have henough := (waits_eq_false hb hrecord).1 (waitLoop_enough (hdata ▸ hloop))
  have hshown : g.shown (alignDown 128 b) ret.record = lift g.size (alignDown 128 b) ret.record := by
    have hle := alignDown_le 128 b
    rw [RxRing.shown, hextra, lift]
    split_ifs <;> omega
  rw [hbottom, htop, topFor_eq hb hrecord, hshown]
  split_ifs <;> omega

/-! ## Bytes that stay offered -/

/-- The card at offset `r` is `k` bytes ahead of offset `b`, and not a whole lap. -/
structure Ahead (size b r k : Nat) : Prop where
  record_le : r ≤ size
  lt : k < size
  eq : b + k = r ∨ b + k = r + size

/-- The card is not behind `b` in its block of 128 bytes, and what is shown does not end in the
block's last part, where the safety window would reach over `b`. -/
def OfferHolds (g : RxRing) (b r k : Nat) : Prop :=
  (r < alignDown 128 b ∨ b ≤ r) ∧
    (min (b + k) (g.size + g.extra) < alignDown 128 b + 128 ∨
      b + 128 ≤ min (b + k) (g.size + g.extra))

/-- From `k` to `k'` bytes ahead, the card does not come to 128 bytes from the aligned bottom
by less than the safety window. -/
def OfferGrows (g : RxRing) (b k k' : Nat) : Prop :=
  alignDown 128 b + 128 ≤ min (b + k) (g.size + g.extra) ∨
    min (b + k') (g.size + g.extra) < alignDown 128 b + 128 ∨
    min (b + k) (g.size + g.extra) + 128 ≤ min (b + k') (g.size + g.extra)

theorem shown_ahead {b r k : Nat} (h : Ahead g.size b r k)
    (hblock : r < alignDown 128 b ∨ b ≤ r) :
    g.shown (alignDown 128 b) r = min (b + k) (g.size + g.extra) := by
  have hal := alignDown_le 128 b
  have hlt := h.lt
  rw [RxRing.shown, lift]
  rcases h.eq with heq | heq
  · rw [if_neg (by omega), heq]
  · rw [if_pos (by omega), heq]

/-- In the block of `b`, the card does not even show `b`. -/
theorem shown_block {b r : Nat} (h : ¬(r < alignDown 128 b ∨ b ≤ r)) :
    g.shown (alignDown 128 b) r < b := by
  rw [RxRing.shown, lift, if_neg (by omega)]
  omega

theorem le_topFor_iff {b r k : Nat} (hb : b ≤ g.size) (h : Ahead g.size b r k) :
    g.buf + b ≤ g.topFor (g.buf + b) (u32 (g.phyaddr + r)) ↔ OfferHolds g b r k := by
  have hlt := lt_alignDown_add (show 0 < 128 by decide) b
  rw [topFor_eq hb h.record_le, OfferHolds]
  by_cases hblock : r < alignDown 128 b ∨ b ≤ r
  · rw [shown_ahead h hblock, and_iff_right hblock]
    split_ifs <;> omega
  · have hbehind := shown_block (g := g) hblock
    rw [if_neg (by omega)]
    constructor
    · intro hle
      omega
    · intro hholds
      exact absurd hholds.1 hblock

/-- **When the window never shrinks.**  Of two calls on one bottom, between which the card only
went ahead, both return an address from `*bottom` on and the second none below the first's,
exactly under these conditions. -/
theorem nacAdvanceStream_offer_iff (g : RxRing) {mindata mindata' bottom r r' k k' : Nat}
    {env env' : List (Bool × Nat)} {ret ret' : AdvanceResult} (hlow : g.buf ≤ bottom)
    (hhigh : bottom ≤ g.buf + 2 * g.size) (hcard : ∀ x ∈ r :: env.map Prod.snd, x ≤ g.size)
    (hcard' : ∀ x ∈ r' :: env'.map Prod.snd, x ≤ g.size)
    (h : g.advanceCall mindata bottom r env = some ret)
    (h' : g.advanceCall mindata' ret.bottom r' env' = some ret')
    (hahead : Ahead g.size (g.normBottom bottom - g.buf) ret.record k)
    (hahead' : Ahead g.size (g.normBottom bottom - g.buf) ret'.record k') (hcards : k ≤ k') :
    ret.bottom ≤ ret.top ∧ ret'.bottom ≤ ret'.top ∧ ret.top ≤ ret'.top ↔
      OfferHolds g (g.normBottom bottom - g.buf) ret.record k ∧
        OfferHolds g (g.normBottom bottom - g.buf) ret'.record k' ∧
        OfferGrows g (g.normBottom bottom - g.buf) k k' := by
  obtain ⟨b, hb, hnorm, hbottom, hrecord, htop, -⟩ := advanceCall_eq hlow hhigh hcard h
  -- the second call finds `*bottom` as the first has left it
  obtain ⟨b', hb', hnorm', hbottom', hrecord', htop', -⟩ :=
    advanceCall_eq (by omega) (by omega) hcard' h'
  have hsame : b' = b := by
    have hbuf := g.buf_pos
    have hne : ret.bottom ≠ 0 := by omega
    unfold RxRing.normBottom at hnorm'
    dsimp only at hnorm'
    rw [if_neg hne, if_neg (by omega)] at hnorm'
    omega
  subst hsame
  rw [hnorm, Nat.add_sub_cancel_left] at hahead hahead' ⊢
  rw [hbottom, hbottom', htop, htop', ← and_assoc, ← and_assoc, le_topFor_iff hb hahead,
    le_topFor_iff hb hahead']
  refine and_congr_right fun hholds => ?_
  rw [topFor_eq hb hrecord, topFor_eq hb hrecord', shown_ahead hahead hholds.1.1,
    shown_ahead hahead' hholds.2.1, OfferGrows]
  split_ifs <;> omega

/-- From 64 bytes to 256. -/
theorem offer_grows :
    rx4k.buf ≤ rx4k.buf + 64 ∧ rx4k.buf ≤ rx4k.buf + 128 ∧ rx4k.buf + 64 ≤ rx4k.buf + 128 ↔
      OfferHolds rx4k (rx4k.normBottom rx4k.buf - rx4k.buf) 64 64 ∧
        OfferHolds rx4k (rx4k.normBottom rx4k.buf - rx4k.buf) 256 256 ∧
        OfferGrows rx4k (rx4k.normBottom rx4k.buf - rx4k.buf) 64 256 :=
  @nacAdvanceStream_offer_iff rx4k 0 0 _ 64 256 _ _ [] [] ⟨rx4k.buf, rx4k.buf + 64, 64, false⟩
    ⟨rx4k.buf, rx4k.buf + 128, 256, false⟩ le_rfl (by decide) (by decide) (by decide) (by decide)
    (by decide) ⟨by decide, by decide, by decide⟩ ⟨by decide, by decide, by decide⟩ (by decide)

/-- At 127 bytes all are offered; one byte on, none.  And where `*bottom` is not aligned, the
address returned may lie below it. -/
theorem offer_shrinks :
    (∃ ret ret', rx4k.advanceCall 0 rx4k.buf 127 [] = some ret ∧
      rx4k.advanceCall 0 ret.bottom 128 [] = some ret' ∧ ¬ret.top ≤ ret'.top) ∧
    ∃ ret, rx4k.advanceCall 0 (rx4k.buf + 100) 150 [] = some ret ∧ ¬ret.bottom ≤ ret.top := by
  refine ⟨⟨⟨rx4k.buf, rx4k.buf + 127, 127, false⟩, ⟨rx4k.buf, rx4k.buf, 128, false⟩, ?_⟩,
    ⟨rx4k.buf + 100, rx4k.buf + 22, 150, false⟩, ?_⟩
  · decide
  · decide

end NacCard.Rx
