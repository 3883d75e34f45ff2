import NacCard.Tx.Invariant

/-!
# The free space a transmit stream keeps count of

`free_space` is computed now and then and spent in between.  What matters is that
it never promises more than there is.

* `copyRefresh_freeSpace`, `spaceRefresh_freeSpace` — what the two wait loops
  compute from the two registers.
* `Budget` — free space, reserved bytes and unsent bytes together stay within a cap:
  the whole ring, or the ring less the safety window.
* `Budget.moves` — a step keeps it, with the three things a user of the lemma has
  to rule out spelled out as hypotheses.
-/

namespace NacCard.Tx

open NacCard.Base NacCard.Stream

variable {β : Type} {g : TxRing}

/-! ## The free space that is computed -/

/-- How many published bytes the card has not sent. -/
def unsent (s : TxState β) : Nat := s.committed.length - s.sent.length

/-- The record pointer is ahead of the limit by less than the safety window. -/
def JustAhead (s : TxState β) : Prop :=
  s.offset < s.record ∧ s.record < s.offset + SAFETY_WINDOW

theorem Core.unsent_add {s : TxState β} (h : Core g s) :
    unsent s + s.sent.length = s.committed.length :=
  Nat.sub_add_cancel h.sent_le

/-- The unsent bytes are the ones between the two pointers. -/
theorem Core.unsent_eq {s : TxState β} (h : Core g s) :
    s.record ≤ s.offset ∧ unsent s = s.offset - s.record ∨
      s.offset < s.record ∧ unsent s + s.record = s.offset + g.size := by
  have hadd := h.unsent_add
  rcases h.gap with hg | hg <;> omega

theorem Core.unsent_lt {s : TxState β} (h : Core g s) : unsent s + s.pc.reserved < g.size := by
  have hroom := h.room
  have hadd := h.unsent_add
  omega

/-- The card only makes room. -/
theorem unsent_sendByte_le (g : TxRing) (s : TxState β) : unsent (g.sendByte s) ≤ unsent s := by
  unfold unsent TxRing.sendByte
  simp only [List.length_append]
  omega

/-- **What a turn of the copy loop computes**: the free bytes but for the safety
window, unless the record pointer is just ahead of the limit. -/
theorem copyRefresh_freeSpace {s : TxState β} (h : Core g s) (hahead : ¬ JustAhead s)
    (hfit : (unsent s : Int) + SAFETY_WINDOW ≤ 2147483648) :
    (g.copyRefresh s).freeSpace = g.size - SAFETY_WINDOW - unsent s := by
  have hoff := h.offset_le
  have hrec := h.record_le
  have hsize := g.size_lt
  have hlt := h.unsent_lt
  have hcases := h.unsent_eq
  have hW : SAFETY_WINDOW = 128 := rfl
  unfold JustAhead at hahead
  have hdistance : (g.phyaddr + s.record : Int) - (g.phyaddr + s.offset + SAFETY_WINDOW) =
      s.record - s.offset - SAFETY_WINDOW := by ring
  have hvalue : i32 ((s.record : Int) - s.offset - SAFETY_WINDOW) = s.record - s.offset - SAFETY_WINDOW :=
    i32_of_mem (by omega) (by omega)
  unfold TxRing.copyRefresh
  dsimp only
  rw [TxRing.recordPtr, h.limit, u32_add_u32, i32_sub_u32, hdistance, hvalue]
  split_ifs with hneg
  · rw [i32_of_mem (by omega) (by omega)]
    omega
  · omega

/-- The limit read when the call began is the limit. -/
def BottomRead (s : TxState β) : Prop :=
  match s.pc with
  | .spaceWait _ => s.lastBusBottom = s.limitPtr
  | _ => True

/-- **What a turn of the space loop computes**: all free bytes. -/
theorem spaceRefresh_freeSpace {s : TxState β} (h : Core g s)
    (hbottom : s.lastBusBottom = s.limitPtr) :
    (g.spaceRefresh s).freeSpace = g.size - unsent s := by
  have hoff := h.offset_le
  have hrec := h.record_le
  have hsize := g.size_lt
  have hlt := h.unsent_lt
  have hcases := h.unsent_eq
  have hvalue : i32 ((s.record : Int) - s.offset) = s.record - s.offset :=
    i32_of_mem (by omega) (by omega)
  unfold TxRing.spaceRefresh
  dsimp only
  rw [TxRing.recordPtr, hbottom, h.limit, i32_sub_u32, add_sub_add_left_eq_sub, hvalue]
  split_ifs with hneg
  · rw [i32_of_mem (by omega) (by omega)]
    omega
  · omega

/-- Taking `n` bytes once the loop has found them and the reserve. -/
theorem spaceTake_free {s : TxState β} {n : Nat} (hsize : g.size < 2147481600)
    (hn : n ≤ g.extra) (hbudget : s.freeSpace + unsent s ≤ g.size)
    (hle : i32 (i32 n + 2048) ≤ s.freeSpace) :
    (TxRing.spaceTake n s).freeSpace = s.freeSpace - n ∧ 2048 ≤ s.freeSpace - n := by
  have hextra := g.extra_le
  have hn32 : i32 (n : Int) = n := i32_of_mem (by omega) (by omega)
  have hneed : i32 ((n : Int) + 2048) = n + 2048 := i32_of_mem (by omega) (by omega)
  rw [hn32, hneed] at hle
  refine ⟨?_, by omega⟩
  exact i32_of_mem (by omega) (by omega)

/-! ## The budget -/

/-- The cached free space, the bytes reserved and the bytes unsent add up to at most
`cap`. -/
structure Budget (g : TxRing) (cap : Nat) (s : TxState β) : Prop where
  core : Core g s
  window : s.pc.InWindow g
  fits : s.pc.buffer.length ≤ g.size
  bottom : BottomRead s
  /-- a computation with the safety window used up gives a negative value -/
  free_ge : -(SAFETY_WINDOW : Int) ≤ s.freeSpace
  le_cap : s.freeSpace + s.pc.reserved + unsent s ≤ cap

theorem Budget.fresh {s : TxState β} (h : g.Fresh s) (cap : Nat) : Budget g cap s := by
  refine ⟨.fresh h, ?_, ?_, ?_, ?_, ?_⟩
  · rw [h.pc]
    trivial
  · rw [h.pc]
    exact Nat.zero_le _
  · rw [BottomRead, h.pc]
    trivial
  · rw [h.freeSpace]
    decide
  · rw [h.freeSpace, h.pc, unsent, h.committed, h.sent, Pc.reserved_idle]
    simp only [List.length_nil]
    omega

theorem unsent_copyPublish_le (orig : List β) (s : TxState β) :
    unsent (g.copyPublish orig s) ≤ unsent s + orig.length := by
  unfold unsent TxRing.copyPublish
  simp only [List.length_append]
  omega

theorem unsent_commitPublish_le (m : Nat) (bytes : List β) (s : TxState β) :
    unsent (g.commitPublish m bytes s) ≤ unsent s + bytes.length := by
  unfold unsent TxRing.commitPublish
  simp only [List.length_append, List.length_take]
  omega

section Loops

variable {s s' : TxState β} {cap : Nat}

/-- A loop has computed the free space once more, and reserved nothing yet. -/
theorem Budget.recomputed (h : Budget g cap s) (hcore : Core g s') (hwindow : s'.pc.InWindow g)
    (hpc : s'.pc = s.pc) (hzero : s.pc.reserved = 0) (hbottom : BottomRead s')
    (hfree : -(SAFETY_WINDOW : Int) ≤ s'.freeSpace) (hle : s'.freeSpace + unsent s' ≤ cap) :
    Budget g cap s' := by
  refine ⟨hcore, hwindow, ?_, hbottom, hfree, ?_⟩
  · rw [hpc]
    exact h.fits
  · rw [hpc, hzero]
    simpa using hle

/-- What a loop has found is reserved. -/
theorem Budget.taken (h : Budget g cap s) (hcore : Core g s') (hwindow : s'.pc.InWindow g)
    (hfits : s'.pc.buffer.length ≤ g.size) (hbottom : BottomRead s') (hzero : s.pc.reserved = 0)
    (hnonneg : 0 ≤ s'.freeSpace) (hfree : s'.freeSpace + s'.pc.reserved = s.freeSpace)
    (hun : unsent s' = unsent s) : Budget g cap s' := by
  have hbudget := h.le_cap
  refine ⟨hcore, hwindow, hfits, hbottom, ?_, ?_⟩
  · have hW : SAFETY_WINDOW = 128 := rfl
    omega
  · rw [hzero] at hbudget
    omega

/-- What was reserved is published, or given up. -/
theorem Budget.published (h : Budget g cap s) (hcore : Core g s') (hpc : s'.pc = .idle)
    (hfree : s'.freeSpace = s.freeSpace) (hun : unsent s' ≤ unsent s + s.pc.reserved) :
    Budget g cap s' := by
  have hbudget := h.le_cap
  refine ⟨hcore, ?_, ?_, ?_, ?_, ?_⟩
  · rw [hpc]
    trivial
  · rw [hpc]
    exact Nat.zero_le _
  · rw [BottomRead, hpc]
    trivial
  · rw [hfree]
    exact h.free_ge
  · rw [hfree, hpc, Pc.reserved_idle]
    omega

/-- A copy takes what the loop has found. -/
theorem Budget.copyTake_freeSpace {orig : List β} (h : Budget g cap s) (hcap : cap ≤ g.size)
    (hwait : s.pc = .copyWait orig) (hle : i32 orig.length ≤ s.freeSpace) :
    (TxRing.copyTake orig s).freeSpace = s.freeSpace - orig.length ∧
      orig.length ≤ s.freeSpace := by
  have hlt := g.size_lt
  have hfits := h.fits
  have hbudget := h.le_cap
  rw [hwait, Pc.buffer_copyWait] at hfits
  rw [hwait, Pc.reserved_copyWait] at hbudget
  have hlen : i32 (orig.length : Int) = orig.length := i32_of_mem (by omega) (by omega)
  rw [hlen] at hle
  exact ⟨i32_of_mem (by omega) (by omega), hle⟩

end Loops

/-- **Every step keeps the budget**, as long as the copy loop computes no free space
with the record pointer just ahead of the limit, no copy takes the whole gap, and
the zero-copy loop, which counts every free byte, is not entered under a smaller
budget. -/
theorem Budget.moves {s s' : TxState β} {a : Act β} {cap : Nat} (h : Budget g cap s)
    (hcap : g.size ≤ cap + SAFETY_WINDOW) (hfit : (unsent s : Int) + SAFETY_WINDOW ≤ 2147483648)
    (hspace : ∀ n, a = .space n → n ≤ g.extra)
    (hrefresh : a = .tick → ∀ orig, s.pc = .copyWait orig → s.freeSpace < i32 orig.length →
      ¬ JustAhead s)
    (htake : a = .tick → ∀ orig, s.pc = .copyWait orig → i32 orig.length ≤ s.freeSpace →
      unsent s + orig.length < g.size)
    (hwhole : ∀ n, s.pc = .spaceWait n → g.size ≤ cap ∧ g.size < 2147481600)
    (hcapSize : cap ≤ g.size) (hm : Moves g s a s') : Budget g cap s' := by
  have hW : SAFETY_WINDOW = 128 := rfl
  have hlt := g.size_lt
  have hfree := h.free_ge
  have hbudget := h.le_cap
  have hsent := h.core.sent_le
  have hroom := h.core.room
  have hfits := h.fits
  have hbottom := h.bottom
  have hunsent := h.core.unsent_add
  have hkeep := h.core.moves h.window hm
  have hwin' := inWindow_moves h.window hspace hm
  cases hm with
  | wrap hne hend => exact ⟨hkeep hroom, hwin', hfits, hbottom, hfree, hbudget⟩
  | send hne hend =>
      have hle := unsent_sendByte_le g s
      refine ⟨hkeep hroom, hwin', hfits, hbottom, hfree, ?_⟩
      have hsame : (g.sendByte s).freeSpace + (g.sendByte s).pc.reserved =
          s.freeSpace + s.pc.reserved := rfl
      omega
  | copyRefused orig hidle => exact h
  | copyCall orig hidle hlen =>
      rw [hidle] at hroom hbudget
      exact ⟨hkeep hroom, trivial, hlen, trivial, hfree, hbudget⟩
  | copyRefresh orig hwait hlt =>
      have hfull := h.core.unsent_lt
      have hvalue := copyRefresh_freeSpace h.core (hrefresh rfl orig hwait hlt) hfit
      have hun : unsent (g.copyRefresh s) = unsent s := rfl
      have hzero : s.pc.reserved = 0 := by rw [hwait, Pc.reserved_copyWait]
      refine h.recomputed (hkeep hroom) hwin' rfl hzero ?_ ?_ ?_
      · rw [BottomRead, TxRing.copyRefresh, hwait]
        trivial
      · omega
      · omega
  | copyTake orig hwait hle =>
      have hgap := htake rfl orig hwait hle
      obtain ⟨hvalue, henough⟩ := h.copyTake_freeSpace hcapSize hwait hle
      rw [hwait, Pc.buffer_copyWait] at hfits
      have hzero : s.pc.reserved = 0 := by rw [hwait, Pc.reserved_copyWait]
      have hres : (TxRing.copyTake orig s).pc.reserved = orig.length := rfl
      refine h.taken (hkeep ?_) trivial hfits trivial hzero ?_ ?_ rfl
      · omega
      · omega
      · omega
  | copyByte orig k b hcopy hb =>
      rw [hcopy] at hroom hbudget hfits
      exact ⟨hkeep hroom, trivial, hfits, trivial, hfree, hbudget⟩
  | copyPublish orig k hcopy hk =>
      have hres : (g.copyPublish orig s).pc.reserved = 0 := rfl
      refine h.published (hkeep ?_) rfl rfl ?_
      · omega
      · rw [hcopy, Pc.reserved_copying]
        exact unsent_copyPublish_le orig s
  | spaceRefused hidle => exact h
  | spaceCall n hidle hn =>
      rw [hidle] at hroom hbudget
      exact ⟨hkeep hroom, hwin', Nat.zero_le _, rfl, hfree, hbudget⟩
  | spaceRefresh n hwait hlt =>
      obtain ⟨hwhole, -⟩ := hwhole n hwait
      rw [BottomRead, hwait] at hbottom
      have hvalue := spaceRefresh_freeSpace h.core hbottom
      have hfull := h.core.unsent_lt
      have hun : unsent (g.spaceRefresh s) = unsent s := rfl
      have hzero : s.pc.reserved = 0 := by rw [hwait, Pc.reserved_spaceWait]
      refine h.recomputed (hkeep hroom) hwin' rfl hzero h.bottom ?_ ?_
      · omega
      · omega
  | spaceTake n hwait hle =>
      have hn := h.window
      rw [hwait] at hn
      have hzero : s.pc.reserved = 0 := by rw [hwait, Pc.reserved_spaceWait]
      obtain ⟨-, hsize⟩ := hwhole n hwait
      obtain ⟨hvalue, hreserve⟩ := spaceTake_free hsize hn (by omega) hle
      have hres : (TxRing.spaceTake n s).pc.reserved = n := rfl
      refine h.taken (hkeep ?_) hwin' (Nat.zero_le _) trivial hzero ?_ ?_ rfl
      · omega
      · omega
      · omega
  | putByte n bytes b hfill hlen =>
      have hn := h.window
      rw [hfill] at hn hroom hbudget
      have hn' : n ≤ g.extra := hn
      have hmirror := h.core.mirror_eq (i := bytes.length) (by omega)
      rw [TxRing.putByte, hmirror] at hkeep ⊢
      exact ⟨hkeep hroom, hn', Nat.zero_le _, trivial, hfree, hbudget⟩
  | commitRefused m n bytes hfill =>
      refine h.published (hkeep ?_) rfl rfl (Nat.le_add_right _ _)
      rw [Pc.reserved_idle]
      omega
  | commitPublish m n bytes hfill hm =>
      have hpend := h.core.pending_le
      rw [hfill, Pc.pending_filling, Pc.reserved_filling] at hpend
      have hres : (g.commitPublish m bytes s).pc.reserved = 0 := rfl
      refine h.published (hkeep ?_) rfl rfl ?_
      · omega
      · rw [hfill, Pc.reserved_filling]
        exact (unsent_commitPublish_le m bytes s).trans (Nat.add_le_add_left hpend _)

end NacCard.Tx
