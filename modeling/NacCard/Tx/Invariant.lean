import NacCard.Tx.Model

/-!
# What holds of a transmit stream whichever way it is used

* `Moves` and `step_moves` — everything a step can do, guards included; every
  invariant below is a case analysis on it.
* `Core` — the two pointers, one lap apart at most, and the published bytes that
  are still in the ring.  Its field `room` keeps a full ring from looking like an
  empty one.
* `Core.moves` — a step keeps `Core` if it does not reserve more than there is room
  for; this is the only thing the free-space computations have to provide.
-/

namespace NacCard.Tx

open NacCard.Base NacCard.Stream

variable {β : Type} {g : TxRing}

/-! ## Steps -/

/-- Everything a step can do. -/
inductive Moves (g : TxRing) (s : TxState β) : Act β → TxState β → Prop
  | wrap : g.recordPtr s ≠ s.limitPtr → s.record = g.size →
      Moves g s .card { s with record := 0 }
  | send : g.recordPtr s ≠ s.limitPtr → s.record ≠ g.size →
      Moves g s .card (g.sendByte s)
  | copyRefused (orig : List β) : s.pc = .idle → Moves g s (.copy orig) s
  | copyCall (orig : List β) : s.pc = .idle → orig.length ≤ g.size →
      Moves g s (.copy orig) { s with pc := .copyWait orig, buffers := s.buffers ++ [orig] }
  | copyRefresh (orig : List β) : s.pc = .copyWait orig → s.freeSpace < i32 orig.length →
      Moves g s .tick (g.copyRefresh s)
  | copyTake (orig : List β) : s.pc = .copyWait orig → i32 orig.length ≤ s.freeSpace →
      Moves g s .tick (TxRing.copyTake orig s)
  | copyByte (orig : List β) (k : Nat) (b : β) : s.pc = .copying orig k → orig[k]? = some b →
      Moves g s .tick (g.copyByte orig k b s)
  | copyPublish (orig : List β) (k : Nat) : s.pc = .copying orig k → orig.length ≤ k →
      Moves g s .tick (g.copyPublish orig s)
  | spaceRefused : s.pc = .idle → Moves g s (.space 0) s
  | spaceCall (n : Nat) : s.pc = .idle → 0 < n →
      Moves g s (.space n) { s with pc := .spaceWait n, lastBusBottom := s.limitPtr }
  | spaceRefresh (n : Nat) : s.pc = .spaceWait n → s.freeSpace < i32 (i32 n + 2048) →
      Moves g s .tick (g.spaceRefresh s)
  | spaceTake (n : Nat) : s.pc = .spaceWait n → i32 (i32 n + 2048) ≤ s.freeSpace →
      Moves g s .tick (TxRing.spaceTake n s)
  | putByte (n : Nat) (bytes : List β) (b : β) : s.pc = .filling n bytes → bytes.length < n →
      Moves g s (.put b) (g.putByte n bytes b s)
  | commitRefused (m n : Nat) (bytes : List β) : s.pc = .filling n bytes →
      Moves g s (.commit m) { s with pc := .idle }
  | commitPublish (m n : Nat) (bytes : List β) : s.pc = .filling n bytes → m ≤ bytes.length →
      Moves g s (.commit m) (g.commitPublish m bytes s)

theorem cardStep_moves {s s' : TxState β} (h : g.cardStep s = some s') : Moves g s .card s' := by
  unfold TxRing.cardStep at h
  split_ifs at h with hstop hend
  · cases h
    exact .wrap hstop hend
  · cases h
    exact .send hstop hend

theorem tickStep_moves {s s' : TxState β} (h : g.tickStep s = some s') : Moves g s .tick s' := by
  unfold TxRing.tickStep at h
  cases hpc : s.pc with
  | idle => rw [hpc] at h; cases h
  | copyWait orig =>
      rw [hpc] at h
      dsimp only at h
      split_ifs at h with hfree
      · cases h
        exact .copyRefresh orig hpc hfree
      · cases h
        exact .copyTake orig hpc (not_lt.1 hfree)
  | copying orig k =>
      rw [hpc] at h
      dsimp only at h
      cases hb : orig[k]? with
      | none =>
          rw [hb] at h
          cases h
          exact .copyPublish orig k hpc (List.getElem?_eq_none_iff.1 hb)
      | some b =>
          rw [hb] at h
          cases h
          exact .copyByte orig k b hpc hb
  | spaceWait n =>
      rw [hpc] at h
      dsimp only at h
      split_ifs at h with hfree
      · cases h
        exact .spaceRefresh n hpc hfree
      · cases h
        exact .spaceTake n hpc (not_lt.1 hfree)
  | filling n bytes => rw [hpc] at h; cases h

theorem userStep_moves {s s' : TxState β} {a : Act β} (h : g.userStep s a = some s') :
    Moves g s a s' := by
  cases a with
  | card => cases h
  | tick => cases h
  | copy orig =>
      simp only [TxRing.userStep] at h
      split at h
      next hpc =>
        split_ifs at h with hlen
        · cases h
          exact .copyRefused orig hpc
        · cases h
          exact .copyCall orig hpc (not_lt.1 hlen)
      next => cases h
  | space n =>
      simp only [TxRing.userStep] at h
      split at h
      next hpc =>
        split_ifs at h with hn
        · cases h
          subst hn
          exact .spaceRefused hpc
        · cases h
          exact .spaceCall n hpc (Nat.pos_of_ne_zero hn)
      next => cases h
  | put b =>
      simp only [TxRing.userStep] at h
      split at h
      next n bytes hpc =>
        split_ifs at h with hlen
        cases h
        exact .putByte n bytes b hpc hlen
      next => cases h
  | commit m =>
      simp only [TxRing.userStep] at h
      split at h
      next n bytes hpc =>
        split_ifs at h with hm hsize
        · cases h
          exact .commitRefused m n bytes hpc
        · cases h
          exact .commitPublish m n bytes hpc hm
      next => cases h

/-- **Everything a step can do.** -/
theorem step_moves {s s' : TxState β} {a : Act β} (h : g.step s a = some s') : Moves g s a s' := by
  cases a with
  | card => exact cardStep_moves h
  | tick => exact tickStep_moves h
  | copy orig => exact userStep_moves h
  | space n => exact userStep_moves h
  | put b => exact userStep_moves h
  | commit m => exact userStep_moves h

/-! ## The core of the invariant -/

/-- The card is in its lap `sent.length / size` at position `record`, the library's
`offset` is ahead of it by the bytes not yet sent, and these are in the ring,
followed by the bytes of the call under way. -/
structure Core (g : TxRing) (s : TxState β) : Prop where
  lap : ∃ a, s.sent.length = a * g.size + s.record
  record_le : s.record ≤ g.size
  offset_le : s.offset ≤ g.size
  gap : s.record ≤ s.offset ∧ s.committed.length = s.sent.length + (s.offset - s.record) ∨
    s.offset < s.record ∧ s.committed.length + s.record = s.sent.length + s.offset + g.size
  room : s.committed.length + s.pc.reserved < s.sent.length + g.size
  limit : s.limitPtr = u32 (g.phyaddr + s.offset)
  sent_prefix : s.sent <+: s.committed
  holds : Holds g.size s.ring (s.committed ++ s.pc.pending) s.sent.length
  pending_le : s.pc.pending.length ≤ s.pc.reserved
  fault : s.fault = false

/-- The pointer handed out lies in front of an extra window that is long enough. -/
def Pc.InWindow (g : TxRing) : Pc β → Prop
  | .spaceWait n => n ≤ g.extra
  | .filling n _ => n ≤ g.extra
  | _ => True

/-- A fresh stream. -/
theorem Core.fresh {s : TxState β} (h : g.Fresh s) : Core g s := by
  have hpos := g.size_pos
  refine ⟨⟨0, ?_⟩, ?_, ?_, ?_, ?_, ?_, ?_, ?_, ?_, h.fault⟩
  · rw [h.sent, h.record]
    simp
  · rw [h.record]
    exact Nat.zero_le _
  · rw [h.offset]
    exact Nat.zero_le _
  · left
    rw [h.record, h.offset, h.committed, h.sent]
    exact ⟨le_rfl, rfl⟩
  · rw [h.committed, h.sent, h.pc, Pc.reserved_idle, List.length_nil]
    omega
  · rw [h.limitPtr, h.offset, Nat.cast_zero, Int.add_zero]
  · rw [h.sent, h.committed]
  · rw [h.committed, h.sent, h.pc]
    exact Holds.of_length_le le_rfl
  · rw [h.pc]
    exact le_rfl

/-- Register values of different ring positions are different. -/
theorem u32_phyaddr_inj {x y : Nat} (hx : x ≤ g.size) (hy : y ≤ g.size)
    (h : u32 (g.phyaddr + x) = u32 (g.phyaddr + y)) : x = y := by
  have h1 := g.size_lt
  unfold u32 at h
  omega

theorem Core.sent_le {s : TxState β} (h : Core g s) : s.sent.length ≤ s.committed.length :=
  h.sent_prefix.length_le

/-- The record pointer is at the limit exactly when everything has been sent, but
for a card that still has to go from the end to the start. -/
theorem Core.record_ne_offset {s : TxState β} (h : Core g s) (hne : g.recordPtr s ≠ s.limitPtr) :
    s.record ≠ s.offset := by
  intro heq
  apply hne
  rw [TxRing.recordPtr, h.limit, heq]

/-- The slot in which the byte after the committed ones and `i` more goes. -/
theorem Core.slot {s : TxState β} (h : Core g s) (i : Nat) :
    (s.offset + i < g.size → (s.committed.length + i) % g.size = s.offset + i) ∧
      (g.size ≤ s.offset + i → s.offset + i < 2 * g.size →
        (s.committed.length + i) % g.size = s.offset + i - g.size) := by
  obtain ⟨a, ha⟩ := h.lap
  have hrec := h.record_le
  rcases h.gap with ⟨hle, hlen⟩ | ⟨hlt, hlen⟩
  · have hC : s.committed.length + i = a * g.size + (s.offset + i) := by omega
    rw [hC]
    exact ⟨slot_lt, slot_wrap⟩
  · have hC : s.committed.length + i = (a + 1) * g.size + (s.offset + i) := by
      rw [Nat.succ_mul]
      omega
    rw [hC]
    exact ⟨slot_lt, slot_wrap⟩

/-! ## The card keeps it -/

theorem Core.wrap {s : TxState β} (h : Core g s) (hne : g.recordPtr s ≠ s.limitPtr)
    (hend : s.record = g.size) : Core g { s with record := 0 } := by
  obtain ⟨a, ha⟩ := h.lap
  have hoff := h.offset_le
  have hrec := h.record_ne_offset hne
  refine ⟨⟨a + 1, ?_⟩, Nat.zero_le _, h.offset_le, ?_, h.room, h.limit, h.sent_prefix, h.holds,
    h.pending_le, h.fault⟩
  · rw [Nat.succ_mul]
    dsimp only
    omega
  · dsimp only
    rcases h.gap with ⟨hle, hlen⟩ | ⟨hlt, hlen⟩
    · omega
    · left
      omega

theorem Core.send {s : TxState β} (h : Core g s) (hne : g.recordPtr s ≠ s.limitPtr)
    (hend : s.record ≠ g.size) : Core g (g.sendByte s) := by
  obtain ⟨a, ha⟩ := h.lap
  have hoff := h.offset_le
  have hle := h.record_le
  have hrec := h.record_ne_offset hne
  have hend' : s.limitPtr ≠ g.bufEnd ↔ s.offset ≠ g.size := by
    rw [h.limit, TxRing.bufEnd]
    constructor
    · intro hl ho
      exact hl (by rw [ho])
    · intro ho hl
      exact ho (u32_phyaddr_inj hoff le_rfl hl)
  have hlt : s.sent.length < s.committed.length := by
    rcases h.gap with hg | hg <;> omega
  have hslot : s.sent.length % g.size = s.record := by
    rw [ha]
    exact slot_lt (by omega)
  have hbyte : s.committed[s.sent.length]? = some (s.ring s.record) := by
    have hget := h.holds s.sent.length le_rfl (by rw [List.length_append]; omega)
    rwa [hslot, List.getElem?_append_left hlt] at hget
  have hroom := h.room
  refine ⟨?_, ?_, h.offset_le, ?_, ?_, h.limit, prefix_snoc h.sent_prefix hbyte, ?_, h.pending_le,
    h.fault⟩
  · by_cases hwrap : s.record + 1 = g.size ∧ s.limitPtr ≠ g.bufEnd
    · refine ⟨a + 1, ?_⟩
      simp only [TxRing.sendByte, if_pos hwrap, List.length_append, List.length_singleton]
      rw [Nat.succ_mul]
      omega
    · refine ⟨a, ?_⟩
      simp only [TxRing.sendByte, if_neg hwrap, List.length_append, List.length_singleton]
      omega
  · simp only [TxRing.sendByte]
    split_ifs <;> omega
  · simp only [TxRing.sendByte, List.length_append, List.length_singleton]
    simp only [hend']
    split_ifs with hwrap
    · rcases h.gap with hg | hg <;> omega
    · rcases h.gap with hg | hg <;> omega
  · simp only [TxRing.sendByte, List.length_append, List.length_singleton]
    omega
  · simp only [TxRing.sendByte, List.length_append, List.length_singleton]
    exact h.holds.mono (Nat.le_succ _)

/-! ## Writing keeps it -/

/-- A byte written behind the published and the pending ones. -/
theorem Core.write {s : TxState β} (h : Core g s) {pc : Pc β} {b : β} {j : Nat}
    (hj : j = (s.committed.length + s.pc.pending.length) % g.size)
    (hpend : pc.pending = s.pc.pending ++ [b]) (hres : pc.reserved = s.pc.reserved)
    (hlt : s.pc.pending.length < s.pc.reserved) :
    Core g { s with ring := Function.update s.ring j b, pc := pc } := by
  have hroom := h.room
  refine ⟨h.lap, h.record_le, h.offset_le, h.gap, ?_, h.limit, h.sent_prefix, ?_, ?_, h.fault⟩
  · dsimp only
    rw [hres]
    exact h.room
  · dsimp only
    rw [hpend, hj, ← List.length_append, ← List.append_assoc]
    refine h.holds.push ?_ b
    rw [List.length_append]
    omega
  · dsimp only
    rw [hpend, hres, List.length_append, List.length_singleton]
    omega

/-- Publishing a prefix of the pending bytes, with the offset moved accordingly. -/
theorem Core.publish {s s' : TxState β} (h : Core g s) (bytes : List β) (hb : bytes <+: s.pc.pending)
    (hcommitted : s'.committed = s.committed ++ bytes) (hpc : s'.pc = .idle)
    (hoffset : s'.offset = s.offset + bytes.length ∧ s.offset + bytes.length ≤ g.size ∨
      s'.offset + g.size = s.offset + bytes.length ∧ g.size ≤ s.offset + bytes.length)
    (hlimit : s'.limitPtr = u32 (g.phyaddr + s'.offset)) (hrecord : s'.record = s.record)
    (hsent : s'.sent = s.sent) (hring : s'.ring = s.ring) (hfault : s'.fault = s.fault) :
    Core g s' := by
  have hlen : bytes.length ≤ s.pc.pending.length := hb.length_le
  have hroom := h.room
  have hpend := h.pending_le
  have hoff := h.offset_le
  have hrec := h.record_le
  have hrange : s'.offset ≤ g.size := by
    have := h.gap
    omega
  refine ⟨?_, ?_, hrange, ?_, ?_, hlimit, ?_, ?_, ?_, ?_⟩
  · rw [hsent, hrecord]
    exact h.lap
  · rw [hrecord]
    exact hrec
  · rw [hrecord, hcommitted, hsent, List.length_append]
    rcases h.gap with hg | hg <;> rcases hoffset with ho | ho <;> omega
  · rw [hcommitted, hsent, hpc, List.length_append, Pc.reserved_idle]
    omega
  · rw [hsent, hcommitted]
    exact h.sent_prefix.trans (List.prefix_append _ _)
  · rw [hring, hcommitted, hpc, hsent, Pc.pending_idle, List.append_nil]
    exact h.holds.of_prefix ((List.prefix_append_right_inj _).2 hb)
  · rw [hpc]
    exact le_rfl
  · rw [hfault]
    exact h.fault

/-- Steps that touch neither the ring nor the pointers, and end with nothing pending. -/
theorem Core.change {s s' : TxState β} (h : Core g s) (hpend : s'.pc.pending = [])
    (hroom : s.committed.length + s'.pc.reserved < s.sent.length + g.size)
    (hoffset : s'.offset = s.offset) (hlimit : s'.limitPtr = s.limitPtr)
    (hrecord : s'.record = s.record) (hring : s'.ring = s.ring) (hsent : s'.sent = s.sent)
    (hcommitted : s'.committed = s.committed) (hfault : s'.fault = s.fault) : Core g s' := by
  refine ⟨?_, ?_, ?_, ?_, ?_, ?_, ?_, ?_, ?_, ?_⟩
  · rw [hsent, hrecord]
    exact h.lap
  · rw [hrecord]
    exact h.record_le
  · rw [hoffset]
    exact h.offset_le
  · rw [hrecord, hoffset, hcommitted, hsent]
    exact h.gap
  · rw [hcommitted, hsent]
    exact hroom
  · rw [hlimit, hoffset]
    exact h.limit
  · rw [hsent, hcommitted]
    exact h.sent_prefix
  · rw [hring, hcommitted, hsent, hpend, List.append_nil]
    exact h.holds.of_prefix (List.prefix_append _ _)
  · rw [hpend]
    exact Nat.zero_le _
  · rw [hfault]
    exact h.fault

/-! ## Where bytes and offsets go -/

theorem Core.copySlot_eq {s : TxState β} (h : Core g s) {written k : Nat} (hk : k < written)
    (hw : written ≤ g.size) :
    g.copySlot s.offset written k = (s.committed.length + k) % g.size := by
  have hoff := h.offset_le
  have hsize := g.size_lt
  obtain ⟨hin, hwrap⟩ := h.slot k
  have hrem : i32 ((g.size : Int) - s.offset) = g.size - s.offset :=
    i32_of_mem (by omega) (by omega)
  unfold TxRing.copySlot
  rw [hrem]
  dsimp only
  split_ifs with h1 h2
  · rw [hin (by omega)]
  · rw [hin (by omega)]
  · rw [hwrap (by omega) (by omega)]
    omega

theorem Core.mirror_eq {s : TxState β} (h : Core g s) {i : Nat} (hi : i < g.extra) :
    g.mirror (s.offset + i) = some ((s.committed.length + i) % g.size) := by
  have hoff := h.offset_le
  have hextra := g.extra_le
  obtain ⟨hin, hwrap⟩ := h.slot i
  unfold TxRing.mirror
  split_ifs with h1 h2
  · rw [hin h1]
  · rw [hwrap (by omega) (by omega)]
  · omega

theorem copyOffset_cases {offset n : Nat} (ho : offset ≤ g.size) (hn : n ≤ g.size) :
    g.copyOffset offset n = offset + n ∧ offset + n < g.size ∨
      g.copyOffset offset n + g.size = offset + n ∧ g.size ≤ offset + n := by
  have hsize := g.size_lt
  have hsum : u32 ((offset : Int) + n) = offset + n := u32_add_of_lt (by omega)
  unfold TxRing.copyOffset
  rw [hsum]
  dsimp only
  split_ifs with h <;> omega

theorem commitOffset_cases {offset n : Nat} (ho : offset ≤ g.size) (hn : n ≤ g.size) :
    g.commitOffset offset n = offset + n ∧ offset + n ≤ g.size ∨
      g.commitOffset offset n + g.size = offset + n ∧ g.size < offset + n := by
  have hsize := g.size_lt
  have hsum : u32 ((offset : Int) + n) = offset + n := u32_add_of_lt (by omega)
  unfold TxRing.commitOffset
  rw [hsum]
  dsimp only
  split_ifs with h <;> omega

/-! ## Every step keeps it -/

/-- **Every step keeps the core**, if what it reserves fits behind the unsent bytes. -/
theorem Core.moves {s s' : TxState β} {a : Act β} (h : Core g s) (hwin : s.pc.InWindow g)
    (hm : Moves g s a s') (htake : s.committed.length + s'.pc.reserved < s.sent.length + g.size) :
    Core g s' := by
  have hroom := h.room
  have hsent := h.sent_le
  cases hm with
  | wrap hne hend => exact h.wrap hne hend
  | send hne hend => exact h.send hne hend
  | copyRefused orig hpc => exact h
  | copyCall orig hpc hlen => exact h.change rfl htake rfl rfl rfl rfl rfl rfl rfl
  | copyRefresh orig hpc hfree =>
      refine h.change ?_ htake rfl rfl rfl rfl rfl rfl rfl
      rw [TxRing.copyRefresh, hpc, Pc.pending_copyWait]
  | copyTake orig hpc hfree => exact h.change rfl htake rfl rfl rfl rfl rfl rfl rfl
  | copyByte orig k b hpc hb =>
      have hk : k < orig.length := (List.getElem?_eq_some_iff.1 hb).1
      rw [hpc, Pc.reserved_copying] at hroom
      have hpend : s.pc.pending.length = k := by
        rw [hpc, Pc.pending_copying, List.length_take]
        omega
      refine h.write ?_ ?_ ?_ ?_
      · rw [hpend]
        exact h.copySlot_eq hk (by omega)
      · rw [hpc, Pc.pending_copying, Pc.pending_copying, List.take_add_one, hb]
        rfl
      · rw [hpc, Pc.reserved_copying, Pc.reserved_copying]
      · rw [hpend, hpc, Pc.reserved_copying]
        exact hk
  | copyPublish orig k hpc hk =>
      rw [hpc, Pc.reserved_copying] at hroom
      have hpend : s.pc.pending = orig := by rw [hpc, Pc.pending_copying, List.take_of_length_le hk]
      refine h.publish orig ?_ rfl rfl ?_ rfl rfl rfl rfl rfl
      · rw [hpend]
      · rcases @copyOffset_cases g s.offset orig.length h.offset_le (by omega) with hc | hc
        · exact .inl ⟨hc.1, hc.2.le⟩
        · exact .inr hc
  | spaceRefused hpc => exact h
  | spaceCall n hpc hn => exact h.change rfl htake rfl rfl rfl rfl rfl rfl rfl
  | spaceRefresh n hpc hfree =>
      refine h.change ?_ htake rfl rfl rfl rfl rfl rfl rfl
      rw [TxRing.spaceRefresh, hpc, Pc.pending_spaceWait]
  | spaceTake n hpc hfree => exact h.change rfl htake rfl rfl rfl rfl rfl rfl rfl
  | putByte n bytes b hpc hlen =>
      have hn : n ≤ g.extra := by rwa [hpc] at hwin
      rw [TxRing.putByte, h.mirror_eq (by omega)]
      refine h.write ?_ ?_ ?_ ?_
      · rw [hpc, Pc.pending_filling]
      · rw [hpc, Pc.pending_filling, Pc.pending_filling]
      · rw [hpc, Pc.reserved_filling, Pc.reserved_filling]
      · rw [hpc, Pc.pending_filling, Pc.reserved_filling]
        exact hlen
  | commitRefused m n bytes hpc => exact h.change rfl htake rfl rfl rfl rfl rfl rfl rfl
  | commitPublish m n bytes hpc hm =>
      have hpendle := h.pending_le
      rw [hpc, Pc.reserved_filling] at hroom
      rw [hpc, Pc.pending_filling, Pc.reserved_filling] at hpendle
      have hlen : (bytes.take m).length = m := by
        rw [List.length_take]
        omega
      refine h.publish (bytes.take m) ?_ rfl rfl ?_ rfl rfl rfl rfl rfl
      · rw [hpc, Pc.pending_filling]
        exact List.take_prefix m bytes
      · rw [hlen]
        rcases @commitOffset_cases g s.offset m h.offset_le (by omega) with hc | hc
        · exact .inl hc
        · exact .inr ⟨hc.1, hc.2.le⟩

/-- The pointer handed out stays in front of a long enough window. -/
theorem inWindow_moves {s s' : TxState β} {a : Act β} (hwin : s.pc.InWindow g)
    (hspace : ∀ n, a = .space n → n ≤ g.extra) (hm : Moves g s a s') : s'.pc.InWindow g := by
  cases hm with
  | spaceCall n hpc hn => exact hspace n rfl
  | spaceTake n hpc hfree =>
      rw [hpc] at hwin
      exact hwin
  | putByte n bytes b hpc hlen =>
      rw [hpc] at hwin
      unfold TxRing.putByte
      split
      · exact hwin
      · rw [hpc]
        exact hwin
  | spaceRefresh n hpc hfree => exact hwin
  | copyRefresh orig hpc hfree => exact hwin
  | wrap hne hend => exact hwin
  | send hne hend => exact hwin
  | copyRefused orig hpc => exact hwin
  | spaceRefused hpc => exact hwin
  | copyCall orig hpc hlen => trivial
  | copyTake orig hpc hfree => trivial
  | copyByte orig k b hpc hb => trivial
  | copyPublish orig k hpc hk => trivial
  | commitRefused m n bytes hpc => trivial
  | commitPublish m n bytes hpc hm => trivial

end NacCard.Tx
