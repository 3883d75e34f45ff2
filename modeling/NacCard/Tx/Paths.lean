import NacCard.Tx.Mixed

/-!
# The two paths compared

The same bytes through `nac_tx_stream_copy_bytes`, and through `nac_tx_get_stream_space` and
`nac_tx_stream_commit_bytes`, on a ring that is mirrored whole.

* `copyPath`, `spacePath` — the calls; the card and the wait loops go on in between.
* `written` — the ring after some of the bytes.
* `paths_agree_iff` — both leave the same ring; the offset and the limit register are the same if
  and only if the bytes do not end at the end of the ring.
-/

namespace NacCard.Tx

open NacCard.Base NacCard.Stream

variable {β : Type} {g : TxRing}

/-! ## The calls -/

/-- Not a call: the card, and the call under way. -/
def Act.Inner (a : Act β) : Prop := a = .card ∨ a = .tick

/-- The buffer by `nac_tx_stream_copy_bytes`. -/
def copyPath (orig : List β) : List (Act β) := [.copy orig]

/-- The buffer by `nac_tx_get_stream_space`, byte by byte, and a commit of all of it. -/
def spacePath (orig : List β) : List (Act β) :=
  .space orig.length :: (orig.map .put ++ [.commit orig.length])

/-- All calls made and returned. -/
def Returns (g : TxRing) (calls : List (Act β)) (s s' : TxState β) : Prop :=
  (g.machine β).Plays Act.Inner calls s s' ∧ s'.pc = .idle

/-- The wait loops find enough, before or after a turn. -/
structure EnoughForBoth (g : TxRing) (n : Nat) (s : TxState β) : Prop where
  copy : (n : Int) ≤ s.freeSpace ∨ (n : Int) ≤ (g.copyRefresh s).freeSpace
  space : (n : Int) + 2048 ≤ s.freeSpace ∨
    (n : Int) + 2048 ≤ (g.spaceRefresh { s with lastBusBottom := s.limitPtr }).freeSpace

/-! ## The ring -/

/-- The ring after the first `k` bytes have been written behind `offset`. -/
def written (g : TxRing) (offset : Nat) (orig : List β) (ring : Nat → β) : Nat → Nat → β
  | 0 => ring
  | k + 1 =>
      match orig[k]? with
      | some b => Function.update (written g offset orig ring k) ((offset + k) % g.size) b
      | none => written g offset orig ring k

theorem written_succ {offset k : Nat} {orig : List β} {ring : Nat → β} {b : β}
    (hb : orig[k]? = some b) : written g offset orig ring (k + 1) =
      Function.update (written g offset orig ring k) ((offset + k) % g.size) b := by
  rw [written, hb]

section Slots

variable {offset n k : Nat}

theorem copySlot_eq_mod (ho : offset < g.size) (hn : n ≤ g.size) (hk : k < n) :
    g.copySlot offset n k = (offset + k) % g.size := by
  have hsize := g.size_lt
  have hrem : i32 ((g.size : Int) - offset) = g.size - offset := i32_of_mem (by omega) (by omega)
  unfold TxRing.copySlot
  rw [hrem]
  dsimp only
  split_ifs with hone hfirst
  · rw [Nat.mod_eq_of_lt (by omega)]
  · rw [Nat.mod_eq_of_lt (by omega)]
  · rw [Nat.mod_eq_sub_mod (by omega), Nat.mod_eq_of_lt (by omega)]
    omega

theorem mirror_eq_mod (hextra : g.extra = g.size) (ho : offset < g.size) (hk : k < g.size) :
    g.mirror (offset + k) = some ((offset + k) % g.size) := by
  unfold TxRing.mirror
  split_ifs with hone htwo
  · rw [Nat.mod_eq_of_lt hone]
  · rw [Nat.mod_eq_sub_mod (by omega), Nat.mod_eq_of_lt (by omega)]
  · omega

end Slots

/-! ## Where a run of the copy path stands -/

/-- What the steps of a call do not change before it is over. -/
structure Before (s t : TxState β) : Prop where
  offset : t.offset = s.offset
  limitPtr : t.limitPtr = s.limitPtr

/-- The card sends, and changes nothing else. -/
structure Sends (t t' : TxState β) : Prop where
  pc : t'.pc = t.pc
  offset : t'.offset = t.offset
  limitPtr : t'.limitPtr = t.limitPtr
  ring : t'.ring = t.ring

theorem sends_of_card {t t' : TxState β} (h : g.cardStep t = some t') : Sends t t' := by
  cases cardStep_moves h with
  | wrap hne hend => exact ⟨rfl, rfl, rfl, rfl⟩
  | send hne hend => exact ⟨rfl, rfl, rfl, rfl⟩

theorem Before.sends {s t t' : TxState β} (h : Before s t) (hs : Sends t t') : Before s t' :=
  ⟨hs.offset.trans h.offset, hs.limitPtr.trans h.limitPtr⟩

/-- The call is over: the bytes are in the ring, and the offset is published. -/
structure Published (g : TxRing) (s : TxState β) (orig : List β) (last : Nat) (t : TxState β) :
    Prop where
  pc : t.pc = .idle
  ring : t.ring = written g s.offset orig s.ring orig.length
  offset : t.offset = last
  limitPtr : t.limitPtr = u32 (g.phyaddr + last)

theorem Published.sends {s t t' : TxState β} {orig : List β} {last : Nat}
    (h : Published g s orig last t) (hs : Sends t t') : Published g s orig last t' :=
  ⟨hs.pc.trans h.pc, hs.ring.trans h.ring, hs.offset.trans h.offset, hs.limitPtr.trans h.limitPtr⟩

/-- Before the call, in the wait loop, with `k` bytes copied, and afterwards. -/
inductive CopyStage (g : TxRing) (s : TxState β) (orig : List β) : List (Act β) → TxState β → Prop
  | idle {t : TxState β} : t.pc = .idle → Before s t → t.ring = s.ring →
      CopyStage g s orig (copyPath orig) t
  | wait {t : TxState β} : t.pc = .copyWait orig → Before s t → t.ring = s.ring →
      CopyStage g s orig [] t
  | copying {t : TxState β} (k : Nat) : k ≤ orig.length → t.pc = .copying orig k → Before s t →
      t.ring = written g s.offset orig s.ring k → CopyStage g s orig [] t
  | published {t : TxState β} : Published g s orig (g.copyOffset s.offset orig.length) t →
      CopyStage g s orig [] t

section CopyStage

variable {s t t' : TxState β} {orig : List β} {calls : List (Act β)}

theorem CopyStage.sends (h : CopyStage g s orig calls t) (hs : Sends t t') :
    CopyStage g s orig calls t' := by
  cases h with
  | idle hpc hbefore hring => exact .idle (hs.pc.trans hpc) (hbefore.sends hs) (hs.ring.trans hring)
  | wait hpc hbefore hring => exact .wait (hs.pc.trans hpc) (hbefore.sends hs) (hs.ring.trans hring)
  | copying k hk hpc hbefore hring =>
      exact .copying k hk (hs.pc.trans hpc) (hbefore.sends hs) (hs.ring.trans hring)
  | published hend => exact .published (hend.sends hs)

/-- The call goes on. -/
theorem CopyStage.tick (ho : s.offset < g.size) (hlen : orig.length ≤ g.size)
    (h : CopyStage g s orig calls t) (hstep : g.tickStep t = some t') :
    CopyStage g s orig calls t' := by
  unfold TxRing.tickStep at hstep
  cases h with
  | idle hpc hbefore hring =>
      rw [hpc] at hstep
      cases hstep
  | wait hpc hbefore hring =>
      rw [hpc] at hstep
      dsimp only at hstep
      split_ifs at hstep
      · cases hstep
        exact .wait hpc ⟨hbefore.offset, hbefore.limitPtr⟩ hring
      · cases hstep
        exact .copying 0 (Nat.zero_le _) rfl ⟨hbefore.offset, hbefore.limitPtr⟩ hring
  | copying k hk hpc hbefore hring =>
      rw [hpc] at hstep
      dsimp only at hstep
      cases hb : orig[k]? with
      | some b =>
          rw [hb] at hstep
          cases hstep
          have hlt : k < orig.length := (List.getElem?_eq_some_iff.1 hb).1
          refine .copying (k + 1) hlt rfl ⟨hbefore.offset, hbefore.limitPtr⟩ ?_
          rw [TxRing.copyByte, hbefore.offset, copySlot_eq_mod ho hlen hlt, hring, written_succ hb]
      | none =>
          rw [hb] at hstep
          cases hstep
          have hge := List.getElem?_eq_none_iff.1 hb
          obtain rfl : k = orig.length := le_antisymm hk hge
          refine .published ⟨rfl, hring, ?_, ?_⟩
          · rw [TxRing.copyPublish, hbefore.offset]
          · rw [TxRing.copyPublish, hbefore.offset]
  | published hend =>
      rw [hend.pc] at hstep
      cases hstep

theorem CopyStage.call (hlen : orig.length ≤ g.size) {a : Act β}
    (h : CopyStage g s orig (a :: calls) t) (hstep : g.step t a = some t') :
    CopyStage g s orig calls t' := by
  generalize hcalls : a :: calls = all at h
  cases h with
  | idle hpc hbefore hring =>
      cases hcalls
      simp only [TxRing.step, TxRing.userStep, hpc, if_neg (not_lt.2 hlen)] at hstep
      cases hstep
      exact .wait rfl ⟨hbefore.offset, hbefore.limitPtr⟩ hring
  | wait => cases hcalls
  | copying => cases hcalls
  | published => cases hcalls

/-- **What the copy path leaves.** -/
theorem copyPath_published (ho : s.offset < g.size) (hlen : orig.length ≤ g.size) (hpc : s.pc = .idle)
    (h : Returns g (copyPath orig) s t) : Published g s orig (g.copyOffset s.offset orig.length) t := by
  have hstage : CopyStage g s orig [] t := by
    refine h.1.invariant ?_ (fun a calls t t' => CopyStage.call hlen) (.idle hpc ⟨rfl, rfl⟩ rfl)
    rintro calls t a t' h (rfl | rfl) hstep
    · exact h.sends (sends_of_card hstep)
    · exact h.tick ho hlen hstep
  have hidle := h.2
  generalize hcalls : ([] : List (Act β)) = calls at hstage
  cases hstage with
  | idle => cases hcalls
  | wait hpc => cases hpc.symm.trans hidle
  | copying k hk hpc => cases hpc.symm.trans hidle
  | published hend => exact hend

end CopyStage

/-! ## Where a run of the space path stands -/

/-- The calls behind `nac_tx_get_stream_space`, with `k` bytes written. -/
def fillPath (orig : List β) (k : Nat) : List (Act β) :=
  (orig.drop k).map .put ++ [.commit orig.length]

/-- The calls that are still to come, and what holds before them. -/
inductive SpaceStage (g : TxRing) (s : TxState β) (orig : List β) :
    List (Act β) → TxState β → Prop
  | idle {t : TxState β} : t.pc = .idle → Before s t → t.ring = s.ring →
      SpaceStage g s orig (.space orig.length :: fillPath orig 0) t
  | wait {t : TxState β} : t.pc = .spaceWait orig.length → Before s t → t.ring = s.ring →
      SpaceStage g s orig (fillPath orig 0) t
  | filling {t : TxState β} (k : Nat) : k ≤ orig.length →
      t.pc = .filling orig.length (orig.take k) → Before s t →
      t.ring = written g s.offset orig s.ring k → SpaceStage g s orig (fillPath orig k) t
  | published {t : TxState β} : Published g s orig (g.commitOffset s.offset orig.length) t →
      SpaceStage g s orig [] t

section SpaceStage

variable {s t t' : TxState β} {orig : List β} {calls : List (Act β)} {k : Nat}

theorem fillPath_of_lt {b : β} (hb : orig[k]? = some b) :
    fillPath orig k = .put b :: fillPath orig (k + 1) := by
  obtain ⟨hlt, rfl⟩ := List.getElem?_eq_some_iff.1 hb
  rw [fillPath, List.drop_eq_getElem_cons hlt]
  rfl

theorem fillPath_length : fillPath orig orig.length = [.commit orig.length] := by
  rw [fillPath, List.drop_length]
  rfl

theorem fillPath_ne_nil : fillPath orig k ≠ [] := List.append_ne_nil_of_right_ne_nil _ (List.cons_ne_nil _ _)

theorem SpaceStage.sends (h : SpaceStage g s orig calls t) (hs : Sends t t') :
    SpaceStage g s orig calls t' := by
  cases h with
  | idle hpc hbefore hring => exact .idle (hs.pc.trans hpc) (hbefore.sends hs) (hs.ring.trans hring)
  | wait hpc hbefore hring => exact .wait (hs.pc.trans hpc) (hbefore.sends hs) (hs.ring.trans hring)
  | filling k hk hpc hbefore hring =>
      exact .filling k hk (hs.pc.trans hpc) (hbefore.sends hs) (hs.ring.trans hring)
  | published hend => exact .published (hend.sends hs)

theorem SpaceStage.tick (h : SpaceStage g s orig calls t) (hstep : g.tickStep t = some t') :
    SpaceStage g s orig calls t' := by
  unfold TxRing.tickStep at hstep
  cases h with
  | idle hpc hbefore hring =>
      rw [hpc] at hstep
      cases hstep
  | wait hpc hbefore hring =>
      rw [hpc] at hstep
      dsimp only at hstep
      split_ifs at hstep
      · cases hstep
        exact .wait hpc ⟨hbefore.offset, hbefore.limitPtr⟩ hring
      · cases hstep
        exact .filling 0 (Nat.zero_le _) rfl ⟨hbefore.offset, hbefore.limitPtr⟩ hring
  | filling k hk hpc hbefore hring =>
      rw [hpc] at hstep
      cases hstep
  | published hend =>
      rw [hend.pc] at hstep
      cases hstep

/-- A byte is written, or the bytes are committed. -/
theorem SpaceStage.fill (hextra : g.extra = g.size) (ho : s.offset < g.size)
    (hlen : orig.length ≤ g.size) {a : Act β} (hk : k ≤ orig.length)
    (hcalls : fillPath orig k = a :: calls) (hpc : t.pc = .filling orig.length (orig.take k))
    (hbefore : Before s t) (hring : t.ring = written g s.offset orig s.ring k)
    (hstep : g.step t a = some t') : SpaceStage g s orig calls t' := by
  have htake : (orig.take k).length = k := by
    rw [List.length_take]
    omega
  cases hb : orig[k]? with
  | some b =>
      rw [fillPath_of_lt hb] at hcalls
      cases hcalls
      have hlt : k < orig.length := (List.getElem?_eq_some_iff.1 hb).1
      have hslot : g.mirror (t.offset + k) = some ((s.offset + k) % g.size) := by
        rw [hbefore.offset, mirror_eq_mod hextra ho (by omega)]
      simp only [TxRing.step, TxRing.userStep, hpc, htake, if_pos hlt] at hstep
      cases hstep
      rw [TxRing.putByte, htake, hslot]
      refine .filling (k + 1) hlt ?_ ⟨hbefore.offset, hbefore.limitPtr⟩ ?_
      · rw [List.take_add_one, hb]
        rfl
      · rw [written_succ hb, hring]
  | none =>
      have hge := List.getElem?_eq_none_iff.1 hb
      obtain rfl : k = orig.length := le_antisymm hk hge
      rw [fillPath_length] at hcalls
      cases hcalls
      simp only [TxRing.step, TxRing.userStep, hpc, htake, if_pos le_rfl,
        if_neg (not_lt.2 hlen)] at hstep
      cases hstep
      refine .published ⟨rfl, hring, ?_, ?_⟩
      · rw [TxRing.commitPublish, hbefore.offset]
      · rw [TxRing.commitPublish, hbefore.offset]

theorem SpaceStage.call (hextra : g.extra = g.size) (ho : s.offset < g.size)
    (hpos : 0 < orig.length) (hlen : orig.length ≤ g.size) {a : Act β}
    (h : SpaceStage g s orig (a :: calls) t) (hstep : g.step t a = some t') :
    SpaceStage g s orig calls t' := by
  generalize hcalls : a :: calls = all at h
  cases h with
  | idle hpc hbefore hring =>
      cases hcalls
      simp only [TxRing.step, TxRing.userStep, hpc, if_neg hpos.ne'] at hstep
      cases hstep
      exact .wait rfl ⟨hbefore.offset, hbefore.limitPtr⟩ hring
  | wait hpc hbefore hring =>
      -- a byte can be written only once the pointer has been returned
      obtain ⟨b, hb⟩ : ∃ b, orig[0]? = some b := ⟨_, List.getElem?_eq_getElem hpos⟩
      rw [fillPath_of_lt hb] at hcalls
      cases hcalls
      simp only [TxRing.step, TxRing.userStep, hpc] at hstep
      cases hstep
  | filling k hk hpc hbefore hring => exact .fill hextra ho hlen hk hcalls.symm hpc hbefore hring hstep
  | published => cases hcalls

/-- **What the space path leaves.** -/
theorem spacePath_published (hextra : g.extra = g.size) (ho : s.offset < g.size)
    (hpos : 0 < orig.length) (hlen : orig.length ≤ g.size) (hpc : s.pc = .idle)
    (h : Returns g (spacePath orig) s t) :
    Published g s orig (g.commitOffset s.offset orig.length) t := by
  have hstage : SpaceStage g s orig [] t := by
    refine h.1.invariant ?_ (fun a calls t t' => SpaceStage.call hextra ho hpos hlen)
      (.idle hpc ⟨rfl, rfl⟩ rfl)
    rintro calls t a t' h (rfl | rfl) hstep
    · exact h.sends (sends_of_card hstep)
    · exact h.tick hstep
  generalize hcalls : ([] : List (Act β)) = calls at hstage
  cases hstage with
  | idle => cases hcalls
  | wait => exact absurd hcalls.symm fillPath_ne_nil
  | filling => exact absurd hcalls.symm fillPath_ne_nil
  | published hend => exact hend

end SpaceStage

/-! ## Runs that return -/

section Runs

variable {s : TxState β} {orig : List β} {n k : Nat}

/-- Both loops compare with no more than was asked for and the reserve. -/
theorem need_le : i32 (i32 (n : Int) + 2048) ≤ (n : Int) + 2048 := by
  have hone : i32 (n : Int) ≤ n := i32_le (by omega)
  have hlow := le_i32 (n : Int)
  have htwo := @i32_le (i32 (n : Int) + 2048) (by omega)
  omega

/-- A turn of the copy loop, or the step behind it. -/
theorem copyWait_tick (hpc : s.pc = .copyWait orig) : (g.machine β).step s .tick =
    some (if s.freeSpace < i32 orig.length then g.copyRefresh s else TxRing.copyTake orig s) := by
  show g.tickStep s = _
  rw [TxRing.tickStep, hpc]
  dsimp only
  split_ifs <;> rfl

/-- A turn of the space loop, or the step behind it. -/
theorem spaceWait_tick (hpc : s.pc = .spaceWait n) : (g.machine β).step s .tick =
    some (if s.freeSpace < i32 (i32 n + 2048) then g.spaceRefresh s else TxRing.spaceTake n s) := by
  show g.tickStep s = _
  rw [TxRing.tickStep, hpc]
  dsimp only
  split_ifs <;> rfl

/-- The copying of a call, undisturbed. -/
theorem plays_copying {m : Nat} (hpc : s.pc = .copying orig k) (hm : k + m = orig.length) :
    ∃ s', Returns g [] s s' := by
  induction m generalizing s k with
  | zero =>
      have hnone : orig[k]? = none := List.getElem?_eq_none_iff.2 (by omega)
      refine ⟨g.copyPublish orig s, .inner (.inr rfl) ?_ (.done _), rfl⟩
      show g.tickStep s = _
      rw [TxRing.tickStep, hpc]
      dsimp only
      rw [hnone]
  | succ m ih =>
      obtain ⟨b, hb⟩ : ∃ b, orig[k]? = some b := ⟨_, List.getElem?_eq_getElem (by omega)⟩
      obtain ⟨s', hplays, hidle⟩ := @ih (g.copyByte orig k b s) (k + 1) rfl (by omega)
      refine ⟨s', .inner (.inr rfl) ?_ hplays, hidle⟩
      show g.tickStep s = _
      rw [TxRing.tickStep, hpc]
      dsimp only
      rw [hb]

theorem plays_copyWait (hpc : s.pc = .copyWait orig) (hfree : (orig.length : Int) ≤ s.freeSpace) :
    ∃ s', Returns g [] s s' := by
  obtain ⟨s', hplays, hidle⟩ := @plays_copying β g (TxRing.copyTake orig s) orig 0 _ rfl (Nat.zero_add _)
  refine ⟨s', .inner (.inr rfl) ?_ hplays, hidle⟩
  rw [copyWait_tick hpc, if_neg (not_lt.2 ((i32_le (by omega)).trans hfree))]

theorem returns_copyPath (hpc : s.pc = .idle) (hlen : orig.length ≤ g.size)
    (hfree : (orig.length : Int) ≤ s.freeSpace ∨ (orig.length : Int) ≤ (g.copyRefresh s).freeSpace) :
    ∃ s', Returns g (copyPath orig) s s' := by
  have hcall : g.step s (.copy orig)
      = some { s with pc := .copyWait orig, buffers := s.buffers ++ [orig] } := by
    simp only [TxRing.step, TxRing.userStep, hpc, if_neg (not_lt.2 hlen)]
  suffices hwait : ∃ s', Returns g []
      { s with pc := .copyWait orig, buffers := s.buffers ++ [orig] } s' by
    obtain ⟨s', hplays, hidle⟩ := hwait
    exact ⟨s', .call hcall hplays, hidle⟩
  by_cases hturn : s.freeSpace < i32 orig.length
  · rcases hfree with hfree | hfree
    · exact plays_copyWait rfl hfree
    · obtain ⟨s', hplays, hidle⟩ := @plays_copyWait β g
        (g.copyRefresh { s with pc := .copyWait orig, buffers := s.buffers ++ [orig] }) orig rfl hfree
      refine ⟨s', .inner (.inr rfl) ?_ hplays, hidle⟩
      exact (copyWait_tick rfl).trans (congrArg some (if_pos hturn))
  · obtain ⟨s', hplays, hidle⟩ := @plays_copying β g
      (TxRing.copyTake orig { s with pc := .copyWait orig, buffers := s.buffers ++ [orig] })
      orig 0 _ rfl (Nat.zero_add _)
    refine ⟨s', .inner (.inr rfl) ?_ hplays, hidle⟩
    exact (copyWait_tick rfl).trans (congrArg some (if_neg hturn))

/-- The user writes the bytes and commits them. -/
theorem plays_filling (hextra : g.extra = g.size) (hlen : orig.length ≤ g.size) {m : Nat}
    (ho : s.offset < g.size) (hpc : s.pc = .filling orig.length (orig.take k))
    (hm : k + m = orig.length) : ∃ s', Returns g (fillPath orig k) s s' := by
  have htake : (orig.take k).length = k := by
    rw [List.length_take]
    omega
  induction m generalizing s k with
  | zero =>
      obtain rfl : k = orig.length := hm
      refine ⟨g.commitPublish orig.length (orig.take orig.length) s, ?_, rfl⟩
      rw [fillPath_length]
      refine .call ?_ (.done _)
      show g.step s (.commit orig.length) = _
      simp only [TxRing.step, TxRing.userStep, hpc, htake, if_pos le_rfl, if_neg (not_lt.2 hlen)]
  | succ m ih =>
      have hlt : k < orig.length := by omega
      obtain ⟨b, hb⟩ : ∃ b, orig[k]? = some b := ⟨_, List.getElem?_eq_getElem hlt⟩
      have hslot : g.mirror (s.offset + k) = some ((s.offset + k) % g.size) :=
        mirror_eq_mod hextra ho (by omega)
      have hput : g.step s (.put b) = some { s with
          ring := Function.update s.ring ((s.offset + k) % g.size) b
          pc := .filling orig.length (orig.take k ++ [b]) } := by
        simp only [TxRing.step, TxRing.userStep, hpc, htake, if_pos hlt]
        rw [TxRing.putByte, htake, hslot]
      have hsnoc : orig.take k ++ [b] = orig.take (k + 1) := by
        rw [List.take_add_one, hb]
        rfl
      rw [hsnoc] at hput
      obtain ⟨s', hplays, hidle⟩ := @ih { s with
          ring := Function.update s.ring ((s.offset + k) % g.size) b
          pc := .filling orig.length (orig.take (k + 1)) } (k + 1) ho rfl (by omega)
        (by rw [List.length_take]; omega)
      rw [fillPath_of_lt hb]
      exact ⟨s', .call hput hplays, hidle⟩

theorem plays_spaceWait (hextra : g.extra = g.size) (hlen : orig.length ≤ g.size)
    (ho : s.offset < g.size) (hpc : s.pc = .spaceWait orig.length)
    (hfree : i32 (i32 (orig.length : Int) + 2048) ≤ s.freeSpace) :
    ∃ s', Returns g (fillPath orig 0) s s' := by
  obtain ⟨s', hplays, hidle⟩ := @plays_filling β g (TxRing.spaceTake orig.length s) orig 0 hextra hlen
    _ ho rfl (Nat.zero_add _)
  refine ⟨s', .inner (.inr rfl) ?_ hplays, hidle⟩
  rw [spaceWait_tick hpc, if_neg (not_lt.2 hfree)]

theorem returns_spacePath (hextra : g.extra = g.size) (ho : s.offset < g.size) (hpc : s.pc = .idle)
    (hpos : 0 < orig.length) (hlen : orig.length ≤ g.size)
    (hfree : (orig.length : Int) + 2048 ≤ s.freeSpace ∨ (orig.length : Int) + 2048 ≤
      (g.spaceRefresh { s with lastBusBottom := s.limitPtr }).freeSpace) :
    ∃ s', Returns g (spacePath orig) s s' := by
  have hcall : g.step s (.space orig.length)
      = some { s with pc := .spaceWait orig.length, lastBusBottom := s.limitPtr } := by
    simp only [TxRing.step, TxRing.userStep, hpc, if_neg hpos.ne']
  suffices hwait : ∃ s', Returns g (fillPath orig 0)
      { s with pc := .spaceWait orig.length, lastBusBottom := s.limitPtr } s' by
    obtain ⟨s', hplays, hidle⟩ := hwait
    exact ⟨s', .call hcall hplays, hidle⟩
  by_cases hturn : s.freeSpace < i32 (i32 orig.length + 2048)
  · rcases hfree with hfree | hfree
    · exact absurd (need_le.trans hfree) (not_le.2 hturn)
    · obtain ⟨s', hplays, hidle⟩ := @plays_spaceWait β g
        (g.spaceRefresh { s with pc := .spaceWait orig.length, lastBusBottom := s.limitPtr }) orig
        hextra hlen ho rfl (need_le.trans hfree)
      refine ⟨s', .inner (.inr rfl) ?_ hplays, hidle⟩
      exact (spaceWait_tick rfl).trans (congrArg some (if_pos hturn))
  · exact plays_spaceWait hextra hlen ho rfl (not_lt.1 hturn)

end Runs

/-! ## The comparison -/

/-- The ring, the offset and the limit register are the same, and the offset is in the ring. -/
structure Agree (g : TxRing) (s s' : TxState β) : Prop where
  ring : s.ring = s'.ring
  offset : s.offset = s'.offset
  limitPtr : s.limitPtr = s'.limitPtr
  offset_lt : s.offset < g.size
  offset_lt' : s'.offset < g.size

/-- Where the paths put the offset. -/
theorem offsets_eq_iff {offset n : Nat} (ho : offset < g.size) (hn : n ≤ g.size) :
    g.copyOffset offset n < g.size ∧
      (g.copyOffset offset n = g.commitOffset offset n ↔ offset + n ≠ g.size) := by
  rcases @copyOffset_cases g offset n ho.le hn with hcopy | hcopy
  · rcases @commitOffset_cases g offset n ho.le hn with hcommit | hcommit
    · omega
    · omega
  · rcases @commitOffset_cases g offset n ho.le hn with hcommit | hcommit
    · omega
    · omega

/-- **The two paths agree** if and only if the bytes do not end at the end of the ring: both return
where there is space for both, and leave the same ring; the copy path goes on at its start, the
other at its end. -/
theorem paths_agree_iff (hextra : g.extra = g.size) {s : TxState β} (hpc : s.pc = .idle)
    (ho : s.offset < g.size) {orig : List β} (hpos : 0 < orig.length) (hlen : orig.length ≤ g.size)
    (hfree : EnoughForBoth g orig.length s) :
    (∃ s1, Returns g (copyPath orig) s s1) ∧ (∃ s2, Returns g (spacePath orig) s s2) ∧
      ∀ s1 s2, Returns g (copyPath orig) s s1 → Returns g (spacePath orig) s s2 →
        s1.ring = s2.ring ∧ (Agree g s1 s2 ↔ s.offset + orig.length ≠ g.size) := by
  refine ⟨returns_copyPath hpc hlen hfree.copy, returns_spacePath hextra ho hpc hpos hlen hfree.space,
    fun s1 s2 h1 h2 => ?_⟩
  have hcopy := copyPath_published ho hlen hpc h1
  have hspace := spacePath_published hextra ho hpos hlen hpc h2
  obtain ⟨hlt, hsame⟩ := @offsets_eq_iff g s.offset orig.length ho hlen
  have hring : s1.ring = s2.ring := hcopy.ring.trans hspace.ring.symm
  refine ⟨hring, fun hagree => ?_, fun hne => ?_⟩
  · apply hsame.1
    rw [← hcopy.offset, ← hspace.offset]
    exact hagree.offset
  · have heq := hsame.2 hne
    refine ⟨hring, ?_, ?_, ?_, ?_⟩
    · rw [hcopy.offset, hspace.offset, heq]
    · rw [hcopy.limitPtr, hspace.limitPtr, heq]
    · rw [hcopy.offset]
      exact hlt
    · rw [hspace.offset, ← heq]
      exact hlt

/-- Three bytes into an empty ring. -/
theorem paths_agree_three : ∃ s1 s2, Returns ring4k (copyPath [1, 2, 3]) started4k s1 ∧
    Returns ring4k (spacePath [1, 2, 3]) started4k s2 ∧ Agree ring4k s1 s2 := by
  obtain ⟨⟨s1, h1⟩, ⟨s2, h2⟩, hagree⟩ := @paths_agree_iff Nat ring4k rfl started4k rfl (by decide)
    [1, 2, 3] (by decide) (by decide) ⟨.inr (by decide), .inr (by decide)⟩
  exact ⟨s1, s2, h1, h2, (hagree s1 s2 h1 h2).2.2 (by decide)⟩

/-- A stream whose offset is three bytes before the end of the ring, all of it sent. -/
def nearEnd4k : TxState Nat :=
  { started4k with offset := 4093, record := 4093, limitPtr := 0x10000ffd }

/-- **Three bytes that end at the end of the ring**: one path leaves the offset 0 and the limit at
the start of the ring, the other the offset 4096 and the limit at its end. -/
theorem paths_differ_at_end : ∃ s1 s2, Returns ring4k (copyPath [1, 2, 3]) nearEnd4k s1 ∧
    Returns ring4k (spacePath [1, 2, 3]) nearEnd4k s2 ∧
      (s1.offset, s1.limitPtr) = (0, 0x10000000) ∧ (s2.offset, s2.limitPtr) = (4096, 0x10001000) ∧
        ¬Agree ring4k s1 s2 := by
  have ho : nearEnd4k.offset < ring4k.size := by decide
  have hlen : [1, 2, 3].length ≤ ring4k.size := by decide
  obtain ⟨s1, h1⟩ := @returns_copyPath Nat ring4k nearEnd4k [1, 2, 3] rfl hlen (.inr (by decide))
  obtain ⟨s2, h2⟩ := @returns_spacePath Nat ring4k nearEnd4k [1, 2, 3] rfl ho rfl (by decide) hlen
    (.inr (by decide))
  have hcopy := copyPath_published ho hlen rfl h1
  have hspace := spacePath_published rfl ho (by decide) hlen rfl h2
  refine ⟨s1, s2, h1, h2, ?_, ?_, fun hagree => ?_⟩
  · rw [hcopy.offset, hcopy.limitPtr]
    decide
  · rw [hspace.offset, hspace.limitPtr]
    decide
  · have hlt := hagree.offset_lt'
    rw [hspace.offset] at hlt
    exact absurd hlt (by decide)

end NacCard.Tx
