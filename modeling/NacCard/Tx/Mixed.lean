import NacCard.Tx.Budget

/-!
# Both paths on one stream

The two paths share `free_space`.  The zero-copy path leaves in it every free byte
of the ring, and the copy path spends what it finds there without looking again,
so a copy of exactly that size fills the ring and the card sees an empty one.
With the ring fuller than the safety window allows, the copy path's own
computation is off by a whole ring when the record pointer is just ahead of the
limit.

* `MixedSafe` — the steps in which neither happens.
* `txMixed_safe` — runs of such steps never fill the ring, nor overwrite a byte.
* `txMixed_full` — a run of three calls in which the first happens.
-/

namespace NacCard.Tx

open NacCard.Base NacCard.Stream

variable {β : Type} {g : TxRing}

/-- The header's demand on requests; copies and commits are free. -/
def Contract (g : TxRing) (_ : TxState β) (a : Act β) : Prop :=
  match a with
  | .space n => n ≤ g.extra
  | _ => True

instance (s : TxState β) (a : Act β) : Decidable (Contract g s a) :=
  match a with
  | .space n => inferInstanceAs (Decidable (n ≤ g.extra))
  | .card | .copy _ | .tick | .put _ | .commit _ => inferInstanceAs (Decidable True)

/-- The ring is never full, and every byte written and not yet sent is in its slot. -/
def RingSafe (g : TxRing) (s : TxState β) : Prop :=
  unsent s < g.size ∧ Holds g.size s.ring (s.committed ++ s.pc.pending) s.sent.length

/-! ## Runs that meet the condition -/

/-- How far the record pointer is ahead of the limit; a whole turn if they are equal. -/
def TxRing.ahead (g : TxRing) (s : TxState β) : Nat :=
  if s.record ≤ s.offset then g.size - (s.offset - s.record) else s.record - s.offset

/-- The copy loop meets the condition: a turn that computes the free space does not
find the record pointer just ahead of the limit, and a copy that finds enough space
cached is not of the size of the whole gap. -/
def CopySafe (g : TxRing) (s : TxState β) : Prop :=
  match s.pc with
  | .copyWait orig =>
      if s.freeSpace < i32 orig.length then ¬ JustAhead s else orig.length ≠ g.ahead s
  | _ => True

instance (s : TxState β) : Decidable (JustAhead s) := by
  unfold JustAhead
  infer_instance

instance (s : TxState β) : Decidable (CopySafe g s) := by
  unfold CopySafe
  split <;> infer_instance

/-- The steps that meet the condition. -/
def MixedSafe (g : TxRing) (s : TxState β) (a : Act β) : Prop :=
  Contract g s a ∧ (a.isTick → CopySafe g s)

instance (s : TxState β) (a : Act β) : Decidable (MixedSafe g s a) := by
  unfold MixedSafe
  infer_instance

theorem Core.ahead_eq {s : TxState β} (h : Core g s) : g.ahead s = g.size - unsent s := by
  have hoff := h.offset_le
  have hrec := h.record_le
  have hcases := h.unsent_eq
  unfold TxRing.ahead
  split_ifs <;> omega

/-- **Every step that meets the condition keeps the budget of the whole ring.** -/
theorem Budget.mixed {s s' : TxState β} {a : Act β} (hsize : g.size < 2147481600)
    (h : Budget g g.size s) (hok : MixedSafe g s a) (hm : Moves g s a s') :
    Budget g g.size s' := by
  have hlt := h.core.unsent_lt
  have hahead := h.core.ahead_eq
  have hW : SAFETY_WINDOW = 128 := rfl
  refine h.moves (by omega) (by omega) ?_ ?_ ?_ (fun n _ => ⟨le_rfl, hsize⟩) le_rfl hm
  · rintro n rfl
    exact hok.1
  · rintro rfl orig hwait hfree
    have hcond := hok.2 rfl
    rw [CopySafe, hwait] at hcond
    simp only [if_pos hfree] at hcond
    exact hcond
  · rintro rfl orig hwait hfree
    have hcond := hok.2 rfl
    have hbudget := h.le_cap
    have hfits := h.fits
    rw [CopySafe, hwait] at hcond
    simp only [if_neg (not_lt.2 hfree)] at hcond
    rw [hwait, Pc.buffer_copyWait] at hfits
    rw [hwait, Pc.reserved_copyWait] at hbudget
    have hlen : i32 (orig.length : Int) = orig.length := by
      have := g.size_lt
      exact i32_of_mem (by omega) (by omega)
    rw [hlen] at hfree
    omega

/-- **No ring is filled and no unsent byte overwritten** in a run on one stream, in
either mode, whose steps all meet the condition, whatever the mixture of calls and
the interleaving with the card. -/
theorem txMixed_safe (hmode : g.OverlapMode ∨ g.CopyMode) {s : TxState β}
    (h : (g.machine β).Reach (MixedSafe g) s) : RingSafe g s := by
  have hsize : g.size < 2147481600 := by
    rcases hmode with hmode | hmode
    · have := hmode.size_lt
      omega
    · have := hmode.size_lt
      omega
  have hinv : Budget g g.size s :=
    h.invariant (fun _ hinit => .fresh hinit g.size) fun _ _ _ hbudget hok hstep =>
      hbudget.mixed hsize hok (step_moves hstep)
  have hlt := hinv.core.unsent_lt
  exact ⟨by omega, hinv.core.holds⟩

/-- Two bytes through each path. -/
theorem txMixed_two_paths :
    ∃ s : TxState Nat, (s.committed, s.sent) = ([1, 2, 3, 4], [1]) ∧ RingSafe ring4k s := by
  have hstart : (ring4k.machine Nat).Reach (MixedSafe ring4k) started4k := .start started4k_fresh
  obtain ⟨s, hreach, hs⟩ := Machine.exists_reach_of_run hstart
    [.space 16, .tick, .tick, .put 1, .put 2, .commit 2, .card, .copy [3, 4], .tick, .tick, .tick,
      .tick]
    (fun s => (s.committed, s.sent)) ([1, 2, 3, 4], [1]) (by decide +kernel)
  exact ⟨s, hs, txMixed_safe (.inr ring4k_copyMode) hreach⟩

/-! ## A run that fills the ring -/

/-- The copying of a call under way, undisturbed. -/
theorem reach_copied {ok : TxState β → Act β → Prop} (hok : ∀ t, ok t .tick) (orig : List β) :
    ∀ (n k : Nat) (s : TxState β), (g.machine β).Reach ok s → s.pc = .copying orig k →
      k + n = orig.length →
      ∃ ring, (g.machine β).Reach ok { s with ring := ring, pc := .copying orig orig.length } := by
  intro n
  induction n with
  | zero =>
      intro k s h hpc hk
      refine ⟨s.ring, ?_⟩
      have hsame : { s with pc := .copying orig orig.length } = s := by
        rw [← hk, Nat.add_zero, ← hpc]
      exact hsame ▸ h
  | succ n ih =>
      intro k s h hpc hk
      have hlt : k < orig.length := by omega
      obtain ⟨b, hb⟩ : ∃ b, orig[k]? = some b := ⟨_, List.getElem?_eq_getElem hlt⟩
      have hstep : g.step s .tick = some (g.copyByte orig k b s) := by
        simp only [TxRing.step, TxRing.tickStep, hpc, hb]
      exact ih (k + 1) (g.copyByte orig k b s) (.next h (hok s) hstep) rfl (by omega)

/-- What a finished copy call has changed, as far as the card can see it. -/
structure Copied (g : TxRing) (orig : List β) (s s' : TxState β) : Prop where
  committed : s'.committed = s.committed ++ orig
  sent : s'.sent = s.sent
  record : s'.record = s.record
  limitPtr : s'.limitPtr = u32 (g.phyaddr + g.copyOffset s.offset orig.length)

/-- A wait loop that finds enough space runs to the end of the call without reading
a register. -/
theorem reach_copyWait {ok : TxState β → Act β → Prop} (hok : ∀ t, ok t .tick) {orig : List β}
    {s : TxState β} (h : (g.machine β).Reach ok s) (hpc : s.pc = .copyWait orig)
    (hfree : i32 orig.length ≤ s.freeSpace) : ∃ s', (g.machine β).Reach ok s' ∧ Copied g orig s s' := by
  have htake : g.step s .tick = some (TxRing.copyTake orig s) := by
    simp only [TxRing.step, TxRing.tickStep, hpc]
    exact if_neg (not_lt.2 hfree)
  have h1 : (g.machine β).Reach ok (TxRing.copyTake orig s) := .next h (hok s) htake
  obtain ⟨ring, h2⟩ := reach_copied hok orig orig.length 0 _ h1 rfl (Nat.zero_add _)
  generalize hs2 : { TxRing.copyTake orig s with ring := ring, pc := .copying orig orig.length } = s2
    at h2
  have hpc2 : s2.pc = .copying orig orig.length := by rw [← hs2]
  have hnone : orig[orig.length]? = none := List.getElem?_eq_none_iff.2 le_rfl
  have hpublish : g.step s2 .tick = some (g.copyPublish orig s2) := by
    simp only [TxRing.step, TxRing.tickStep, hpc2, hnone]
  refine ⟨g.copyPublish orig s2, .next h2 (hok s2) hpublish, ?_⟩
  rw [← hs2]
  exact ⟨rfl, rfl, rfl, rfl⟩

/-- **A copy call that finds enough space cached.** -/
theorem reach_copyCall {ok : TxState β → Act β → Prop} (hok : ∀ t, ok t .tick) {orig : List β}
    (hcopy : ∀ t, ok t (.copy orig)) {s : TxState β} (h : (g.machine β).Reach ok s)
    (hpc : s.pc = .idle) (hlen : orig.length ≤ g.size) (hfree : i32 orig.length ≤ s.freeSpace) :
    ∃ s', (g.machine β).Reach ok s' ∧ Copied g orig s s' := by
  have hcall : g.step s (.copy orig) =
      some { s with pc := .copyWait orig, buffers := s.buffers ++ [orig] } := by
    simp only [TxRing.step, TxRing.userStep, hpc, if_neg (not_lt.2 hlen)]
  obtain ⟨s', hreach, hcopied⟩ := reach_copyWait hok (.next h (hcopy s) hcall) rfl hfree
  exact ⟨s', hreach, hcopied.committed, hcopied.sent, hcopied.record, hcopied.limitPtr⟩

/-- **A full ring that looks empty.**  On a ring of 4096 bytes: a request for one
byte leaves 4095 in `free_space`, the byte is committed, and a copy of 4095 bytes
goes through at once.  All 4096 bytes are unsent, and the limit pointer is equal to
the record pointer. -/
theorem txMixed_full :
    ∃ s : TxState Nat, (ring4k.machine Nat).Reach (Contract ring4k) s ∧
      unsent s = ring4k.size ∧ ring4k.recordPtr s = s.limitPtr ∧ ¬ RingSafe ring4k s := by
  have hstart : (ring4k.machine Nat).Reach (Contract ring4k) started4k := .start started4k_fresh
  obtain ⟨s, hreach, hs⟩ := Machine.exists_reach_of_run hstart
    [.space 1, .tick, .tick, .put 7, .commit 1]
    (fun s => ((s.pc, s.freeSpace), (s.offset, s.record), (s.committed, s.sent)))
    ((.idle, 4095), (1, 0), ([7], [])) (by decide +kernel)
  simp only [Prod.mk.injEq] at hs
  obtain ⟨⟨hpc, hfree⟩, ⟨hoffset, hrecord⟩, hcommitted, hsent⟩ := hs
  have hlen : (List.replicate 4095 (0 : Nat)).length = 4095 := List.length_replicate
  generalize List.replicate 4095 0 = orig at hlen
  have hroom : orig.length ≤ ring4k.size := by
    rw [hlen]
    decide
  have hcached : i32 orig.length ≤ s.freeSpace := by
    rw [hlen, hfree]
    decide
  obtain ⟨s', hreach', hcommitted', hsent', hrecord', hlimit'⟩ :=
    reach_copyCall (fun _ => trivial) (fun _ => trivial) hreach hpc hroom hcached
  have hunsent : unsent s' = 4096 := by
    rw [unsent, hcommitted', hsent', hsent, hcommitted, List.length_append, hlen]
    rfl
  refine ⟨s', hreach', hunsent, ?_, ?_⟩
  · rw [TxRing.recordPtr, hrecord', hrecord, hlimit', hlen, hoffset]
    decide
  · intro hsafe
    have hlt := hsafe.1
    rw [hunsent] at hlt
    exact absurd hlt (by decide)

end NacCard.Tx
