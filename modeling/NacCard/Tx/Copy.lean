import NacCard.Tx.Budget

/-!
# The copy path is a lossless queue

Runs of one transmit stream in which only `nac_tx_stream_copy_bytes` is called.
The cached `free_space` and the bytes not yet sent together never exceed the ring
less the safety window: a turn of the wait loop restores equality, and everything
else only moves bytes from one to the other.  Since the window is never used up,
the record pointer is never just ahead of the limit, and no copy takes the whole
gap.
-/

namespace NacCard.Tx

open NacCard.Base NacCard.Stream

variable {β : Type} {g : TxRing}

/-- The runs of the copy path: no space is requested. -/
def CopyOnly (_ : TxState β) (a : Act β) : Prop :=
  match a with
  | .space _ => False
  | _ => True

instance (s : TxState β) (a : Act β) : Decidable (CopyOnly s a) :=
  match a with
  | .space _ => inferInstanceAs (Decidable False)
  | .card | .copy _ | .tick | .put _ | .commit _ => inferInstanceAs (Decidable True)

/-- Between calls or in a copy call. -/
def Pc.InCopy : Pc β → Prop
  | .spaceWait _ => False
  | .filling _ _ => False
  | _ => True

/-- The invariant of the copy path: a safety window of the ring is never used. -/
structure CopyInv (g : TxRing) (s : TxState β) : Prop where
  budget : Budget g (g.size - SAFETY_WINDOW) s
  pc : s.pc.InCopy
  offset_lt : s.offset < g.size
  free_nonneg : 0 ≤ s.freeSpace
  buffers : s.buffers.flatten = s.committed ++ s.pc.buffer

theorem CopyInv.fresh {s : TxState β} (h : g.Fresh s) : CopyInv g s := by
  refine ⟨.fresh h _, ?_, ?_, ?_, ?_⟩
  · rw [h.pc]
    trivial
  · rw [h.offset]
    exact g.size_pos
  · rw [h.freeSpace]
  · rw [h.buffers, h.committed, h.pc]
    rfl

/-- The safety window is never used up. -/
theorem CopyInv.unsent_le {s : TxState β} (h : CopyInv g s) :
    unsent s ≤ g.size - SAFETY_WINDOW := by
  have hle := h.budget.le_cap
  have hfree := h.free_nonneg
  omega

theorem CopyInv.not_justAhead (hs : SAFETY_WINDOW < g.size) {s : TxState β} (h : CopyInv g s) :
    ¬ JustAhead s := by
  have hle := h.unsent_le
  have hcases := h.budget.core.unsent_eq
  unfold JustAhead
  omega

/-- The budget part of the invariant. -/
theorem CopyInv.budget_moves (hs : SAFETY_WINDOW < g.size) {s s' : TxState β} {a : Act β}
    (h : CopyInv g s) (hok : CopyOnly s a) (hm : Moves g s a s') :
    Budget g (g.size - SAFETY_WINDOW) s' := by
  have hle := h.unsent_le
  have hsize := g.size_lt
  have hW : SAFETY_WINDOW = 128 := rfl
  refine h.budget.moves (by omega) (by omega) ?_ ?_ ?_ ?_ (Nat.sub_le _ _) hm
  · rintro n rfl
    exact absurd hok id
  · intro _ orig hwait hlt
    exact h.not_justAhead hs
  · intro _ orig hwait hfree
    have hbudget := h.budget.le_cap
    have hfits := h.budget.fits
    rw [hwait, Pc.buffer_copyWait] at hfits
    rw [hwait, Pc.reserved_copyWait] at hbudget
    have hlen : i32 (orig.length : Int) = orig.length := i32_of_mem (by omega) (by omega)
    rw [hlen] at hfree
    omega
  · intro n hwait
    have hpc := h.pc
    rw [hwait] at hpc
    exact absurd hpc id

/-- **Every step of the copy path keeps the invariant.** -/
theorem CopyInv.moves (hs : SAFETY_WINDOW < g.size) {s s' : TxState β} {a : Act β}
    (h : CopyInv g s) (hok : CopyOnly s a) (hm : Moves g s a s') : CopyInv g s' := by
  have hbudget := h.budget_moves hs hok hm
  have hpc := h.pc
  have hoffset := h.offset_lt
  have hfree := h.free_nonneg
  have hbuffers := h.buffers
  cases hm with
  | wrap hne hend => exact ⟨hbudget, hpc, hoffset, hfree, hbuffers⟩
  | send hne hend => exact ⟨hbudget, hpc, hoffset, hfree, hbuffers⟩
  | copyRefused orig hidle => exact h
  | copyCall orig hidle hlen =>
      refine ⟨hbudget, trivial, hoffset, hfree, ?_⟩
      rw [hidle, Pc.buffer_idle, List.append_nil] at hbuffers
      simp only [List.flatten_append, hbuffers, List.flatten_cons, List.flatten_nil, List.append_nil,
        Pc.buffer_copyWait]
  | copyRefresh orig hwait hlt =>
      have hsize := g.size_lt
      have hle := h.unsent_le
      have hW : SAFETY_WINDOW = 128 := rfl
      have hvalue := copyRefresh_freeSpace h.budget.core (h.not_justAhead hs) (by omega)
      exact ⟨hbudget, hpc, hoffset, by omega, hbuffers⟩
  | copyTake orig hwait hle =>
      have hfits := h.budget.fits
      have hcap := h.budget.le_cap
      have hsize := g.size_lt
      rw [hwait, Pc.buffer_copyWait] at hfits
      rw [hwait] at hcap hbuffers
      have hlen : i32 (orig.length : Int) = orig.length := i32_of_mem (by omega) (by omega)
      rw [hlen] at hle
      refine ⟨hbudget, trivial, hoffset, ?_, hbuffers⟩
      have hvalue : (TxRing.copyTake orig s).freeSpace = s.freeSpace - orig.length :=
        i32_of_mem (by omega) (by omega)
      omega
  | copyByte orig k b hcopy hb =>
      rw [hcopy] at hbuffers
      exact ⟨hbudget, trivial, hoffset, hfree, hbuffers⟩
  | copyPublish orig k hcopy hk =>
      have hfits := h.budget.fits
      rw [hcopy, Pc.buffer_copying] at hbuffers hfits
      refine ⟨hbudget, trivial, ?_, hfree, hbuffers.trans (List.append_nil _).symm⟩
      have heq : (g.copyPublish orig s).offset = g.copyOffset s.offset orig.length := rfl
      rcases copyOffset_cases h.budget.core.offset_le hfits with hc | hc <;> omega
  | spaceRefused hidle => exact h
  | spaceCall n hidle hn => exact absurd hok id
  | spaceRefresh n hwait hlt =>
      rw [hwait] at hpc
      exact absurd hpc id
  | spaceTake n hwait hle =>
      rw [hwait] at hpc
      exact absurd hpc id
  | putByte n bytes b hfill hlen =>
      rw [hfill] at hpc
      exact absurd hpc id
  | commitRefused m n bytes hfill =>
      rw [hfill] at hpc
      exact absurd hpc id
  | commitPublish m n bytes hfill hm =>
      rw [hfill] at hpc
      exact absurd hpc id

/-- The invariant holds in every run of the copy path. -/
theorem CopyInv.reach (hs : SAFETY_WINDOW < g.size) {s : TxState β}
    (h : (g.machine β).Reach CopyOnly s) : CopyInv g s :=
  h.invariant (fun _ hinit => .fresh hinit) fun _ _ _ hinv hok hstep =>
    hinv.moves hs hok (step_moves hstep)

/-- **The copy path is a lossless queue**, on every ring larger than the safety
window, for all buffers and every interleaving with the card: what the card has
sent is a prefix of the buffers in the order of the calls; every byte that has
been copied and not sent is in its slot; `offset` stays inside the ring, and the
unsent bytes leave the safety window free. -/
theorem txCopy_fifo (hs : SAFETY_WINDOW < g.size) {s : TxState β}
    (h : (g.machine β).Reach CopyOnly s) :
    s.sent <+: s.buffers.flatten ∧
      Holds g.size s.ring (s.committed ++ s.pc.pending) s.sent.length ∧
      s.offset < g.size ∧
      s.committed.length - s.sent.length ≤ g.size - SAFETY_WINDOW := by
  have hinv := CopyInv.reach hs h
  refine ⟨?_, hinv.budget.core.holds, hinv.offset_lt, hinv.unsent_le⟩
  rw [hinv.buffers]
  exact hinv.budget.core.sent_prefix.trans (List.prefix_append _ _)

/-- Three bytes copied, the first of them sent. -/
theorem txCopy_three_bytes :
    ∃ s : TxState Nat, (s.buffers, s.sent) = ([[1, 2, 3]], [1]) ∧ s.sent <+: s.buffers.flatten := by
  have hstart : (ring4k.machine Nat).Reach CopyOnly started4k := .start started4k_fresh
  obtain ⟨s, hreach, hs⟩ := Machine.exists_reach_of_run hstart
    [.copy [1, 2, 3], .tick, .tick, .tick, .tick, .tick, .tick, .card]
    (fun s => (s.buffers, s.sent)) ([[1, 2, 3]], [1]) (by decide +kernel)
  exact ⟨s, hs, (txCopy_fifo (by decide) hreach).1⟩

end NacCard.Tx
