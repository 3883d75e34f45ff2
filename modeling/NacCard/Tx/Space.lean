import NacCard.Tx.Mixed

/-!
# The zero-copy path is a lossless queue

Runs in which space is requested and committed and nothing is copied.  Requests
ask for at most the extra window, as the header demands.  These are runs of the
mixed machine in which the copy loop is never entered, so `MixedSafe` holds of
every step and the budget of the whole ring is kept; the reserve of 2048 bytes in
the wait loop is what keeps a full ring from being published.
-/

namespace NacCard.Tx

open NacCard.Base NacCard.Stream

variable {β : Type} {g : TxRing}

/-- The runs of the zero-copy path. -/
def SpaceOnly (g : TxRing) (_ : TxState β) (a : Act β) : Prop :=
  match a with
  | .copy _ => False
  | .space n => n ≤ g.extra
  | _ => True

instance (s : TxState β) (a : Act β) : Decidable (SpaceOnly g s a) :=
  match a with
  | .copy _ => inferInstanceAs (Decidable False)
  | .space n => inferInstanceAs (Decidable (n ≤ g.extra))
  | .card | .tick | .put _ | .commit _ => inferInstanceAs (Decidable True)

/-- Between calls, in a request or after one. -/
def Pc.InSpace : Pc β → Prop
  | .copyWait _ => False
  | .copying _ _ => False
  | _ => True

/-- The invariant where space is requested: all of the ring may be used. -/
structure SpaceInv (g : TxRing) (s : TxState β) : Prop where
  budget : Budget g g.size s
  pc : s.pc.InSpace

/-- Outside the copy path every step meets the condition of the mixed machine. -/
theorem mixedSafe_of_spaceOnly {s : TxState β} {a : Act β} (hpc : s.pc.InSpace)
    (hok : SpaceOnly g s a) : MixedSafe g s a := by
  refine ⟨?_, ?_⟩
  · cases a <;> trivial
  · intro _
    unfold CopySafe
    split
    next orig hwait =>
      have hfalse : False := by
        rw [hwait] at hpc
        exact hpc
      exact hfalse.elim
    next => exact True.intro

theorem inSpace_moves {s s' : TxState β} {a : Act β} (hpc : s.pc.InSpace) (hok : SpaceOnly g s a)
    (hm : Moves g s a s') : s'.pc.InSpace := by
  cases hm with
  | copyCall orig hidle hlen => exact hok
  | copyTake orig hwait hle =>
      rw [hwait] at hpc
      exact hpc
  | copyByte orig k b hcopy hb =>
      rw [hcopy] at hpc
      exact hpc
  | putByte n bytes b hfill hlen =>
      unfold TxRing.putByte
      split
      · trivial
      · exact hpc
  | wrap hne hend => exact hpc
  | send hne hend => exact hpc
  | copyRefused orig hidle => exact hpc
  | copyRefresh orig hwait hlt => exact hpc
  | spaceRefused hidle => exact hpc
  | spaceRefresh n hwait hlt => exact hpc
  | copyPublish orig k hcopy hk => trivial
  | spaceCall n hidle hn => trivial
  | spaceTake n hwait hle => trivial
  | commitRefused m n bytes hfill => trivial
  | commitPublish m n bytes hfill hm => trivial

/-- The invariant holds in every run of the zero-copy path. -/
theorem SpaceInv.reach (hsize : g.size < 2147481600) {s : TxState β}
    (h : (g.machine β).Reach (SpaceOnly g) s) : SpaceInv g s := by
  refine h.invariant ?_ ?_
  · intro s hinit
    refine ⟨.fresh hinit g.size, ?_⟩
    rw [hinit.pc]
    trivial
  · intro s a s' hinv hok hstep
    have hm := step_moves hstep
    exact ⟨hinv.budget.mixed hsize (mixedSafe_of_spaceOnly hinv.pc hok) hm,
      inSpace_moves hinv.pc hok hm⟩

/-- **The zero-copy path is a lossless queue**, for all requests that fit the extra
window, all commits of at most what was requested, and every interleaving with the
card: what the card has sent is a prefix of the committed bytes, every byte written
and not yet sent is in its slot, and no write leaves the two mappings. -/
theorem txSpace_fifo (hmode : g.CopyMode) {s : TxState β}
    (h : (g.machine β).Reach (SpaceOnly g) s) :
    s.sent <+: s.committed ∧
      Holds g.size s.ring (s.committed ++ s.pc.pending) s.sent.length ∧ s.fault = false := by
  have hsize := hmode.size_lt
  have hcore := (SpaceInv.reach (by omega) h).budget.core
  exact ⟨hcore.sent_prefix, hcore.holds, hcore.fault⟩

/-- Two of three bytes written are committed, and the first is sent. -/
theorem txSpace_two_bytes :
    ∃ s : TxState Nat, (s.committed, s.sent) = ([1, 2], [1]) ∧ s.sent <+: s.committed := by
  have hstart : (ring4k.machine Nat).Reach (SpaceOnly ring4k) started4k := .start started4k_fresh
  obtain ⟨s, hreach, hs⟩ := Machine.exists_reach_of_run hstart
    [.space 16, .tick, .tick, .put 1, .put 2, .put 3, .commit 2, .card]
    (fun s => (s.committed, s.sent)) ([1, 2], [1]) (by decide +kernel)
  exact ⟨s, hs, (txSpace_fifo ring4k_copyMode hreach).1⟩

end NacCard.Tx
