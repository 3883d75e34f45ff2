import NacCard.Tx.Space

/-!
# Requests of any size

A transmit stream whose user asks for and commits whatever 32-bit sizes he likes, with or
without writing; the bytes do not matter.

* `Call`, `requestStep`, `requests` — the calls in any order, and the card.
* `Given` — what a pointer that has been returned stands for.
* `RequestFits` — no size that the cast to `int32_t` makes small, and no more is committed than
  was asked for.
* `txSpace_given` — in runs of such calls every pointer is `Given`; the wait loop lets any other
  size through, and then it is not.
-/

namespace NacCard.Tx

open NacCard.Base NacCard.Stream

variable {β : Type} {g : TxRing}

/-! ## The calls -/

/-- The calls of the library with the sizes they are given, whatever the user writes. -/
inductive Call where
  | card
  | tick
  | copy (orig : List Unit)
  | space (size : UInt32)
  /-- `nac_tx_stream_commit_bytes`, which does not look at what has been written -/
  | commit (size : UInt32)
  deriving DecidableEq

namespace TxRing

variable (g : TxRing)

/-- What a step does. -/
def requestStep (s : TxState Unit) : Call → Option (TxState Unit)
  | .card => g.cardStep s
  | .tick => g.tickStep s
  | .copy orig => g.userStep s (.copy orig)
  | .space size => g.userStep s (.space size.toNat)
  | .commit size =>
      match s.pc with
      | .filling _ _ =>
          if size.toNat > g.size then some { s with pc := .idle }
          else some (g.commitPublish size.toNat (List.replicate size.toNat ()) s)
      | _ => none

/-- Calls in any order from the start of the stream. -/
def requests : Machine (TxState Unit) Call := ⟨g.Fresh, g.requestStep⟩

end TxRing

/-! ## The property -/

/-- After `nac_tx_get_stream_space` has returned for `n` bytes: none of them is committed and
unsent, and the count that is left promises no more than is free behind them. -/
structure Given (g : TxRing) (n : Nat) (s : TxState Unit) : Prop where
  slots : ∀ i < n, ∀ k, s.sent.length ≤ k → k < s.committed.length →
    (s.offset + i) % g.size ≠ k % g.size
  nonneg : 0 ≤ s.freeSpace
  le : s.freeSpace ≤ (g.size : Int) - unsent s - n

/-- Sizes from `2147483648 - 2048` on are negative when the loop compares them. -/
def SPACE_LIMIT : Nat := 2147481600

/-- The wait loop lets a request for `n` bytes through. -/
def Enough (n : Nat) (s : TxState β) : Prop := i32 (i32 n + 2048) ≤ s.freeSpace

instance (n : Nat) (s : TxState β) : Decidable (Enough n s) := by
  unfold Enough
  infer_instance

/-- The steps that meet the condition. -/
def RequestFits (s : TxState Unit) : Call → Prop
  | .copy _ => False
  | .tick =>
      match s.pc with
      | .spaceWait n => Enough n s → n < SPACE_LIMIT
      | _ => True
  | .commit size =>
      match s.pc with
      | .filling n _ => size.toNat ≤ n
      | _ => True
  | _ => True

instance (s : TxState Unit) (c : Call) : Decidable (RequestFits s c) := by
  unfold RequestFits
  split
  · infer_instance
  · split <;> infer_instance
  · split <;> infer_instance
  · infer_instance

/-! ## What every step keeps -/

/-- The invariant: what is free, given out and unsent is no more than the ring. -/
structure RequestInv (g : TxRing) (s : TxState Unit) : Prop where
  core : Core g s
  pc : s.pc.InSpace
  pending : s.pc.pending = []
  size32 : ∀ n, s.pc = .spaceWait n → n < 4294967296
  bottom : BottomRead s
  nonneg : 0 ≤ s.freeSpace
  le : s.freeSpace + s.pc.reserved + unsent s ≤ g.size

section Inv

variable {s s' : TxState Unit} {n : Nat}

theorem RequestInv.fresh (h : g.Fresh s) : RequestInv g s := by
  have hbudget := Budget.fresh h g.size
  refine ⟨hbudget.core, ?_, ?_, ?_, hbudget.bottom, ?_, hbudget.le_cap⟩
  · rw [h.pc]
    trivial
  · rw [h.pc]
    rfl
  · rw [h.pc]
    rintro n ⟨⟩
  · rw [h.freeSpace]

/-- The slot behind `i` bytes of the pointer that is handed out. -/
theorem Core.slot_mod (h : Core g s) (i : Nat) :
    (s.committed.length + i) % g.size = (s.offset + i) % g.size := by
  obtain ⟨a, ha⟩ := h.lap
  rcases h.gap with ⟨hle, hlen⟩ | ⟨hlt, hlen⟩
  · have hcommitted : s.committed.length + i = s.offset + i + a * g.size := by omega
    rw [hcommitted, Nat.add_mul_mod_self_right]
  · have hcommitted : s.committed.length + i = s.offset + i + (a + 1) * g.size := by
      rw [Nat.succ_mul]
      omega
    rw [hcommitted, Nat.add_mul_mod_self_right]

/-- **What is free is not committed.** -/
theorem Core.slots_free (h : Core g s) (hn : n + unsent s ≤ g.size) :
    ∀ i < n, ∀ k, s.sent.length ≤ k → k < s.committed.length →
      (s.offset + i) % g.size ≠ k % g.size := by
  intro i hi k hlow hhigh
  have hadd := h.unsent_add
  rw [← h.slot_mod i]
  exact (mod_ne_of_lt (by omega) (by omega)).symm

theorem RequestInv.given (h : RequestInv g s) {bytes : List Unit} (hpc : s.pc = .filling n bytes) :
    Given g n s := by
  have hle := h.le
  have hnonneg := h.nonneg
  rw [hpc, Pc.reserved_filling] at hle
  exact ⟨h.core.slots_free (by omega), hnonneg, by omega⟩

/-- **When the pointer that is returned is good.** -/
theorem RequestInv.given_iff (h : RequestInv g s) (hpc : s.pc = .spaceWait n) :
    Given g n (TxRing.spaceTake n s) ↔ (n : Int) ≤ s.freeSpace := by
  have hle := h.le
  have hnonneg := h.nonneg
  have hsize := g.size_lt
  rw [hpc, Pc.reserved_spaceWait] at hle
  have hun : unsent (TxRing.spaceTake n s) = unsent s := rfl
  have hfree : (TxRing.spaceTake n s).freeSpace = i32 (s.freeSpace - n) := rfl
  constructor
  · intro hgiven
    have hnonneg' := hgiven.nonneg
    have hle' := hgiven.le
    rw [hfree] at hnonneg' hle'
    rw [hun] at hle'
    rw [i32_of_mem (by omega) (by omega)] at hnonneg'
    omega
  · intro hn
    have hvalue : i32 (s.freeSpace - n) = s.freeSpace - n := i32_of_mem (by omega) (by omega)
    refine ⟨?_, ?_, ?_⟩
    · exact h.core.slots_free (by omega)
    · rw [hfree, hvalue]
      omega
    · rw [hfree, hvalue, hun]
      omega

/-- A size below the limit is let through with the reserve. -/
theorem Enough.reserve (h : Enough n s) (hn : n < SPACE_LIMIT) : (n : Int) + 2048 ≤ s.freeSpace := by
  unfold SPACE_LIMIT at hn
  have hcast : i32 (n : Int) = n := i32_of_mem (by omega) (by omega)
  have hsum : i32 ((n : Int) + 2048) = n + 2048 := i32_of_mem (by omega) (by omega)
  rwa [Enough, hcast, hsum] at h

/-! ## The steps -/

theorem RequestInv.card (h : RequestInv g s) (hstep : g.cardStep s = some s') : RequestInv g s' := by
  have hle := h.le
  have hsent := unsent_sendByte_le g s
  cases cardStep_moves hstep with
  | wrap hne hend =>
      exact ⟨h.core.wrap hne hend, h.pc, h.pending, h.size32, h.bottom, h.nonneg, hle⟩
  | send hne hend =>
      refine ⟨h.core.send hne hend, h.pc, h.pending, h.size32, h.bottom, h.nonneg, ?_⟩
      have hsame : (g.sendByte s).freeSpace + (g.sendByte s).pc.reserved =
          s.freeSpace + s.pc.reserved := rfl
      omega

theorem RequestInv.refresh (h : RequestInv g s) (hpc : s.pc = .spaceWait n) :
    RequestInv g (g.spaceRefresh s) := by
  have hbottom := h.bottom
  rw [BottomRead, hpc] at hbottom
  have hvalue := spaceRefresh_freeSpace h.core hbottom
  have hlt := h.core.unsent_lt
  have hres : (g.spaceRefresh s).pc.reserved = 0 := by rw [TxRing.spaceRefresh, hpc, Pc.reserved_spaceWait]
  have hun : unsent (g.spaceRefresh s) = unsent s := rfl
  exact ⟨h.core.change h.pending h.core.room rfl rfl rfl rfl rfl rfl rfl, h.pc, h.pending, h.size32,
    h.bottom, by omega, by omega⟩

theorem RequestInv.take (h : RequestInv g s) (hpc : s.pc = .spaceWait n)
    (hn : (n : Int) + 2048 ≤ s.freeSpace) : RequestInv g (TxRing.spaceTake n s) := by
  have hle := h.le
  have hsize := g.size_lt
  have hadd := h.core.unsent_add
  rw [hpc, Pc.reserved_spaceWait] at hle
  have hvalue : (TxRing.spaceTake n s).freeSpace = s.freeSpace - n :=
    i32_of_mem (by omega) (by omega)
  have hres : (TxRing.spaceTake n s).pc.reserved = n := rfl
  have hun : unsent (TxRing.spaceTake n s) = unsent s := rfl
  refine ⟨h.core.change rfl ?_ rfl rfl rfl rfl rfl rfl rfl, trivial, rfl, ?_, trivial, ?_, ?_⟩
  · omega
  · rintro m ⟨⟩
  · omega
  · omega

/-- Between calls, with nothing committed. -/
theorem RequestInv.idle (h : RequestInv g s) : RequestInv g { s with pc := .idle } := by
  have hle := h.le
  have hroom := h.core.room
  have hun : unsent { s with pc := .idle } = unsent s := rfl
  refine ⟨h.core.change rfl ?_ rfl rfl rfl rfl rfl rfl rfl, trivial, rfl, ?_, trivial, h.nonneg, ?_⟩
  · rw [Pc.reserved_idle]
    omega
  · rintro m ⟨⟩
  · rw [hun, Pc.reserved_idle]
    dsimp only
    omega

theorem RequestInv.commit (h : RequestInv g s) {bytes : List Unit} {m : Nat}
    (hpc : s.pc = .filling n bytes) (hm : m ≤ n) :
    RequestInv g (g.commitPublish m (List.replicate m ()) s) := by
  have hle := h.le
  have hroom := h.core.room
  have hadd := h.core.unsent_add
  rw [hpc, Pc.reserved_filling] at hle hroom
  have hlen : (List.replicate m ()).take m = List.replicate m () := by simp
  -- the bytes that are in the ring are taken for written
  have hwritten : Core g { s with pc := .filling n (List.replicate m ()) } := by
    refine ⟨h.core.lap, h.core.record_le, h.core.offset_le, h.core.gap, hroom, h.core.limit,
      h.core.sent_prefix, fun k _ hk => ?_, ?_, h.core.fault⟩
    · rw [List.getElem?_eq_getElem hk]
    · rw [Pc.pending_filling, Pc.reserved_filling, List.length_replicate]
      exact hm
  have hcommitted : unsent (g.commitPublish m (List.replicate m ()) s) = unsent s + m := by
    have hlen' : (s.committed ++ (List.replicate m ()).take m).length = s.committed.length + m := by
      rw [hlen, List.length_append, List.length_replicate]
    have hcommit : unsent (g.commitPublish m (List.replicate m ()) s)
        = (s.committed ++ (List.replicate m ()).take m).length - s.sent.length := rfl
    omega
  refine ⟨?core, trivial, rfl, ?_, trivial, h.nonneg, ?_⟩
  case core =>
    refine hwritten.publish (List.replicate m ()) (List.prefix_refl _) ?_ rfl ?_ rfl rfl rfl rfl rfl
    · exact congrArg (s.committed ++ ·) hlen
    · rw [List.length_replicate]
      rcases @commitOffset_cases g s.offset m h.core.offset_le (by omega) with hc | hc
      · exact .inl hc
      · exact .inr ⟨hc.1, hc.2.le⟩
  · rintro k ⟨⟩
  · rw [hcommitted]
    have hsame : (g.commitPublish m (List.replicate m ()) s).freeSpace = s.freeSpace := rfl
    have hres : (g.commitPublish m (List.replicate m ()) s).pc.reserved = 0 := rfl
    omega

/-- A commit is turned down, or publishes whatever there is. -/
theorem requestStep_commit {size : UInt32} (h : g.requestStep s (.commit size) = some s') :
    ∃ n bytes, s.pc = .filling n bytes ∧ (s' = { s with pc := .idle } ∨
      s' = g.commitPublish size.toNat (List.replicate size.toNat ()) s) := by
  unfold TxRing.requestStep at h
  cases hpc : s.pc with
  | filling n bytes =>
      rw [hpc] at h
      dsimp only at h
      split_ifs at h with hlarge
      · cases h
        exact ⟨n, bytes, rfl, .inl rfl⟩
      · cases h
        exact ⟨n, bytes, rfl, .inr rfl⟩
  | idle => simp [hpc] at h
  | copyWait orig => simp [hpc] at h
  | copying orig k => simp [hpc] at h
  | spaceWait n => simp [hpc] at h

/-- A request for a number of bytes that has 32 bits. -/
theorem RequestInv.call (h : RequestInv g s) (hidle : s.pc = .idle) {limit : Nat}
    (hn : n < 4294967296) (hlimit : limit = s.limitPtr) :
    RequestInv g { s with pc := .spaceWait n, lastBusBottom := limit } := by
  have hroom := h.core.room
  have hle := h.le
  rw [hidle] at hroom hle
  refine ⟨h.core.change rfl hroom rfl rfl rfl rfl rfl rfl rfl, trivial, rfl, ?_, hlimit,
    h.nonneg, hle⟩
  rintro m ⟨⟩
  exact hn

/-- **The step lemma.** -/
theorem RequestInv.step (h : RequestInv g s) {c : Call} (hok : RequestFits s c)
    (hstep : g.requestStep s c = some s') : RequestInv g s' := by
  cases c with
  | card => exact h.card hstep
  | copy orig => exact hok.elim
  | tick =>
      have hpc := h.pc
      cases tickStep_moves hstep with
      | spaceRefresh n hwait hlt => exact h.refresh hwait
      | spaceTake n hwait hle =>
          rw [RequestFits, hwait] at hok
          exact h.take hwait (Enough.reserve hle (hok hle))
      | copyRefresh orig hwait hlt =>
          rw [hwait] at hpc
          exact hpc.elim
      | copyTake orig hwait hle =>
          rw [hwait] at hpc
          exact hpc.elim
      | copyByte orig k b hcopy hb =>
          rw [hcopy] at hpc
          exact hpc.elim
      | copyPublish orig k hcopy hk =>
          rw [hcopy] at hpc
          exact hpc.elim
  | space size =>
      change g.userStep s (.space size.toNat) = some s' at hstep
      have hmoves := userStep_moves hstep
      generalize hsize : size.toNat = n at hmoves
      cases hmoves with
      | spaceRefused hidle => exact h
      | spaceCall n hidle hn => exact h.call hidle (hsize ▸ size.toNat_lt) rfl
  | commit size =>
      obtain ⟨n, bytes, hpc, rfl | rfl⟩ := requestStep_commit hstep
      · exact h.idle
      · rw [RequestFits, hpc] at hok
        exact h.commit hpc hok

end Inv

/-- **Every pointer that is returned stands for free bytes**, over all runs of requests and commits
that fit; and what the loop lets through fits, or is not more than it has counted before. -/
theorem txSpace_given {s : TxState Unit} (h : g.requests.Reach RequestFits s) :
    (∀ n bytes, s.pc = .filling n bytes → Given g n s) ∧
      ∀ n, s.pc = .spaceWait n → Enough n s →
        (Given g n (TxRing.spaceTake n s) ↔ n < SPACE_LIMIT ∨ (n : Int) ≤ s.freeSpace) := by
  have hinv : RequestInv g s := h.invariant (fun _ hinit => .fresh hinit)
    fun _ _ _ hinv hok hstep => hinv.step hok hstep
  refine ⟨fun n bytes hpc => hinv.given hpc, fun n hpc henough => ?_⟩
  rw [hinv.given_iff hpc]
  constructor
  · exact .inr
  · rintro (hn | hn)
    · have hreserve := henough.reserve hn
      omega
    · exact hn

/-- One byte is asked for and committed, then sixteen are asked for. -/
theorem txSpace_given_twice : ∃ s : TxState Unit,
    (s.offset, s.freeSpace) = (1, 4079) ∧ s.pc = .filling 16 [] ∧ Given ring4k 16 s := by
  have hstart : ring4k.requests.Reach RequestFits ⟨0, 0, 0, 0, 0, 0x10000000, fun _ => (), .idle,
      false, [], [], []⟩ := .start ⟨rfl, rfl, rfl, by decide, rfl, rfl, rfl, rfl, rfl⟩
  obtain ⟨s, hreach, hs⟩ := Machine.exists_reach_of_run hstart
    [.space 1, .tick, .tick, .commit 1, .space 16, .tick]
    (fun s => ((s.offset, s.freeSpace), s.pc)) ((1, 4079), .filling 16 []) (by decide +kernel)
  rw [Prod.mk.injEq] at hs
  exact ⟨s, hs.1, hs.2, (txSpace_given hreach).1 16 [] hs.2⟩

/-- **A request for all but one of 4 GB** is let through on a ring of 4096 bytes, and the count says
that 4097 are left. -/
theorem txSpace_wraps : ∃ s : TxState Unit, ring4k.requests.Reach (fun _ _ => True) s ∧
    s.pc = .filling 4294967295 [] ∧ s.freeSpace = 4097 ∧ ¬Given ring4k 4294967295 s := by
  have hstart : ring4k.requests.Reach (fun _ _ => True) ⟨0, 0, 0, 0, 0, 0x10000000, fun _ => (),
      .idle, false, [], [], []⟩ := .start ⟨rfl, rfl, rfl, by decide, rfl, rfl, rfl, rfl, rfl⟩
  obtain ⟨s, hreach, hs⟩ := Machine.exists_reach_of_run hstart [.space 4294967295, .tick, .tick]
    (fun s => (s.pc, s.freeSpace)) (.filling 4294967295 [], 4097) (by decide +kernel)
  rw [Prod.mk.injEq] at hs
  refine ⟨s, hreach, hs.1, hs.2, fun hgiven => ?_⟩
  have hle := hgiven.le
  have hsize : ring4k.size = 4096 := rfl
  omega

end NacCard.Tx
