import NacCard.Stream.Slots

/-!
# What a failed attach leaves

The three attach functions write the poll parameters before they can fail, and what
they have mapped when they fail stays mapped: the label `fail` only returns.  A request
for fixed addresses that the driver refuses has unmapped these addresses, so some of it,
or all, can be gone nevertheless; whether it has is an answer of `Env`.

* `AttachCall` — a call of one of the three, with its arguments.
* `Remaining` — an address that was mapped by the call and still is.
* `Unchanged` — no field of a stream is different and no address is mapped by the call.
* `LeavesNothing` — the call is turned down before it writes anything, or writes what
  is there already and fails with nothing left of what it has mapped.
* `failed_unchanged_iff` — a call that fails changes nothing exactly in these cases.
-/

namespace NacCard.Stream

open NacCard.Base

/-! ## The calls -/

/-- A call of an attach function with the arguments it uses. -/
inductive AttachCall where
  /-- `nac_attach_stream` -/
  | rx (streamNum : Nat) (extraWindowSize : UInt32)
  /-- `nac_tx_attach_stream` -/
  | tx (streamNum flags : Nat) (extraWindowSize : UInt32)
  /-- `nac_rft_attach_stream` -/
  | rft
  deriving DecidableEq

namespace AttachCall

/-- What the call returns and leaves. -/
def run (env : Env) : AttachCall → NacState → Int × NacState
  | rx i extra, st => nacAttachStream env i extra.toNat st
  | tx i flags extra, st => nacTxAttachStream env i flags extra.toNat st
  | rft, st => nacRftAttachStream env st

/-- The slot that the call is about. -/
def slot : AttachCall → Nat
  | rx i _ => i
  | tx i _ _ => i
  | rft => RFT_NUM

/-- What is written before the first `mmap`. -/
def defaults : AttachCall → StreamT → StreamT
  | rx _ _ => attachDefaults
  | tx _ _ _ => attachDefaults
  | rft => rftDefaults

/-- The checks in front of the first assignment. -/
def TurnedDown (st : NacState) : AttachCall → Prop
  | tx i _ _ => st.sheep.opened = false ∨ i < NUM_STREAM
  | _ => st.sheep.opened = false

/-- The extra window is larger than the ring. -/
def ExtraTooLarge (bufSize : Int) (extra : Nat) : Prop := i32 extra > bufSize

/-- With the requests from number `clock` on for a ring and its extra window, one of them refused,
nothing of what they have mapped is left.
* The first is refused: nothing has been mapped.
* The second: the space reserved is as large as the ring, whose addresses are unmapped.
* The third: there is no ring, and the extra window is all the space there is. -/
def RingGone (env : Env) (clock : Nat) (bufSize : Int) (extra : Nat) : Prop :=
  match env.mmap clock, env.mmap (clock + 1) with
  | none, _ => True
  | some _, none =>
      if env.unmaps (clock + 1) then pageUp (u32 (bufSize + extra)) ≤ pageUp (u64 bufSize)
      else u32 (bufSize + extra) = 0
  | some p, some _ => bufSize = 0 ∧ (extra = 0 ∨ env.unmaps (clock + 2) ∧ u64 p = p)

/-- The attach of a ring of either side fails with nothing left. -/
def NoRingLeft (env : Env) (st : NacState) (i extra : Nat) : Prop :=
  let bufSize := i32 (st.sheep.stream i).size
  ExtraTooLarge bufSize (ringExtra bufSize extra) ∨
    RingGone env st.clock bufSize (ringExtra bufSize extra)

/-- The call fails with nothing left of what it has mapped.  The overlapping TX ring needs no
mapping of its own. -/
def NothingLeft (env : Env) (st : NacState) : AttachCall → Prop
  | rx i extra => NoRingLeft env st i extra.toNat
  | tx i flags extra => flags = OVERLAP_FWD ∨ NoRingLeft env st i extra.toNat
  | rft => env.mmap st.clock = none ∨ env.unmaps (st.clock + 1)

end AttachCall

/-- The mappings granted between two states. -/
def madeSince (st st' : NacState) : List Mapping := st'.maps.take (st'.maps.length - st.maps.length)

/-- Address `a` has been mapped since `st`, and not lost again. -/
def Remaining (st st' : NacState) (a : Nat) : Prop :=
  (∃ m ∈ madeSince st st', m.covers a = true) ∧ st'.lost a = false

/-- Every field of every stream has its value from before, and no mapping made since remains. -/
structure Unchanged (st st' : NacState) : Prop where
  stream : st'.sheep.stream = st.sheep.stream
  maps : ∀ a, ¬Remaining st st' a

/-- **The failures that leave nothing behind.** -/
def LeavesNothing (env : Env) (st : NacState) (c : AttachCall) : Prop :=
  c.TurnedDown st ∨
    c.defaults (st.sheep.stream c.slot) = st.sheep.stream c.slot ∧ c.NothingLeft env st

/-! ## Pages -/

theorem inPages_iff {addr len a : Nat} :
    inPages addr len a = true ↔ addr ≤ a ∧ a < addr + pageUp len := by
  simp [inPages]

theorem le_pageUp (len : Nat) : len ≤ pageUp len := by
  unfold pageUp
  omega

theorem pageUp_lt (len : Nat) : pageUp len < len + 4096 := by
  unfold pageUp
  omega

@[simp] theorem pageUp_zero : pageUp 0 = 0 := rfl

theorem pageUp_pos_iff {len : Nat} : 0 < pageUp len ↔ 0 < len := by
  unfold pageUp
  omega

/-- The pages at one address are among others there if they are not more. -/
theorem inPages_subset_iff {addr len len' : Nat} :
    (∀ a, inPages addr len a = true → inPages addr len' a = true) ↔ pageUp len ≤ pageUp len' := by
  simp only [inPages_iff]
  constructor
  · intro h
    by_contra hlt
    have hlast := (h (addr + pageUp len - 1) (by omega)).2
    omega
  · rintro hle a ⟨h1, h2⟩
    exact ⟨h1, by omega⟩

/-! ## What remains -/

theorem madeSince_append {st st' : NacState} {new : List Mapping} (h : st'.maps = new ++ st.maps) :
    madeSince st st' = new := by
  simp [madeSince, h]

theorem Unchanged.refl (st : NacState) : Unchanged st st := by
  refine ⟨rfl, fun a h => ?_⟩
  obtain ⟨m, hm, -⟩ := h.1
  rw [madeSince_append (List.nil_append st.maps).symm] at hm
  exact absurd hm List.not_mem_nil

theorem setStream_stream_eq_iff {st : NacState} {i : Nat} {f : StreamT → StreamT} :
    (setStream st i f).sheep.stream = st.sheep.stream ↔ f (st.sheep.stream i) = st.sheep.stream i := by
  constructor
  · intro h
    have hi := congrFun h i
    rwa [setStream_self] at hi
  · intro h
    show Function.update st.sheep.stream i (f (st.sheep.stream i)) = st.sheep.stream
    rw [h, Function.update_eq_self]

/-- What is granted, in order, and the addresses lost at the end: nothing remains. -/
def AllLost (new : List Mapping) (lost : Nat → Bool) : Prop :=
  ∀ m ∈ new, ∀ a, m.covers a = true → lost a = true

/-- Where nothing was mapped. -/
theorem allLost_nil (lost : Nat → Bool) : AllLost [] lost := fun _ hm => (List.not_mem_nil hm).elim

/-- What a failure changes once the defaults have been written: `new` has been mapped, and `lost` is
lost. -/
theorem unchanged_iff {st : NacState} {i : Nat} {f : StreamT → StreamT} {new : List Mapping}
    {lost : Nat → Bool} {clock : Nat} :
    Unchanged st (withMaps (setStream st i f) new lost clock) ↔
      f (st.sheep.stream i) = st.sheep.stream i ∧ AllLost new lost := by
  have hmade : madeSince st (withMaps (setStream st i f) new lost clock) = new := madeSince_append rfl
  constructor
  · rintro ⟨hs, hm⟩
    refine ⟨setStream_stream_eq_iff.1 hs, fun m hmem a ha => ?_⟩
    refine by_contra fun hlost => hm a ⟨⟨m, ?_, ha⟩, Bool.eq_false_of_not_eq_true hlost⟩
    rwa [hmade]
  · rintro ⟨hf, hlost⟩
    refine ⟨setStream_stream_eq_iff.2 hf, fun a ⟨⟨m, hmem, ha⟩, hnot⟩ => ?_⟩
    rw [hmade] at hmem
    exact Bool.false_ne_true (hnot.symm.trans (hlost m hmem a ha))

/-- What a refused request for fixed addresses takes from addresses that have been mapped. -/
theorem lostByRefusal_of_mapped {env : Env} {clock p len a : Nat} {lost : Nat → Bool}
    (h : lost a = false) :
    lostByRefusal env clock (some p) len lost a = (env.unmaps clock && inPages p len a) := by
  unfold lostByRefusal
  cases env.unmaps clock with
  | false => simpa using h
  | true => simp [unmapPages, h]

theorem mapPages_of_inPages {addr len a : Nat} {lost : Nat → Bool} (h : inPages addr len a = true) :
    mapPages addr len lost a = false := by
  simp [mapPages, h]

theorem mapPages_of_false {addr len a : Nat} {lost : Nat → Bool} (h : lost a = false) :
    mapPages addr len lost a = false := by
  simp [mapPages, h]

section Ring

variable {env : Env} {st : NacState} {bufSize : Int} {extra : Nat}

/-- The second request is refused: what has been reserved goes with the addresses of the ring. -/
theorem reserved_allLost_iff (off : Int) (p : Nat) :
    AllLost ((ringMaps bufSize extra off p).drop 2)
        (lostByRefusal env (st.clock + 1) (some p) (u64 bufSize) (lostReserved bufSize extra p st)) ↔
      if env.unmaps (st.clock + 1) then pageUp (u32 (bufSize + extra)) ≤ pageUp (u64 bufSize)
      else u32 (bufSize + extra) = 0 := by
  have hall : AllLost ((ringMaps bufSize extra off p).drop 2)
        (lostByRefusal env (st.clock + 1) (some p) (u64 bufSize) (lostReserved bufSize extra p st)) ↔
      ∀ a, inPages p (u32 (bufSize + extra)) a = true →
        (env.unmaps (st.clock + 1) && inPages p (u64 bufSize) a) = true := by
    simp only [AllLost, ringMaps, List.drop_succ_cons, List.drop_zero, List.mem_singleton,
      forall_eq, Mapping.covers]
    refine forall_congr' fun a => imp_congr_right fun ha => ?_
    have hlost : lostReserved bufSize extra p st a = false := mapPages_of_inPages ha
    rw [lostByRefusal_of_mapped hlost]
  rw [hall]
  cases env.unmaps (st.clock + 1) with
  | true => simpa using inPages_subset_iff
  | false =>
      -- nothing is unmapped, so nothing may have been reserved
      simp only [Bool.false_and, Bool.false_eq_true, imp_false, if_false, inPages_iff]
      constructor
      · intro h
        by_contra hpos
        exact h p ⟨le_rfl, by have := pageUp_pos_iff.2 (Nat.pos_of_ne_zero hpos); omega⟩
      · rintro h a ⟨h1, h2⟩
        rw [h, pageUp_zero] at h2
        omega

/-- A range of at most 4 GB behind a ring of addresses below 2 GB, or of more than 2^63 of them,
does not hold the whole ring. -/
theorem ring_not_in_extra {p : Nat} (hlow : -2147483648 ≤ bufSize) (hhigh : bufSize < 2147483648)
    (hextra : extra < 4294967296) (hne : bufSize ≠ 0) :
    ∃ a, inPages p (u64 bufSize) a = true ∧ inPages (u64 (p + bufSize)) extra a = false := by
  have hup := pageUp_lt extra
  have hring := le_pageUp (u64 bufSize)
  have hbuf : 0 ≤ bufSize ∧ (u64 bufSize : Int) = bufSize ∨
      bufSize < 0 ∧ (u64 bufSize : Int) = bufSize + 18446744073709551616 := by
    unfold u64
    omega
  by_cases hp : u64 (p + bufSize) ≤ p ∧ p < u64 (p + bufSize) + pageUp extra
  · -- the last address of the ring is too far away
    refine ⟨p + pageUp (u64 bufSize) - 1, inPages_iff.2 (by omega), ?_⟩
    rw [Bool.eq_false_iff, ne_eq, inPages_iff]
    have hq : (u64 (p + bufSize) : Int) = (p + bufSize) % 18446744073709551616 := by
      unfold u64
      omega
    omega
  · exact ⟨p, inPages_iff.2 (by omega), by rwa [Bool.eq_false_iff, ne_eq, inPages_iff]⟩

/-- The third request is refused: the ring stays, unless it is empty and the extra window is all the
space there is. -/
theorem mapped_allLost_iff (off : Int) (p : Nat) (hlow : -2147483648 ≤ bufSize)
    (hhigh : bufSize < 2147483648) (hextra : extra < 4294967296) :
    AllLost ((ringMaps bufSize extra off p).drop 1)
        (lostByRefusal env (st.clock + 2) (some (u64 (p + bufSize))) extra
          (lostMapped bufSize extra p st)) ↔
      bufSize = 0 ∧ (extra = 0 ∨ env.unmaps (st.clock + 2) ∧ u64 p = p) := by
  have hall : AllLost ((ringMaps bufSize extra off p).drop 1)
        (lostByRefusal env (st.clock + 2) (some (u64 (p + bufSize))) extra
          (lostMapped bufSize extra p st)) ↔
      ∀ a, inPages p (u64 bufSize) a = true ∨ inPages p (u32 (bufSize + extra)) a = true →
        (env.unmaps (st.clock + 2) && inPages (u64 (p + bufSize)) extra a) = true := by
    simp only [AllLost, ringMaps, List.drop_succ_cons, List.drop_zero, List.mem_cons,
      List.not_mem_nil, or_false, forall_eq_or_imp, forall_eq, Mapping.covers, ← forall_and, ← or_imp]
    refine forall_congr' fun a => imp_congr_right fun ha => ?_
    have hlost : lostMapped bufSize extra p st a = false := by
      rcases ha with ha | ha
      · exact mapPages_of_inPages ha
      · exact mapPages_of_false (mapPages_of_inPages ha)
    rw [lostByRefusal_of_mapped hlost]
  rw [hall]
  by_cases hzero : bufSize = 0
  · subst hzero
    have hspace : u32 ((0 : Int) + extra) = extra := by
      rw [zero_add, u32_natCast hextra]
    have hring (a : Nat) : inPages p (u64 0) a = false := by
      rw [Bool.eq_false_iff, ne_eq, inPages_iff]
      show ¬(p ≤ a ∧ a < p + pageUp 0)
      rw [pageUp_zero]
      omega
    simp only [hring, Bool.false_eq_true, false_or, hspace, add_zero, true_and]
    constructor
    · intro h
      by_contra hcon
      simp only [not_or, not_and] at hcon
      have hfirst := h p (inPages_iff.2 ⟨le_rfl, by
        have := pageUp_pos_iff.2 (Nat.pos_of_ne_zero hcon.1)
        omega⟩)
      rw [Bool.and_eq_true, inPages_iff] at hfirst
      have hlast := h (p + pageUp extra - 1) (inPages_iff.2 (by omega))
      rw [Bool.and_eq_true, inPages_iff] at hlast
      exact hcon.2 hfirst.1 (by omega)
    · rintro (rfl | ⟨hunmaps, hp⟩) a ha
      · rw [inPages_iff, pageUp_zero] at ha
        omega
      · rwa [hunmaps, hp, Bool.true_and]
  · refine iff_of_false (fun h => ?_) (fun h => hzero h.1)
    obtain ⟨a, hin, hout⟩ := @ring_not_in_extra bufSize extra p hlow hhigh hextra hzero
    simpa [hout] using h a (.inl hin)

/-- **A ring attach that fails**: what it has been granted, what is lost of it, and when that is all. -/
theorem attachRing_failed {i : Nat} (hlow : -2147483648 ≤ bufSize) (hhigh : bufSize < 2147483648)
    (hextra : extra < 4294967296) (h : (attachRing env i bufSize extra st).1 < 0) :
    ∃ new lost clock, (attachRing env i bufSize extra st).2 = withMaps st new lost clock ∧
      (AllLost new lost ↔
        AttachCall.ExtraTooLarge bufSize extra ∨ AttachCall.RingGone env st.clock bufSize extra) := by
  unfold attachRing at h ⊢
  by_cases hlarge : i32 extra > bufSize
  · rw [if_pos hlarge]
    exact ⟨[], st.lost, st.clock, rfl, iff_of_true (allLost_nil _) (.inl hlarge)⟩
  · rw [if_neg hlarge, mapRing_eq] at h ⊢
    unfold AttachCall.ExtraTooLarge AttachCall.RingGone
    rw [or_iff_right hlarge]
    cases h1 : env.mmap st.clock with
    | none => exact ⟨[], _, _, rfl, iff_of_true (allLost_nil _) trivial⟩
    | some p =>
        rw [h1] at h
        cases h2 : env.mmap (st.clock + 1) with
        | none => exact ⟨_, _, _, rfl, reserved_allLost_iff _ p⟩
        | some b =>
            rw [h2] at h
            cases h3 : env.mmap (st.clock + 2) with
            | none => exact ⟨_, _, _, rfl, mapped_allLost_iff _ p hlow hhigh hextra⟩
            | some c =>
                rw [h3] at h
                exact absurd h (lt_irrefl 0)

/-- The overlap attach of the TX side maps nothing. -/
theorem attachOverlap_failed {i : Nat} (h : (attachOverlap i bufSize extra st).1 < 0) :
    (attachOverlap i bufSize extra st).2 = st := by
  unfold attachOverlap at h ⊢
  split_ifs at h ⊢ with hlarge
  · rfl
  · exact absurd h (lt_irrefl 0)

end Ring

/-! ## The three functions -/

section Failed

variable {env : Env} {st : NacState}

/-- The ring attach of either side, behind the defaults. -/
theorem attachRing_unchanged_iff {i extra : Nat} (hextra : extra < 4294967296)
    (h : (attachRing env i (i32 (st.sheep.stream i).size)
      (ringExtra (i32 (st.sheep.stream i).size) extra) (setStream st i attachDefaults)).1 < 0) :
    Unchanged st (attachRing env i (i32 (st.sheep.stream i).size)
      (ringExtra (i32 (st.sheep.stream i).size) extra) (setStream st i attachDefaults)).2 ↔
      attachDefaults (st.sheep.stream i) = st.sheep.stream i ∧
        AttachCall.NoRingLeft env st i extra := by
  have hring : ringExtra (i32 (st.sheep.stream i).size) extra < 4294967296 := by
    unfold ringExtra
    split
    · exact u32_lt _
    · exact hextra
  obtain ⟨new, lost, clock, hst, hlost⟩ := attachRing_failed (le_i32 _) (i32_lt _) hring h
  rw [hst, unchanged_iff, hlost]
  rfl

theorem nacAttachStream_unchanged_iff {i : Nat} {extra : UInt32}
    (h : (nacAttachStream env i extra.toNat st).1 < 0) :
    Unchanged st (nacAttachStream env i extra.toNat st).2 ↔ LeavesNothing env st (.rx i extra) := by
  by_cases hopen : st.sheep.opened
  · have hdown : ¬AttachCall.TurnedDown st (.rx i extra) := by simp [AttachCall.TurnedDown, hopen]
    rw [nacAttachStream_opened hopen] at h ⊢
    rw [LeavesNothing, or_iff_right hdown]
    exact attachRing_unchanged_iff extra.toNat_lt h
  · rw [nacAttachStream, if_pos (by simp [hopen])]
    exact iff_of_true (.refl st) (.inl (by simpa [AttachCall.TurnedDown] using hopen))

theorem nacTxAttachStream_unchanged_iff {i flags : Nat} {extra : UInt32}
    (h : (nacTxAttachStream env i flags extra.toNat st).1 < 0) :
    Unchanged st (nacTxAttachStream env i flags extra.toNat st).2 ↔
      LeavesNothing env st (.tx i flags extra) := by
  by_cases hopen : st.sheep.opened
  · by_cases hi : i < NUM_STREAM
    · rw [nacTxAttachStream, if_neg (by simp [hopen]), if_pos hi]
      exact iff_of_true (.refl st) (.inl (.inr hi))
    · have hdown : ¬AttachCall.TurnedDown st (.tx i flags extra) := by
        simpa [AttachCall.TurnedDown, hopen] using hi
      rw [nacTxAttachStream_opened hopen (not_lt.1 hi)] at h ⊢
      rw [LeavesNothing, or_iff_right hdown]
      by_cases hflags : flags = OVERLAP_FWD
      · rw [if_pos hflags] at h ⊢
        rw [attachOverlap_failed h]
        show Unchanged st (withMaps (setStream st i attachDefaults) [] st.lost st.clock) ↔ _
        rw [unchanged_iff]
        exact and_congr_right fun _ => iff_of_true (allLost_nil _) (.inl hflags)
      · rw [if_neg hflags] at h ⊢
        refine (attachRing_unchanged_iff extra.toNat_lt h).trans (and_congr_right fun _ => ?_)
        exact (or_iff_right hflags).symm
  · rw [nacTxAttachStream, if_pos (by simp [hopen])]
    exact iff_of_true (.refl st) (.inl (.inl (by simpa using hopen)))

/-- The two requests of the flow table are for the same pages. -/
theorem rft_allLost_iff {clock sp : Nat} {lost : Nat → Bool} :
    AllLost [⟨sp, RFT_SIZE, false, 0⟩]
        (lostByRefusal env clock (some sp) RFT_SIZE (mapPages sp RFT_SIZE lost)) ↔
      env.unmaps clock = true := by
  simp only [AllLost, List.mem_singleton, forall_eq, Mapping.covers]
  constructor
  · intro h
    have hin : inPages sp RFT_SIZE sp = true := inPages_iff.2 ⟨le_rfl, Nat.lt_add_of_pos_right (by decide)⟩
    have hlost := h sp hin
    rw [lostByRefusal_of_mapped (mapPages_of_inPages hin), Bool.and_eq_true] at hlost
    exact hlost.1
  · intro h a ha
    rw [lostByRefusal_of_mapped (mapPages_of_inPages ha), h, ha, Bool.and_self]

theorem nacRftAttachStream_unchanged_iff (h : (nacRftAttachStream env st).1 < 0) :
    Unchanged st (nacRftAttachStream env st).2 ↔ LeavesNothing env st .rft := by
  by_cases hopen : st.sheep.opened
  · have hdown : ¬AttachCall.TurnedDown st .rft := by simp [AttachCall.TurnedDown, hopen]
    rw [LeavesNothing, or_iff_right hdown]
    rw [nacRftAttachStream, if_neg (by simp [hopen])] at h ⊢
    dsimp only at h ⊢
    cases h1 : env.mmap st.clock with
    | none =>
        rw [@doMmap_of_none env (setStream st RFT_NUM rftDefaults) h1]
        show Unchanged st (withMaps (setStream st RFT_NUM rftDefaults) [] st.lost (st.clock + 1)) ↔ _
        rw [unchanged_iff]
        exact and_congr_right fun _ => iff_of_true (allLost_nil _) (.inl h1)
    | some sp =>
        rw [@doMmap_of_some env (setStream st RFT_NUM rftDefaults) sp h1] at h ⊢
        dsimp only [Option.getD_none] at h ⊢
        rw [setStream_clock] at h ⊢
        cases h2 : env.mmap (st.clock + 1) with
        | none =>
            rw [@doMmap_of_none env (withMaps (setStream st RFT_NUM rftDefaults) _ _ _) h2]
            dsimp only
            rw [withMaps_withMaps, unchanged_iff]
            refine and_congr_right fun _ => rft_allLost_iff.trans (or_iff_right ?_).symm
            rw [h1]
            nofun
        | some p =>
            rw [@doMmap_of_some env (withMaps (setStream st RFT_NUM rftDefaults) _ _ _) p h2] at h
            exact absurd h (lt_irrefl 0)
  · rw [nacRftAttachStream, if_pos (by simp [hopen])]
    exact iff_of_true (.refl st) (.inl (by simpa [AttachCall.TurnedDown] using hopen))

end Failed

/-- **A failed attach changes nothing** if and only if it was turned down before the defaults were
written, or they were there already and nothing is left of what had been mapped. -/
theorem failed_unchanged_iff {env : Env} {st : NacState} {c : AttachCall} (h : (c.run env st).1 < 0) :
    Unchanged st (c.run env st).2 ↔ LeavesNothing env st c := by
  cases c with
  | rx i extra => exact nacAttachStream_unchanged_iff h
  | tx i flags extra => exact nacTxAttachStream_unchanged_iff h
  | rft => exact nacRftAttachStream_unchanged_iff h

/-! ## A polling stream -/

/-- RX stream 0 of a configured card, attached, with a minimum of 4096 bytes for each poll. -/
def pollingCard : NacState :=
  setStream (freshCard 0x10000000 0x1000000) 0 fun s =>
    { s with size := 0x100000, buf := 0x40000000, mindata := 4096, poll := 1000000, attached := true }

/-- A C library that refuses its second mapping request, which the driver turns down. -/
def refuseSecond : Env where
  malloc := fun _ => true
  mmap := fun k => if k = 1 then none else some 0x42000000
  unmaps := fun _ => true

/-- The TX side of a stream that is no TX stream is turned down. -/
theorem failed_unchanged_tx :
    Unchanged pollingCard (AttachCall.run grantAll (.tx 0 COPY_FWD 0) pollingCard).2 :=
  (@failed_unchanged_iff grantAll pollingCard (.tx 0 COPY_FWD 0) (by decide)).2
    (.inl (.inr (by decide)))

/-- The space for a ring and its extra window has been reserved, and the ring's part of it lost. -/
theorem refuseSecond_lost : (AttachCall.run refuseSecond (.rx 0 0) pollingCard).2.lost =
    unmapPages 0x42000000 0x100000 (mapPages 0x42000000 0x200000 fun _ => false) := by
  have hsize : i32 (pollingCard.sheep.stream 0).size = 0x100000 := by decide +kernel
  show (nacAttachStream refuseSecond 0 0 pollingCard).2.lost = _
  rw [nacAttachStream_opened rfl, hsize, attachRing, if_neg (by decide), mapRing_eq]
  rfl

/-- **Attached again with one request refused**: the stream no longer waits for 4096 bytes, and of
the 2 MB that were reserved the megabyte behind the ring stays mapped. -/
theorem failed_attach_changes : (AttachCall.run refuseSecond (.rx 0 0) pollingCard).1 = -1 ∧
    ((AttachCall.run refuseSecond (.rx 0 0) pollingCard).2.sheep.stream 0).mindata = 16 ∧
    (∀ a, Remaining pollingCard (AttachCall.run refuseSecond (.rx 0 0) pollingCard).2 a ↔
      0x42100000 ≤ a ∧ a < 0x42200000) ∧
    ¬Unchanged pollingCard (AttachCall.run refuseSecond (.rx 0 0) pollingCard).2 := by
  have hmindata : ((AttachCall.run refuseSecond (.rx 0 0) pollingCard).2.sheep.stream 0).mindata = 16 :=
    by decide +kernel
  refine ⟨by decide +kernel, hmindata, fun a => ?_, fun h => ?_⟩
  · have hmade : madeSince pollingCard (AttachCall.run refuseSecond (.rx 0 0) pollingCard).2 =
        [⟨0x42000000, 0x200000, false, 0⟩] := by decide +kernel
    rw [Remaining, hmade, refuseSecond_lost]
    simp only [List.mem_singleton, exists_eq_left, Mapping.covers, unmapPages, mapPages,
      Bool.and_false, Bool.or_false, Bool.eq_false_iff, ne_eq, inPages_iff, pageUp]
    omega
  rw [h.stream] at hmindata
  exact absurd hmindata (by decide)

end NacCard.Stream
