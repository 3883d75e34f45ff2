import NacCard.Stream.Slots

/-!
# Overlap mode does not share the window

In overlap mode RX stream `i` and TX stream `i + NUM_STREAM` are meant to work on
one ring: the same buffer, the same physical window in the card's two register
banks, the TX limit moving inside it.

* `OverlapAgrees` — that agreement, with every limit a start and any commits
  write.
* `LeftOver` — the condition under which it comes about.  None of the three
  set-up functions writes the TX slot's `buf` and `phyaddr` or the card's TX end
  register, so all three must be right beforehand.
* `overlapAgrees_iff` — the agreement holds exactly under that condition.
* `freshCard_not_leftOver` — and a fresh card never meets it.
-/

namespace NacCard.Stream

open NacCard.Base

/-! ## The agreement -/

/-- Commits one after another. -/
def commitAll (streamNum : Nat) : List Nat → NacState → Except Fault NacState
  | [], st => .ok st
  | m :: ms, st => (nacTxStreamCommitBytes streamNum m st).bind fun r => commitAll streamNum ms r.2

/-- `nac_tx_start_stream`, and then commits. -/
def startAndCommit (streamNum : Nat) (sizes : List Nat) (st : NacState) : Except Fault NacState :=
  (nacTxStartStream streamNum st).bind fun r => commitAll streamNum sizes r.2

/-- How much of a list of commits is accepted: a commit of more than the ring is refused. -/
def committedTotal (size : Nat) (sizes : List Nat) : Nat := (sizes.filter (· ≤ size)).sum

/-- `limit` lies in the window of `size` bytes at `base`, at the committed total;
the two ends of the window are the same place. -/
def LimitAt (base size total limit : Nat) : Prop :=
  ∃ o, o ≤ size ∧ o ≡ total [MOD size] ∧ limit = u32 (base + o)

/-- RX stream `i` and its TX stream share one ring. -/
structure OverlapAgrees (i : Nat) (st : NacState) : Prop where
  buf : (st.sheep.stream (i + NUM_STREAM)).buf = (st.sheep.stream i).buf
  phyaddr : (st.sheep.stream (i + NUM_STREAM)).phyaddr = (st.sheep.stream i).phyaddr
  size : (st.sheep.stream (i + NUM_STREAM)).size = (st.sheep.stream i).size
  window : txWindow st i = rxWindow st i
  limits : ∀ sizes, ∃ st', startAndCommit (i + NUM_STREAM) sizes st = .ok st' ∧
    LimitAt (st.regs (rxPbm i).dmaBufStart) (st.sheep.stream i).size
      (committedTotal (st.sheep.stream i).size sizes) (st'.regs (txPbm i).limitPtr)

/-- Configure for overlap, attach the pair; `none` when one of the calls fails. -/
def overlapSetUp (env : Env) (numStream : Int) (i extraRx extraTx : Nat) (st : NacState) :
    Option NacState :=
  match nacInlineMsuConfigure env numStream OVERLAP_FWD st with
  | .ok (some (0, st)) =>
      match nacAttachStream env i extraRx st with
      | (0, st) =>
          match nacTxAttachStream env (i + NUM_STREAM) OVERLAP_FWD extraTx st with
          | (0, st) => some st
          | _ => none
      | _ => none
  | _ => none

/-- What must be in place before the set-up, for shares of `q` bytes: the TX slot
already has the address the RX ring is going to get (the answer to the next `mmap`
after the `2 * n` allocations) and its physical address, the card the TX end. -/
structure LeftOver (env : Env) (phy q n i : Nat) (st : NacState) : Prop where
  buf : env.mmap (st.clock + (n + n)) = some (st.sheep.stream (i + NUM_STREAM)).buf
  phyaddr : (st.sheep.stream (i + NUM_STREAM)).phyaddr = u32 (phy + i * q : Nat)
  stop : u32 (st.regs (txPbm i).dmaBufEnd) = u32 (phy + i * q + q : Nat)

/-! ## Limits -/

/-- The TX stream after a start and commits of `total` bytes. -/
structure Committed (i base q total : Nat) (st : NacState) : Prop where
  opened : st.sheep.opened = true
  attached : (st.sheep.stream (i + NUM_STREAM)).attached = true
  size : (st.sheep.stream (i + NUM_STREAM)).size = q
  phyaddr : (st.sheep.stream (i + NUM_STREAM)).phyaddr = base
  deref : derefPbm st (i + NUM_STREAM) = .ok (txPbm i)
  offset_le : (st.sheep.stream (i + NUM_STREAM)).offset ≤ q
  offset : (st.sheep.stream (i + NUM_STREAM)).offset ≡ total [MOD q]
  limit : st.regs (txPbm i).limitPtr = u32 (base + (st.sheep.stream (i + NUM_STREAM)).offset)

/-- The offset after an accepted commit. -/
theorem commitAdvance_offset {q m total : Nat} {s : StreamT} (hq : q < 2147483648)
    (hsize : s.size = q) (hm : m ≤ q) (hle : s.offset ≤ q) (hmod : s.offset ≡ total [MOD q]) :
    (commitAdvance m s).offset ≤ q ∧ (commitAdvance m s).offset ≡ total + m [MOD q] := by
  have hsum : u32 ((s.offset : Int) + m) = s.offset + m := by
    rw [← Nat.cast_add]
    exact u32_natCast (by omega)
  simp only [commitAdvance, hsum, hsize]
  split_ifs with hwrap
  · refine ⟨by omega, ?_⟩
    have hback : s.offset + m - q + q = s.offset + m := by omega
    have hq0 : s.offset + m - q ≡ s.offset + m [MOD q] := by
      unfold Nat.ModEq
      rw [← hback, Nat.add_mod_right, Nat.add_sub_cancel]
    exact hq0.trans (hmod.add_right m)
  · exact ⟨by omega, hmod.add_right m⟩

/-- **One commit**: refused, or the limit moves on by its size. -/
theorem Committed.commit {i base q total m : Nat} {st : NacState} (hi : i < NUM_STREAM)
    (hq : q < 2147483648) (h : Committed i base q total st) :
    ∃ r, nacTxStreamCommitBytes (i + NUM_STREAM) m st = .ok r ∧
      Committed i base q (if m ≤ q then total + m else total) r.2 := by
  have hstream : (decide (i + NUM_STREAM < NUM_STREAM) ||
      decide (i + NUM_STREAM > NUM_STREAM * 2 - 1)) = false := by
    simp only [NUM_STREAM] at hi ⊢
    simp
    omega
  by_cases hm : m ≤ q
  · have hrun : nacTxStreamCommitBytes (i + NUM_STREAM) m st =
        .ok (some (u64 (((commitAdvance m (st.sheep.stream (i + NUM_STREAM))).buf : Int) +
            (commitAdvance m (st.sheep.stream (i + NUM_STREAM))).offset)),
          regWrite (setStream st (i + NUM_STREAM) (commitAdvance m)) (txPbm i).limitPtr
            (commitAdvance m (st.sheep.stream (i + NUM_STREAM))).lastBusBottom) := by
      rw [nacTxStreamCommitBytes, hstream, h.opened, h.attached, h.size,
        if_neg (by simpa using hm)]
      dsimp only
      rw [@derefPbm_setStream (commitAdvance m) (fun _ => rfl), h.deref]
      simp only [setStream_self]
    obtain ⟨hle, hmod⟩ := commitAdvance_offset hq h.size hm h.offset_le h.offset
    refine ⟨_, hrun, ?_⟩
    rw [if_pos hm]
    refine ⟨h.opened, ?_, ?_, ?_, ?_, ?_, ?_, ?_⟩
    · simpa [commitAdvance] using h.attached
    · simpa [commitAdvance] using h.size
    · simpa [commitAdvance] using h.phyaddr
    · rw [derefPbm_regWrite, @derefPbm_setStream (commitAdvance m) (fun _ => rfl)]
      exact h.deref
    · simpa using hle
    · simpa using hmod
    · simp [commitAdvance, h.phyaddr]
  · refine ⟨(none, st), ?_, ?_⟩
    · rw [nacTxStreamCommitBytes, h.size, if_pos (by simp; omega)]
    · rw [if_neg hm]
      exact h

theorem committedTotal_cons (q m : Nat) (ms : List Nat) :
    committedTotal q (m :: ms) = (if m ≤ q then m else 0) + committedTotal q ms := by
  by_cases hm : m ≤ q
  · rw [committedTotal, List.filter_cons_of_pos (by simpa using hm), List.sum_cons, if_pos hm]
    rfl
  · rw [committedTotal, List.filter_cons_of_neg (by simpa using hm), if_neg hm, Nat.zero_add]
    rfl

/-- **Any commits.** -/
theorem Committed.commitAll {i base q : Nat} (hi : i < NUM_STREAM) (hq : q < 2147483648) :
    ∀ (sizes : List Nat) (total : Nat) (st : NacState), Committed i base q total st →
      ∃ st', commitAll (i + NUM_STREAM) sizes st = .ok st' ∧
        Committed i base q (total + committedTotal q sizes) st' := by
  intro sizes
  induction sizes with
  | nil => intro total st h; exact ⟨st, rfl, h⟩
  | cons m ms ih =>
      intro total st h
      obtain ⟨r, hr, hnext⟩ := @Committed.commit i base q total m st hi hq h
      obtain ⟨st', hst', hall⟩ := ih _ _ hnext
      refine ⟨st', ?_, ?_⟩
      · rw [Stream.commitAll, hr]
        exact hst'
      · rw [committedTotal_cons]
        split_ifs at hall ⊢
        · rwa [← Nat.add_assoc]
        · rwa [Nat.zero_add]

/-! ## The set-up -/

/-- What a successful set-up leaves of everything the agreement speaks about. -/
structure OverlapState (env : Env) (phy q n i : Nat) (st st' : NacState) : Prop where
  opened : st'.sheep.opened = true
  rx : SlotReady q (rxLayout phy q i) st'
  tx : SlotReady q (txLayout OVERLAP_FWD phy q i) st'
  rxBuf : env.mmap (st.clock + (n + n)) = some (st'.sheep.stream i).buf
  txBuf : (st'.sheep.stream (i + NUM_STREAM)).buf = (st.sheep.stream (i + NUM_STREAM)).buf
  rxPhyaddr : (st'.sheep.stream i).phyaddr = u32 (phy + i * q : Nat)
  txPhyaddr : (st'.sheep.stream (i + NUM_STREAM)).phyaddr =
    (st.sheep.stream (i + NUM_STREAM)).phyaddr
  txStop : st'.regs (txPbm i).dmaBufEnd = st.regs (txPbm i).dmaBufEnd
  attached : (st'.sheep.stream (i + NUM_STREAM)).attached = true
  started : (st'.sheep.stream (i + NUM_STREAM)).started = false
  offset : (st'.sheep.stream (i + NUM_STREAM)).offset = 0

/-- The TX end register is none of those an overlap configuration writes. -/
theorem txEnd_untouched {n phy q : Nat} (i : Nat) (hn : n ≤ NUM_STREAM) :
    ¬ ((txPbm i).dmaBufEnd = BYPASS_EN_AND_CAP_START ∨
      (∃ j < n, (rxLayout phy q j).writes (txPbm i).dmaBufEnd) ∨
        ∃ j < n, (txLayout OVERLAP_FWD phy q j).writes (txPbm i).dmaBufEnd) := by
  simp only [NUM_STREAM] at hn
  rintro (h | ⟨j, hj, h⟩ | ⟨j, hj, h⟩)
  · simp only [txPbm, TX_BUF_BOTTOM_LO_REG, BYPASS_EN_AND_CAP_START, STREAM_REG_DIFF_0x40] at h
    omega
  · simp only [SlotLayout.writes, rxLayout, txPbm, rxPbm, TX_BUF_BOTTOM_LO_REG, HOST_ADDR_LO_REG,
      BUF_BOTTOM_LO_REG, DMA_CTL_REG, STREAM_REG_DIFF_0x40] at h
    omega
  · simp only [SlotLayout.writes, txLayout_overlap, txPbm, rxPbm, TX_BUF_BOTTOM_LO_REG,
      TX_HOST_ADDR_LO_REG, TX_DMA_CTL_REG, BUF_BOTTOM_LO_REG, STREAM_REG_DIFF_0x40] at h
    omega

theorem overlapSetUp_some {env : Env} {numStream : Int} {i extraRx extraTx : Nat}
    {st st' : NacState} (h : overlapSetUp env numStream i extraRx extraTx st = some st') :
    ∃ s1 s2, nacInlineMsuConfigure env numStream OVERLAP_FWD st = .ok (some (0, s1)) ∧
      nacAttachStream env i extraRx s1 = (0, s2) ∧
      nacTxAttachStream env (i + NUM_STREAM) OVERLAP_FWD extraTx s2 = (0, st') := by
  unfold overlapSetUp at h
  split at h
  · split at h
    · split at h
      · cases h
        exact ⟨_, _, by assumption, by assumption, by assumption⟩
      · cases h
    · cases h
  · cases h

/-- **What the three calls come to.** -/
theorem overlapSetUp_state {env : Env} {numStream : Int} {phy b i extraRx extraTx : Nat}
    {st st' : NacState} (hinf : st.sheep.nacinf = ⟨phy, b⟩) (hb : b < 4294967296)
    (hi : i < numStream.toNat)
    (h : overlapSetUp env numStream i extraRx extraTx st = some st') :
    OverlapState env phy (b / NUM_STREAM) numStream.toNat i st st' := by
  obtain ⟨s1, s2, hconf, hrx, htx⟩ := overlapSetUp_some h
  obtain ⟨⟨-, hle, hopen⟩, hready⟩ := nacInlineMsuConfigure_ready hinf hb rfl hconf
  have hn : numStream.toNat ≤ NUM_STREAM := by omega
  have hq : b / NUM_STREAM < 2147483648 := by
    simp only [NUM_STREAM]
    omega
  rw [if_pos rfl] at hready
  generalize numStream.toNat = n at hi hready hn ⊢
  generalize b / NUM_STREAM = q at hq hready ⊢
  have hi8 : i ≠ i + NUM_STREAM := by simp [NUM_STREAM]
  -- the RX side
  have hopen1 : s1.sheep.opened = true := hready.setUp.opened.trans hopen
  have hsize1 : (s1.sheep.stream i).size = q := (hready.rx i hi).size
  obtain ⟨hframe1, hring⟩ := nacAttachStream_attached hopen1 hsize1 hq hrx
  have hopen2 : s2.sheep.opened = true := hframe1.shares.opened.trans hopen1
  have htx2 : s2.sheep.stream (i + NUM_STREAM) = s1.sheep.stream (i + NUM_STREAM) :=
    hframe1.others _ hi8.symm
  have hrx2 := (hready.rx i hi).attach hframe1
  have htxr2 := (hready.tx i hi).attach hframe1
  have hphy := hring.phyaddr (hready.setUp.inf.trans hinf)
  -- the TX side
  have hsize2 : (s2.sheep.stream (i + NUM_STREAM)).size = q := htxr2.size
  rw [nacTxAttachStream_eq hopen2 (Nat.le_add_left _ _) hsize2 hq, if_pos rfl,
    attachOverlap] at htx
  split_ifs at htx with hextra
  · cases htx
  · have hst' : setStream (setStream s2 (i + NUM_STREAM) attachDefaults) (i + NUM_STREAM)
        (markOverlap (extraOf q extraTx)) = st' := congrArg Prod.snd htx
    subst hst'
    have hframe2 : AttachFrame (i + NUM_STREAM) s2
        (setStream (setStream s2 (i + NUM_STREAM) attachDefaults) (i + NUM_STREAM)
          (markOverlap (extraOf q extraTx))) :=
      (AttachFrame.defaults s2 _).trans
        (@AttachFrame.setStream (markOverlap _) (fun _ => rfl) (fun _ => rfl) _ _)
    refine ⟨hopen2, hrx2.attach hframe2, htxr2.attach hframe2, ?_, ?_, ?_, ?_, ?_, ?_, ?_, ?_⟩
    · rw [hframe2.others i hi8, ← hready.setUp.clock]
      exact hring.addr
    · simp only [setStream_self, markOverlap, attachDefaults]
      rw [htx2, hready.setUp.buf]
    · rw [hframe2.others i hi8, hphy]
    · simp only [setStream_self, markOverlap, attachDefaults]
      rw [htx2, hready.setUp.phyaddr]
    · rw [hframe2.regs, hframe1.regs]
      exact hready.setUp.regs _ (txEnd_untouched i hn)
    · simp [markOverlap]
    · simp [markOverlap]
    · simp [markOverlap]

/-! ## The agreement, exactly -/

/-- Windows with the same start are the same when their ends are. -/
theorem regWindow_eq_iff {regs : Nat → Nat} {a1 b1 a2 b2 s q : Nat} (hq : q < 4294967296)
    (h1 : regs a1 = s) (h2 : regs a2 = s) (hb2 : regs b2 = u32 (s + q)) :
    regWindow regs a1 b1 = regWindow regs a2 b2 ↔ u32 (regs b1) = u32 (s + q : Nat) := by
  have hlen : u32 ((u32 ((s : Int) + q) : Int) - s) = q := u32_add_sub_cancel hq
  rw [regWindow, regWindow, h1, h2, hb2, hlen]
  generalize regs b1 = e
  have hiff : u32 ((e : Int) - s) = q ↔ u32 (e : Int) = u32 (s + q : Nat) := by
    unfold u32
    push_cast
    omega
  rw [← hiff]
  generalize u32 ((e : Int) - s) = l
  constructor
  · intro h
    have hmem (x : Nat) : (s ≤ x ∧ x < s + l) ↔ (s ≤ x ∧ x < s + q) := by
      rw [← Set.mem_Ico, ← Set.mem_Ico, h]
    have hl := hmem (s + l)
    have hq' := hmem (s + q)
    omega
  · intro h
    rw [h]

/-- The limits follow once the TX stream records the window's start. -/
theorem OverlapState.limits {env : Env} {phy q n i : Nat} {st st' : NacState} (hi : i < NUM_STREAM)
    (hq : q < 2147483648) (h : OverlapState env phy q n i st st')
    (hphy : (st'.sheep.stream (i + NUM_STREAM)).phyaddr = u32 (phy + i * q : Nat))
    (sizes : List Nat) : ∃ s, startAndCommit (i + NUM_STREAM) sizes st' = .ok s ∧
      LimitAt (st'.regs (rxPbm i).dmaBufStart) (st'.sheep.stream i).size
        (committedTotal (st'.sheep.stream i).size sizes) (s.regs (txPbm i).limitPtr) := by
  have hbase : st'.regs (rxPbm i).dmaBufStart = u32 (phy + i * q : Nat) := h.rx.start
  have hsize : (st'.sheep.stream i).size = q := h.rx.size
  have hderef : derefPbm st' (i + NUM_STREAM) = .ok (txPbm i) := h.tx.deref
  have hne : (txPbm i).limitPtr ≠ (txPbm i).dmaCtlReg := by
    simp only [txPbm, TX_LIMIT_PTR_LO_REG, TX_DMA_CTL_REG]
    omega
  have htxsize : (st'.sheep.stream (i + NUM_STREAM)).size = q := h.tx.size
  have hlt := u32_lt ((phy + i * q : Nat) : Int)
  rw [hbase, hsize]
  generalize u32 (phy + i * q : Nat) = base at hphy hlt
  have hstart : nacTxStartStream (i + NUM_STREAM) st' =
      .ok (0, startWrites (txPbm i) (i + NUM_STREAM) base st') := by
    rw [nacTxStartStream, hderef]
    simp [h.opened, h.attached, h.started, hphy]
  have hcommitted : Committed i base q 0 (startWrites (txPbm i) (i + NUM_STREAM) base st') := by
    have hoffset : ((startWrites (txPbm i) (i + NUM_STREAM) base st').sheep.stream
        (i + NUM_STREAM)).offset = 0 := by simpa [startWrites, markStarted] using h.offset
    refine ⟨h.opened, ?_, ?_, ?_, ?_, ?_, ?_, ?_⟩
    · simpa [startWrites, markStarted] using h.attached
    · simpa [startWrites, markStarted] using htxsize
    · simpa [startWrites, markStarted] using hphy
    · rw [startWrites, @derefPbm_setStream markStarted (fun _ => rfl)]
      exact hderef
    · rw [hoffset]
      exact Nat.zero_le q
    · rw [hoffset]
    · rw [hoffset, startWrites, setStream_regs, regWrite_ne hne, regWrite_self]
      exact (u32_natCast hlt).symm
  obtain ⟨s, hs, hfinal⟩ := hcommitted.commitAll hi hq sizes
  refine ⟨s, ?_, _, hfinal.offset_le, ?_, hfinal.limit⟩
  · rw [startAndCommit, hstart]
    exact hs
  · simpa using hfinal.offset

/-- **Overlap agreement, exactly**: on every card, in whatever state it is, and for
every accepted number of streams, the pair shares its ring after the set-up if and
only if the TX slot and the card's TX end register already said so before it. -/
theorem overlapAgrees_iff {env : Env} {numStream : Int} {phy b i extraRx extraTx : Nat}
    {st st' : NacState} (hinf : st.sheep.nacinf = ⟨phy, b⟩) (hb : b < 4294967296)
    (hi : i < numStream.toNat)
    (h : overlapSetUp env numStream i extraRx extraTx st = some st') :
    OverlapAgrees i st' ↔ LeftOver env phy (b / NUM_STREAM) numStream.toNat i st := by
  have hstate := overlapSetUp_state hinf hb hi h
  obtain ⟨s1, -, hconf, -, -⟩ := overlapSetUp_some h
  obtain ⟨⟨-, hle, -⟩, -⟩ := nacInlineMsuConfigure_ready hinf hb rfl hconf
  have hi8 : i < NUM_STREAM := by omega
  have hq : b / NUM_STREAM < 2147483648 := by
    simp only [NUM_STREAM]
    omega
  generalize b / NUM_STREAM = q at hq hstate ⊢
  have hwindow : txWindow st' i = rxWindow st' i ↔
      u32 (st.regs (txPbm i).dmaBufEnd) = u32 (phy + i * q + q : Nat) := by
    have htxstart : st'.regs (txPbm i).dmaBufStart = u32 (phy + i * q : Nat) := hstate.tx.start
    have hrxstart : st'.regs (rxPbm i).dmaBufStart = u32 (phy + i * q : Nat) := hstate.rx.start
    have hrxstop : st'.regs (rxPbm i).dmaBufEnd = u32 ((u32 (phy + i * q : Nat) : Int) + q) :=
      hstate.rx.stop
    rw [txWindow, rxWindow, regWindow_eq_iff (by omega) htxstart hrxstart hrxstop, hstate.txStop]
    have hend : u32 ((u32 (phy + i * q : Nat) + q : Nat) : Int) = u32 (phy + i * q + q : Nat) := by
      rw [Nat.cast_add, u32_add_u32, ← Nat.cast_add]
    exact ⟨fun hsame => hsame.trans hend, fun hsame => hsame.trans hend.symm⟩
  have hrxsize : (st'.sheep.stream i).size = q := hstate.rx.size
  have htxsize : (st'.sheep.stream (i + NUM_STREAM)).size = q := hstate.tx.size
  constructor
  · intro hagree
    refine ⟨?_, ?_, hwindow.1 hagree.window⟩
    · rw [hstate.rxBuf, ← hstate.txBuf, hagree.buf]
    · rw [← hstate.txPhyaddr, hagree.phyaddr, hstate.rxPhyaddr]
  · intro hleft
    have hphy := hstate.txPhyaddr.trans hleft.phyaddr
    have hbuf := hstate.rxBuf.symm.trans hleft.buf
    refine ⟨?_, ?_, ?_, hwindow.2 hleft.stop, hstate.limits hi8 hq hphy⟩
    · rw [hstate.txBuf]
      exact (Option.some.inj hbuf).symm
    · rw [hphy, hstate.rxPhyaddr]
    · rw [htxsize, hrxsize]

/-- **A fresh card never meets the condition**: its registers and its TX slots are
zero, and the window of a share that is not empty cannot both start and end there. -/
theorem freshCard_not_leftOver (env : Env) (phy n i : Nat) {b : Nat} (hb : NUM_STREAM ≤ b)
    (hb2 : b < 4294967296) : ¬ LeftOver env phy (b / NUM_STREAM) n i (freshCard phy b) := by
  intro h
  have hq : 0 < b / NUM_STREAM ∧ b / NUM_STREAM < 4294967296 := by
    simp only [NUM_STREAM] at hb ⊢
    omega
  have hstart := h.phyaddr
  have hstop := h.stop
  generalize b / NUM_STREAM = q at hq hstart hstop
  simp only [freshCard, u32] at hstart hstop
  push_cast at hstart hstop
  generalize (phy : Int) + i * q = x at hstart hstop
  omega

/-- One stream on a 64 MB buffer: the ring is mapped at `0x42000000`, the TX slot
still says `NULL`. -/
theorem overlap_oneStream_disagrees :
    ∃ st', overlapSetUp grantAll 1 0 0 0 (freshCard 0x10000000 0x4000000) = some st' ∧
      ¬ OverlapAgrees 0 st' := by
  have hbufs : (overlapSetUp grantAll 1 0 0 0 (freshCard 0x10000000 0x4000000)).map
      (fun s => ((s.sheep.stream 8).buf, (s.sheep.stream 0).buf)) = some (0, 0x42000000) := by
    decide +kernel
  obtain ⟨st', hst', hpair⟩ := Option.map_eq_some_iff.1 hbufs
  refine ⟨st', hst', ?_⟩
  intro hagree
  have hbuf : (st'.sheep.stream 8).buf = (st'.sheep.stream 0).buf := hagree.buf
  rw [(Prod.mk.inj hpair).1, (Prod.mk.inj hpair).2] at hbuf
  exact absurd hbuf (by decide)

/-- The same card with the slot and the register prepared by hand. -/
def preparedCard : NacState :=
  setStream (regWrite (freshCard 0x10000000 0x4000000) (txPbm 0).dmaBufEnd 0x10800000) 8
    fun s => { s with buf := 0x42000000, phyaddr := 0x10000000 }

/-- On it the pair does share its ring. -/
theorem overlap_prepared_agrees :
    ∃ st', overlapSetUp grantAll 1 0 0 0 preparedCard = some st' ∧ OverlapAgrees 0 st' := by
  have hsome : (overlapSetUp grantAll 1 0 0 0 preparedCard).isSome = true := by decide +kernel
  obtain ⟨st', hst'⟩ := Option.isSome_iff_exists.1 hsome
  refine ⟨st', hst', (@overlapAgrees_iff grantAll 1 0x10000000 0x4000000 0 0 0 preparedCard
    st' rfl (by decide) (by decide) hst').2 ⟨?_, ?_, ?_⟩⟩
  · decide +kernel
  · decide +kernel
  · decide +kernel

end NacCard.Stream
