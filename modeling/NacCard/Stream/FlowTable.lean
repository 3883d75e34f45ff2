import NacCard.Stream.Agreement

/-!
# The flow-table slot

The flow-table functions use `herd[nacfd].stream[NUM_STREAM * 2]`; the two
configuring calls allocate the register addresses of slot `num_stream`, which is
at most `NUM_STREAM`.

* `Configured` — a successful `nac_msu_configure`, or `nac_proc_init` followed by
  `nac_proc_rft_config`.
* `Configured.slot` — neither touches slot `NUM_STREAM * 2`.
* `flowTable_disagrees` — so the slot that is attached and started is never the
  one that was configured, and on a descriptor that had nothing in it starting
  reads through a null pointer.
-/

namespace NacCard.Stream

open NacCard.Base

/-! ## The slot is left alone -/

theorem mallocPbm_stream_ne {env : Env} {i j : Nat} {p : NacPbmStream} {st st' : NacState}
    {ok : Bool} (hij : i ≠ j) (h : mallocPbm env j p st = (ok, st')) :
    st'.sheep.stream i = st.sheep.stream i := by
  unfold mallocPbm at h
  split at h
  · have hst' := congrArg Prod.snd h
    subst hst'
    exact setStream_ne hij
  · have hst' := congrArg Prod.snd h
    subst hst'
    exact setStream_ne hij

theorem msuStream_stream_ne {env : Env} {phy i j : Nat} {q : Int} {st st' : NacState}
    (hij : i ≠ j) (h : msuStream env phy q j st = (true, st')) :
    st'.sheep.stream i = st.sheep.stream i := by
  obtain ⟨st1, hm, rfl⟩ := msuStream_ok h
  rw [programRx_sheep, setStream_ne hij]
  exact mallocPbm_stream_ne hij hm

/-- A loop over the streams below `n` leaves slot `i ≥ n` alone. -/
theorem runFor_stream_ne {body : Nat → NacState → Bool × NacState} {i n : Nat}
    (hbody : ∀ j st st', i ≠ j → body j st = (true, st') →
      st'.sheep.stream i = st.sheep.stream i) (hn : n ≤ i) {st st' : NacState}
    (h : runFor body (List.range' 0 n) st = (true, st')) :
    st'.sheep.stream i = st.sheep.stream i := by
  refine runFor_induct (fun j s => j ≤ n → s.sheep.stream i = st.sheep.stream i)
    (fun j s s' hs hrun hj => ?_) n 0 st st' (fun _ => rfl) h (by omega)
  exact (hbody j s s' (by omega) hrun).trans (hs (by omega))

theorem nacMsuConfigure_slot {env : Env} {numStream : Int} {i : Nat} {st st' : NacState}
    (hi : NUM_STREAM < i) (h : nacMsuConfigure env numStream st = .ok (0, st')) :
    st'.sheep.stream i = st.sheep.stream i := by
  obtain ⟨hbad, -, st1, st2, hloop, hm, rfl⟩ := nacMsuConfigure_ok h
  have hn := accepted_iff.1 hbad
  have hi' : numStream.toNat < i := by
    simp only [NUM_STREAM] at hi
    omega
  have hst1 := runFor_stream_ne (fun j s s' => msuStream_stream_ne) hi'.le hloop
  rw [markConfigured_stream, programRft_sheep, setStream_ne hi'.ne']
  exact (mallocPbm_stream_ne hi'.ne' hm).trans hst1

theorem runFor_sheep {body : Nat → NacState → Bool × NacState}
    (hbody : ∀ j st, body j st = (true, (body j st).2) ∧ (body j st).2.sheep = st.sheep)
    (is : List Nat) (st : NacState) : (runFor body is st).2.sheep = st.sheep := by
  induction is generalizing st with
  | nil => rfl
  | cons j js ih =>
      obtain ⟨hrun, hsheep⟩ := hbody j st
      rw [runFor, hrun]
      exact (ih (body j st).2).trans hsheep

theorem nacProcInit_slot {numStream : Int} {i : Nat} {st st' : NacState}
    (h : nacProcInit numStream st = .ok (0, st')) :
    st'.sheep.stream i = st.sheep.stream i := by
  have hclear := @runFor_sheep clearLoop fun j s => ⟨rfl, rfl⟩
  have hproc : ∀ phy q, ∀ (is : List Nat) (s : NacState),
      (runFor (procStream phy q) is s).2.sheep = s.sheep :=
    fun phy q => runFor_sheep fun j s => ⟨rfl, rfl⟩
  unfold nacProcInit at h
  split_ifs at h with hbad hopen
  · cases h
  · simp only [Except.ok.injEq, Prod.mk.injEq, true_and] at h
    subst h
    dsimp only
    rw [hclear, programRft_sheep, hproc, hclear, captureStop_sheep]

theorem nacProcRftConfig_slot {env : Env} {numStream : Int} {i : Nat} {st st' : NacState}
    (hi : i ≠ u32 numStream) (h : nacProcRftConfig env numStream st = .ok (0, st')) :
    st'.sheep.stream i = st.sheep.stream i := by
  unfold nacProcRftConfig at h
  split_ifs at h with hopen
  dsimp only at h
  cases hm : mallocPbm env (u32 numStream) rftPbm st with
  | mk ok st1 =>
      rw [hm] at h
      cases ok with
      | false => cases h
      | true =>
          simp only [Except.ok.injEq, Prod.mk.injEq, true_and] at h
          subst h
          rw [setStream_ne hi]
          exact mallocPbm_stream_ne hi hm

/-! ## Configured, attached, started -/

/-- A successful configuration for `numStream` streams, on either path. -/
inductive Configured (env : Env) (numStream : Int) (st st' : NacState) : Prop
  | msu : nacMsuConfigure env numStream st = .ok (0, st') → Configured env numStream st st'
  | proc {stm : NacState} : nacProcInit numStream st = .ok (0, stm) →
      nacProcRftConfig env numStream stm = .ok (0, st') → Configured env numStream st st'

/-- **No configuration touches slot `NUM_STREAM * 2`.** -/
theorem Configured.slot {env : Env} {numStream : Int} {st st' : NacState}
    (h : Configured env numStream st st') :
    st'.sheep.stream RFT_NUM = st.sheep.stream RFT_NUM := by
  cases h with
  | msu hrun => exact nacMsuConfigure_slot (by decide) hrun
  | proc hinit hrft =>
      have hacc : badNumStream numStream = false := by
        by_contra hbad
        rw [nacProcInit, if_pos (by simpa using hbad)] at hinit
        simp at hinit
      have hne : RFT_NUM ≠ u32 numStream := by
        have hn := accepted_iff.1 hacc
        simp only [RFT_NUM, NUM_STREAM]
        unfold u32
        omega
      exact (nacProcRftConfig_slot hne hrft).trans (nacProcInit_slot hinit)

/-- The configuration gave slot `i` its register addresses.  They lie in a block
of their own, so a slot that was given some points elsewhere than before. -/
def PbmSet (i : Nat) (st st' : NacState) : Prop :=
  (st'.sheep.stream i).pbm ≠ (st.sheep.stream i).pbm

/-- Attaching and starting the flow table after a configuration: the slot is one
the configuration set, the bytes mapped are the programmed window, and the two
limits written are its middle and its end. -/
structure FlowTableAgrees (env : Env) (phy : Nat) (st st' : NacState) : Prop where
  slot : PbmSet RFT_NUM st st'
  window : ∀ st2, nacRftAttachStream env st' = (0, st2) →
    ∃ m a, st2.maps = m :: a :: st'.maps ∧ m.device = true ∧ m.deviceRange phy = rftWindow st'
  limits : ∀ st2, nacRftAttachStream env st' = (0, st2) → ∀ readings limits st3,
    nacRftStart readings st2 = .ok (some (limits, st3)) →
      limits = [u32 (st'.regs RFT_HOST_ADDR_LO_REG + RFT_SIZE / 2), st'.regs RFT_BUF_BOTTOM_LO_REG]

/-- Attaching the flow table leaves the register addresses of the slot as they are. -/
theorem nacRftAttachStream_pbm (env : Env) (st : NacState) :
    ((nacRftAttachStream env st).2.sheep.stream RFT_NUM).pbm = (st.sheep.stream RFT_NUM).pbm := by
  have hdefaults : ((setStream st RFT_NUM rftDefaults).sheep.stream RFT_NUM).pbm =
      (st.sheep.stream RFT_NUM).pbm := by rw [setStream_self, rftDefaults]
  unfold nacRftAttachStream
  split
  · rfl
  · dsimp only
    rcases h1 : doMmap env none RFT_SIZE false 0 (setStream st RFT_NUM rftDefaults) with ⟨_ | sp, st1⟩
    · dsimp only
      rw [doMmap_sheep_eq h1, hdefaults]
    · dsimp only
      rcases h2 : doMmap env (some sp) RFT_SIZE true
          (u32 (shareOf st.sheep.nacinf.bufSize RFT_NUM * RFT_NUM)) st1 with ⟨_ | p, st2⟩
      · dsimp only
        rw [doMmap_sheep_eq h2, doMmap_sheep_eq h1, hdefaults]
      · dsimp only
        rw [setStream_self, markRftAttached, doMmap_sheep_eq h2, doMmap_sheep_eq h1, hdefaults]

/-- Where no `mmap` fails, an open descriptor attaches. -/
theorem nacRftAttachStream_total {env : Env} (henv : ∀ k, (env.mmap k).isSome) {st : NacState}
    (hopen : st.sheep.opened = true) : (nacRftAttachStream env st).1 = 0 := by
  have hmap : ∀ addr len device off s, ∃ p s', doMmap env addr len device off s = (some p, s') := by
    intro addr len device off s
    obtain ⟨a, ha⟩ := Option.isSome_iff_exists.1 (henv s.clock)
    rw [doMmap, ha]
    exact ⟨_, _, rfl⟩
  unfold nacRftAttachStream
  rw [hopen]
  simp only [Bool.not_true, Bool.false_eq_true, if_false]
  obtain ⟨sp, st1, h1⟩ := hmap none RFT_SIZE false 0 (setStream st RFT_NUM rftDefaults)
  obtain ⟨p, st2, h2⟩ := hmap (some sp) RFT_SIZE true
    (u32 (shareOf st.sheep.nacinf.bufSize RFT_NUM * RFT_NUM)) st1
  rw [h1]
  dsimp only
  rw [h2]

/-- Without register addresses in the slot `nac_rft_start` reads through a null pointer. -/
theorem nacRftStart_null {st : NacState} (h : (st.sheep.stream RFT_NUM).pbm = none)
    (readings : List (Nat × Nat)) : nacRftStart readings st = .error .badPointer := by
  rw [nacRftStart, derefPbm, h]
  rfl

/-- **The flow table that is attached is never the one that was configured**,
whatever the buffer, the number of streams and the path; and if the slot was
empty before, starting it reads through a null pointer. -/
theorem flowTable_disagrees (env env' : Env) (numStream : Int) (phy : Nat) {st st' : NacState}
    (h : Configured env numStream st st') :
    ¬ FlowTableAgrees env' phy st st' ∧
      ((st.sheep.stream RFT_NUM).pbm = none → ∀ readings,
        nacRftStart readings (nacRftAttachStream env' st').2 = .error .badPointer) := by
  refine ⟨?_, ?_⟩
  · intro hagree
    exact hagree.slot (by rw [h.slot])
  · intro hnull readings
    refine nacRftStart_null ?_ readings
    rw [nacRftAttachStream_pbm, h.slot, hnull]

/-- Eight streams on a 64 MB buffer, configured through `nac_msu_configure`. -/
theorem eightStreams_flowTable_disagrees :
    ∃ st', Configured grantAll 8 (freshCard 0x10000000 0x4000000) st' ∧
      ¬ FlowTableAgrees grantAll 0x10000000 (freshCard 0x10000000 0x4000000) st' := by
  obtain ⟨st', hrun⟩ := @nacMsuConfigure_total grantAll (fun _ => rfl) 8 (by decide)
    (freshCard 0x10000000 0x4000000) rfl
  exact ⟨st', .msu hrun, (flowTable_disagrees grantAll grantAll 8 0x10000000 (.msu hrun)).1⟩

/-- **Every call returns success and then the card's driver faults**: on a fresh
descriptor with a 64 MB buffer and eight streams, configured and attached, the
flow table cannot be started. -/
theorem eightStreams_rftStart_faults :
    ∃ st', nacMsuConfigure grantAll 8 (freshCard 0x10000000 0x4000000) = .ok (0, st') ∧
      ¬ FlowTableAgrees grantAll 0x10000000 (freshCard 0x10000000 0x4000000) st' ∧
      (nacRftAttachStream grantAll st').1 = 0 ∧
      nacRftStart [(0, 1), (1, 1)] (nacRftAttachStream grantAll st').2 = .error .badPointer := by
  obtain ⟨st', hrun⟩ := @nacMsuConfigure_total grantAll (fun _ => rfl) 8 (by decide)
    (freshCard 0x10000000 0x4000000) rfl
  have hslot := (Configured.msu hrun).slot
  have hready := @nacMsuConfigure_ready grantAll 8 0x10000000 0x4000000 _ _ rfl (by decide)
    (by decide) (by decide) hrun
  refine ⟨st', hrun, ?_, ?_, ?_⟩
  · exact fun hagree => hagree.slot (by rw [hslot])
  · exact nacRftAttachStream_total (fun _ => rfl) hready.streams.opened
  · refine nacRftStart_null ?_ _
    rw [nacRftAttachStream_pbm, hslot]
    rfl

end NacCard.Stream
