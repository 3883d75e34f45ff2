import NacCard.Stream.Configure

/-!
# The DMA windows agree

Which windows `nacMsuConfigure` programs, and that they fit side by side in the
card's buffer.

* `rxWindow`, `rftWindow` — the byte ranges the window registers span.
* `StreamReady` and its frame rule — one stream's window, size and register
  addresses, and what leaves them alone.
* `nacMsuConfigure_ready` — after a successful call stream `i` owns the `i`-th
  share of the buffer and the flow table the bytes behind the last share.
* `WindowsSeparate` and `MsuReady.separate` — all of them lie inside the buffer
  and no two overlap.
-/

namespace NacCard.Stream

open NacCard.Base

/-! ## Windows -/

/-- The byte range between two window registers, read modulo `2 ^ 32` as the card
does: a window that ends at the top of the address space has end register 0. -/
def regWindow (regs : Nat → Nat) (startReg endReg : Nat) : Set Nat :=
  Set.Ico (regs startReg) (regs startReg + u32 (regs endReg - regs startReg))

/-- The capture window of stream `i`. -/
def rxWindow (st : NacState) (i : Nat) : Set Nat :=
  regWindow st.regs (rxPbm i).dmaBufStart (rxPbm i).dmaBufEnd

/-- The refresh-flow-table window. -/
def rftWindow (st : NacState) : Set Nat :=
  regWindow st.regs RFT_HOST_ADDR_LO_REG RFT_BUF_BOTTOM_LO_REG

/-- The physical bytes behind a mapping of the card's buffer. -/
def Mapping.deviceRange (phyAddr : Nat) (m : Mapping) : Set Nat :=
  Set.Ico (phyAddr + m.off).toNat ((phyAddr + m.off).toNat + m.len)

theorem regWindow_eq {regs : Nat → Nat} {a b s l : Nat} (ha : regs a = s)
    (hb : regs b = u32 (s + l)) (hl : l < 4294967296) :
    regWindow regs a b = Set.Ico s (s + l) := by
  rw [regWindow, ha, hb, u32_add_sub_cancel hl]

/-- The share of each stream, when the buffer holds more than the flow table. -/
theorem shareOf_eq {b n : Nat} (hb : RFT_SIZE < b) (hb2 : b < 2147483648) (hn : n ≤ 16) :
    shareOf b n = ((b - RFT_SIZE) / n : Nat) := by
  have hq : (b - RFT_SIZE) / n ≤ b - RFT_SIZE := Nat.div_le_self _ _
  have hsub : u32 ((b : Int) - RFT_SIZE) = b - RFT_SIZE := by
    unfold u32
    omega
  rw [shareOf, hsub, u32_natCast (by omega)]
  generalize (b - RFT_SIZE) / n = q at hq ⊢
  exact i32_of_mem (by omega) (by omega)

/-- `n` shares fit in front of the flow table. -/
theorem share_mul_le (b n : Nat) : n * ((b - RFT_SIZE) / n) ≤ b - RFT_SIZE :=
  Nat.mul_div_le _ _

theorem accepted_iff {numStream : Int} :
    badNumStream numStream = false ↔ 0 < numStream ∧ numStream ≤ 8 ∧ numStream ≠ 3 := by
  simp [badNumStream, NUM_STREAM]
  omega

/-! ## What `nac_msu_configure` sets up -/

/-- Stream `i` has its window, its size and its register addresses. -/
structure StreamReady (phy q i : Nat) (st : NacState) : Prop where
  start : st.regs (rxPbm i).dmaBufStart = phy + i * q
  stop : st.regs (rxPbm i).dmaBufEnd = u32 ((phy + i * q : Nat) + q)
  size : (st.sheep.stream i).size = q
  pbm : ∃ p, (st.sheep.stream i).pbm = some p ∧ p < st.brk ∧ st.heap p = some (rxPbm i)

/-- The first `k` streams are ready, and the card is the one it was. -/
structure StreamsReady (phy q b k : Nat) (st : NacState) : Prop where
  opened : st.sheep.opened = true
  inf : st.sheep.nacinf = ⟨phy, b⟩
  ready : ∀ i < k, StreamReady phy q i st

/-- **The frame rule.**  A stream stays ready under whatever leaves its two window
registers, its record and the blocks already allocated alone. -/
theorem StreamReady.frame {phy q i : Nat} {st st' : NacState} (hr : StreamReady phy q i st)
    (h1 : st'.regs (rxPbm i).dmaBufStart = st.regs (rxPbm i).dmaBufStart)
    (h2 : st'.regs (rxPbm i).dmaBufEnd = st.regs (rxPbm i).dmaBufEnd)
    (hsize : (st'.sheep.stream i).size = (st.sheep.stream i).size)
    (hpbm : (st'.sheep.stream i).pbm = (st.sheep.stream i).pbm) (hbrk : st.brk ≤ st'.brk)
    (hheap : ∀ p, p < st.brk → st'.heap p = st.heap p) : StreamReady phy q i st' := by
  obtain ⟨p, hp, hlt, hblock⟩ := hr.pbm
  refine ⟨h1.trans hr.start, h2.trans hr.stop, hsize.trans hr.size, p, hpbm.trans hp, ?_, ?_⟩
  · omega
  · rw [hheap p hlt]
    exact hblock

theorem mallocPbm_ok {env : Env} {i : Nat} {p : NacPbmStream} {st st' : NacState}
    (h : mallocPbm env i p st = (true, st')) :
    st' = setStream
      { st with
        heap := Function.update st.heap st.brk (some p)
        brk := st.brk + 1
        clock := st.clock + 1 }
      i (fun s => { s with pbm := some st.brk }) := by
  unfold mallocPbm at h
  split at h
  · exact (congrArg Prod.snd h).symm
  · cases h

theorem StreamReady.mallocPbm {phy q i j : Nat} {env : Env} {p : NacPbmStream}
    {st st' : NacState} (hr : StreamReady phy q i st) (hij : i ≠ j)
    (h : mallocPbm env j p st = (true, st')) : StreamReady phy q i st' := by
  rw [mallocPbm_ok h]
  refine hr.frame rfl rfl ?_ ?_ (Nat.le_succ _) ?_
  · simp [setStream, hij]
  · simp [setStream, hij]
  · intro a ha
    exact Function.update_of_ne ha.ne _ _

theorem StreamReady.setStream {phy q i j : Nat} {f : StreamT → StreamT} {st : NacState}
    (hr : StreamReady phy q i st) (hij : i ≠ j) : StreamReady phy q i (setStream st j f) :=
  hr.frame rfl rfl (by rw [setStream_ne hij]) (by rw [setStream_ne hij]) le_rfl fun _ _ => rfl

theorem StreamReady.regWrite {phy q i a v : Nat} {st : NacState} (hr : StreamReady phy q i st)
    (h1 : (rxPbm i).dmaBufStart ≠ a) (h2 : (rxPbm i).dmaBufEnd ≠ a) :
    StreamReady phy q i (regWrite st a v) :=
  hr.frame (regWrite_ne h1) (regWrite_ne h2) rfl rfl le_rfl fun _ _ => rfl

/-- The registers of different streams are different, and a window register is
neither a control nor a limit register. -/
theorem rxPbm_start_ne (i j : Nat) : (rxPbm i).dmaBufStart ≠ (rxPbm j).dmaBufEnd ∧
    (rxPbm i).dmaBufStart ≠ (rxPbm j).dmaCtlReg ∧ (rxPbm i).dmaBufStart ≠ (rxPbm j).limitPtr ∧
    (i ≠ j → (rxPbm i).dmaBufStart ≠ (rxPbm j).dmaBufStart) := by
  simp only [rxPbm, HOST_ADDR_LO_REG, BUF_BOTTOM_LO_REG, DMA_CTL_REG, LIMIT_PTR_LO_REG,
    STREAM_REG_DIFF_0x40]
  omega

theorem rxPbm_end_ne (i j : Nat) : (rxPbm i).dmaBufEnd ≠ (rxPbm j).dmaBufStart ∧
    (rxPbm i).dmaBufEnd ≠ (rxPbm j).dmaCtlReg ∧ (rxPbm i).dmaBufEnd ≠ (rxPbm j).limitPtr ∧
    (i ≠ j → (rxPbm i).dmaBufEnd ≠ (rxPbm j).dmaBufEnd) := by
  simp only [rxPbm, HOST_ADDR_LO_REG, BUF_BOTTOM_LO_REG, DMA_CTL_REG, LIMIT_PTR_LO_REG,
    STREAM_REG_DIFF_0x40]
  omega

/-- Programming stream `j` leaves the other streams ready. -/
theorem StreamReady.programRx {phy q i j : Nat} {phy' : Nat} {q' : Int} {st : NacState}
    (hr : StreamReady phy q i st) (hij : i ≠ j) :
    StreamReady phy q i (programRx (rxPbm j) phy' q' j st) := by
  obtain ⟨h1, h2, -, h4⟩ := rxPbm_start_ne i j
  obtain ⟨g1, g2, -, g4⟩ := rxPbm_end_ne i j
  exact ((hr.regWrite (h4 hij) g1).regWrite h1 (g4 hij)).regWrite h2 g2

/-- The window registers of stream `i` after it has been programmed. -/
theorem programRx_regs {phy q i : Nat} {st : NacState} (hq : i * q < 2147483648)
    (hlow : phy + i * q < 4294967296) :
    (programRx (rxPbm i) phy q i st).regs (rxPbm i).dmaBufStart = phy + i * q ∧
      (programRx (rxPbm i) phy q i st).regs (rxPbm i).dmaBufEnd = u32 ((phy + i * q : Nat) + q) := by
  obtain ⟨h1, h2, -, -⟩ := rxPbm_start_ne i i
  obtain ⟨-, g2, -, -⟩ := rxPbm_end_ne i i
  have hi : i32 ((i : Int) * q) = (i * q : Nat) := by
    rw [← Nat.cast_mul]
    exact i32_of_mem (by omega) (by omega)
  constructor
  · rw [programRx, regWrite_ne h2, regWrite_ne h1, regWrite_self, hi, ← Nat.cast_add,
      u32_natCast hlow]
  · have hsum : (phy : Int) + q + (i * q : Nat) = (phy + i * q : Nat) + q := by
      push_cast
      ring
    rw [programRx, regWrite_ne g2, regWrite_self, hi, hsum]

/-- **One turn of the loop**: the streams before `i` stay ready and `i` becomes ready. -/
theorem msuStream_ready {phy q b i : Nat} {env : Env} {st st' : NacState}
    (hq : i * q + q < 2147483648) (hlow : phy + i * q < 4294967296)
    (h : StreamsReady phy q b i st)
    (hrun : msuStream env phy q i st = (true, st')) : StreamsReady phy q b (i + 1) st' := by
  obtain ⟨st1, hm, rfl⟩ := msuStream_ok hrun
  have hst1 := mallocPbm_ok hm
  refine ⟨?_, ?_, ?_⟩
  · rw [hst1]
    exact h.opened
  · rw [hst1]
    exact h.inf
  · intro j hj
    by_cases hji : j = i
    · subst hji
      obtain ⟨hs, he⟩ := @programRx_regs phy q j (setStream st1 j fun s => { s with size := u32 q })
        (by omega) hlow
      refine ⟨hs, he, ?_, st.brk, ?_, ?_, ?_⟩
      · simp [programRx, u32_natCast (show q < 4294967296 by omega)]
      · simp [programRx, hst1]
      · simp [programRx, hst1]
      · simp [programRx, hst1]
    · exact (((h.ready j (by omega)).mallocPbm hji hm).setStream hji).programRx hji

/-- The windows of a configured card, side by side. -/
structure MsuReady (phy b n : Nat) (st : NacState) : Prop where
  streams : StreamsReady phy ((b - RFT_SIZE) / n) b n st
  rftStart : st.regs RFT_HOST_ADDR_LO_REG = phy + n * ((b - RFT_SIZE) / n)
  rftStop : st.regs RFT_BUF_BOTTOM_LO_REG =
    u32 ((phy + n * ((b - RFT_SIZE) / n) : Nat) + RFT_SIZE)

/-- The flow-table registers are not among the stream registers. -/
theorem StreamReady.programRft {phy q i phy' : Nat} {off : Int} {st : NacState}
    (hr : StreamReady phy q i st) : StreamReady phy q i (programRft phy' off st) := by
  have hne : ∀ a, a < 0x80000 → (rxPbm i).dmaBufStart ≠ a ∧ (rxPbm i).dmaBufEnd ≠ a := by
    intro a ha
    simp only [rxPbm, HOST_ADDR_LO_REG, BUF_BOTTOM_LO_REG, STREAM_REG_DIFF_0x40]
    omega
  have hctl := hne RFT_DMA_CTL_REG (by decide)
  have hstart := hne RFT_HOST_ADDR_LO_REG (by decide)
  have hend := hne RFT_BUF_BOTTOM_LO_REG (by decide)
  have hlim := hne RFT_LIMIT_PTR_LO_REG (by decide)
  exact (((((hr.regWrite hctl.1 hctl.2).regWrite hctl.1 hctl.2).regWrite hstart.1 hstart.2).regWrite
    hend.1 hend.2).regWrite hlim.1 hlim.2).regWrite hctl.1 hctl.2

theorem programRft_regs (phy : Nat) (off : Int) (st : NacState) :
    (programRft phy off st).regs RFT_HOST_ADDR_LO_REG = u32 (phy + off) ∧
      (programRft phy off st).regs RFT_BUF_BOTTOM_LO_REG = u32 (phy + off + RFT_SIZE) := by
  constructor <;>
    simp [programRft, regWrite, RFT_DMA_CTL_REG, RFT_HOST_ADDR_LO_REG, RFT_BUF_BOTTOM_LO_REG,
      RFT_LIMIT_PTR_LO_REG, Function.update]

/-- All the shares up to the `i`-th lie in front of the flow table. -/
theorem share_bound {b n i : Nat} (hi : i < n) :
    i * ((b - RFT_SIZE) / n) + (b - RFT_SIZE) / n ≤ b - RFT_SIZE := by
  have h1 : (i + 1) * ((b - RFT_SIZE) / n) ≤ n * ((b - RFT_SIZE) / n) :=
    Nat.mul_le_mul_right _ hi
  have h2 := share_mul_le b n
  rw [Nat.add_mul, Nat.one_mul] at h1
  omega

/-- **The end of `nac_msu_configure`**: the flow table goes behind the last share. -/
theorem StreamsReady.programRft {phy q b n : Nat} {env : Env} {st st' : NacState}
    (h : StreamsReady phy q b n st) (hm : mallocPbm env n rftPbm st = (true, st')) :
    StreamsReady phy q b n
      (programRft phy (n * q) (setStream st' n fun s => { s with size := RFT_SIZE })) := by
  refine ⟨?_, ?_, ?_⟩
  · rw [mallocPbm_ok hm]
    exact h.opened
  · rw [mallocPbm_ok hm]
    exact h.inf
  · intro i hi
    exact (((h.ready i hi).mallocPbm hi.ne hm).setStream hi.ne).programRft

theorem StreamsReady.markConfigured {phy q b n k : Nat} {st : NacState}
    (h : StreamsReady phy q b n st) : StreamsReady phy q b n (markConfigured k st) :=
  ⟨h.opened, h.inf, fun i hi => (h.ready i hi).frame rfl rfl rfl rfl le_rfl fun _ _ => rfl⟩

/-- **What `nac_msu_configure` leaves behind.** -/
theorem nacMsuConfigure_ready {env : Env} {n phy b : Nat} {st st' : NacState}
    (hinf : st.sheep.nacinf = ⟨phy, b⟩) (hb : RFT_SIZE < b) (hb2 : b < 2147483648)
    (hfit : phy + b ≤ 4294967296) (h : nacMsuConfigure env n st = .ok (0, st')) :
    MsuReady phy b n st' := by
  have hbound := @share_bound b n
  have hnq := share_mul_le b n
  have hR : RFT_SIZE = 8388608 := rfl
  obtain ⟨hbad, hopen, st1, st2, hloop, hm, rfl⟩ := nacMsuConfigure_ok h
  have hn := accepted_iff.1 hbad
  obtain ⟨q, hq⟩ : ∃ q, (b - RFT_SIZE) / n = q := ⟨_, rfl⟩
  simp only [hinf, shareOf_eq hb hb2 (show n ≤ 16 by omega), Int.toNat_natCast, hq] at hloop hm ⊢
  rw [hq] at hbound hnq
  have hst1 : StreamsReady phy q b n st1 := by
    have hstart : StreamsReady phy q b 0 (captureStop st) :=
      ⟨by simpa [captureStop] using hopen, by simpa [captureStop] using hinf,
        fun i hi => absurd hi (Nat.not_lt_zero i)⟩
    have hall := runFor_induct (fun i s => i ≤ n → StreamsReady phy q b i s)
      (fun i s s' hs hbody hi => ?_) n 0 _ _ (fun _ => hstart) hloop
    · simpa using hall (by omega)
    · have hi' := @hbound i (by omega)
      exact msuStream_ready (by omega) (by omega) (hs (by omega)) hbody
  obtain ⟨hs, he⟩ := programRft_regs phy (n * q)
    (setStream st2 n fun s => { s with size := RFT_SIZE })
  have hnat : (phy : Int) + n * q = (phy + n * q : Nat) := by push_cast; ring
  rw [hnat] at hs he
  have hstart : u32 ((phy + n * q : Nat) : Int) = phy + n * q := u32_natCast (by omega)
  refine ⟨?_, ?_, ?_⟩
  · rw [hq]
    exact (hst1.programRft hm).markConfigured
  · rw [hq, ← hstart]
    exact hs
  · rw [hq]
    exact he

theorem mallocPbm_total {env : Env} (henv : ∀ k, env.malloc k = true) (i : Nat) (p : NacPbmStream)
    (st : NacState) : ∃ st', mallocPbm env i p st = (true, st') := by
  rw [mallocPbm, if_pos (henv st.clock)]
  exact ⟨_, rfl⟩

/-- Where no `malloc` fails, every accepted number of streams is configured. -/
theorem nacMsuConfigure_total {env : Env} (henv : ∀ k, env.malloc k = true) {n : Nat}
    (hacc : badNumStream n = false) {st : NacState} (hopen : st.sheep.opened = true) :
    ∃ st', nacMsuConfigure env n st = .ok (0, st') := by
  have hbody : ∀ i s, (msuStream env st.sheep.nacinf.phyAddr
      (shareOf st.sheep.nacinf.bufSize n) i s).1 = true := by
    intro i s
    obtain ⟨s', hs'⟩ := mallocPbm_total henv i (rxPbm i) s
    rw [msuStream, hs']
  obtain ⟨st1, h1⟩ := runFor_total hbody (List.range' 0 n) (captureStop st)
  obtain ⟨st2, h2⟩ := mallocPbm_total henv n rftPbm st1
  rw [nacMsuConfigure, hacc, hopen]
  simp only [Int.toNat_natCast, h1, h2, Bool.false_eq_true, Bool.not_true, if_false]
  exact ⟨_, rfl⟩

/-! ## Side by side -/

/-- The first `n` capture windows and the flow-table window lie inside the buffer
and no two of them overlap. -/
structure WindowsSeparate (phy b n : Nat) (st : NacState) : Prop where
  rx_inside : ∀ i < n, rxWindow st i ⊆ Set.Ico phy (phy + b)
  rft_inside : rftWindow st ⊆ Set.Ico phy (phy + b)
  rx_disjoint : ∀ i < n, ∀ j < n, i ≠ j → Disjoint (rxWindow st i) (rxWindow st j)
  rft_disjoint : ∀ i < n, Disjoint (rxWindow st i) (rftWindow st)

/-- The window of a stream that is ready. -/
theorem StreamReady.window {phy q i : Nat} {st : NacState} (h : StreamReady phy q i st)
    (hq : q < 4294967296) : rxWindow st i = Set.Ico (phy + i * q) (phy + i * q + q) :=
  regWindow_eq h.start h.stop hq

/-- Different shares do not overlap. -/
theorem share_disjoint (phy q : Nat) {i j : Nat} (h : i ≠ j) :
    Disjoint (Set.Ico (phy + i * q) (phy + i * q + q)) (Set.Ico (phy + j * q) (phy + j * q + q)) := by
  rw [Set.Ico_disjoint_Ico]
  rcases Nat.lt_or_gt_of_ne h with hlt | hlt
  · have h1 : (i + 1) * q ≤ j * q := Nat.mul_le_mul_right q hlt
    rw [Nat.add_mul, Nat.one_mul] at h1
    omega
  · have h1 : (j + 1) * q ≤ i * q := Nat.mul_le_mul_right q hlt
    rw [Nat.add_mul, Nat.one_mul] at h1
    omega

/-- **The windows of a configured card are separate.** -/
theorem MsuReady.separate {phy b n : Nat} {st : NacState} (h : MsuReady phy b n st)
    (hb : RFT_SIZE < b) (hb2 : b < 2147483648) : WindowsSeparate phy b n st := by
  have hle : (b - RFT_SIZE) / n ≤ b - RFT_SIZE := Nat.div_le_self _ _
  have hR : RFT_SIZE = 8388608 := rfl
  have hrx : ∀ i < n, rxWindow st i = Set.Ico (phy + i * ((b - RFT_SIZE) / n))
      (phy + i * ((b - RFT_SIZE) / n) + (b - RFT_SIZE) / n) :=
    fun i hi => (h.streams.ready i hi).window (by omega)
  have hrft := regWindow_eq h.rftStart h.rftStop (by decide)
  have hnq := share_mul_le b n
  refine ⟨?_, ?_, ?_, ?_⟩
  · intro i hi
    have hbound := @share_bound b n i hi
    rw [hrx i hi]
    exact Set.Ico_subset_Ico (by omega) (by omega)
  · rw [rftWindow, hrft]
    exact Set.Ico_subset_Ico (by omega) (by omega)
  · intro i hi j hj hij
    rw [hrx i hi, hrx j hj]
    exact share_disjoint phy _ hij
  · intro i hi
    have hbound := Nat.mul_le_mul_right ((b - RFT_SIZE) / n) (Nat.succ_le_of_lt hi)
    rw [Nat.succ_mul] at hbound
    rw [hrx i hi, rftWindow, hrft, Set.Ico_disjoint_Ico]
    omega

end NacCard.Stream
