import NacCard.Stream.Windows

/-!
# The windows of the multi-process set-up

`nac_proc_init` divides the buffer by `num_stream`, as `nac_msu_configure` does,
but places the flow table behind `NUM_STREAM` shares.

* `nacProcInit_ready` — the window registers it leaves.
* `nacProcInit_separate_iff` — they describe separate windows inside the buffer
  exactly when `NUM_STREAM` shares fit in front of a flow table.
* `nacProcInit_four_streams` — with four streams on a 64 MB buffer the flow table
  ends 48 MB above the buffer.
-/

namespace NacCard.Stream

open NacCard.Base

/-! ## The registers -/

/-- Clearing the card's buffers writes control registers only. -/
theorem clearLoop_regs {a : Nat} (ha : a % 64 ≠ 0) (is : List Nat) (st : NacState) :
    (runFor clearLoop is st).2.regs a = st.regs a := by
  induction is generalizing st with
  | nil => rfl
  | cons i is ih =>
      have hne : a ≠ DMA_CTL_REG + i * STREAM_REG_DIFF_0x40 := by
        simp only [DMA_CTL_REG, STREAM_REG_DIFF_0x40]
        omega
      exact (ih (clearCardBuf i st)).trans (regWrite_ne hne)

/-- The window registers of stream `i` delimit its share. -/
structure ShareWindow (phy q i : Nat) (regs : Nat → Nat) : Prop where
  start : regs (rxPbm i).dmaBufStart = phy + i * q
  stop : regs (rxPbm i).dmaBufEnd = u32 ((phy + i * q : Nat) + q)

theorem ShareWindow.programRx {phy q i j : Nat} {st : NacState} (h : ShareWindow phy q i st.regs)
    (hij : i ≠ j) : ShareWindow phy q i (programRx (rxPbm j) phy q j st).regs := by
  obtain ⟨h1, h2, -, h4⟩ := rxPbm_start_ne i j
  obtain ⟨g1, g2, -, g4⟩ := rxPbm_end_ne i j
  refine ⟨?_, ?_⟩
  · rw [Stream.programRx, regWrite_ne h2, regWrite_ne h1, regWrite_ne (h4 hij), h.start]
  · rw [Stream.programRx, regWrite_ne g2, regWrite_ne (g4 hij), regWrite_ne g1, h.stop]

/-- One turn of the loop of `nac_proc_init`. -/
theorem procStream_shares {phy q i : Nat} {st st' : NacState} (hq : i * q < 2147483648)
    (hlow : phy + i * q < 4294967296) (h : ∀ j < i, ShareWindow phy q j st.regs)
    (hrun : procStream phy q i st = (true, st')) : ∀ j < i + 1, ShareWindow phy q j st'.regs := by
  have hst' : programRx (rxPbm i) phy q i st = st' := congrArg Prod.snd hrun
  subst hst'
  intro j hj
  by_cases hji : j = i
  · subst hji
    obtain ⟨hs, he⟩ := @programRx_regs phy q j st hq hlow
    exact ⟨hs, he⟩
  · exact (h j (by omega)).programRx hji

theorem programRft_regs_ne {a : Nat} (ha : 0x80000 ≤ a) (phy : Nat) (off : Int) (st : NacState) :
    (programRft phy off st).regs a = st.regs a := by
  have h1 : a ≠ RFT_DMA_CTL_REG := by simp only [RFT_DMA_CTL_REG]; omega
  have h2 : a ≠ RFT_HOST_ADDR_LO_REG := by simp only [RFT_HOST_ADDR_LO_REG]; omega
  have h3 : a ≠ RFT_BUF_BOTTOM_LO_REG := by simp only [RFT_BUF_BOTTOM_LO_REG]; omega
  have h4 : a ≠ RFT_LIMIT_PTR_LO_REG := by simp only [RFT_LIMIT_PTR_LO_REG]; omega
  rw [programRft, regWrite_ne h1, regWrite_ne h4, regWrite_ne h3, regWrite_ne h2, regWrite_ne h1,
    regWrite_ne h1]

/-- The registers of a card `nac_proc_init` has set up with shares of `q` bytes. -/
structure ProcReady (phy q n : Nat) (regs : Nat → Nat) : Prop where
  shares : ∀ i < n, ShareWindow phy q i regs
  rftStart : regs RFT_HOST_ADDR_LO_REG = u32 (phy + 8 * q)
  rftStop : regs RFT_BUF_BOTTOM_LO_REG = u32 (phy + 8 * q + RFT_SIZE)

/-- **What `nac_proc_init` leaves behind.**  It succeeds on every open card. -/
theorem nacProcInit_ready {n phy b : Nat} {st : NacState} (hopen : st.sheep.opened = true)
    (hinf : st.sheep.nacinf = ⟨phy, b⟩) (hb : RFT_SIZE < b) (hb2 : b < 2147483648)
    (hfit : phy + b ≤ 4294967296) (hacc : badNumStream n = false) :
    ∃ st', nacProcInit n st = .ok (0, st') ∧ ProcReady phy ((b - RFT_SIZE) / n) n st'.regs := by
  have hR : RFT_SIZE = 8388608 := rfl
  have hNum : ((NUM_STREAM : Nat) : Int) = 8 := rfl
  have hn := accepted_iff.1 hacc
  have hbound := @share_bound b n
  rw [nacProcInit, hacc, hopen]
  simp only [hinf, shareOf_eq hb hb2 (show n ≤ 16 by omega), Int.toNat_natCast, Bool.not_true,
    Bool.false_eq_true, if_false]
  generalize (b - RFT_SIZE) / n = q at hbound ⊢
  generalize (runFor clearLoop (List.range' 0 n) (captureStop st)).2 = st1
  obtain ⟨st2, hloop⟩ := runFor_total (fun i s => (rfl : (procStream phy q i s).1 = true))
    (List.range' 0 n) st1
  have hshares := runFor_induct (fun i s => i ≤ n → ∀ j < i, ShareWindow phy q j s.regs)
    (fun i s s' hs hbody hi => ?_) n 0 st1 st2 (fun _ j hj => absurd hj (Nat.not_lt_zero j)) hloop
  · rw [hloop]
    obtain ⟨hs, he⟩ := programRft_regs phy (i32 (NUM_STREAM * q)) st2
    refine ⟨_, rfl, ?_, ?_, ?_⟩
    · intro i hi
      obtain ⟨h1, h2⟩ := hshares (by omega) i (by omega)
      refine ⟨?_, ?_⟩
      · rw [← h1, clearLoop_regs, programRft_regs_ne]
        · simp only [rxPbm, HOST_ADDR_LO_REG]
          omega
        · simp only [rxPbm, HOST_ADDR_LO_REG, STREAM_REG_DIFF_0x40]
          omega
      · rw [← h2, clearLoop_regs, programRft_regs_ne]
        · simp only [rxPbm, BUF_BOTTOM_LO_REG]
          omega
        · simp only [rxPbm, BUF_BOTTOM_LO_REG, STREAM_REG_DIFF_0x40]
          omega
    · rw [clearLoop_regs (by decide), hs, u32_add_i32, hNum]
    · rw [clearLoop_regs (by decide), he, u32_add_i32_add, hNum]
  · have hi' := @hbound i (by omega)
    exact procStream_shares (by omega) (by omega) (hs (by omega)) hbody

/-! ## When they are separate -/

/-- The flow-table window, wherever its start comes to lie modulo `2 ^ 32`. -/
theorem ProcReady.rftWindow {phy q n : Nat} {st : NacState} (h : ProcReady phy q n st.regs) :
    rftWindow st = Set.Ico (u32 (phy + 8 * q)) (u32 (phy + 8 * q) + RFT_SIZE) :=
  regWindow_eq h.rftStart (h.rftStop.trans (u32_add_u32 _ _).symm) (by decide)

/-- A point outside every one of `n` shares side by side, but not in front of them,
is behind them all. -/
theorem behind_shares {phy q n s : Nat} (hs : phy ≤ s)
    (h : ∀ i < n, s ∉ Set.Ico (phy + i * q) (phy + i * q + q)) : phy + n * q ≤ s := by
  induction n with
  | zero => omega
  | succ n ih =>
      have hn := ih fun i hi => h i (by omega)
      have hlast := h n (by omega)
      rw [Set.mem_Ico] at hlast
      rw [Nat.succ_mul]
      omega

/-- Where the flow table starts behind all shares and ends inside the buffer, its
offset has not wrapped around `2 ^ 32`. -/
theorem eight_shares_fit {phy q n r c : Nat} (h0 : 0 < n) (h8 : n ≤ 8) (h3 : n ≠ 3)
    (hsum : n * q + r = c) (hr : r < n) (hc : c < 2147483648) (hfit : phy + c < 4294967296)
    (hlow : phy + n * q ≤ (phy + 8 * q) % 4294967296)
    (hup : (phy + 8 * q) % 4294967296 ≤ phy + c) : 8 * q ≤ c := by
  obtain ⟨k, s, hk, hs⟩ :
      ∃ k s, phy + 8 * q = 4294967296 * k + s ∧ (phy + 8 * q) % 4294967296 = s :=
    ⟨_, _, (Nat.div_add_mod _ _).symm, rfl⟩
  rw [hs] at hlow hup
  have hq : q ≤ n * q := Nat.le_mul_of_pos_left q h0
  have hk3 : k ≤ 3 := by omega
  -- for `k > 0`, `(8 - n) * q` would be `k * 2 ^ 32` up to less than `n`
  interval_cases n <;> interval_cases k <;> omega

theorem nacProcInit_separate_aux {phy b n : Nat} {st : NacState} (hb : RFT_SIZE < b)
    (hb2 : b < 2147483648) (hfit : phy + b ≤ 4294967296) (hacc : badNumStream n = false)
    (h : ProcReady phy ((b - RFT_SIZE) / n) n st.regs) :
    WindowsSeparate phy b n st ↔ 8 * ((b - RFT_SIZE) / n) ≤ b - RFT_SIZE := by
  have hR : RFT_SIZE = 8388608 := rfl
  have hn := accepted_iff.1 hacc
  have hbound := @share_bound b n
  have hdm := Nat.div_add_mod (b - RFT_SIZE) n
  have hlt := Nat.mod_lt (b - RFT_SIZE) (show n > 0 by omega)
  have hrft := h.rftWindow
  generalize (b - RFT_SIZE) / n = q at h hbound hdm hrft ⊢
  generalize (b - RFT_SIZE) % n = r at hdm hlt
  have hq : n * q ≤ b - RFT_SIZE := by omega
  have hq' : q ≤ n * q := Nat.le_mul_of_pos_left q (by omega)
  have hrx : ∀ i < n, rxWindow st i = Set.Ico (phy + i * q) (phy + i * q + q) := by
    intro i hi
    obtain ⟨h1, h2⟩ := h.shares i hi
    exact regWindow_eq h1 h2 (by omega)
  constructor
  · intro hsep
    have hin := hsep.rft_inside
    rw [hrft, Set.Ico_subset_Ico_iff (by omega)] at hin
    have hbehind : phy + n * q ≤ u32 (phy + 8 * q) := by
      refine behind_shares hin.1 ?_
      intro i hi hmem
      have hdis := hsep.rft_disjoint i hi
      rw [hrx i hi, hrft, Set.disjoint_left] at hdis
      exact hdis hmem (Set.mem_Ico.2 ⟨le_rfl, by omega⟩)
    have hstart : u32 (phy + 8 * q) = (phy + 8 * q) % 4294967296 := by
      unfold u32
      omega
    rw [hstart] at hin hbehind
    exact eight_shares_fit (by omega) (by omega) (by omega) hdm hlt (by omega) (by omega) hbehind
      (by omega)
  · intro hle
    have hstart : u32 (phy + 8 * q) = phy + 8 * q := by
      unfold u32
      omega
    have hn8 : n * q ≤ 8 * q := Nat.mul_le_mul_right q (by omega)
    rw [hstart] at hrft
    refine ⟨?_, ?_, ?_, ?_⟩
    · intro i hi
      have hi' := @hbound i hi
      rw [hrx i hi]
      exact Set.Ico_subset_Ico (by omega) (by omega)
    · rw [hrft]
      exact Set.Ico_subset_Ico (by omega) (by omega)
    · intro i hi j hj hij
      rw [hrx i hi, hrx j hj]
      exact share_disjoint phy q hij
    · intro i hi
      have hi' := Nat.mul_le_mul_right q (Nat.succ_le_of_lt hi)
      rw [Nat.succ_mul] at hi'
      rw [hrx i hi, hrft, Set.Ico_disjoint_Ico]
      omega

/-- **When `nac_proc_init` sets up separate windows**: exactly when `NUM_STREAM`
shares and a flow table fit into the buffer. -/
theorem nacProcInit_separate_iff (numStream : Int) {phy b : Nat} {st : NacState}
    (hopen : st.sheep.opened = true) (hinf : st.sheep.nacinf = ⟨phy, b⟩) (hb : RFT_SIZE < b)
    (hb2 : b < 2147483648) (hfit : phy + b ≤ 4294967296)
    (hacc : badNumStream numStream = false) :
    ∃ st', nacProcInit numStream st = .ok (0, st') ∧
      (WindowsSeparate phy b numStream.toNat st' ↔
        NUM_STREAM * ((b - RFT_SIZE) / numStream.toNat) ≤ b - RFT_SIZE) := by
  obtain ⟨n, rfl⟩ : ∃ n : Nat, numStream = n := ⟨numStream.toNat, by
    have := accepted_iff.1 hacc
    omega⟩
  obtain ⟨st', hrun, hready⟩ := nacProcInit_ready hopen hinf hb hb2 hfit hacc
  exact ⟨st', hrun, nacProcInit_separate_aux hb hb2 hfit hacc hready⟩

/-- Eight streams on a 64 MB buffer: eight shares fit. -/
theorem nacProcInit_eight_streams :
    ∃ st', nacProcInit 8 (freshCard 0x10000000 0x4000000) = .ok (0, st') ∧
      WindowsSeparate 0x10000000 0x4000000 8 st' := by
  obtain ⟨st', hrun, hiff⟩ := @nacProcInit_separate_iff 8 0x10000000 0x4000000
    (freshCard 0x10000000 0x4000000) rfl rfl (by decide) (by decide) (by decide) (by decide)
  exact ⟨st', hrun, hiff.2 (by decide)⟩

/-- **A card whose flow table lies outside its buffer**: four streams on the 64 MB
at `0x10000000`.  A share is 14 MB, eight of them are 112 MB. -/
theorem nacProcInit_four_streams :
    ∃ st', nacProcInit 4 (freshCard 0x10000000 0x4000000) = .ok (0, st') ∧
      rftWindow st' = Set.Ico 0x17000000 0x17800000 ∧
      ¬ WindowsSeparate 0x10000000 0x4000000 4 st' := by
  obtain ⟨st', hrun, hready⟩ := @nacProcInit_ready 4 0x10000000 0x4000000
    (freshCard 0x10000000 0x4000000) rfl rfl (by decide) (by decide) (by decide) (by decide)
  have hrft : rftWindow st' = Set.Ico 0x17000000 0x17800000 := by
    rw [hready.rftWindow]
    rfl
  refine ⟨st', hrun, hrft, ?_⟩
  intro hsep
  have hin := hsep.rft_inside (show 0x17000000 ∈ rftWindow st' by
    rw [hrft]
    exact Set.mem_Ico.2 ⟨le_rfl, by omega⟩)
  exact absurd hin.2 (by decide)

end NacCard.Stream
