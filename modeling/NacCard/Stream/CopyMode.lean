import NacCard.Driver.Mmap
import NacCard.Stream.Slots

/-!
# Copy mode: library and driver agree

In copy mode the buffer is cut into `NUM_STREAM * 2` shares: RX stream `i` has the
`i`-th, its TX stream the `(i + NUM_STREAM)`-th.  The card is told by
`nac_inline_msu_configure`, the driver by the offsets of the attach functions.

* `CopyWindowsSeparate` — the windows in the card lie side by side in the buffer.
* `DriverAccepts` — a mapping request as `nac_mmap` sees it: its bound check lets
  it through and what it remaps is the physical range the request means.
* `MirrorMapped` — an attach maps one window, followed by its beginning.
* `copy_windows_agree` — all of this, for every slot that is configured.
-/

namespace NacCard.Stream

open NacCard.Base

/-! ## Slots in copy mode -/

/-- The slots configured for `n` streams. -/
def UsedSlot (n j : Nat) : Prop := j < n ∨ NUM_STREAM ≤ j ∧ j < NUM_STREAM + n

/-- The window the card has for slot `j`. -/
def slotWindow (st : NacState) (j : Nat) : Set Nat :=
  if j < NUM_STREAM then rxWindow st j else txWindow st (j - NUM_STREAM)

/-- Attach slot `j`, with the function of its side. -/
def attachSlot (env : Env) (j extra : Nat) (st : NacState) : Int × NacState :=
  if j < NUM_STREAM then nacAttachStream env j extra st
  else nacTxAttachStream env j COPY_FWD extra st

/-- Attach the slots of a list in turn. -/
def attachAll (env : Env) : List (Nat × Nat) → NacState → NacState
  | [], st => st
  | c :: cs, st => attachAll env cs (attachSlot env c.1 c.2 st).2

/-- The windows of the configured slots lie in the buffer, no two overlap. -/
structure CopyWindowsSeparate (phy b n : Nat) (st : NacState) : Prop where
  inside : ∀ j, UsedSlot n j → slotWindow st j ⊆ Set.Ico phy (phy + b)
  disjoint : ∀ i j, UsedSlot n i → UsedSlot n j → i ≠ j →
    Disjoint (slotWindow st i) (slotWindow st j)

/-! ## Requests as the driver sees them -/

/-- The request for `m`, as it reaches the driver. -/
structure AsVma (m : Mapping) (vma : Driver.VmAreaStruct) : Prop where
  start : vma.vmStart.toNat = m.addr
  stop : vma.vmEnd.toNat = m.addr + m.len
  off : (vma.vmPgoff.toNat * 4096 : Nat) = m.off

/-- `nac_mmap` lets the request for `m` through, for a card with `b` bytes at `phy`:
it is a request in whole pages, neither check turns it down, and what a successful
call remaps is the range meant. -/
structure DriverAccepts (phy b : Nat) (m : Mapping) : Prop where
  pages : 0 ≤ m.off ∧ (4096 : Int) ∣ m.off ∧ 4096 ∣ m.len
  checks : ∀ k oSync sc vma, sc.buf.toNat = phy → sc.bufSize.toNat = b → AsVma m vma →
    Driver.nacMmap k oSync sc vma ≠ .error .enxio ∧ Driver.nacMmap k oSync sc vma ≠ .error .einval
  range : ∀ k oSync sc vma r, sc.buf.toNat = phy → sc.bufSize.toNat = b → AsVma m vma →
    Driver.nacMmap k oSync sc vma = .ok r → r.range = m.deviceRange phy

/-- The ring of a stream and the mirror behind it, both backed by the device at `off`. -/
def ringMapping (s : StreamT) (off : Int) : Mapping := ⟨s.buf, s.size, true, off⟩
/-- The first `extra` bytes again, behind the ring. -/
def mirrorMapping (s : StreamT) (extra : Nat) (off : Int) : Mapping :=
  ⟨u64 (s.buf + s.size), extra, true, off⟩

/-- An attach of slot `j`: `window`, then its first `extra` bytes again. -/
structure MirrorMapped (phy j extra : Nat) (window : Set Nat) (st st' : NacState) : Prop where
  maps : ∃ off a, st'.maps = mirrorMapping (st'.sheep.stream j) extra off ::
      ringMapping (st'.sheep.stream j) off :: a :: st.maps ∧
    (ringMapping (st'.sheep.stream j) off).deviceRange phy = window ∧
    (mirrorMapping (st'.sheep.stream j) extra off).deviceRange phy =
      Set.Ico (st'.sheep.stream j).phyaddr ((st'.sheep.stream j).phyaddr + extra)
  window : window =
    Set.Ico (st'.sheep.stream j).phyaddr ((st'.sheep.stream j).phyaddr + (st'.sheep.stream j).size)
  extra_le : extra ≤ (st'.sheep.stream j).size

/-- A request in whole pages that ends inside the buffer is accepted. -/
theorem driverAccepts_of_le {phy b : Nat} {m : Mapping} {off : Nat} (hoff : m.off = off)
    (hpages : 4096 ∣ off) (hlen : 4096 ∣ m.len) (hend : off + m.len ≤ b) (hb : b < 2147483648)
    (hphy : phy < 4294967296) : DriverAccepts phy b m := by
  have hoff64 : i64 (off : Int) = off := i64_of_mem (by omega) (by omega)
  have hlen64 : i64 (m.len : Int) = m.len := i64_of_mem (by omega) (by omega)
  -- the offset and the length the driver computes are the ones asked for
  have hcomputed : ∀ vma, AsVma m vma →
      Driver.mmapOff vma = off ∧ Driver.mmapVsize vma = m.len := by
    intro vma hvma
    have h1 := hvma.off
    have h2 := hvma.start
    have h3 := hvma.stop
    rw [hoff] at h1
    have hpg : vma.vmPgoff.toNat * 4096 = off := by exact_mod_cast h1
    refine ⟨?_, ?_⟩
    · have hsmall : i64 (vma.vmPgoff.toNat : Int) = vma.vmPgoff.toNat :=
        i64_of_mem (by omega) (by omega)
      have hshift : (vma.vmPgoff.toNat : Int) * 2 ^ Driver.PAGE_SHIFT = off := by
        rw [← hpg, Driver.PAGE_SHIFT]
        push_cast
        norm_num
      rw [Driver.mmapOff, hsmall, hshift, hoff64]
    · have hlen : ((m.addr + m.len : Nat) : Int) - m.addr = m.len := by omega
      rw [Driver.mmapVsize, h2, h3, hlen, hlen64]
  refine ⟨⟨?_, ?_, hlen⟩, ?_, ?_⟩
  · rw [hoff]
    exact Int.natCast_nonneg off
  · rw [hoff]
    exact_mod_cast hpages
  · intro k oSync sc vma hbuf hsize hvma
    obtain ⟨ho, hv⟩ := hcomputed vma hvma
    have hpsize : i64 ((b : Int) - off) = b - off := i64_of_mem (by omega) (by omega)
    have haligned : (off : Int) % Driver.PAGE_SIZE = 0 := by
      simp only [Driver.PAGE_SIZE]
      omega
    unfold Driver.nacMmap Driver.remapChecked
    rw [ho, hv, hsize, hpsize]
    dsimp only
    rw [if_neg (not_not.2 haligned), if_neg (show ¬ (m.len : Int) > b - off by omega)]
    split_ifs
    · exact ⟨by simp, by simp⟩
    · exact ⟨by simp, by simp⟩
    · exact ⟨by simp, by simp⟩
  · intro k oSync sc vma r hbuf hsize hvma hok
    obtain ⟨ho, hv⟩ := hcomputed vma hvma
    unfold Driver.nacMmap at hok
    split_ifs at hok with hnull
    · obtain ⟨-, hphysical, hsz⟩ := Driver.remapChecked_ok hok
      have hstart : u64 (i64 ((phy : Int) + off)) = phy + off := by
        rw [i64_of_mem (by omega) (by omega)]
        unfold u64
        omega
      have hlength : u64 (m.len : Int) = m.len := by
        unfold u64
        omega
      have hdev : ((phy : Int) + off).toNat = phy + off := by omega
      rw [Driver.Remap.range, hphysical, hsz, ho, hv, hbuf, hstart, hlength, Mapping.deviceRange,
        hoff, hdev]

/-! ## A configured card -/

/-- The configured slots with shares of `q` bytes. -/
structure CopyReady (phy q b n : Nat) (st : NacState) : Prop where
  opened : st.sheep.opened = true
  inf : st.sheep.nacinf = ⟨phy, b⟩
  size : ∀ j, UsedSlot n j → (st.sheep.stream j).size = q
  window : ∀ j, UsedSlot n j → slotWindow st j = Set.Ico (phy + j * q) (phy + j * q + q)

theorem usedSlot_lt {n j : Nat} (hn : n ≤ NUM_STREAM) (hj : UsedSlot n j) : j < 16 := by
  simp only [UsedSlot, NUM_STREAM] at hj hn
  omega

theorem share_end_le {b q j : Nat} (hb : q * 16 = b) (hj : j < 16) : j * q + q ≤ b := by
  have h := Nat.mul_le_mul_right q (Nat.succ_le_of_lt hj)
  rw [Nat.succ_mul] at h
  omega

/-- Every share starts below `2 ^ 32`, the empty one of an empty buffer too. -/
theorem share_start_lt {phy b q j : Nat} (hb : q * 16 = b) (hj : j < 16)
    (hphy : phy < 4294967296) (hfit : phy + b ≤ 4294967296) : phy + j * q < 4294967296 := by
  have hend := share_end_le hb hj
  rcases Nat.eq_zero_or_pos q with rfl | hpos
  · simpa using hphy
  · omega

theorem slotWindow_rx {st : NacState} {phy q i : Nat} (hi : i < NUM_STREAM) (hq : q < 4294967296)
    (hlow : phy + i * q < 4294967296) (h : SlotReady q (rxLayout phy q i) st) :
    slotWindow st i = Set.Ico (phy + i * q) (phy + i * q + q) := by
  have hstart : u32 (phy + i * q : Nat) = phy + i * q := u32_natCast hlow
  have h1 : st.regs (rxPbm i).dmaBufStart = phy + i * q := h.start.trans hstart
  have h2 : st.regs (rxPbm i).dmaBufEnd = u32 ((phy + i * q : Nat) + q) := by
    rw [← hstart]
    exact h.stop
  rw [slotWindow, if_pos hi]
  exact regWindow_eq h1 h2 hq

theorem slotWindow_tx {st : NacState} {phy q i : Nat} (hq : q < 4294967296)
    (hlow : phy + (i + NUM_STREAM) * q < 4294967296)
    (h : SlotReady q (txLayout COPY_FWD phy q i) st) :
    slotWindow st (i + NUM_STREAM) =
      Set.Ico (phy + (i + NUM_STREAM) * q) (phy + (i + NUM_STREAM) * q + q) := by
  have hcopy : COPY_FWD ≠ OVERLAP_FWD := by decide
  rw [txLayout_copy hcopy] at h
  have hstart : u32 (phy + (i + NUM_STREAM) * q : Nat) = phy + (i + NUM_STREAM) * q :=
    u32_natCast hlow
  have h1 : st.regs (txPbm i).dmaBufStart = phy + (i + NUM_STREAM) * q := h.start.trans hstart
  have h2 : st.regs (txPbm i).dmaBufEnd = u32 ((phy + (i + NUM_STREAM) * q : Nat) + q) := by
    rw [← hstart]
    exact h.stop
  rw [slotWindow, if_neg (by omega), Nat.add_sub_cancel]
  exact regWindow_eq h1 h2 hq

/-- **Configuring in copy mode** makes every slot ready. -/
theorem nacInlineMsuConfigure_copyReady {env : Env} {numStream : Int} {phy b q : Nat}
    {st st' : NacState} (hinf : st.sheep.nacinf = ⟨phy, b⟩) (hq : q * 16 = b)
    (hb2 : b < 2147483648) (hphy : phy < 4294967296) (hfit : phy + b ≤ 4294967296)
    (h : nacInlineMsuConfigure env numStream COPY_FWD st = .ok (some (0, st'))) :
    numStream.toNat ≤ NUM_STREAM ∧ CopyReady phy q b numStream.toNat st' := by
  have hcopy : COPY_FWD ≠ OVERLAP_FWD := by decide
  have hshare : q = if COPY_FWD = OVERLAP_FWD then b / NUM_STREAM else b / (NUM_STREAM * 2) := by
    rw [if_neg hcopy]
    simp only [NUM_STREAM]
    omega
  obtain ⟨⟨hpos, hle, hopen⟩, hready⟩ := nacInlineMsuConfigure_ready hinf (by omega) hshare h
  have hn : numStream.toNat ≤ NUM_STREAM := by omega
  refine ⟨hn, ?_⟩
  generalize numStream.toNat = n at hready hn ⊢
  have hlow : ∀ j < 16, phy + j * q < 4294967296 := fun j hj => share_start_lt hq hj hphy hfit
  refine ⟨hready.setUp.opened.trans hopen, hready.setUp.inf.trans hinf, ?_, ?_⟩
  · rintro j (hj | ⟨hj, hjn⟩)
    · exact (hready.rx j hj).size
    · obtain ⟨i, rfl⟩ : ∃ i, j = i + NUM_STREAM := ⟨j - NUM_STREAM, by omega⟩
      have htx := (hready.tx i (by omega)).size
      rw [txLayout_copy hcopy] at htx
      exact htx
  · rintro j (hj | ⟨hj, hjn⟩)
    · simp only [NUM_STREAM] at hn
      exact slotWindow_rx (by simp only [NUM_STREAM]; omega) (by omega) (hlow j (by omega))
        (hready.rx j hj)
    · obtain ⟨i, rfl⟩ : ∃ i, j = i + NUM_STREAM := ⟨j - NUM_STREAM, by omega⟩
      refine slotWindow_tx (by omega) (hlow _ ?_) (hready.tx i (by omega))
      simp only [NUM_STREAM] at hn hjn ⊢
      omega

theorem CopyReady.separate {phy q b n : Nat} {st : NacState} (h : CopyReady phy q b n st)
    (hn : n ≤ NUM_STREAM) (hq : q * 16 = b) : CopyWindowsSeparate phy b n st := by
  refine ⟨?_, ?_⟩
  · intro j hj
    have hend := share_end_le hq (usedSlot_lt hn hj)
    rw [h.window j hj]
    exact Set.Ico_subset_Ico (by omega) (by omega)
  · intro i j hi hj hij
    rw [h.window i hi, h.window j hj]
    exact share_disjoint phy q hij

/-! ## Attaching -/

theorem CopyReady.frame {phy q b n i : Nat} {st st' : NacState} (h : CopyReady phy q b n st)
    (hframe : AttachFrame i st st') : CopyReady phy q b n st' := by
  have hwindow (j : Nat) : slotWindow st' j = slotWindow st j := by
    unfold slotWindow rxWindow txWindow regWindow
    rw [hframe.regs]
  refine ⟨hframe.shares.opened.trans h.opened, hframe.shares.inf.trans h.inf, ?_, ?_⟩
  · intro j hj
    exact (hframe.shares.size j).trans (h.size j hj)
  · intro j hj
    rw [hwindow]
    exact h.window j hj

/-- On either side an attach in copy mode is a ring attach. -/
theorem attachSlot_eq {env : Env} {phy q b n j extra : Nat} {st : NacState}
    (h : CopyReady phy q b n st) (hj : UsedSlot n j) (hq : q < 2147483648) :
    attachSlot env j extra st =
      attachRing env j q (extraOf q extra) (setStream st j attachDefaults) := by
  unfold attachSlot
  split_ifs with hside
  · exact nacAttachStream_eq h.opened (h.size j hj) hq
  · rw [nacTxAttachStream_eq h.opened (by omega) (h.size j hj) hq, if_neg (by decide)]

theorem attachSlot_frame {env : Env} {phy q b n j extra : Nat} {st : NacState}
    (h : CopyReady phy q b n st) (hj : UsedSlot n j) (hq : q < 2147483648) :
    AttachFrame j st (attachSlot env j extra st).2 := by
  rw [attachSlot_eq h hj hq]
  exact (AttachFrame.defaults st j).trans (attachRing_spec ..).frame

theorem CopyReady.attachAll {env : Env} {phy q b n : Nat} (hq : q < 2147483648) :
    ∀ (cs : List (Nat × Nat)) (st : NacState), CopyReady phy q b n st →
      (∀ c ∈ cs, UsedSlot n c.1) → CopyReady phy q b n (attachAll env cs st) := by
  intro cs
  induction cs with
  | nil => intro st h _; exact h
  | cons c cs ih =>
      intro st h hcs
      have hframe := @attachSlot_frame env phy q b n c.1 c.2 st h (hcs c List.mem_cons_self) hq
      exact ih _ (h.frame hframe) fun d hd => hcs d (List.mem_cons_of_mem _ hd)

/-- The numbers an attach of slot `j` computes. -/
structure ShareWords (phy b q j : Nat) : Prop where
  end_le : j * q + q ≤ b
  low : phy + j * q < 4294967296
  len : u64 (q : Int) = q
  off : i32 ((q : Int) * j) = (j * q : Nat)
  mul : (j : Int) * q = (j * q : Nat)
  start : ((phy : Int) + (j * q : Nat)).toNat = phy + j * q
  q_lt : q < 2147483648
  phy_lt : phy < 4294967296

theorem i32_le_of_le {e q : Nat} (he : e ≤ q) (hq : q < 2147483648) : i32 (e : Int) ≤ q := by
  rw [i32_of_mem (by omega) (by omega)]
  exact_mod_cast he

theorem shareWords {phy b q j : Nat} (hq : q * 16 = b) (hj : j < 16) (hb2 : b < 2147483648)
    (hphy : phy < 4294967296) (hfit : phy + b ≤ 4294967296) : ShareWords phy b q j := by
  have hend := share_end_le hq hj
  have hlow := share_start_lt hq hj hphy hfit
  have hmul : (j : Int) * q = (j * q : Nat) := (Nat.cast_mul j q).symm
  refine ⟨hend, hlow, ?_, ?_, hmul, by omega, by omega, hphy⟩
  · unfold u64
    omega
  · rw [Int.mul_comm, hmul]
    exact i32_of_mem (by omega) (by omega)

/-- **One attach** makes only requests the driver accepts, and maps its window with
its mirror. -/
theorem CopyReady.attach {env : Env} {phy q b n j extra : Nat} {st : NacState}
    (h : CopyReady phy q b n st) (hn : n ≤ NUM_STREAM) (hj : UsedSlot n j) (hq : q * 16 = b)
    (hpages : 4096 ∣ q) (hb2 : b < 2147483648) (hphy : phy < 4294967296)
    (hfit : phy + b ≤ 4294967296) (hextra : 4096 ∣ extra) (hle : extra ≤ q) :
    (∃ new, (attachSlot env j extra st).2.maps = new ++ st.maps ∧
      ∀ m ∈ new, m.device = true → DriverAccepts phy b m) ∧
    ((attachSlot env j extra st).1 = 0 →
      MirrorMapped phy j (extraOf q extra) (slotWindow st j) st (attachSlot env j extra st).2) ∧
    ((∀ k, env.mmap k ≠ none) → (attachSlot env j extra st).1 = 0) := by
  have hw := @shareWords phy b q j hq (usedSlot_lt hn hj) hb2 hphy hfit
  have hjpages : 4096 ∣ j * q := Dvd.dvd.mul_left hpages j
  have hepages : 4096 ∣ extraOf q extra := by
    unfold extraOf
    split_ifs
    · exact hpages
    · exact hextra
  have hele : extraOf q extra ≤ q := by
    unfold extraOf
    split_ifs
    · exact le_rfl
    · exact hle
  have he32 : i32 (extraOf q extra : Int) ≤ q := i32_le_of_le hele hw.q_lt
  rw [attachSlot_eq h hj hw.q_lt]
  generalize extraOf q extra = e at hepages hele he32 ⊢
  obtain ⟨hframe, ⟨new, hnew, hreq, -⟩, hcases⟩ :=
    attachRing_spec env j q e (setStream st j attachDefaults)
  refine ⟨⟨new, hnew, ?_⟩, ?_, ?_⟩
  · intro m hm hdev
    obtain ⟨hmlen, hmoff⟩ := hreq m hm hdev
    rw [hw.len] at hmlen
    have hmq : 4096 ∣ m.len ∧ m.len ≤ q := by
      rcases hmlen with hmlen | hmlen
      · rw [hmlen]
        exact ⟨hpages, le_rfl⟩
      · rw [hmlen]
        exact ⟨hepages, hele⟩
    exact driverAccepts_of_le (hmoff.trans hw.off) hjpages hmq.1
      ((Nat.add_le_add_left hmq.2 _).trans hw.end_le) hb2 hw.phy_lt
  · intro hok
    have hring := attachRing_attached hok
    generalize (attachRing env j q e (setStream st j attachDefaults)).2 = st' at hframe hring ⊢
    have hphy : (st'.sheep.stream j).phyaddr = phy + j * q :=
      (hring.phyaddr h.inf).trans (u32_natCast hw.low)
    have hsize : (st'.sheep.stream j).size = q := by
      rw [hframe.shares.size j, setStream_self]
      exact h.size j hj
    have hmaps := hring.maps
    rw [ringMaps, hw.off, hw.len] at hmaps
    refine ⟨⟨(j * q : Nat), ⟨(st'.sheep.stream j).buf, u32 (q + e), false, 0⟩, ?_, ?_, ?_⟩, ?_, ?_⟩
    · rw [mirrorMapping, ringMapping, hsize]
      exact hmaps
    · rw [ringMapping, Mapping.deviceRange, hw.start, hsize, h.window j hj]
    · rw [mirrorMapping, Mapping.deviceRange, hw.start, hphy]
    · rw [hphy, hsize]
      exact h.window j hj
    · rw [hsize]
      exact hele
  · intro henv
    rcases hcases with ⟨hbad, -⟩ | ⟨hok, -⟩
    · rcases (attachRing_refused_iff ..).1 hbad with h | h | h | h
      · exact absurd h (not_lt.2 he32)
      · exact absurd h (henv _)
      · exact absurd h (henv _)
      · exact absurd h (henv _)
    · exact hok

/-! ## The agreement -/

/-- **Copy mode agrees**: for every buffer of whole pages times sixteen and every
number of streams that is accepted, the windows in the card lie side by side in the
buffer, and however many slots were attached before, an attach makes only requests
the driver accepts and maps exactly its slot's window, followed by its beginning. -/
theorem copy_windows_agree {env : Env} {numStream : Int} {phy b : Nat} {st s0 : NacState}
    (hinf : st.sheep.nacinf = ⟨phy, b⟩) (hpages : 16 * 4096 ∣ b)
    (hb2 : b < 2147483648) (hphy : phy < 4294967296) (hfit : phy + b ≤ 4294967296)
    (hconf : nacInlineMsuConfigure env numStream COPY_FWD st = .ok (some (0, s0))) :
    CopyWindowsSeparate phy b numStream.toNat s0 ∧
      ∀ before, (∀ c ∈ before, UsedSlot numStream.toNat c.1) →
        ∀ j extra, UsedSlot numStream.toNat j → 4096 ∣ extra → extra ≤ (s0.sheep.stream j).size →
          let s1 := attachAll env before s0
          let r := attachSlot env j extra s1
          (∃ new, r.2.maps = new ++ s1.maps ∧ ∀ m ∈ new, m.device = true → DriverAccepts phy b m) ∧
            (r.1 = 0 → MirrorMapped phy j (extraOf (s0.sheep.stream j).size extra)
              (slotWindow s0 j) s1 r.2) ∧
            ((∀ k, env.mmap k ≠ none) → r.1 = 0) := by
  obtain ⟨p, hp⟩ := hpages
  have hq : 4096 * p * 16 = b := by rw [hp]; ring
  have hqpages : 4096 ∣ 4096 * p := Dvd.intro p rfl
  generalize 4096 * p = q at hq hqpages
  obtain ⟨hn, hready⟩ := nacInlineMsuConfigure_copyReady hinf hq hb2 hphy hfit hconf
  refine ⟨hready.separate hn hq, ?_⟩
  intro before hbefore j extra hj hextra hle
  have hq31 : q < 2147483648 := by
    have hle : q ≤ q * 16 := Nat.le_mul_of_pos_right q (by decide)
    exact lt_of_le_of_lt (hle.trans hq.le) hb2
  have h1 := @CopyReady.attachAll env phy q b _ hq31 before s0 hready hbefore
  rw [hready.size j hj] at hle ⊢
  have hattach := @CopyReady.attach env phy q b _ j extra _ h1 hn hj hq hqpages hb2 hphy hfit
    hextra hle
  rw [h1.window j hj, ← hready.window j hj] at hattach
  exact hattach

/-- Eight pairs on a 64 MB buffer that ends at the top of the address space, the last
TX slot attached with one page of mirror. -/
theorem eightPairs_agree :
    ∃ s0, nacInlineMsuConfigure grantAll 8 COPY_FWD (freshCard 0xfc000000 0x4000000) =
        .ok (some (0, s0)) ∧
      CopyWindowsSeparate 0xfc000000 0x4000000 8 s0 ∧
      ∃ s1, attachSlot grantAll 15 4096 s0 = (0, s1) ∧
        MirrorMapped 0xfc000000 15 4096 (slotWindow s0 15) s0 s1 := by
  obtain ⟨s0, h0⟩ := @nacInlineMsuConfigure_total grantAll (fun _ => rfl) 8 (by decide) (by decide)
    COPY_FWD (freshCard 0xfc000000 0x4000000) rfl
  have hsize : ∀ st, nacInlineMsuConfigure grantAll 8 COPY_FWD (freshCard 0xfc000000 0x4000000) =
      .ok (some (0, st)) → (st.sheep.stream 15).size = 0x400000 := by
    intro st hst
    have hready := (nacInlineMsuConfigure_copyReady rfl (show 0x400000 * 16 = 0x4000000 from rfl)
      (by decide) (by decide) (by decide) hst).2
    exact hready.size 15 (.inr ⟨by decide, by decide⟩)
  obtain ⟨hsep, hattach⟩ := copy_windows_agree rfl ⟨1024, rfl⟩ (by decide) (by decide) (by decide) h0
  obtain ⟨-, hmirror, hok⟩ := hattach [] (fun _ h => absurd h List.not_mem_nil) 15 4096
    (.inr ⟨by decide, by decide⟩) ⟨1, rfl⟩ (by rw [hsize s0 h0]; decide)
  have hzero := hok (fun k h => nomatch h)
  refine ⟨s0, h0, hsep, _, Prod.ext hzero rfl, ?_⟩
  rw [hsize s0 h0] at hmirror
  exact hmirror hzero

end NacCard.Stream
