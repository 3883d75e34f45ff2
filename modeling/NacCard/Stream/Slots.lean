import NacCard.Stream.Agreement
import NacCard.Stream.Inline

/-!
# What the forwarding set-up leaves

`nac_inline_msu_configure` runs two loops that set up one slot a turn.  The turn
is described once, with the slot as data, and both loops and both modes are
instances.

* `SlotLayout` — a slot, its register addresses and its window; `rxLayout` and
  `txLayout` are the layouts of the two banks.
* `SlotReady` and `Apart` — a slot that is set up stays so while others are.
* `Bank.loopDone` — a whole loop; `nacInlineMsuConfigure_ready` — both of them.
* `AttachFrame` and `attachRing_spec` — what an attach of either kind leaves
  alone, what it maps and what it records.
-/

namespace NacCard.Stream

open NacCard.Base

/-! ## Slots -/

/-- What one turn of a configuration loop sets up: a slot of `herd[nacfd].stream`,
its register addresses, the register its window's end goes to, its window's start. -/
structure SlotLayout where
  slot : Nat
  pbm : NacPbmStream
  endReg : Nat
  start : Nat

/-- The layout of RX stream `i`, with shares of `q` bytes from `phy` on. -/
def rxLayout (phy q i : Nat) : SlotLayout :=
  ⟨i, rxPbm i, (rxPbm i).dmaBufEnd, u32 (phy + i * q : Nat)⟩

/-- The layout of TX stream `i`. -/
def txLayout (flags phy q i : Nat) : SlotLayout :=
  if flags = OVERLAP_FWD then
    ⟨i + NUM_STREAM, txPbm i, (rxPbm i).dmaBufEnd, u32 (phy + i * q : Nat)⟩
  else ⟨i + NUM_STREAM, txPbm i, (txPbm i).dmaBufEnd, u32 (phy + (i + NUM_STREAM) * q : Nat)⟩

namespace SlotLayout

/-- The turn that sets `L` up. -/
def turn (env : Env) (q : Nat) (L : SlotLayout) : NacState → Bool × NacState :=
  inlineSlot env L.slot L.pbm q L.endReg L.start (u32 (L.start + q))

/-- The registers a turn writes. -/
def writes (L : SlotLayout) (a : Nat) : Prop :=
  a = L.pbm.dmaCtlReg ∨ a = L.pbm.dmaBufStart ∨ a = L.endReg

end SlotLayout

theorem inlineRx_eq (env : Env) (phy q i : Nat) :
    inlineRx env phy q i = (rxLayout phy q i).turn env q := by
  have hstart : u32 ((phy : Int) + i32 (i * q)) = u32 (phy + i * q : Nat) := by
    rw [u32_add_i32]
    push_cast
    rfl
  have hstop : u32 ((phy : Int) + q + i32 (i * q)) = u32 ((u32 (phy + i * q : Nat) : Int) + q) := by
    rw [u32_add_i32, u32_add_u32]
    push_cast
    ring_nf
  rw [inlineRx, hstart, hstop]
  rfl

theorem inlineTx_eq (env : Env) (flags phy q i : Nat) :
    inlineTx env flags phy q i = (txLayout flags phy q i).turn env q := by
  have hstart (k : Nat) : u32 ((phy : Int) + i32 (k * q)) = u32 (phy + k * q : Nat) := by
    rw [u32_add_i32]
    push_cast
    rfl
  have hstop (k : Nat) :
      u32 ((phy : Int) + q + i32 (k * q)) = u32 ((u32 (phy + k * q : Nat) : Int) + q) := by
    rw [u32_add_i32, u32_add_u32]
    push_cast
    ring_nf
  unfold inlineTx txLayout
  split_ifs
  · rw [hstart, hstop]
    rfl
  · rw [hstart, hstop]
    rfl

/-- A slot is set up: its window, its size and its register addresses. -/
structure SlotReady (q : Nat) (L : SlotLayout) (st : NacState) : Prop where
  start : st.regs L.pbm.dmaBufStart = L.start
  stop : st.regs L.endReg = u32 (L.start + q)
  size : (st.sheep.stream L.slot).size = q
  pbm : ∃ a, (st.sheep.stream L.slot).pbm = some a ∧ a < st.brk ∧ st.heap a = some L.pbm

/-- What setting up slots changes besides the slots themselves. -/
structure SetUp (n : Nat) (touched : Nat → Prop) (st st' : NacState) : Prop where
  opened : st'.sheep.opened = st.sheep.opened
  inf : st'.sheep.nacinf = st.sheep.nacinf
  maps : st'.maps = st.maps
  clock : st'.clock = st.clock + n
  regs : ∀ a, ¬ touched a → st'.regs a = st.regs a
  buf : ∀ j, (st'.sheep.stream j).buf = (st.sheep.stream j).buf
  phyaddr : ∀ j, (st'.sheep.stream j).phyaddr = (st.sheep.stream j).phyaddr

/-- Setting up `M` does not disturb `L`: other registers, or the same end. -/
structure Apart (L M : SlotLayout) : Prop where
  slot : L.slot ≠ M.slot
  start : ¬ M.writes L.pbm.dmaBufStart
  ctl : L.endReg ≠ M.pbm.dmaCtlReg ∧ L.endReg ≠ M.pbm.dmaBufStart
  stop : L.endReg = M.endReg → L.start = M.start

theorem inlineSlot_ok {env : Env} {slot endReg start stop q : Nat} {p : NacPbmStream}
    {st st' : NacState} (hq : q < 4294967296)
    (h : inlineSlot env slot p q endReg start stop st = (true, st')) :
    st' = programWindow p endReg start stop
      (setStream
        { st with
          heap := Function.update st.heap st.brk (some p)
          brk := st.brk + 1
          clock := st.clock + 1 }
        slot (fun s => { s with pbm := some st.brk, size := q })) := by
  unfold inlineSlot at h
  cases hm : mallocPbm env slot p st with
  | mk ok st1 =>
      rw [hm] at h
      cases ok with
      | false => cases h
      | true =>
          have hst' := (congrArg Prod.snd h).symm
          dsimp only at hst'
          rw [hst', mallocPbm_ok hm, u32_natCast hq]
          simp [setStream]

@[simp] theorem programWindow_sheep (p : NacPbmStream) (endReg start stop : Nat) (st : NacState) :
    (programWindow p endReg start stop st).sheep = st.sheep := rfl

theorem programWindow_regs_ne {p : NacPbmStream} {endReg start stop a : Nat} {st : NacState}
    (h1 : a ≠ p.dmaCtlReg) (h2 : a ≠ p.dmaBufStart) (h3 : a ≠ endReg) :
    (programWindow p endReg start stop st).regs a = st.regs a := by
  rw [programWindow, regWrite_ne h1, regWrite_ne h3, regWrite_ne h2, regWrite_ne h1]

/-- **One turn** sets its slot up … -/
theorem SlotLayout.turn_ready {env : Env} {q : Nat} {L : SlotLayout} {st st' : NacState}
    (hq : q < 4294967296) (hstart : L.pbm.dmaBufStart ≠ L.endReg)
    (hctl : L.pbm.dmaBufStart ≠ L.pbm.dmaCtlReg) (hend : L.endReg ≠ L.pbm.dmaCtlReg)
    (h : L.turn env q st = (true, st')) : SlotReady q L st' := by
  rw [inlineSlot_ok hq h]
  refine ⟨?_, ?_, ?_, st.brk, ?_, ?_, ?_⟩
  · rw [programWindow, regWrite_ne hctl, regWrite_ne hstart, regWrite_self]
  · rw [programWindow, regWrite_ne hend, regWrite_self]
  · simp
  · simp
  · simp [programWindow]
  · simp [programWindow]

/-- … keeps the slots that are apart from it … -/
theorem SlotLayout.turn_keeps {env : Env} {q : Nat} {L M : SlotLayout} {st st' : NacState}
    (hq : q < 4294967296) (hapart : Apart L M) (hr : SlotReady q L st)
    (h : M.turn env q st = (true, st')) : SlotReady q L st' := by
  obtain ⟨a, ha, hlt, hblock⟩ := hr.pbm
  obtain ⟨h1, h2, h3⟩ := not_or.1 hapart.start |>.imp_right not_or.1
  rw [inlineSlot_ok hq h]
  refine ⟨?_, ?_, ?_, a, ?_, ?_, ?_⟩
  · rw [programWindow_regs_ne h1 h2 h3]
    exact hr.start
  · by_cases hsame : L.endReg = M.endReg
    · -- the end register is written again, with the same end
      rw [programWindow, regWrite_ne hapart.ctl.1, hsame, regWrite_self, hapart.stop hsame]
    · rw [programWindow_regs_ne hapart.ctl.1 hapart.ctl.2 hsame]
      exact hr.stop
  · rw [programWindow_sheep, setStream_ne hapart.slot]
    exact hr.size
  · rw [programWindow_sheep, setStream_ne hapart.slot]
    exact ha
  · exact Nat.lt_succ_of_lt hlt
  · exact (Function.update_of_ne hlt.ne _ _).trans hblock

/-- … and leaves everything else alone. -/
theorem SlotLayout.turn_setUp {env : Env} {q : Nat} {M : SlotLayout} {st st' : NacState}
    (hq : q < 4294967296) (h : M.turn env q st = (true, st')) : SetUp 1 M.writes st st' := by
  rw [inlineSlot_ok hq h]
  refine ⟨rfl, rfl, rfl, rfl, ?_, ?_, ?_⟩
  · intro a ha
    obtain ⟨h1, h2, h3⟩ := not_or.1 ha |>.imp_right not_or.1
    exact programWindow_regs_ne h1 h2 h3
  · intro j
    by_cases hj : j = M.slot
    · subst hj
      simp
    · simp [setStream_ne hj]
  · intro j
    by_cases hj : j = M.slot
    · subst hj
      simp
    · simp [setStream_ne hj]

/-! ## The two loops -/

theorem SetUp.trans {n m : Nat} {T T' : Nat → Prop} {st1 st2 st3 : NacState} (h : SetUp n T st1 st2)
    (g : SetUp m T' st2 st3) : SetUp (n + m) (fun a => T a ∨ T' a) st1 st3 := by
  refine ⟨g.opened.trans h.opened, g.inf.trans h.inf, g.maps.trans h.maps, ?_, ?_,
    fun j => (g.buf j).trans (h.buf j), fun j => (g.phyaddr j).trans (h.phyaddr j)⟩
  · rw [g.clock, h.clock, Nat.add_assoc]
  · intro a ha
    obtain ⟨h1, h2⟩ := not_or.1 ha
    exact (g.regs a h2).trans (h.regs a h1)

theorem SetUp.weaken {n : Nat} {T T' : Nat → Prop} {st st' : NacState} (h : SetUp n T st st')
    (hT : ∀ a, T a → T' a) : SetUp n T' st st' :=
  ⟨h.opened, h.inf, h.maps, h.clock, fun a ha => h.regs a (mt (hT a) ha), h.buf, h.phyaddr⟩

/-- The layouts a loop may set up one after another. -/
structure Bank (f : Nat → SlotLayout) (n : Nat) : Prop where
  start : ∀ i < n, (f i).pbm.dmaBufStart ≠ (f i).endReg
  ctl : ∀ i < n, (f i).pbm.dmaBufStart ≠ (f i).pbm.dmaCtlReg
  stop : ∀ i < n, (f i).endReg ≠ (f i).pbm.dmaCtlReg
  apart : ∀ i < n, ∀ j < n, i ≠ j → Apart (f i) (f j)

/-- What `k` turns of a loop leave. -/
structure LoopDone (q k : Nat) (f : Nat → SlotLayout) (st st' : NacState) : Prop where
  ready : ∀ i < k, SlotReady q (f i) st'
  keeps : ∀ L, (∀ i < k, Apart L (f i)) → SlotReady q L st → SlotReady q L st'
  setUp : SetUp k (fun a => ∃ i < k, (f i).writes a) st st'

theorem LoopDone.start (q : Nat) (f : Nat → SlotLayout) (st : NacState) : LoopDone q 0 f st st :=
  ⟨fun i hi => absurd hi (Nat.not_lt_zero i), fun _ _ hL => hL,
    rfl, rfl, rfl, rfl, fun _ _ => rfl, fun _ => rfl, fun _ => rfl⟩

/-- **A loop** of turns that ran to its end. -/
theorem Bank.loopDone {env : Env} {q n : Nat} {f : Nat → SlotLayout} (hf : Bank f n)
    (hq : q < 4294967296) {st st' : NacState}
    (h : runFor (fun i => (f i).turn env q) (List.range' 0 n) st = (true, st')) :
    LoopDone q n f st st' := by
  have hall := runFor_induct (fun k s => k ≤ n → LoopDone q k f st s) ?_ n 0 st st'
    (fun _ => .start q f st) h
  · simpa using hall (by omega)
  · intro i s s' hs hturn hi
    have hdone := hs (by omega)
    refine ⟨?_, ?_, ?_⟩
    · intro j hj
      by_cases hji : j = i
      · subst hji
        exact SlotLayout.turn_ready hq (hf.start j (by omega)) (hf.ctl j (by omega))
          (hf.stop j (by omega)) hturn
      · exact SlotLayout.turn_keeps hq (hf.apart j (by omega) i (by omega) hji)
          (hdone.ready j (by omega)) hturn
    · intro L hL hready
      have hprev := hdone.keeps L (fun j hj => hL j (by omega)) hready
      exact SlotLayout.turn_keeps hq (hL i (by omega)) hprev hturn
    · refine (hdone.setUp.trans (SlotLayout.turn_setUp hq hturn)).weaken ?_
      rintro a (⟨j, hj, ha⟩ | ha)
      · exact ⟨j, by omega, ha⟩
      · exact ⟨i, by omega, ha⟩

/-- The RX registers come in banks of eight, in front of the TX registers. -/
theorem rxLayout_bank (phy q : Nat) {n : Nat} : Bank (rxLayout phy q) n := by
  refine ⟨?_, ?_, ?_, ?_⟩
  · intro i _
    exact (rxPbm_start_ne i i).1
  · intro i _
    exact (rxPbm_start_ne i i).2.1
  · intro i _
    exact (rxPbm_end_ne i i).2.1
  · intro i _ j _ hij
    obtain ⟨h1, h2, -, h4⟩ := rxPbm_start_ne i j
    obtain ⟨g1, g2, -, g4⟩ := rxPbm_end_ne i j
    refine ⟨hij, ?_, ⟨g2, g1⟩, fun hsame => absurd hsame (g4 hij)⟩
    rintro (h | h | h)
    · exact h2 h
    · exact h4 hij h
    · exact h1 h

/-- Which registers the TX slots have, against each other and against the RX slots. -/
theorem txPbm_ne {i j : Nat} (hi : i < NUM_STREAM) :
    (txPbm i).dmaBufStart ≠ (txPbm j).dmaBufEnd ∧ (txPbm i).dmaBufStart ≠ (txPbm j).dmaCtlReg ∧
      (txPbm i).dmaBufEnd ≠ (txPbm j).dmaCtlReg ∧
      (i ≠ j → (txPbm i).dmaBufStart ≠ (txPbm j).dmaBufStart ∧
        (txPbm i).dmaBufEnd ≠ (txPbm j).dmaBufEnd) ∧
      (rxPbm i).dmaBufStart ≠ (txPbm j).dmaBufStart ∧ (rxPbm i).dmaBufStart ≠ (txPbm j).dmaBufEnd ∧
      (rxPbm i).dmaBufStart ≠ (txPbm j).dmaCtlReg ∧ (rxPbm i).dmaBufEnd ≠ (txPbm j).dmaBufStart ∧
      (rxPbm i).dmaBufEnd ≠ (txPbm j).dmaBufEnd ∧ (rxPbm i).dmaBufEnd ≠ (txPbm j).dmaCtlReg := by
  simp only [txPbm, rxPbm, TX_HOST_ADDR_LO_REG, TX_BUF_BOTTOM_LO_REG, TX_DMA_CTL_REG,
    HOST_ADDR_LO_REG, BUF_BOTTOM_LO_REG, STREAM_REG_DIFF_0x40, NUM_STREAM] at hi ⊢
  omega

theorem txLayout_overlap (phy q i : Nat) : txLayout OVERLAP_FWD phy q i =
    ⟨i + NUM_STREAM, txPbm i, (rxPbm i).dmaBufEnd, u32 (phy + i * q : Nat)⟩ := rfl

theorem txLayout_copy {flags : Nat} (h : flags ≠ OVERLAP_FWD) (phy q i : Nat) :
    txLayout flags phy q i =
      ⟨i + NUM_STREAM, txPbm i, (txPbm i).dmaBufEnd, u32 (phy + (i + NUM_STREAM) * q : Nat)⟩ := by
  rw [txLayout, if_neg h]

theorem txLayout_bank (flags phy q : Nat) {n : Nat} (hn : n ≤ NUM_STREAM) :
    Bank (txLayout flags phy q) n := by
  have hne (i j : Nat) (hi : i < n) := @txPbm_ne i j (Nat.lt_of_lt_of_le hi hn)
  by_cases hflags : flags = OVERLAP_FWD
  · subst hflags
    refine ⟨?_, ?_, ?_, ?_⟩
    · intro i hi h
      exact (hne i i hi).2.2.2.2.2.2.2.1 h.symm
    · intro i hi
      exact (hne i i hi).2.1
    · intro i hi
      exact (hne i i hi).2.2.2.2.2.2.2.2.2
    · intro i hi j hj hij
      obtain ⟨h1, h2, h3, h4, h5, h6, h7, h8, h9, h10⟩ := hne i j hi
      refine ⟨?_, ?_, ⟨h10, h8⟩, ?_⟩
      · simpa [txLayout_overlap] using hij
      · rintro (h | h | h)
        · exact h2 h
        · exact (h4 hij).1 h
        · exact (hne j i hj).2.2.2.2.2.2.2.1 h.symm
      · intro hsame
        exact absurd hsame ((rxPbm_end_ne i j).2.2.2 hij)
  · have hlayout := fun i => txLayout_copy hflags phy q i
    refine ⟨?_, ?_, ?_, ?_⟩
    · intro i hi
      rw [hlayout]
      exact (hne i i hi).1
    · intro i hi
      rw [hlayout]
      exact (hne i i hi).2.1
    · intro i hi
      rw [hlayout]
      exact (hne i i hi).2.2.1
    · intro i hi j hj hij
      obtain ⟨h1, h2, h3, h4, -⟩ := hne i j hi
      rw [hlayout, hlayout]
      refine ⟨?_, ?_, ⟨h3, ?_⟩, ?_⟩
      · simpa using hij
      · rintro (h | h | h)
        · exact h2 h
        · exact (h4 hij).1 h
        · exact h1 h
      · intro h
        exact (hne j i hj).1 h.symm
      · intro hsame
        exact absurd hsame (h4 hij).2

/-- The second loop leaves what the first has set up. -/
theorem rx_apart_tx (flags phy q : Nat) {i j : Nat} (hi : i < NUM_STREAM) :
    Apart (rxLayout phy q i) (txLayout flags phy q j) := by
  obtain ⟨-, -, -, -, h5, h6, h7, h8, h9, h10⟩ := @txPbm_ne i j hi
  by_cases hflags : flags = OVERLAP_FWD
  · subst hflags
    refine ⟨?_, ?_, ⟨h10, h8⟩, ?_⟩
    · simp only [rxLayout, txLayout_overlap]
      omega
    · rintro (h | h | h)
      · exact h7 h
      · exact h5 h
      · exact (rxPbm_start_ne i j).1 h
    · intro hsame
      by_cases hij : i = j
      · rw [hij]
        rfl
      · exact absurd hsame ((rxPbm_end_ne i j).2.2.2 hij)
  · rw [txLayout_copy hflags]
    refine ⟨?_, ?_, ⟨h10, h8⟩, fun hsame => absurd hsame h9⟩
    · simp only [rxLayout]
      omega
    · rintro (h | h | h)
      · exact h7 h
      · exact h5 h
      · exact h6 h

/-! ## A configured card -/

/-- **What `nac_inline_msu_configure` leaves behind**: both banks set up, and of the
rest only `capture_stop` and the control registers written. -/
structure InlineReady (flags phy q n : Nat) (st st' : NacState) : Prop where
  rx : ∀ i < n, SlotReady q (rxLayout phy q i) st'
  tx : ∀ i < n, SlotReady q (txLayout flags phy q i) st'
  setUp : SetUp (n + n) (fun a => a = BYPASS_EN_AND_CAP_START ∨
    (∃ i < n, (rxLayout phy q i).writes a) ∨ ∃ i < n, (txLayout flags phy q i).writes a) st st'

theorem inlineShare_eq {flags b : Nat} (hb : b < 4294967296) : inlineShare flags b =
    ((if flags = OVERLAP_FWD then b / NUM_STREAM else b / (NUM_STREAM * 2) : Nat) : Int) := by
  have h8 : b / NUM_STREAM ≤ b / 8 := le_rfl
  have h16 : b / (NUM_STREAM * 2) ≤ b / 16 := le_rfl
  unfold inlineShare
  split_ifs
  · generalize b / NUM_STREAM = q at h8 ⊢
    exact i32_of_mem (by omega) (by omega)
  · generalize b / (NUM_STREAM * 2) = q at h16 ⊢
    exact i32_of_mem (by omega) (by omega)

theorem nacInlineMsuConfigure_ready {env : Env} {numStream : Int} {flags phy b q : Nat}
    {st st' : NacState} (hinf : st.sheep.nacinf = ⟨phy, b⟩) (hb : b < 4294967296)
    (hq : q = if flags = OVERLAP_FWD then b / NUM_STREAM else b / (NUM_STREAM * 2))
    (h : nacInlineMsuConfigure env numStream flags st = .ok (some (0, st'))) :
    (0 < numStream ∧ numStream ≤ NUM_STREAM ∧ st.sheep.opened = true) ∧
      InlineReady flags phy q numStream.toNat st st' := by
  have hqlt : q < 4294967296 := by
    rw [hq]
    split_ifs <;> simp only [NUM_STREAM] <;> omega
  unfold nacInlineMsuConfigure at h
  split_ifs at h with hbad hopen
  · cases h
  · obtain ⟨hpos, hle⟩ := not_or.1 hbad
    have hn : numStream.toNat ≤ NUM_STREAM := by omega
    refine ⟨⟨by omega, by omega, by simpa using hopen⟩, ?_⟩
    simp only [hinf, inlineShare_eq hb, ← hq] at h
    generalize numStream.toNat = n at h hn ⊢
    have hrx : inlineRx env phy q = fun i => (rxLayout phy q i).turn env q :=
      funext fun i => inlineRx_eq env phy q i
    have htx : inlineTx env flags phy q = fun i => (txLayout flags phy q i).turn env q :=
      funext fun i => inlineTx_eq env flags phy q i
    rw [hrx, htx] at h
    cases h1 : runFor (fun i => (rxLayout phy q i).turn env q) (List.range' 0 n) (captureStop st) with
    | mk ok st1 =>
        rw [h1] at h
        cases ok with
        | false => cases h
        | true =>
            dsimp only at h
            cases h2 : runFor (fun i => (txLayout flags phy q i).turn env q) (List.range' 0 n) st1 with
            | mk ok st2 =>
                rw [h2] at h
                cases ok with
                | false => cases h
                | true =>
                    cases h
                    have hdone1 := (rxLayout_bank phy q).loopDone hqlt h1
                    have hdone2 := (txLayout_bank flags phy q hn).loopDone hqlt h2
                    have hcapture : SetUp 0 (· = BYPASS_EN_AND_CAP_START) st (captureStop st) :=
                      ⟨rfl, rfl, rfl, rfl, fun a ha => regWrite_ne ha, fun _ => rfl, fun _ => rfl⟩
                    refine ⟨?_, hdone2.ready, ?_⟩
                    · intro i hi
                      exact hdone2.keeps _ (fun j _ => rx_apart_tx flags phy q (by omega))
                        (hdone1.ready i hi)
                    · have hall := hcapture.trans (hdone1.setUp.trans hdone2.setUp)
                      rw [Nat.zero_add] at hall
                      exact hall

/-- Where no `malloc` fails, every accepted number of streams is configured. -/
theorem nacInlineMsuConfigure_total {env : Env} (henv : ∀ k, env.malloc k = true) {numStream : Int}
    (hpos : 0 < numStream) (hle : numStream ≤ NUM_STREAM) (flags : Nat) {st : NacState}
    (hopen : st.sheep.opened = true) :
    ∃ st', nacInlineMsuConfigure env numStream flags st = .ok (some (0, st')) := by
  have hslot : ∀ slot p bufSize endReg start stop s,
      (inlineSlot env slot p bufSize endReg start stop s).1 = true := by
    intro slot p bufSize endReg start stop s
    obtain ⟨s', hs'⟩ := mallocPbm_total henv slot p s
    rw [inlineSlot, hs']
  have htx : ∀ i s, (inlineTx env flags st.sheep.nacinf.phyAddr
      (inlineShare flags st.sheep.nacinf.bufSize) i s).1 = true := by
    intro i s
    unfold inlineTx
    split_ifs
    · exact hslot ..
    · exact hslot ..
  have hrx : ∀ i s, (inlineRx env st.sheep.nacinf.phyAddr
      (inlineShare flags st.sheep.nacinf.bufSize) i s).1 = true := fun i s => hslot ..
  obtain ⟨st1, h1⟩ := runFor_total hrx (List.range' 0 numStream.toNat) (captureStop st)
  obtain ⟨st2, h2⟩ := runFor_total htx (List.range' 0 numStream.toNat) st1
  refine ⟨st2, ?_⟩
  rw [nacInlineMsuConfigure, if_neg (by omega), hopen]
  simp only [Bool.not_true, Bool.false_eq_true, if_false, h1, h2]

/-- The window of TX stream `i + NUM_STREAM`. -/
def txWindow (st : NacState) (i : Nat) : Set Nat :=
  regWindow st.regs (txPbm i).dmaBufStart (txPbm i).dmaBufEnd

/-! ## Attaching -/

/-- Attaching slot `i` writes no register, and of the streams only its own. -/
structure AttachFrame (i : Nat) (st st' : NacState) : Prop where
  regs : st'.regs = st.regs
  shares : SameShares st st'
  others : ∀ j, j ≠ i → st'.sheep.stream j = st.sheep.stream j

theorem AttachFrame.refl (i : Nat) (st : NacState) : AttachFrame i st st :=
  ⟨rfl, .refl st, fun _ _ => rfl⟩

theorem AttachFrame.trans {i : Nat} {st1 st2 st3 : NacState} (h : AttachFrame i st1 st2)
    (g : AttachFrame i st2 st3) : AttachFrame i st1 st3 :=
  ⟨g.regs.trans h.regs, h.shares.trans g.shares,
    fun j hj => (g.others j hj).trans (h.others j hj)⟩

theorem AttachFrame.setStream {f : StreamT → StreamT} (hsize : ∀ s, (f s).size = s.size)
    (hpbm : ∀ s, (f s).pbm = s.pbm) (st : NacState) (i : Nat) :
    AttachFrame i st (setStream st i f) :=
  ⟨rfl, .setStream hsize hpbm st i, fun _ hj => setStream_ne hj⟩

theorem SlotReady.attach {q i : Nat} {L : SlotLayout} {st st' : NacState} (h : SlotReady q L st)
    (hframe : AttachFrame i st st') : SlotReady q L st' := by
  obtain ⟨a, ha, hlt, hblock⟩ := h.pbm
  refine ⟨?_, ?_, ?_, a, ?_, ?_, ?_⟩
  · rw [hframe.regs]
    exact h.start
  · rw [hframe.regs]
    exact h.stop
  · exact (hframe.shares.size L.slot).trans h.size
  · exact (hframe.shares.pbm L.slot).trans ha
  · rw [hframe.shares.brk]
    exact hlt
  · rw [hframe.shares.heap]
    exact hblock

theorem SlotReady.deref {q : Nat} {L : SlotLayout} {st : NacState} (h : SlotReady q L st) :
    derefPbm st L.slot = .ok L.pbm := by
  obtain ⟨a, ha, -, hblock⟩ := h.pbm
  rw [derefPbm, ha, Option.bind_some, hblock]

theorem derefPbm_setStream {f : StreamT → StreamT} (hf : ∀ s, (f s).pbm = s.pbm) (st : NacState)
    (i j : Nat) : derefPbm (setStream st j f) i = derefPbm st i := by
  by_cases hij : i = j
  · subst hij
    rw [derefPbm, setStream_self, hf, setStream_heap, derefPbm]
  · rw [derefPbm, setStream_ne hij, setStream_heap, derefPbm]

theorem derefPbm_regWrite (st : NacState) (a v i : Nat) :
    derefPbm (regWrite st a v) i = derefPbm st i := rfl

/-- The three mappings of a ring at `p`, the last one made first. -/
def ringMaps (bufSize : Int) (extra : Nat) (off : Int) (p : Nat) : List Mapping :=
  [⟨u64 (p + bufSize), extra, true, off⟩, ⟨p, u64 bufSize, true, off⟩,
    ⟨p, u32 (bufSize + extra), false, 0⟩]

/-- The state after mapping requests: some more mappings, other addresses lost, some more answers
used. -/
def withMaps (st : NacState) (new : List Mapping) (lost : Nat → Bool) (clock : Nat) : NacState :=
  { st with maps := new ++ st.maps, lost := lost, clock := clock }

/-- The device requests among `new` are requests for the ring or its extra window. -/
def RingRequests (bufSize : Int) (extra : Nat) (off : Int) (new : List Mapping) : Prop :=
  ∀ m ∈ new, m.device = true → (m.len = u64 bufSize ∨ m.len = extra) ∧ m.off = off

theorem RingRequests.nil (bufSize : Int) (extra : Nat) (off : Int) :
    RingRequests bufSize extra off [] :=
  fun _ hm => absurd hm List.not_mem_nil

theorem doMmap_of_none {env : Env} {st : NacState} (h : env.mmap st.clock = none)
    (addr : Option Nat) (len : Nat) (device : Bool) (off : Int) :
    doMmap env addr len device off st =
      (none, withMaps st [] (lostByRefusal env st.clock addr len st.lost) (st.clock + 1)) := by
  rw [doMmap, h]
  rfl

theorem doMmap_of_some {env : Env} {st : NacState} {a : Nat} (h : env.mmap st.clock = some a)
    (addr : Option Nat) (len : Nat) (device : Bool) (off : Int) :
    doMmap env addr len device off st =
      (some (addr.getD a), withMaps st [⟨addr.getD a, len, device, off⟩]
        (mapPages (addr.getD a) len st.lost) (st.clock + 1)) := by
  rw [doMmap, h]
  rfl

theorem withMaps_clock (st : NacState) (new : List Mapping) (lost : Nat → Bool) (clock : Nat) :
    (withMaps st new lost clock).clock = clock := rfl

theorem withMaps_lost (st : NacState) (new : List Mapping) (lost : Nat → Bool) (clock : Nat) :
    (withMaps st new lost clock).lost = lost := rfl

theorem withMaps_withMaps (st : NacState) (old new : List Mapping) (k l : Nat → Bool) (c d : Nat) :
    withMaps (withMaps st old k c) new l d = withMaps st (new ++ old) l d := by
  simp [withMaps]

/-- The addresses lost after the space for a ring and its extra window has been reserved at `p`. -/
def lostReserved (bufSize : Int) (extra p : Nat) (st : NacState) : Nat → Bool :=
  mapPages p (u32 (bufSize + extra)) st.lost

/-- And after the ring itself has been mapped there. -/
def lostMapped (bufSize : Int) (extra p : Nat) (st : NacState) : Nat → Bool :=
  mapPages p (u64 bufSize) (lostReserved bufSize extra p st)

/-- **Mapping a ring, request by request**: what has been mapped before a refusal stays, but for
what the refused request takes away. -/
theorem mapRing_eq (env : Env) (bufSize : Int) (extra : Nat) (off : Int) (st : NacState) :
    mapRing env bufSize extra off st =
      match env.mmap st.clock, env.mmap (st.clock + 1), env.mmap (st.clock + 2) with
      | none, _, _ => (none, withMaps st [] st.lost (st.clock + 1))
      | some p, none, _ =>
          (none, withMaps st ((ringMaps bufSize extra off p).drop 2)
            (lostByRefusal env (st.clock + 1) (some p) (u64 bufSize)
              (lostReserved bufSize extra p st)) (st.clock + 2))
      | some p, some _, none =>
          (none, withMaps st ((ringMaps bufSize extra off p).drop 1)
            (lostByRefusal env (st.clock + 2) (some (u64 (p + bufSize))) extra
              (lostMapped bufSize extra p st)) (st.clock + 3))
      | some p, some _, some _ =>
          (some p, withMaps st (ringMaps bufSize extra off p)
            (mapPages (u64 (p + bufSize)) extra (lostMapped bufSize extra p st))
            (st.clock + 3)) := by
  unfold mapRing
  cases h1 : env.mmap st.clock with
  | none =>
      rw [doMmap_of_none h1]
      rfl
  | some p =>
      rw [doMmap_of_some h1]
      dsimp only [Option.getD_none]
      cases h2 : env.mmap (st.clock + 1) with
      | none =>
          rw [@doMmap_of_none env (withMaps st _ _ (st.clock + 1)) h2, withMaps_withMaps]
          rfl
      | some b =>
          rw [@doMmap_of_some env (withMaps st _ _ (st.clock + 1)) b h2]
          dsimp only [Option.getD_some]
          rw [withMaps_clock, withMaps_lost, withMaps_withMaps]
          cases h3 : env.mmap (st.clock + 2) with
          | none =>
              rw [@doMmap_of_none env (withMaps st _ _ (st.clock + 2)) h3, withMaps_withMaps]
              rfl
          | some c =>
              rw [@doMmap_of_some env (withMaps st _ _ (st.clock + 2)) c h3]
              dsimp only
              rw [withMaps_withMaps]
              rfl

theorem mapRing_spec (env : Env) (bufSize : Int) (extra : Nat) (off : Int) (st : NacState) :
    ∃ new lost clock, (mapRing env bufSize extra off st).2 = withMaps st new lost clock ∧
      RingRequests bufSize extra off new ∧
      ∀ p, (mapRing env bufSize extra off st).1 = some p →
        env.mmap st.clock = some p ∧ new = ringMaps bufSize extra off p := by
  have hring (p : Nat) : RingRequests bufSize extra off (ringMaps bufSize extra off p) := by
    intro m hm hdev
    simp only [ringMaps, List.mem_cons, List.not_mem_nil, or_false] at hm
    rcases hm with rfl | rfl | rfl
    · exact ⟨.inr rfl, rfl⟩
    · exact ⟨.inl rfl, rfl⟩
    · cases hdev
  rw [mapRing_eq]
  split
  · exact ⟨[], _, _, rfl, .nil _ _ _, nofun⟩
  · exact ⟨_, _, _, rfl, fun m hm => hring _ m (List.mem_of_mem_drop hm), nofun⟩
  · exact ⟨_, _, _, rfl, fun m hm => hring _ m (List.mem_of_mem_drop hm), nofun⟩
  · rename_i p _ _ hp _ _
    refine ⟨_, _, _, rfl, hring p, fun a ha => ?_⟩
    cases ha
    exact ⟨hp, rfl⟩

theorem AttachFrame.withMaps (i : Nat) (st : NacState) (new : List Mapping) (lost : Nat → Bool)
    (clock : Nat) : AttachFrame i st (withMaps st new lost clock) :=
  ⟨rfl, ⟨fun _ => rfl, fun _ => rfl, fun _ => rfl, fun _ => rfl, rfl, rfl, rfl, rfl⟩,
    fun _ _ => rfl⟩

/-- What a ring attach of slot `i` records and maps. -/
structure RingAttached (env : Env) (i : Nat) (bufSize : Int) (extra : Nat) (st st' : NacState) :
    Prop where
  addr : env.mmap st.clock = some (st'.sheep.stream i).buf
  maps : st'.maps =
    ringMaps bufSize extra (i32 (bufSize * i)) (st'.sheep.stream i).buf ++ st.maps
  stream : st'.sheep.stream i = markAttached (st'.sheep.stream i).buf extra
    (u32 (st.sheep.nacinf.phyAddr + i32 (i * bufSize))) (st.sheep.stream i)

/-- Everything a ring attach can do: it fails, or it records a ring. -/
structure RingAttempt (env : Env) (i : Nat) (bufSize : Int) (extra : Nat) (st : NacState)
    (r : Int × NacState) : Prop where
  frame : AttachFrame i st r.2
  requests : ∃ new, r.2.maps = new ++ st.maps ∧
    RingRequests bufSize extra (i32 (bufSize * i)) new ∧ (new ≠ [] → i32 extra ≤ bufSize)
  cases : r.1 = -1 ∧ r.2.sheep = st.sheep ∨ r.1 = 0 ∧ RingAttached env i bufSize extra st r.2

theorem attachRing_spec (env : Env) (i : Nat) (bufSize : Int) (extra : Nat) (st : NacState) :
    RingAttempt env i bufSize extra st (attachRing env i bufSize extra st) := by
  unfold attachRing
  by_cases hextra : i32 extra > bufSize
  · rw [if_pos hextra]
    exact ⟨.refl i st, ⟨[], rfl, .nil _ _ _, fun h => absurd rfl h⟩, .inl ⟨rfl, rfl⟩⟩
  · rw [if_neg hextra]
    obtain ⟨new, lost, clock, hst, hreq, hring⟩ := mapRing_spec env bufSize extra (i32 (bufSize * i)) st
    cases hm : mapRing env bufSize extra (i32 (bufSize * i)) st with
    | mk r st2 =>
        rw [hm] at hst hring
        dsimp only at hst hring
        subst hst
        cases r with
        | none =>
            exact ⟨.withMaps i st new lost clock, ⟨new, rfl, hreq, fun _ => not_lt.1 hextra⟩,
              .inl ⟨rfl, rfl⟩⟩
        | some p =>
            obtain ⟨haddr, hnew⟩ := hring p rfl
            refine ⟨(AttachFrame.withMaps i st new lost clock).trans (@AttachFrame.setStream
              (markAttached p extra _) (fun _ => rfl) (fun _ => rfl) _ i),
              ⟨new, rfl, hreq, fun _ => not_lt.1 hextra⟩, .inr ⟨rfl, ?_, ?_, ?_⟩⟩
            · dsimp only
              rw [setStream_self]
              exact haddr
            · dsimp only
              rw [setStream_self, setStream_maps, withMaps, hnew]
              rfl
            · dsimp only
              rw [setStream_self]
              rfl

/-- What makes a ring attach fail: too large an extra window, or a mapping refused. -/
def RingRefused (env : Env) (bufSize : Int) (extra : Nat) (st : NacState) : Prop :=
  i32 extra > bufSize ∨ env.mmap st.clock = none ∨ env.mmap (st.clock + 1) = none ∨
    env.mmap (st.clock + 2) = none

theorem attachRing_refused_iff (env : Env) (i : Nat) (bufSize : Int) (extra : Nat)
    (st : NacState) :
    (attachRing env i bufSize extra st).1 = -1 ↔ RingRefused env bufSize extra st := by
  unfold attachRing RingRefused
  by_cases hextra : i32 extra > bufSize
  · simp [hextra]
  · rw [if_neg hextra, mapRing_eq]
    cases h1 : env.mmap st.clock with
    | none => simp
    | some a =>
        cases h2 : env.mmap (st.clock + 1) with
        | none => simp
        | some b =>
            cases h3 : env.mmap (st.clock + 2) with
            | none => simp
            | some c => simpa using hextra

theorem AttachFrame.defaults (st : NacState) (i : Nat) :
    AttachFrame i st (Stream.setStream st i attachDefaults) :=
  @AttachFrame.setStream attachDefaults (fun _ => rfl) (fun _ => rfl) st i

/-- The extra window an attach asks for; zero stands for the whole ring. -/
def extraOf (q extra : Nat) : Nat := if extra = 0 then q else extra

/-- The same for any size, as the functions compute it. -/
def ringExtra (bufSize : Int) (extra : Nat) : Nat := if extra = 0 then u32 bufSize else extra

theorem nacAttachStream_opened {env : Env} {i extra : Nat} {st : NacState}
    (hopen : st.sheep.opened = true) :
    nacAttachStream env i extra st = attachRing env i (i32 (st.sheep.stream i).size)
      (ringExtra (i32 (st.sheep.stream i).size) extra) (setStream st i attachDefaults) := by
  rw [nacAttachStream, if_neg (by simp [hopen])]
  rfl

theorem nacTxAttachStream_opened {env : Env} {i flags extra : Nat} {st : NacState}
    (hopen : st.sheep.opened = true) (hi : NUM_STREAM ≤ i) :
    nacTxAttachStream env i flags extra st =
      if flags = OVERLAP_FWD then
        attachOverlap i (i32 (st.sheep.stream i).size)
          (ringExtra (i32 (st.sheep.stream i).size) extra) (setStream st i attachDefaults)
      else attachRing env i (i32 (st.sheep.stream i).size)
        (ringExtra (i32 (st.sheep.stream i).size) extra) (setStream st i attachDefaults) := by
  rw [nacTxAttachStream, if_neg (by simp [hopen]), if_neg (not_lt.2 hi)]
  rfl

/-- A size below 2 GB is not changed on the way through `int`. -/
theorem ringExtra_eq {q : Nat} (hq : q < 2147483648) (extra : Nat) :
    i32 (q : Int) = q ∧ ringExtra (i32 (q : Int)) extra = extraOf q extra := by
  have hi32 : i32 (q : Int) = q := i32_of_mem (by omega) (by omega)
  refine ⟨hi32, ?_⟩
  rw [hi32, ringExtra, u32_natCast (by omega), extraOf]

theorem nacAttachStream_eq {env : Env} {i extra q : Nat} {st : NacState}
    (hopen : st.sheep.opened = true) (hsize : (st.sheep.stream i).size = q) (hq : q < 2147483648) :
    nacAttachStream env i extra st =
      attachRing env i q (extraOf q extra) (setStream st i attachDefaults) := by
  obtain ⟨hi32, hextra⟩ := ringExtra_eq hq extra
  rw [nacAttachStream_opened hopen, hsize, hextra, hi32]

theorem attachRing_attached {env : Env} {i extra : Nat} {bufSize : Int} {st : NacState}
    (h : (attachRing env i bufSize extra st).1 = 0) :
    RingAttached env i bufSize extra st (attachRing env i bufSize extra st).2 := by
  obtain ⟨-, -, ⟨hbad, -⟩ | ⟨-, hring⟩⟩ := attachRing_spec env i bufSize extra st
  · rw [h] at hbad
    cases hbad
  · exact hring

/-- **An RX stream of a known size is attached.** -/
theorem nacAttachStream_attached {env : Env} {i extra q : Nat} {st st' : NacState}
    (hopen : st.sheep.opened = true) (hsize : (st.sheep.stream i).size = q) (hq : q < 2147483648)
    (h : nacAttachStream env i extra st = (0, st')) :
    AttachFrame i st st' ∧
      RingAttached env i q (extraOf q extra) (setStream st i attachDefaults) st' := by
  rw [nacAttachStream_eq hopen hsize hq] at h
  have hframe := (attachRing_spec env i q (extraOf q extra) (setStream st i attachDefaults)).frame
  have hring := attachRing_attached (congrArg Prod.fst h)
  rw [h] at hframe hring
  exact ⟨(AttachFrame.defaults st i).trans hframe, hring⟩

/-- The bus address of a ring is computed from that of the buffer. -/
theorem RingAttached.phyaddr {env : Env} {i extra q phy b : Nat} {st st' : NacState}
    (h : RingAttached env i q extra (setStream st i attachDefaults) st')
    (hinf : st.sheep.nacinf = ⟨phy, b⟩) :
    (st'.sheep.stream i).phyaddr = u32 (phy + i * q : Nat) := by
  rw [h.stream]
  dsimp only [markAttached]
  rw [u32_add_i32, setStream_nacinf, hinf]
  push_cast
  rfl

theorem nacTxAttachStream_eq {env : Env} {i flags extra q : Nat} {st : NacState}
    (hopen : st.sheep.opened = true) (hi : NUM_STREAM ≤ i)
    (hsize : (st.sheep.stream i).size = q) (hq : q < 2147483648) :
    nacTxAttachStream env i flags extra st =
      if flags = OVERLAP_FWD then
        attachOverlap i q (extraOf q extra) (setStream st i attachDefaults)
      else attachRing env i q (extraOf q extra) (setStream st i attachDefaults) := by
  obtain ⟨hi32, hextra⟩ := ringExtra_eq hq extra
  rw [nacTxAttachStream_opened hopen hi, hsize, hextra, hi32]

end NacCard.Stream
