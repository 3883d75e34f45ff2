import NacCard.Stream.Windows

/-!
# Configure, attach and start agree

`nac_msu_configure` programs a stream's window, `nac_attach_stream` maps a range
of the device and records a physical address, `nac_start_stream` writes a limit;
each recomputes the addresses for itself.

* `SameShares` — what every call between them keeps: the window registers, the
  blocks, and each stream's size and register addresses.
* `nacAttachStream_cases`, `nacStartStream_cases` — all either can do.
* `afterCalls` — any attach and start calls in any order.
* `nacMsuConfigure_windows_agree` — whatever calls were made in between, a stream that attaches
  maps exactly its window, and the limit it starts with is the window's end.
-/

namespace NacCard.Stream

open NacCard.Base

/-! ## What calls leave alone -/

/-- The window registers, the allocated blocks and the size and register addresses
of each stream are the same. -/
structure SameShares (st st' : NacState) : Prop where
  start : ∀ i, st'.regs (rxPbm i).dmaBufStart = st.regs (rxPbm i).dmaBufStart
  stop : ∀ i, st'.regs (rxPbm i).dmaBufEnd = st.regs (rxPbm i).dmaBufEnd
  size : ∀ i, (st'.sheep.stream i).size = (st.sheep.stream i).size
  pbm : ∀ i, (st'.sheep.stream i).pbm = (st.sheep.stream i).pbm
  inf : st'.sheep.nacinf = st.sheep.nacinf
  opened : st'.sheep.opened = st.sheep.opened
  heap : st'.heap = st.heap
  brk : st'.brk = st.brk

namespace SameShares

theorem refl (st : NacState) : SameShares st st :=
  ⟨fun _ => rfl, fun _ => rfl, fun _ => rfl, fun _ => rfl, rfl, rfl, rfl, rfl⟩

theorem trans {st1 st2 st3 : NacState} (h : SameShares st1 st2) (g : SameShares st2 st3) :
    SameShares st1 st3 :=
  ⟨fun i => (g.start i).trans (h.start i), fun i => (g.stop i).trans (h.stop i),
    fun i => (g.size i).trans (h.size i), fun i => (g.pbm i).trans (h.pbm i),
    g.inf.trans h.inf, g.opened.trans h.opened, g.heap.trans h.heap, g.brk.trans h.brk⟩

/-- Assignments to other fields of a stream. -/
theorem setStream {f : StreamT → StreamT} (hsize : ∀ s, (f s).size = s.size)
    (hpbm : ∀ s, (f s).pbm = s.pbm) (st : NacState) (i : Nat) :
    SameShares st (setStream st i f) := by
  refine ⟨fun _ => rfl, fun _ => rfl, ?_, ?_, rfl, rfl, rfl, rfl⟩
  · intro j
    by_cases hj : j = i
    · subst hj
      rw [setStream_self, hsize]
    · rw [setStream_ne hj]
  · intro j
    by_cases hj : j = i
    · subst hj
      rw [setStream_self, hpbm]
    · rw [setStream_ne hj]

/-- A write to a register that bounds no window. -/
theorem regWrite {st : NacState} {a v : Nat}
    (h : ∀ i, (rxPbm i).dmaBufStart ≠ a ∧ (rxPbm i).dmaBufEnd ≠ a) :
    SameShares st (regWrite st a v) :=
  ⟨fun i => regWrite_ne (h i).1, fun i => regWrite_ne (h i).2, fun _ => rfl, fun _ => rfl, rfl,
    rfl, rfl, rfl⟩

theorem doMmap (env : Env) (addr : Option Nat) (len : Nat) (device : Bool) (off : Int)
    (st : NacState) : SameShares st (doMmap env addr len device off st).2 := by
  unfold Stream.doMmap
  cases env.mmap st.clock with
  | none => exact ⟨fun _ => rfl, fun _ => rfl, fun _ => rfl, fun _ => rfl, rfl, rfl, rfl, rfl⟩
  | some a => exact ⟨fun _ => rfl, fun _ => rfl, fun _ => rfl, fun _ => rfl, rfl, rfl, rfl, rfl⟩

theorem ready {phy q i : Nat} {st st' : NacState} (h : SameShares st st')
    (hr : StreamReady phy q i st) : StreamReady phy q i st' := by
  refine hr.frame (h.start i) (h.stop i) (h.size i) (h.pbm i) h.brk.ge ?_
  intro p _
  rw [h.heap]

theorem streamsReady {phy q b k : Nat} {st st' : NacState} (h : SameShares st st')
    (hr : StreamsReady phy q b k st) : StreamsReady phy q b k st' :=
  ⟨h.opened.trans hr.opened, h.inf.trans hr.inf, fun i hi => h.ready (hr.ready i hi)⟩

theorem rxWindow {st st' : NacState} (h : SameShares st st') (i : Nat) :
    rxWindow st' i = rxWindow st i := by
  rw [Stream.rxWindow, Stream.rxWindow, regWindow, regWindow, h.start, h.stop]

end SameShares

/-! ## What each call can do -/

/-- A mapping request that succeeds puts one mapping in front of the others. -/
theorem doMmap_some {env : Env} {addr : Option Nat} {len : Nat} {device : Bool} {off : Int}
    {st st' : NacState} {p : Nat} (h : doMmap env addr len device off st = (some p, st')) :
    st'.maps = ⟨p, len, device, off⟩ :: st.maps := by
  unfold doMmap at h
  cases hm : env.mmap st.clock with
  | none =>
      rw [hm] at h
      cases h
  | some a =>
      rw [hm] at h
      cases h
      rfl

theorem doMmap_sheep_eq {env : Env} {addr r : Option Nat} {len : Nat} {device : Bool} {off : Int}
    {st st' : NacState} (h : doMmap env addr len device off st = (r, st')) :
    st'.sheep = st.sheep := by
  rw [← doMmap_sheep env addr len device off st, h]

/-- What mapping a ring adds: the anonymous address space, the ring and its extra
window, both backed by the device at the same offset. -/
structure RingMapped (bufSize : Int) (extra : Nat) (off : Int) (p : Nat) (st st' : NacState) :
    Prop where
  maps : ∃ x a, st'.maps = ⟨x, extra, true, off⟩ :: ⟨p, u64 bufSize, true, off⟩ :: a :: st.maps
  sheep : st'.sheep = st.sheep

theorem mapRing_cases (env : Env) (bufSize : Int) (extra : Nat) (off : Int) (st : NacState) :
    SameShares st (mapRing env bufSize extra off st).2 ∧
      (mapRing env bufSize extra off st).2.sheep = st.sheep ∧
      ∀ p, (mapRing env bufSize extra off st).1 = some p →
        RingMapped bufSize extra off p st (mapRing env bufSize extra off st).2 := by
  unfold mapRing
  have hs2 := SameShares.doMmap env none (u32 (bufSize + extra)) false 0 st
  rcases h2 : doMmap env none (u32 (bufSize + extra)) false 0 st with ⟨_ | sp, st2⟩
  · rw [h2] at hs2
    exact ⟨hs2, doMmap_sheep_eq h2, fun _ h => nomatch h⟩
  · rw [h2] at hs2
    have hsheep2 := doMmap_sheep_eq h2
    dsimp only at hs2 ⊢
    have hs3 := hs2.trans (SameShares.doMmap env (some sp) (u64 bufSize) true off st2)
    rcases h3 : doMmap env (some sp) (u64 bufSize) true off st2 with ⟨_ | p, st3⟩
    · rw [h3] at hs3
      exact ⟨hs3, (doMmap_sheep_eq h3).trans hsheep2, fun _ h => nomatch h⟩
    · rw [h3] at hs3
      have hsheep3 := (doMmap_sheep_eq h3).trans hsheep2
      dsimp only at hs3 ⊢
      have hs4 := hs3.trans
        (SameShares.doMmap env (some (u64 (sp + bufSize))) extra true off st3)
      rcases h4 : doMmap env (some (u64 (sp + bufSize))) extra true off st3 with ⟨_ | x, st4⟩
      · rw [h4] at hs4
        exact ⟨hs4, (doMmap_sheep_eq h4).trans hsheep3, fun _ h => nomatch h⟩
      · rw [h4] at hs4
        have hsheep := (doMmap_sheep_eq h4).trans hsheep3
        refine ⟨hs4, hsheep, ?_⟩
        intro p' hp'
        obtain rfl : p = p' := Option.some.inj hp'
        refine ⟨⟨x, ⟨sp, u32 (bufSize + extra), false, 0⟩, ?_⟩, hsheep⟩
        rw [doMmap_some h4, doMmap_some h3, doMmap_some h2]

/-- The physical addresses recorded for the streams. -/
def phyaddrs (st : NacState) (i : Nat) : Nat := (st.sheep.stream i).phyaddr

theorem phyaddrs_congr {st st' : NacState} (h : st'.sheep = st.sheep) :
    phyaddrs st' = phyaddrs st := by
  funext i
  rw [phyaddrs, phyaddrs, h]

theorem phyaddrs_setStream {f : StreamT → StreamT} (h : ∀ s, (f s).phyaddr = s.phyaddr)
    (st : NacState) (i : Nat) : phyaddrs (setStream st i f) = phyaddrs st := by
  funext j
  unfold phyaddrs
  by_cases hj : j = i
  · subst hj
    rw [setStream_self, h]
  · rw [setStream_ne hj]

/-- What attaching stream `i` with a ring of `bufSize` bytes leaves: the ring mapped
at its share of the device, an extra window no longer than the ring, and the
share's physical address. -/
structure Attaches (i : Nat) (bufSize : Int) (st st' : NacState) : Prop where
  maps : ∃ extra : Nat, i32 extra ≤ bufSize ∧ ∃ x a, st'.maps =
    ⟨x, extra, true, i32 (bufSize * i)⟩ ::
      ⟨(st'.sheep.stream i).buf, u64 bufSize, true, i32 (bufSize * i)⟩ :: a :: st.maps
  phyaddr : phyaddrs st' i = u32 (st.sheep.nacinf.phyAddr + i32 (i * bufSize))
  others : ∀ j, j ≠ i → phyaddrs st' j = phyaddrs st j

/-- A call either fails and records no address, or attaches. -/
def AttachOutcome (i : Nat) (bufSize : Int) (st : NacState) (r : Int × NacState) : Prop :=
  SameShares st r.2 ∧
    (r.1 = -1 ∧ phyaddrs r.2 = phyaddrs st ∨ r.1 = 0 ∧ Attaches i bufSize st r.2)

theorem attachRing_cases (env : Env) (i : Nat) (bufSize : Int) (extra : Nat) (st : NacState) :
    AttachOutcome i bufSize st (attachRing env i bufSize extra st) := by
  unfold attachRing
  by_cases hextra : i32 extra > bufSize
  · rw [if_pos hextra]
    exact ⟨.refl st, .inl ⟨rfl, rfl⟩⟩
  · rw [if_neg hextra]
    obtain ⟨hsame, hsheep, hring⟩ := mapRing_cases env bufSize extra (i32 (bufSize * i)) st
    cases hm : mapRing env bufSize extra (i32 (bufSize * i)) st with
    | mk r st2 =>
        rw [hm] at hsame hsheep hring
        cases r with
        | none => exact ⟨hsame, .inl ⟨rfl, phyaddrs_congr hsheep⟩⟩
        | some p =>
            obtain ⟨x, a, hmaps⟩ := (hring p rfl).maps
            refine ⟨hsame.trans (@SameShares.setStream (markAttached p extra _) (fun _ => rfl)
              (fun _ => rfl) st2 i), .inr ⟨rfl, ⟨extra, not_lt.1 hextra, x, a, ?_⟩, ?_, ?_⟩⟩
            · dsimp only
              rw [setStream_self]
              exact hmaps
            · rw [phyaddrs, setStream_self, markAttached, hsheep]
            · intro j hj
              rw [phyaddrs, setStream_ne hj, hsheep, phyaddrs]

/-- **All `nac_attach_stream` can do.** -/
theorem nacAttachStream_cases (env : Env) (i extra : Nat) (st : NacState) :
    AttachOutcome i (i32 (st.sheep.stream i).size) st (nacAttachStream env i extra st) := by
  by_cases hopen : st.sheep.opened
  · rw [nacAttachStream, if_neg (by simp [hopen])]
    dsimp only
    -- the defaults are written whether or not the attach goes on
    have hdefaults : SameShares st (setStream st i attachDefaults) :=
      @SameShares.setStream attachDefaults (fun _ => rfl) (fun _ => rfl) st i
    have hphy : phyaddrs (setStream st i attachDefaults) = phyaddrs st :=
      @phyaddrs_setStream attachDefaults (fun _ => rfl) st i
    obtain ⟨hsame, hcases⟩ := attachRing_cases env i (i32 (st.sheep.stream i).size)
      (if extra = 0 then u32 (i32 (st.sheep.stream i).size) else extra)
      (setStream st i attachDefaults)
    refine ⟨hdefaults.trans hsame, ?_⟩
    rcases hcases with ⟨hr, hsamephy⟩ | ⟨hr, hatt⟩
    · exact .inl ⟨hr, hsamephy.trans hphy⟩
    · have hmaps := hatt.maps
      have hone := hatt.phyaddr
      rw [setStream_maps] at hmaps
      rw [setStream_nacinf] at hone
      refine .inr ⟨hr, hmaps, hone, ?_⟩
      intro j hj
      exact (hatt.others j hj).trans (congrFun hphy j)
  · rw [nacAttachStream, if_pos (by simp [hopen])]
    exact ⟨.refl st, .inl ⟨rfl, rfl⟩⟩

/-- **All `nac_start_stream` can do** when the stream's register addresses are there. -/
theorem nacStartStream_cases {i : Nat} {p : NacPbmStream} {st : NacState}
    (hp : derefPbm st i = .ok p) :
    nacStartStream i st = .ok (-1, st) ∨
      nacStartStream i st = .ok (0,
        startWrites p i (u32 ((st.sheep.stream i).phyaddr + i32 (st.sheep.stream i).size)) st) := by
  unfold nacStartStream
  rw [hp]
  dsimp only
  split_ifs
  · exact .inl rfl
  · exact .inr rfl

/-! ## Runs of calls -/

/-- A call on one stream of an open descriptor. -/
inductive Call where
  | attach (streamNum extraWindowSize : Nat)
  | start (streamNum : Nat)
  deriving Repr, DecidableEq

/-- The stream a call is for. -/
def Call.streamNum : Call → Nat
  | .attach i _ => i
  | .start i => i

/-- What it leaves behind. -/
def Call.run (env : Env) : Call → NacState → Except Fault NacState
  | .attach i extra, st => .ok (nacAttachStream env i extra st).2
  | .start i, st => (nacStartStream i st).map Prod.snd

/-- The state after a list of calls. -/
def afterCalls (env : Env) : List Call → NacState → Except Fault NacState
  | [], st => .ok st
  | c :: cs, st => (c.run env st).bind (afterCalls env cs)

theorem StreamReady.deref {phy q i : Nat} {st : NacState} (h : StreamReady phy q i st) :
    derefPbm st i = .ok (rxPbm i) := by
  obtain ⟨p, hp, -, hblock⟩ := h.pbm
  rw [derefPbm, hp, Option.bind_some, hblock]

/-- Limit and control registers bound no window. -/
theorem SameShares.startWrites (i limit : Nat) (st : NacState) :
    SameShares st (startWrites (rxPbm i) i limit st) := by
  have h1 : SameShares st (Stream.regWrite st (rxPbm i).limitPtr limit) :=
    .regWrite fun j => ⟨(rxPbm_start_ne j i).2.2.1, (rxPbm_end_ne j i).2.2.1⟩
  have h2 := h1.trans (.regWrite (v := dmaCtl false false true) fun j =>
    ⟨(rxPbm_start_ne j i).2.1, (rxPbm_end_ne j i).2.1⟩)
  exact h2.trans (@SameShares.setStream markStarted (fun _ => rfl) (fun _ => rfl) _ i)

theorem phyaddrs_startWrites (p : NacPbmStream) (i limit : Nat) (st : NacState) :
    phyaddrs (startWrites p i limit st) = phyaddrs st :=
  @phyaddrs_setStream markStarted (fun _ => rfl) _ i

/-- Stream `i` records the start of its window. -/
def PhyaddrKnown (phy q i : Nat) (st : NacState) : Prop := phyaddrs st i = phy + i * q

/-- An attach of a ready stream records the start of its window. -/
theorem Attaches.phyaddrKnown {phy q b n i : Nat} {st st' : NacState}
    (hq : i * q < 2147483648) (hqlt : q < 2147483648) (hlow : phy + i * q < 4294967296)
    (h : StreamsReady phy q b n st) (hi : i < n)
    (hatt : Attaches i (i32 (st.sheep.stream i).size) st st') : PhyaddrKnown phy q i st' := by
  have hmul : i32 ((i : Int) * q) = (i * q : Nat) := by
    rw [← Nat.cast_mul]
    exact i32_of_mem (by omega) (by omega)
  have hsize : i32 ((st.sheep.stream i).size : Int) = q := by
    rw [(h.ready i hi).size]
    exact i32_of_mem (by omega) (by omega)
  rw [PhyaddrKnown, hatt.phyaddr, hsize, hmul, h.inf, ← Nat.cast_add, u32_natCast hlow]

/-- **One call** keeps the shares and every physical address that is right. -/
theorem Call.run_keeps {phy q b n : Nat} (env : Env) {c : Call} {st : NacState}
    (hfit : ∀ i < n, i * q + q < 2147483648 ∧ phy + i * q < 4294967296)
    (h : StreamsReady phy q b n st) (hc : c.streamNum < n) :
    ∃ st', c.run env st = .ok st' ∧ SameShares st st' ∧
      ∀ i, PhyaddrKnown phy q i st → PhyaddrKnown phy q i st' := by
  obtain ⟨hmul, hlow⟩ := hfit c.streamNum hc
  cases c with
  | attach j extra =>
      obtain ⟨hsame, hcases⟩ := nacAttachStream_cases env j extra st
      refine ⟨_, rfl, hsame, ?_⟩
      intro i hi
      rcases hcases with ⟨-, hphy⟩ | ⟨-, hatt⟩
      · exact (congrFun hphy i).trans hi
      · by_cases hij : i = j
        · subst hij
          exact hatt.phyaddrKnown (by simp only [streamNum] at hmul; omega) (by omega) hlow h hc
        · exact (hatt.others i hij).trans hi
  | start j =>
      rcases nacStartStream_cases (h.ready j hc).deref with hrun | hrun
      · refine ⟨st, ?_, .refl st, fun i hi => hi⟩
        rw [Call.run, hrun]
        rfl
      · generalize u32 ((st.sheep.stream j).phyaddr + i32 (st.sheep.stream j).size) = limit at hrun
        refine ⟨startWrites (rxPbm j) j limit st, ?_, .startWrites j limit st, ?_⟩
        · rw [Call.run, hrun]
          rfl
        · intro i hi
          exact (congrFun (phyaddrs_startWrites _ j limit st) i).trans hi

/-- **Any calls** keep the shares and every physical address that is right. -/
theorem afterCalls_keeps {phy q b n : Nat} (env : Env)
    (hfit : ∀ i < n, i * q + q < 2147483648 ∧ phy + i * q < 4294967296) :
    ∀ (cs : List Call) (st : NacState), StreamsReady phy q b n st → (∀ c ∈ cs, c.streamNum < n) →
      ∃ st', afterCalls env cs st = .ok st' ∧ SameShares st st' ∧
        ∀ i, PhyaddrKnown phy q i st → PhyaddrKnown phy q i st' := by
  intro cs
  induction cs with
  | nil => intro st _ _; exact ⟨st, rfl, .refl st, fun _ hi => hi⟩
  | cons c cs ih =>
      intro st h hcs
      obtain ⟨st1, hrun, hsame, hphy⟩ := c.run_keeps env hfit h (hcs c List.mem_cons_self)
      obtain ⟨st', hrest, hsame', hphy'⟩ := ih st1 (hsame.streamsReady h)
        fun d hd => hcs d (List.mem_cons_of_mem _ hd)
      refine ⟨st', ?_, hsame.trans hsame', fun i hi => hphy' i (hphy i hi)⟩
      rw [afterCalls, hrun]
      exact hrest

/-! ## The agreement -/

/-- Attaching stream `i` maps `window`: the ring lies under its extra window, and
the address recorded is the window's start. -/
structure MapsWindow (phy i : Nat) (window : Set Nat) (st st' : NacState) : Prop where
  maps : ∃ x m a, st'.maps = x :: m :: a :: st.maps ∧ m.addr = (st'.sheep.stream i).buf ∧
    m.device = true ∧ m.len = (st.sheep.stream i).size ∧ m.off = (st.sheep.stream i).size * i ∧
    m.deviceRange phy = window
  phyaddr : window =
    Set.Ico (st'.sheep.stream i).phyaddr ((st'.sheep.stream i).phyaddr + (st.sheep.stream i).size)

theorem Attaches.mapsWindow {phy q b n i : Nat} {st st' : NacState}
    (hq : i * q + q < 2147483648) (hlow : phy + i * q < 4294967296)
    (h : StreamsReady phy q b n st) (hi : i < n)
    (hatt : Attaches i (i32 (st.sheep.stream i).size) st st') :
    MapsWindow phy i (rxWindow st i) st st' := by
  have hsize : i32 ((st.sheep.stream i).size : Int) = q := by
    rw [(h.ready i hi).size]
    exact i32_of_mem (by omega) (by omega)
  have hmul : i32 ((q : Int) * i) = (i * q : Nat) := by
    rw [← Nat.cast_mul, Nat.mul_comm]
    exact i32_of_mem (by omega) (by omega)
  have hlen : u64 q = q := by
    unfold u64
    omega
  have hoff : ((phy : Int) + (i * q : Nat)).toNat = phy + i * q := by omega
  have hknown := hatt.phyaddrKnown (by omega) (by omega) hlow h hi
  have hwin := (h.ready i hi).window (by omega)
  obtain ⟨extra, -, x, a, hmaps⟩ := hatt.maps
  rw [hsize, hmul, hlen] at hmaps
  refine ⟨⟨_, _, a, hmaps, rfl, rfl, (h.ready i hi).size.symm, ?_, ?_⟩, ?_⟩
  · rw [(h.ready i hi).size, Nat.cast_mul, Int.mul_comm]
  · rw [hwin, Mapping.deviceRange, hoff]
  · rw [(h.ready i hi).size, hwin, ← hknown, phyaddrs]

/-- Starting an attached stream writes the end of its window as the first limit. -/
theorem startWrites_limit {phy q b n i : Nat} {st st' : NacState} (hq : q < 2147483648)
    (h : StreamsReady phy q b n st) (hi : i < n) (hphy : PhyaddrKnown phy q i st)
    (hrun : nacStartStream i st = .ok (0, st')) :
    st'.regs (rxPbm i).limitPtr = st.regs (rxPbm i).dmaBufEnd := by
  have hsize : i32 ((st.sheep.stream i).size : Int) = q := by
    rw [(h.ready i hi).size]
    exact i32_of_mem (by omega) (by omega)
  have hne : (rxPbm i).limitPtr ≠ (rxPbm i).dmaCtlReg := by
    simp only [rxPbm, LIMIT_PTR_LO_REG, DMA_CTL_REG]
    omega
  rcases nacStartStream_cases (h.ready i hi).deref with hcase | hcase
  · rw [hcase] at hrun
    simp at hrun
  · rw [hcase] at hrun
    simp only [Except.ok.injEq, Prod.mk.injEq, true_and] at hrun
    rw [← hrun, startWrites, setStream_regs, regWrite_ne hne, regWrite_self, hsize,
      (h.ready i hi).stop, ← hphy, phyaddrs]

/-- **Configure, attach and start agree**, on every card and for every number of
streams `nac_msu_configure` accepts: the windows are separate, and whatever calls
are made before and after it, an attach maps exactly its stream's window and the
start that follows writes the window's end. -/
theorem nacMsuConfigure_windows_agree (env : Env) (numStream : Int) {phy b : Nat}
    {st s0 : NacState} (hinf : st.sheep.nacinf = ⟨phy, b⟩) (hb : RFT_SIZE < b)
    (hb2 : b < 2147483648) (hfit : phy + b ≤ 4294967296)
    (hconf : nacMsuConfigure env numStream st = .ok (0, s0)) :
    WindowsSeparate phy b numStream.toNat s0 ∧
      ∀ before, (∀ c ∈ before, c.streamNum < numStream.toNat) →
        ∃ s1, afterCalls env before s0 = .ok s1 ∧
          ∀ i < numStream.toNat, ∀ extra s2, nacAttachStream env i extra s1 = (0, s2) →
            MapsWindow phy i (rxWindow s0 i) s1 s2 ∧
              ∀ after, (∀ c ∈ after, c.streamNum < numStream.toNat) →
                ∃ s3, afterCalls env after s2 = .ok s3 ∧
                  ∀ s4, nacStartStream i s3 = .ok (0, s4) →
                    s4.regs (rxPbm i).limitPtr = s0.regs (rxPbm i).dmaBufEnd := by
  obtain ⟨n, rfl⟩ : ∃ n : Nat, numStream = n := by
    refine ⟨numStream.toNat, ?_⟩
    have hpos : 0 < numStream := by
      by_contra hneg
      have hbad : badNumStream numStream = true := by simp [badNumStream]; omega
      rw [nacMsuConfigure, if_pos hbad] at hconf
      simp at hconf
    omega
  have hready := nacMsuConfigure_ready hinf hb hb2 hfit hconf
  refine ⟨hready.separate hb hb2, ?_⟩
  rw [Int.toNat_natCast]
  intro before hbefore
  have hR : RFT_SIZE = 8388608 := rfl
  have hbound := @share_bound b n
  have hstreams := hready.streams
  generalize (b - RFT_SIZE) / n = q at hbound hstreams
  have hshares : ∀ i < n, i * q + q < 2147483648 ∧ phy + i * q < 4294967296 := by
    intro i hi
    have hi' := @hbound i hi
    omega
  obtain ⟨s1, hrun1, hsame1, -⟩ := afterCalls_keeps env hshares before s0 hstreams hbefore
  have h1 := hsame1.streamsReady hstreams
  refine ⟨s1, hrun1, ?_⟩
  intro i hi extra s2 hattach
  obtain ⟨hmul, hlow⟩ := hshares i hi
  obtain ⟨hsame2, hcases⟩ := nacAttachStream_cases env i extra s1
  rw [hattach] at hsame2 hcases
  have hatt : Attaches i (i32 (s1.sheep.stream i).size) s1 s2 := by
    rcases hcases with ⟨hr, -⟩ | ⟨-, hatt⟩
    · simp at hr
    · exact hatt
  have hmaps := hatt.mapsWindow hmul hlow h1 hi
  rw [hsame1.rxWindow] at hmaps
  refine ⟨hmaps, ?_⟩
  intro after hafter
  have h2 := hsame2.streamsReady h1
  obtain ⟨s3, hrun3, hsame3, hkeep⟩ := afterCalls_keeps env hshares after s2 h2 hafter
  refine ⟨s3, hrun3, ?_⟩
  intro s4 hstart
  have hknown := hkeep i (hatt.phyaddrKnown (by omega) (by omega) hlow h1 hi)
  rw [startWrites_limit (by omega) (hsame3.streamsReady h2) hi hknown hstart, hsame3.stop,
    hsame2.stop, hsame1.stop]

/-- Four streams on a 64 MB buffer, stream 1 attached. -/
theorem fourStreams_windows_agree :
    ∃ s0, nacMsuConfigure grantAll 4 (freshCard 0x10000000 0x4000000) = .ok (0, s0) ∧
      WindowsSeparate 0x10000000 0x4000000 4 s0 ∧
      ∃ s1, afterCalls grantAll [.attach 1 0] s0 = .ok s1 := by
  obtain ⟨s0, h0⟩ := @nacMsuConfigure_total grantAll (fun _ => rfl) 4 (by decide)
    (freshCard 0x10000000 0x4000000) rfl
  obtain ⟨hsep, hcalls⟩ := nacMsuConfigure_windows_agree grantAll 4 rfl (by decide) (by decide)
    (by decide) h0
  obtain ⟨s1, h1, -⟩ := hcalls [.attach 1 0] (by decide)
  exact ⟨s0, h0, hsep, s1, h1⟩

end NacCard.Stream
