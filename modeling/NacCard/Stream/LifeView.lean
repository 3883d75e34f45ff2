import NacCard.Stream.Lifecycle

/-!
# What a call does to its stream

Of a stream five things matter for when it may be called and whether its DMA runs:
which register addresses `pbm` leads to, whether there is a buffer, the two flags,
and the run bit of the stream's own control register.

* `LifeView` and `view` — these five.
* `LifeOk` — a pointer that is not `NULL` was returned by `malloc`, and what it points
  to are the stream's own addresses or those of the flow table, which
  `nac_msu_configure` puts in the slot behind the last stream.
* `configure_view`, `attach_view`, … — the view after each call, exactly.
* `Returns` and `LifeCall.run_view` — all calls together.
-/

namespace NacCard.Stream

open NacCard.Base

/-! ## The view -/

/-- What `pbm` leads to. -/
inductive PbmKind where
  /-- nothing: it is `NULL`, or the block has been freed -/
  | dead
  /-- the stream's own registers -/
  | own
  /-- the registers of the flow table -/
  | rft
  deriving Repr, DecidableEq

/-- A stream as the life cycle sees it. -/
structure LifeView where
  pbm : PbmKind
  hasBuf : Bool
  attached : Bool
  started : Bool
  /-- `dma_pause_n` in the control register of the stream -/
  running : Bool
  deriving Repr, DecidableEq

/-- What `pbm` leads to in a state. -/
def pbmKind (i : Nat) (st : NacState) : PbmKind :=
  match derefPbm st i with
  | .error _ => .dead
  | .ok p => if p = rxPbm i then .own else .rft

/-- The view of stream `i`. -/
def view (i : Nat) (st : NacState) : LifeView where
  pbm := pbmKind i st
  hasBuf := (st.sheep.stream i).buf ≠ 0
  attached := (st.sheep.stream i).attached
  started := (st.sheep.stream i).started
  running := (st.regs (rxPbm i).dmaCtlReg).testBit 3

/-- What every call keeps. -/
structure LifeOk (i : Nat) (st : NacState) : Prop where
  opened : st.sheep.opened = true
  known : ∀ p, derefPbm st i = .ok p → p = rxPbm i ∨ p = rftPbm
  allocated : ∀ a, (st.sheep.stream i).pbm = some a → a < st.brk

theorem LifeOk.justOpened {i : Nat} {st : NacState} (h : JustOpened st) : LifeOk i st := by
  have hnone : (st.sheep.stream i).pbm = none := by rw [h.stream i]
  refine ⟨h.opened, ?_, ?_⟩
  · intro p hp
    rw [derefPbm, hnone] at hp
    cases hp
  · intro a ha
    rw [hnone] at ha
    cases ha

/-- `dma_pause_n` is bit 3. -/
theorem dmaCtl_running (a s r : Bool) : (dmaCtl a s r).testBit 3 = r := by
  cases a <;> cases s <;> cases r <;> rfl

theorem testBit_three (v : Nat) : v.testBit 3 = decide (v / 8 % 2 = 1) := by
  rw [Nat.testBit_eq_decide_div_mod_eq]

theorem setDmaPauseN_running (v : Nat) (b : Bool) : (setDmaPauseN v b).testBit 3 = b := by
  have hbit : setDmaPauseN v b / 8 % 2 = b.toNat := by
    unfold setDmaPauseN
    cases b <;> simp only [Bool.toNat_true, Bool.toNat_false] <;> omega
  rw [testBit_three, hbit]
  cases b <;> rfl

theorem statusClear_running (v : Nat) : (v ||| 0x4).testBit 3 = v.testBit 3 := by
  simp [Nat.testBit_or, show (4 : Nat).testBit 3 = false from rfl]

/-- The control register of a stream is none of the other registers. -/
theorem ctlReg_ne (i j : Nat) : (rxPbm i).dmaCtlReg ≠ BYPASS_EN_AND_CAP_START ∧
    (rxPbm i).dmaCtlReg ≠ (rxPbm j).dmaBufStart ∧ (rxPbm i).dmaCtlReg ≠ (rxPbm j).dmaBufEnd ∧
    (rxPbm i).dmaCtlReg ≠ (rxPbm j).limitPtr ∧
    (i ≠ j → (rxPbm i).dmaCtlReg ≠ (rxPbm j).dmaCtlReg) ∧
    (rxPbm i).dmaCtlReg ≠ RFT_DMA_CTL_REG ∧ (rxPbm i).dmaCtlReg ≠ RFT_HOST_ADDR_LO_REG ∧
    (rxPbm i).dmaCtlReg ≠ RFT_BUF_BOTTOM_LO_REG ∧ (rxPbm i).dmaCtlReg ≠ RFT_LIMIT_PTR_LO_REG := by
  simp only [rxPbm, BYPASS_EN_AND_CAP_START, DMA_CTL_REG, HOST_ADDR_LO_REG, BUF_BOTTOM_LO_REG,
    LIMIT_PTR_LO_REG, STREAM_REG_DIFF_0x40, RFT_DMA_CTL_REG, RFT_HOST_ADDR_LO_REG,
    RFT_BUF_BOTTOM_LO_REG, RFT_LIMIT_PTR_LO_REG]
  omega

theorem rxPbm_ne_rftPbm (i : Nat) : rxPbm i ≠ rftPbm := by
  intro h
  exact (ctlReg_ne i i).2.2.2.2.2.1 (congrArg NacPbmStream.dmaCtlReg h)

theorem pbmKind_own {i : Nat} {st : NacState} (h : derefPbm st i = .ok (rxPbm i)) :
    pbmKind i st = .own := by
  rw [pbmKind, h]
  exact if_pos rfl

theorem pbmKind_rft {i : Nat} {st : NacState} (h : derefPbm st i = .ok rftPbm) :
    pbmKind i st = .rft := by
  rw [pbmKind, h]
  exact if_neg (rxPbm_ne_rftPbm i).symm

theorem pbmKind_dead {i : Nat} {st : NacState} {e : Fault} (h : derefPbm st i = .error e) :
    pbmKind i st = .dead := by
  rw [pbmKind, h]

theorem derefPbm_congr {i : Nat} {st st' : NacState}
    (hs : (st'.sheep.stream i).pbm = (st.sheep.stream i).pbm)
    (hh : ∀ a, (st.sheep.stream i).pbm = some a → st'.heap a = st.heap a) :
    derefPbm st' i = derefPbm st i := by
  unfold derefPbm
  rw [hs]
  cases hp : (st.sheep.stream i).pbm with
  | none => rfl
  | some a => rw [Option.bind_some, Option.bind_some, hh a hp]

/-- The three cases of a pointer. -/
theorem LifeOk.cases {i : Nat} {st : NacState} (h : LifeOk i st) :
    (∃ e, derefPbm st i = .error e) ∨ derefPbm st i = .ok (rxPbm i) ∨
      derefPbm st i = .ok rftPbm := by
  cases hp : derefPbm st i with
  | error e => exact .inl ⟨e, rfl⟩
  | ok p =>
      rcases h.known p hp with rfl | rfl
      · exact .inr (.inl rfl)
      · exact .inr (.inr rfl)

/-! ## Configuring -/

/-- The first `k` requests of a call for memory are granted. -/
def MallocsOk (env : Env) (st : NacState) (k : Nat) : Prop :=
  ∀ j < k, env.malloc (st.clock + j) = true

/-- Slot `i` is programmed for a capture stream. -/
def Reprograms (env : Env) (i : Nat) (numStream : Int) (st : NacState) : Prop :=
  badNumStream numStream = false ∧ i < numStream.toNat ∧ MallocsOk env st (i + 1)

/-- Slot `i` is the one behind the last stream and gets the flow table. -/
def BecomesRft (env : Env) (i : Nat) (numStream : Int) (st : NacState) : Prop :=
  badNumStream numStream = false ∧ i = numStream.toNat ∧ MallocsOk env st (i + 1)

/-- Slot `i` is the one for which there is no memory. -/
def LosesPbm (env : Env) (i : Nat) (numStream : Int) (st : NacState) : Prop :=
  badNumStream numStream = false ∧ i ≤ numStream.toNat ∧ MallocsOk env st i ∧
    env.malloc (st.clock + i) = false

/-- What a call leaves of the stream and of what its pointer points to. -/
structure SameStream (i : Nat) (st st' : NacState) : Prop where
  opened : st'.sheep.opened = st.sheep.opened
  stream : st'.sheep.stream i = st.sheep.stream i
  heap : ∀ a, a < st.brk → st'.heap a = st.heap a
  brk : st.brk ≤ st'.brk
  ctl : st'.regs (rxPbm i).dmaCtlReg = st.regs (rxPbm i).dmaCtlReg

namespace SameStream

variable {i : Nat}

theorem trans {st1 st2 st3 : NacState} (h : SameStream i st1 st2) (g : SameStream i st2 st3) :
    SameStream i st1 st3 :=
  ⟨g.opened.trans h.opened, g.stream.trans h.stream,
    fun a ha => (g.heap a (lt_of_lt_of_le ha h.brk)).trans (h.heap a ha), h.brk.trans g.brk,
    g.ctl.trans h.ctl⟩

theorem regWrite (st : NacState) {a : Nat} (v : Nat) (h : (rxPbm i).dmaCtlReg ≠ a) :
    SameStream i st (regWrite st a v) :=
  ⟨rfl, rfl, fun _ _ => rfl, le_rfl, regWrite_ne h⟩

theorem setStream (st : NacState) {j : Nat} (f : StreamT → StreamT) (h : i ≠ j) :
    SameStream i st (setStream st j f) :=
  ⟨rfl, setStream_ne h, fun _ _ => rfl, le_rfl, rfl⟩

theorem mallocPbm {env : Env} {j : Nat} {p : NacPbmStream} {st st' : NacState} {ok : Bool}
    (hij : i ≠ j) (h : mallocPbm env j p st = (ok, st')) : SameStream i st st' := by
  cases ok with
  | true =>
      rw [mallocPbm_ok h]
      refine ⟨rfl, setStream_ne hij, ?_, Nat.le_succ _, rfl⟩
      intro a ha
      exact Function.update_of_ne ha.ne _ _
  | false =>
      unfold Stream.mallocPbm at h
      split at h
      · cases h
      · cases h
        exact ⟨rfl, setStream_ne hij, fun _ _ => rfl, le_rfl, rfl⟩

theorem programRx (st : NacState) {j : Nat} (phy : Nat) (q : Int) (hij : i ≠ j) :
    SameStream i st (programRx (rxPbm j) phy q j st) := by
  obtain ⟨-, h2, h3, -, h5, -⟩ := ctlReg_ne i j
  exact ((SameStream.regWrite _ _ h2).trans (.regWrite _ _ h3)).trans (.regWrite _ _ (h5 hij))

theorem programRft (st : NacState) (phy : Nat) (off : Int) :
    SameStream i st (programRft phy off st) := by
  obtain ⟨-, -, -, -, -, h6, h7, h8, h9⟩ := ctlReg_ne i i
  exact (((((SameStream.regWrite _ _ h6).trans (.regWrite _ _ h6)).trans (.regWrite _ _ h7)).trans
    (.regWrite _ _ h8)).trans (.regWrite _ _ h9)).trans (.regWrite _ _ h6)

theorem deref {st st' : NacState} (h : SameStream i st st') (hok : LifeOk i st) :
    derefPbm st' i = derefPbm st i :=
  derefPbm_congr (congrArg StreamT.pbm h.stream) fun a ha => h.heap a (hok.allocated a ha)

theorem lifeOk {st st' : NacState} (h : SameStream i st st') (hok : LifeOk i st) : LifeOk i st' := by
  refine ⟨h.opened.trans hok.opened, ?_, ?_⟩
  · intro p hp
    rw [h.deref hok] at hp
    exact hok.known p hp
  · intro a ha
    rw [h.stream] at ha
    exact lt_of_lt_of_le (hok.allocated a ha) h.brk

theorem view {st st' : NacState} (h : SameStream i st st') (hok : LifeOk i st) :
    view i st' = view i st := by
  unfold Stream.view pbmKind
  rw [h.deref hok, h.stream, h.ctl]

end SameStream

/-- The memory for a slot: what the turn of slot `i` does to its own stream. -/
theorem mallocPbm_self {env : Env} {i : Nat} {p : NacPbmStream} {st st' : NacState} {ok : Bool}
    (h : mallocPbm env i p st = (ok, st')) :
    ok = env.malloc st.clock ∧ st'.clock = st.clock + 1 ∧ st'.regs = st.regs ∧
      st'.sheep.opened = st.sheep.opened ∧
      (ok = true → derefPbm st' i = .ok p ∧ (st'.sheep.stream i).pbm = some st.brk ∧
        st'.brk = st.brk + 1) ∧
      (ok = false → derefPbm st' i = .error .badPointer ∧ (st'.sheep.stream i).pbm = none) ∧
      (st'.sheep.stream i).buf = (st.sheep.stream i).buf ∧
      (st'.sheep.stream i).attached = (st.sheep.stream i).attached ∧
      (st'.sheep.stream i).started = (st.sheep.stream i).started := by
  unfold mallocPbm at h
  split at h
  next hm =>
    cases h
    refine ⟨hm.symm, rfl, rfl, rfl, fun _ => ⟨?_, ?_, rfl⟩, Bool.noConfusion, ?_, ?_, ?_⟩
    · simp [derefPbm]
    · simp
    · simp
    · simp
    · simp
  next hm =>
    cases h
    refine ⟨by simpa using hm, rfl, rfl, rfl, Bool.noConfusion, fun _ => ⟨?_, ?_⟩, ?_, ?_, ?_⟩
    · simp [derefPbm]
    · simp
    · simp
    · simp
    · simp

theorem mallocPbm_clock {env : Env} {j : Nat} {p : NacPbmStream} {st st' : NacState} {ok : Bool}
    (h : mallocPbm env j p st = (ok, st')) : st'.clock = st.clock + 1 ∧ ok = env.malloc st.clock :=
  ⟨(mallocPbm_self h).2.1, (mallocPbm_self h).1⟩

/-- What the loop has made of slot `i` when it is about to take turn `k`. -/
structure LoopView (env : Env) (i : Nat) (st : NacState) (k : Nat) (st' : NacState) : Prop where
  clock : st'.clock = st.clock + k
  granted : MallocsOk env st k
  ok : LifeOk i st'
  before : k ≤ i → view i st' = view i st
  after : i < k → view i st' = { view i st with pbm := .own, running := false }

theorem MallocsOk.succ {env : Env} {st : NacState} {k : Nat} (h : MallocsOk env st k)
    (hk : env.malloc (st.clock + k) = true) : MallocsOk env st (k + 1) := by
  intro j hj
  by_cases hjk : j = k
  · subst hjk
    exact hk
  · exact h j (by omega)

theorem programRx_self (st : NacState) (i : Nat) (phy : Nat) (q : Int) :
    ((programRx (rxPbm i) phy q i st).regs (rxPbm i).dmaCtlReg).testBit 3 = false := by
  rw [programRx, regWrite_self]
  exact dmaCtl_running true true false

/-- **A turn of the loop** that finds memory. -/
theorem LoopView.turn {env : Env} {i k phy : Nat} {q : Int} {st s s' : NacState}
    (h : LoopView env i st k s) (hturn : msuStream env phy q k s = (true, s')) :
    LoopView env i st (k + 1) s' := by
  obtain ⟨s1, hm, hs'⟩ := msuStream_ok hturn
  obtain ⟨hclock, hmalloc⟩ := mallocPbm_clock hm
  rw [h.clock] at hclock hmalloc
  have hgranted := h.granted.succ hmalloc.symm
  by_cases hki : i = k
  · subst hki
    obtain ⟨-, -, -, hopen, hyes, -, hbuf, hatt, hsta⟩ := mallocPbm_self hm
    obtain ⟨hderef, hpbm, hbrk⟩ := hyes rfl
    have hderef' : derefPbm s' i = .ok (rxPbm i) := by
      rw [← hs', ← hderef]
      exact derefPbm_congr (by simp) fun _ _ => rfl
    refine ⟨?_, hgranted, ⟨?_, ?_, ?_⟩, fun hle => by omega, fun _ => ?_⟩
    · rw [← hs', ← Nat.add_assoc, ← hclock]
      rfl
    · rw [← hs']
      exact hopen.trans h.ok.opened
    · intro p hp
      rw [hderef'] at hp
      cases hp
      exact .inl rfl
    · intro a ha
      rw [← hs'] at ha ⊢
      simp only [programRx_sheep, setStream_self, hpbm, Option.some.injEq] at ha
      have hbrk' : (programRx (rxPbm i) phy q i
          (setStream s1 i fun s => { s with size := u32 q })).brk = s.brk + 1 := hbrk
      omega
    · rw [← h.before le_rfl]
      unfold view
      rw [pbmKind_own hderef', ← hs', programRx_self]
      simp [hbuf, hatt, hsta]
  · have hsame : SameStream i s s' := by
      rw [← hs']
      exact ((SameStream.mallocPbm hki hm).trans (.setStream _ _ hki)).trans
        (.programRx _ phy q hki)
    refine ⟨?_, hgranted, hsame.lifeOk h.ok, ?_, ?_⟩
    · rw [← hs', ← Nat.add_assoc, ← hclock]
      rfl
    · intro hle
      rw [hsame.view h.ok, h.before (by omega)]
    · intro hlt
      rw [hsame.view h.ok, h.after (by omega)]

/-- **A turn that finds none** ends the loop; the slot it was for loses its pointer. -/
theorem mallocPbm_fails {env : Env} {i k : Nat} {p : NacPbmStream} {s s' : NacState}
    (h : LifeOk i s) (hm : mallocPbm env k p s = (false, s')) :
    LifeOk i s' ∧ view i s' = if i = k then { view i s with pbm := .dead } else view i s := by
  by_cases hki : i = k
  · subst hki
    obtain ⟨-, -, hregs, hopen, -, hno, hbuf, hatt, hsta⟩ := mallocPbm_self hm
    obtain ⟨hderef, hpbm⟩ := hno rfl
    refine ⟨⟨hopen.trans h.opened, ?_, ?_⟩, ?_⟩
    · intro p hp
      rw [hderef] at hp
      cases hp
    · intro a ha
      rw [hpbm] at ha
      cases ha
    · rw [if_pos rfl]
      unfold view
      rw [pbmKind_dead hderef, hregs, hbuf, hatt, hsta]
  · have hsame := SameStream.mallocPbm hki hm
    rw [if_neg hki]
    exact ⟨hsame.lifeOk h, hsame.view h⟩

/-- The four things a configuration can do to slot `i`. -/
inductive ConfigureView (env : Env) (i : Nat) (n : Int) (st : NacState) (v : LifeView) : Prop
  | reprogram (h : Reprograms env i n st)
      (hv : v = { view i st with pbm := .own, running := false })
  | rft (h : BecomesRft env i n st) (hv : v = { view i st with pbm := .rft })
  | lose (h : LosesPbm env i n st) (hv : v = { view i st with pbm := .dead })
  | keep (h1 : ¬Reprograms env i n st) (h2 : ¬BecomesRft env i n st) (h3 : ¬LosesPbm env i n st)
      (hv : v = view i st)

/-- What the view of slot `i` is once the requests up to turn `k` have been granted and
turn `k` has failed. -/
theorem ConfigureView.of_fail {env : Env} {i k : Nat} {n : Int} {st : NacState}
    (hgood : badNumStream n = false) (hk : k ≤ n.toNat) (hgranted : MallocsOk env st k)
    (hfail : env.malloc (st.clock + k) = false) {v : LifeView}
    (hbefore : k ≤ i → v = view i st)
    (hafter : i < k → v = { view i st with pbm := .own, running := false }) :
    ConfigureView env i n st (if i = k then { v with pbm := .dead } else v) := by
  rcases Nat.lt_trichotomy i k with hlt | rfl | hgt
  · rw [if_neg (by omega)]
    exact .reprogram ⟨hgood, by omega, fun j hj => hgranted j (by omega)⟩ (hafter hlt)
  · rw [if_pos rfl, hbefore le_rfl]
    exact .lose ⟨hgood, hk, hgranted, hfail⟩ rfl
  · rw [if_neg (by omega)]
    have hstop : ∀ m, k < m → ¬MallocsOk env st m := by
      intro m hm hall
      rw [hall k hm] at hfail
      cases hfail
    refine .keep ?_ ?_ ?_ (hbefore (by omega))
    · rintro ⟨-, -, hall⟩
      exact hstop _ (by omega) hall
    · rintro ⟨-, -, hall⟩
      exact hstop _ (by omega) hall
    · rintro ⟨-, -, hall, -⟩
      exact hstop _ hgt hall

/-- The flow table takes slot `n`. -/
theorem rft_view {env : Env} {i n : Nat} {off : Int} {phy k : Nat} {s s1 : NacState}
    (h : LifeOk i s) (hm : mallocPbm env n rftPbm s = (true, s1)) :
    let s' := markConfigured k
      (programRft phy off (setStream s1 n fun s => { s with size := RFT_SIZE }))
    LifeOk i s' ∧ view i s' = if i = n then { view i s with pbm := .rft } else view i s := by
  intro s'
  have hsame : SameStream i (setStream s1 n fun s => { s with size := RFT_SIZE }) s' :=
    (SameStream.programRft _ phy off).trans ⟨rfl, rfl, fun _ _ => rfl, le_rfl, rfl⟩
  by_cases hin : i = n
  · subst hin
    obtain ⟨-, -, hregs, hopen, hyes, -, hbuf, hatt, hsta⟩ := mallocPbm_self hm
    obtain ⟨hderef, hpbm, hbrk⟩ := hyes rfl
    generalize hs2 : setStream s1 i (fun s => { s with size := RFT_SIZE }) = s2 at hsame
    have hpbm2 : (s2.sheep.stream i).pbm = some s.brk := by
      rw [← hs2]
      simpa using hpbm
    have hderef2 : derefPbm s2 i = .ok rftPbm := by
      rw [← hderef, ← hs2]
      exact derefPbm_congr (by simp) fun _ _ => rfl
    have hok2 : LifeOk i s2 := by
      refine ⟨?_, ?_, ?_⟩
      · rw [← hs2]
        exact hopen.trans h.opened
      · intro p hp
        rw [hderef2] at hp
        cases hp
        exact .inr rfl
      · intro a ha
        rw [hpbm2] at ha
        cases ha
        have hbrk2 : s2.brk = s.brk + 1 := by
          rw [← hs2]
          exact hbrk
        omega
    refine ⟨hsame.lifeOk hok2, ?_⟩
    rw [if_pos rfl, hsame.view hok2]
    unfold view
    rw [pbmKind_rft hderef2, ← hs2]
    simp [hbuf, hatt, hsta, hregs]
  · have hall := ((SameStream.mallocPbm hin hm).trans (.setStream _ _ hin)).trans hsame
    rw [if_neg hin]
    exact ⟨hall.lifeOk h, hall.view h⟩

/-- The function ends where there is no memory for a stream, or for the RFT. -/
theorem LoopView.refused {env : Env} {i k : Nat} {n : Int} {p : NacPbmStream} {st s s' : NacState}
    (hs : LoopView env i st k s) (hgood : badNumStream n = false) (hk : k ≤ n.toNat)
    (hm : mallocPbm env k p s = (false, s')) : LifeOk i s' ∧ ConfigureView env i n st (view i s') := by
  obtain ⟨-, hmalloc⟩ := mallocPbm_clock hm
  rw [hs.clock] at hmalloc
  obtain ⟨hok, hv⟩ := mallocPbm_fails hs.ok hm
  refine ⟨hok, ?_⟩
  rw [hv]
  exact .of_fail hgood hk hs.granted hmalloc.symm hs.before hs.after

/-- Otherwise the RFT has the stream behind the last. -/
theorem LoopView.configured {env : Env} {i phy k : Nat} {n off : Int} {st s s1 : NacState}
    (hs : LoopView env i st n.toNat s) (hgood : badNumStream n = false)
    (hm : mallocPbm env n.toNat rftPbm s = (true, s1)) :
    let s' := markConfigured k
      (programRft phy off (setStream s1 n.toNat fun s => { s with size := RFT_SIZE }))
    LifeOk i s' ∧ ConfigureView env i n st (view i s') := by
  intro s'
  obtain ⟨-, hmalloc⟩ := mallocPbm_clock hm
  rw [hs.clock] at hmalloc
  obtain ⟨hok, hv⟩ := @rft_view env i n.toNat off phy k s s1 hs.ok hm
  refine ⟨hok, ?_⟩
  rw [hv]
  have hgranted := hs.granted.succ hmalloc.symm
  rcases Nat.lt_trichotomy i n.toNat with hlt | heq | hgt
  · rw [if_neg (by omega)]
    exact .reprogram ⟨hgood, hlt, fun j hj => hgranted j (by omega)⟩ (hs.after hlt)
  · rw [if_pos heq, hs.before (by omega)]
    refine .rft ⟨hgood, heq, ?_⟩ rfl
    rw [heq]
    exact hgranted
  · rw [if_neg (by omega)]
    refine .keep ?_ ?_ ?_ (hs.before (by omega))
    · rintro ⟨-, hlt, -⟩
      omega
    · rintro ⟨-, heq, -⟩
      omega
    · rintro ⟨-, hle, -⟩
      omega

/-- **All `nac_msu_configure` does to a stream.** -/
theorem configure_view {env : Env} {i : Nat} {n : Int} {st : NacState} (h : LifeOk i st) :
    ∃ r, nacMsuConfigure env n st = .ok r ∧ LifeOk i r.2 ∧ ConfigureView env i n st (view i r.2) := by
  unfold nacMsuConfigure
  by_cases hbad : badNumStream n = true
  · rw [if_pos hbad]
    refine ⟨_, rfl, ⟨h.opened, h.known, h.allocated⟩, ?_⟩
    have hno : ¬badNumStream n = false := by simp [hbad]
    exact .keep (fun hr => hno hr.1) (fun hr => hno hr.1) (fun hr => hno hr.1) rfl
  · rw [if_neg hbad, if_neg (by simp [h.opened])]
    have hgood : badNumStream n = false := by simpa using hbad
    have hcapture : SameStream i st (captureStop st) := .regWrite st _ (ctlReg_ne i i).1
    have hstart : LoopView env i st 0 (captureStop st) :=
      ⟨rfl, fun j hj => absurd hj (Nat.not_lt_zero j), hcapture.lifeOk h,
        fun _ => hcapture.view h, fun hlt => absurd hlt (Nat.not_lt_zero i)⟩
    have hturns : ∀ k s s', LoopView env i st k s →
        msuStream env st.sheep.nacinf.phyAddr (shareOf st.sheep.nacinf.bufSize n) k s = (true, s') →
        LoopView env i st (k + 1) s' := fun _ _ _ hk hturn => hk.turn hturn
    dsimp only
    rcases runFor_cases (LoopView env i st) hturns n.toNat 0 (captureStop st) hstart with
      ⟨s, hrun, hs⟩ | ⟨k, s, s', hk, hs, hfail, hrun⟩
    · rw [hrun]
      rw [Nat.zero_add] at hs
      dsimp only
      cases hm : mallocPbm env n.toNat rftPbm s with
      | mk ok s1 =>
          cases ok with
          | false => exact ⟨_, rfl, hs.refused hgood le_rfl hm⟩
          | true =>
              exact ⟨_, rfl, @LoopView.configured env i st.sheep.nacinf.phyAddr n.toNat n
                (n.toNat * shareOf st.sheep.nacinf.bufSize n) st s s1 hs hgood hm⟩
    · rw [hrun]
      rw [Nat.zero_add] at hk
      exact ⟨_, rfl, hs.refused hgood hk.le (msuStream_failed hfail)⟩

/-! ## Attaching -/

/-- What makes `nac_attach_stream` fail on an open descriptor. -/
def AttachRefused (env : Env) (i extra : Nat) (st : NacState) : Prop :=
  RingRefused env (i32 (st.sheep.stream i).size) (ringExtra (i32 (st.sheep.stream i).size) extra) st

theorem ringRefused_setStream (env : Env) (q : Int) (e i : Nat) (f : StreamT → StreamT)
    (st : NacState) : RingRefused env q e (setStream st i f) ↔ RingRefused env q e st := by
  simp only [RingRefused, setStream_clock]

theorem SameShares.lifeOk {i : Nat} {st st' : NacState} (h : SameShares st st') (hok : LifeOk i st) :
    LifeOk i st' ∧ derefPbm st' i = derefPbm st i := by
  have hderef : derefPbm st' i = derefPbm st i :=
    derefPbm_congr (h.pbm i) fun a _ => by rw [h.heap]
  refine ⟨⟨h.opened.trans hok.opened, ?_, ?_⟩, hderef⟩
  · intro p hp
    rw [hderef] at hp
    exact hok.known p hp
  · intro a ha
    rw [h.pbm] at ha
    rw [h.brk]
    exact hok.allocated a ha

theorem RingAttached.flags {env : Env} {i extra : Nat} {q : Int} {st st' : NacState}
    (h : RingAttached env i q extra st st') : (st'.sheep.stream i).attached = true ∧
      (st'.sheep.stream i).started = false := by
  rw [h.stream]
  exact ⟨rfl, rfl⟩

/-- Where the pointer and the run bit are the same, the view is read off the record. -/
theorem view_eq {i : Nat} {st st' : NacState} (hderef : derefPbm st' i = derefPbm st i)
    (hctl : st'.regs (rxPbm i).dmaCtlReg = st.regs (rxPbm i).dmaCtlReg) : view i st' =
      { view i st with
        hasBuf := (st'.sheep.stream i).buf ≠ 0
        attached := (st'.sheep.stream i).attached
        started := (st'.sheep.stream i).started } := by
  unfold view pbmKind
  rw [hderef, hctl]

/-- The view after `nac_attach_stream`. -/
theorem attach_view {env : Env} {i extra : Nat} {st : NacState} (h : LifeOk i st) :
    LifeOk i (nacAttachStream env i extra st).2 ∧
      (AttachRefused env i extra st ∧ (nacAttachStream env i extra st).1 = -1 ∧
          view i (nacAttachStream env i extra st).2 = view i st ∨
        ¬AttachRefused env i extra st ∧ (nacAttachStream env i extra st).1 = 0 ∧
          ∃ b, view i (nacAttachStream env i extra st).2 =
            { view i st with hasBuf := b, attached := true, started := false }) := by
  rw [AttachRefused, nacAttachStream_opened h.opened]
  generalize ringExtra (i32 (st.sheep.stream i).size) extra = e
  generalize i32 ((st.sheep.stream i).size : Int) = q
  obtain ⟨hframe, -, hcases⟩ := attachRing_spec env i q e (setStream st i attachDefaults)
  have hrefused := attachRing_refused_iff env i q e (setStream st i attachDefaults)
  rw [ringRefused_setStream] at hrefused
  generalize attachRing env i q e (setStream st i attachDefaults) = r at hframe hcases hrefused
  have hall : AttachFrame i st r.2 := (AttachFrame.defaults st i).trans hframe
  obtain ⟨hok, hderef⟩ := hall.shares.lifeOk h
  refine ⟨hok, ?_⟩
  rcases hcases with ⟨hr, hsheep⟩ | ⟨hr, hring⟩
  · refine .inl ⟨hrefused.1 hr, hr, ?_⟩
    rw [view_eq hderef (congrFun hall.regs _), hsheep, setStream_self]
    rfl
  · refine .inr ⟨?_, hr, decide ((r.2.sheep.stream i).buf ≠ 0), ?_⟩
    · intro hbad
      exact absurd ((hrefused.2 hbad).symm.trans hr) (by decide)
    · obtain ⟨hatt, hsta⟩ := hring.flags
      rw [view_eq hderef (congrFun hall.regs _), hatt, hsta]

/-! ## Control writes -/

/-- A write of `b` to the run bit of the control register `pbm` leads to. -/
def LifeView.setRunning (v : LifeView) (b : Bool) : LifeView :=
  if v.pbm = .own then { v with running := b } else v

theorem LifeOk.regWrite {i : Nat} {st : NacState} (h : LifeOk i st) (a v : Nat) :
    LifeOk i (regWrite st a v) := ⟨h.opened, h.known, h.allocated⟩

theorem view_ctlWrite {i : Nat} {st : NacState} {p : NacPbmStream} (h : LifeOk i st)
    (hp : derefPbm st i = .ok p) (v : Nat) :
    view i (regWrite st p.dmaCtlReg v) = (view i st).setRunning (v.testBit 3) := by
  rcases h.known p hp with rfl | rfl
  · have hown : (view i st).pbm = .own := pbmKind_own hp
    have hown' : pbmKind i (regWrite st (rxPbm i).dmaCtlReg v) = .own := pbmKind_own hp
    rw [LifeView.setRunning, if_pos hown]
    unfold view
    rw [hown', pbmKind_own hp, regWrite_self]
    rfl
  · have hrft : (view i st).pbm = .rft := pbmKind_rft hp
    have hne : (rxPbm i).dmaCtlReg ≠ rftPbm.dmaCtlReg := (ctlReg_ne i i).2.2.2.2.2.1
    rw [LifeView.setRunning, if_neg (by rw [hrft]; decide)]
    exact (SameStream.regWrite st v hne).view h

theorem view_limitWrite {i : Nat} {st : NacState} {p : NacPbmStream} (h : LifeOk i st)
    (hp : derefPbm st i = .ok p) (v : Nat) : view i (regWrite st p.limitPtr v) = view i st := by
  have hne : (rxPbm i).dmaCtlReg ≠ p.limitPtr := by
    rcases h.known p hp with rfl | rfl
    · exact (ctlReg_ne i i).2.2.2.1
    · exact (ctlReg_ne i i).2.2.2.2.2.2.2.2
  exact (SameStream.regWrite st v hne).view h

theorem LifeOk.setStream {i : Nat} {f : StreamT → StreamT} (hf : ∀ s, (f s).pbm = s.pbm)
    {st : NacState} (h : LifeOk i st) : LifeOk i (setStream st i f) := by
  refine ⟨h.opened, ?_, ?_⟩
  · intro p hp
    rw [derefPbm_setStream hf] at hp
    exact h.known p hp
  · intro a ha
    rw [setStream_self, hf] at ha
    exact h.allocated a ha

theorem view_setStream {i : Nat} {f : StreamT → StreamT} (hf : ∀ s, (f s).pbm = s.pbm)
    (st : NacState) : view i (setStream st i f) =
      { view i st with
        hasBuf := (f (st.sheep.stream i)).buf ≠ 0
        attached := (f (st.sheep.stream i)).attached
        started := (f (st.sheep.stream i)).started } := by
  unfold view pbmKind
  rw [derefPbm_setStream hf]
  simp

/-- The view after `nac_start_stream`. -/
theorem start_view {i : Nat} {st : NacState} (h : LifeOk i st) :
    (pbmKind i st = .dead ∧ ∃ e, nacStartStream i st = .error e) ∨
      pbmKind i st ≠ .dead ∧ ∃ r, nacStartStream i st = .ok r ∧ LifeOk i r.2 ∧
        (((view i st).attached = false ∨ (view i st).started = true) ∧ r = (-1, st) ∨
          (view i st).attached = true ∧ (view i st).started = false ∧ r.1 = 0 ∧
            view i r.2 = { (view i st).setRunning true with started := true }) := by
  unfold nacStartStream
  cases hp : derefPbm st i with
  | error e => exact .inl ⟨pbmKind_dead hp, e, rfl⟩
  | ok p =>
      refine .inr ⟨?_, ?_⟩
      · rcases h.known p hp with rfl | rfl
        · rw [pbmKind_own hp]
          decide
        · rw [pbmKind_rft hp]
          decide
      · dsimp only
        split_ifs with hbad
        · refine ⟨_, rfl, h, .inl ⟨?_, rfl⟩⟩
          simpa [h.opened, view] using hbad
        · refine ⟨_, rfl, ?_, .inr ?_⟩
          · exact @LifeOk.setStream i markStarted (fun _ => rfl) _ ((h.regWrite ..).regWrite ..)
          · simp only [h.opened, Bool.not_true, Bool.false_or, Bool.or_eq_true, Bool.not_eq_true',
              not_or, Bool.not_eq_false, Bool.not_eq_true] at hbad
            refine ⟨hbad.1, hbad.2, rfl, ?_⟩
            generalize u32 (((st.sheep.stream i).phyaddr : Int) + i32 (st.sheep.stream i).size) = limit
            have hlim : LifeOk i (regWrite st p.limitPtr limit) := h.regWrite ..
            rw [startWrites, @view_setStream i markStarted (fun _ => rfl), view_ctlWrite hlim hp,
              view_limitWrite h hp, dmaCtl_running]
            unfold LifeView.setRunning
            split_ifs <;> rfl

theorem pbmKind_ne_dead {i : Nat} {st : NacState} {p : NacPbmStream} (h : LifeOk i st)
    (hp : derefPbm st i = .ok p) : pbmKind i st ≠ .dead := by
  rcases h.known p hp with rfl | rfl
  · rw [pbmKind_own hp]
    decide
  · rw [pbmKind_rft hp]
    decide

/-- Where `pbm` leads somewhere it can be followed. -/
theorem LifeOk.deref {i : Nat} {st : NacState} (h : LifeOk i st) (hpbm : pbmKind i st ≠ .dead) :
    ∃ p, derefPbm st i = .ok p := by
  rcases h.cases with ⟨e, he⟩ | hp | hp
  · exact absurd (pbmKind_dead he) hpbm
  · exact ⟨_, hp⟩
  · exact ⟨_, hp⟩

/-- The view after `nac_stop_stream`. -/
theorem stop_view {i : Nat} {st : NacState} (h : LifeOk i st) :
    ((view i st).attached = false ∨ (view i st).started = false) ∧
        nacStopStream i st = .ok (-1, st) ∨
      (view i st).attached = true ∧ (view i st).started = true ∧
        ((∃ e, derefPbm st i = .error e ∧ nacStopStream i st = .error e) ∨
          pbmKind i st ≠ .dead ∧ ∃ r, nacStopStream i st = .ok (0, r) ∧ LifeOk i r ∧
            view i r = { (view i st).setRunning false with started := false }) := by
  unfold nacStopStream
  dsimp only
  split_ifs with hbad
  · refine .inl ⟨?_, rfl⟩
    simpa [h.opened, view] using hbad
  · simp only [h.opened, Bool.not_true, Bool.false_or, Bool.or_eq_true, Bool.not_eq_true',
      not_or, Bool.not_eq_false] at hbad
    refine .inr ⟨hbad.1, hbad.2, ?_⟩
    cases hp : derefPbm st i with
    | error e => exact .inl ⟨e, rfl, rfl⟩
    | ok p =>
        refine .inr ⟨pbmKind_ne_dead h hp, _, rfl,
          @LifeOk.setStream i markStopped (fun _ => rfl) _ (h.regWrite ..), ?_⟩
        rw [@view_setStream i markStopped (fun _ => rfl), rewritePause, view_ctlWrite h hp,
          setDmaPauseN_running]
        unfold LifeView.setRunning
        split_ifs <;> rfl

/-- The view after `nac_clear_buf`. -/
theorem clearBuf_view {i : Nat} {st : NacState} (h : LifeOk i st) :
    (∃ e, derefPbm st i = .error e ∧ nacClearBuf i st = .error e) ∨
      pbmKind i st ≠ .dead ∧ ∃ r, nacClearBuf i st = .ok r ∧ LifeOk i r ∧
        view i r = (view i st).setRunning false := by
  unfold nacClearBuf
  cases hp : derefPbm st i with
  | error e => exact .inl ⟨e, rfl, rfl⟩
  | ok p =>
      have h1 : LifeOk i (regWrite st p.dmaCtlReg 0) := h.regWrite ..
      have h2 : LifeOk i (regWrite (regWrite st p.dmaCtlReg 0) p.dmaCtlReg
        (dmaCtl false true false)) := h1.regWrite ..
      refine .inr ⟨pbmKind_ne_dead h hp, _, rfl, h2.regWrite .., ?_⟩
      rw [view_ctlWrite h2 hp, view_ctlWrite h1 hp, view_ctlWrite h hp, dmaCtl_running]
      unfold LifeView.setRunning
      split_ifs <;> rfl

/-- `clear_card_buf` leaves the run bit as it is. -/
theorem clearCardBuf_view {i : Nat} {st : NacState} (h : LifeOk i st) :
    LifeOk i (nacClearCardBuf i st).2 ∧ view i (nacClearCardBuf i st).2 = view i st := by
  unfold nacClearCardBuf
  split_ifs
  · exact ⟨h, rfl⟩
  · refine ⟨h.regWrite .., ?_⟩
    have hctl : (clearCardBuf i st).regs (rxPbm i).dmaCtlReg =
        st.regs (rxPbm i).dmaCtlReg ||| 0x4 := regWrite_self ..
    have hkind : pbmKind i (clearCardBuf i st) = pbmKind i st := rfl
    unfold view
    rw [hctl, statusClear_running, hkind]
    rfl

/-- A pointer that can be followed points to a block. -/
theorem derefPbm_ok {i : Nat} {st : NacState} {p : NacPbmStream} (h : derefPbm st i = .ok p) :
    ∃ a, (st.sheep.stream i).pbm = some a ∧ st.heap a = some p := by
  unfold derefPbm at h
  cases hpbm : (st.sheep.stream i).pbm with
  | none =>
      rw [hpbm] at h
      cases h
  | some a =>
      refine ⟨a, rfl, ?_⟩
      rw [hpbm, Option.bind_some] at h
      cases hheap : st.heap a with
      | none =>
          rw [hheap] at h
          cases h
      | some b =>
          rw [hheap] at h
          cases h
          rfl

/-- The state with the block at `a` freed. -/
def freed (a : Nat) (st : NacState) : NacState :=
  { st with heap := Function.update st.heap a none }

theorem freePbm_ok {i a : Nat} {st : NacState} {p : NacPbmStream}
    (ha : (st.sheep.stream i).pbm = some a) (hblock : st.heap a = some p) :
    freePbm i st = .ok (freed a st) := by
  rw [freePbm, ha]
  dsimp only
  rw [hblock]
  rfl

/-- The view after `nac_detach_stream`. -/
theorem detach_view {i : Nat} {st : NacState} (h : LifeOk i st) :
    (view i st).hasBuf = true ∧ (∃ e, derefPbm st i = .error e ∧ nacDetachStream i st = .error e) ∨
      ∃ r, nacDetachStream i st = .ok (0, r) ∧ LifeOk i r ∧ (view i r).attached = false ∧
        ((view i st).hasBuf = true → pbmKind i st ≠ .dead ∧ pbmKind i r = .dead) := by
  unfold nacDetachStream
  rw [if_neg (by simp [h.opened])]
  by_cases hbuf : (st.sheep.stream i).buf ≠ 0
  · rw [if_pos hbuf]
    have hhas : (view i st).hasBuf = true := by simpa [view] using hbuf
    cases hp : derefPbm st i with
    | error e => exact .inl ⟨hhas, e, rfl, rfl⟩
    | ok p =>
        obtain ⟨a, ha, hblock⟩ := derefPbm_ok hp
        -- the block that was just read is there to be freed
        have hfree := @freePbm_ok i a (rewritePause p false st) p ha hblock
        dsimp only
        rw [hfree]
        dsimp only
        generalize hfreed : freed a (rewritePause p false st) = s
        generalize hr : setStream (unmapRange (s.sheep.stream i).buf
          (u32 ((s.sheep.stream i).size + (s.sheep.stream i).extraWindowSize)) s) i markDetached = r
        have hrpbm : (r.sheep.stream i).pbm = some a := by
          rw [← hr, setStream_self, ← hfreed]
          exact ha
        have hrheap : r.heap a = none := by
          rw [← hr, ← hfreed]
          exact Function.update_self ..
        have hrderef : derefPbm r i = .error .badPointer := by
          rw [derefPbm, hrpbm, Option.bind_some, hrheap]
        refine .inr ⟨r, rfl, ⟨?_, ?_, ?_⟩, ?_,
          fun _ => ⟨pbmKind_ne_dead h hp, pbmKind_dead hrderef⟩⟩
        · rw [← hr, ← hfreed]
          exact h.opened
        · intro p' hp'
          rw [hrderef] at hp'
          cases hp'
        · intro b hb
          rw [hrpbm] at hb
          cases hb
          have hbrk : r.brk = st.brk := by rw [← hr, ← hfreed]; rfl
          rw [hbrk]
          exact h.allocated a ha
        · rw [← hr]
          simp [view, markDetached]
  · rw [if_neg hbuf]
    refine .inr ⟨_, rfl, @LifeOk.setStream i markDetached (fun _ => rfl) _ h, ?_, ?_⟩
    · rw [@view_setStream i markDetached (fun _ => rfl)]
      rfl
    · intro hhas
      exact absurd (by simpa [view] using hhas) hbuf

/-- The view after `nac_advance_stream`: refused, a fault, a wait, or an address. -/
theorem advance_view {i bottom reading : Nat} {polls : List (Nat × Bool)} {st : NacState}
    (h : LifeOk i st) :
    (view i st).attached = false ∧
        nacAdvanceStream i bottom reading polls st = .ok (some ⟨none, bottom, st⟩) ∨
      (view i st).attached = true ∧
        ((∃ e, derefPbm st i = .error e ∧ nacAdvanceStream i bottom reading polls st = .error e) ∨
          pbmKind i st ≠ .dead ∧ (nacAdvanceStream i bottom reading polls st = .ok none ∨
            ∃ top b r, nacAdvanceStream i bottom reading polls st = .ok (some ⟨some top, b, r⟩) ∧
              LifeOk i r ∧ view i r = (view i st).setRunning true)) := by
  unfold nacAdvanceStream
  dsimp only
  split_ifs with hbad
  · refine .inl ⟨?_, rfl⟩
    simpa [h.opened, view] using hbad
  · simp only [h.opened, Bool.not_true, Bool.false_or, Bool.not_eq_true', Bool.not_eq_false] at hbad
    refine .inr ⟨hbad, ?_⟩
    cases hp : derefPbm st i with
    | error e => exact .inl ⟨e, rfl, rfl⟩
    | ok p =>
        refine .inr ⟨pbmKind_ne_dead h hp, ?_⟩
        dsimp only
        generalize (st.sheep.stream i).limitFor _ = limit
        generalize (st.sheep.stream i).waitForData _ _ _ _ = w
        cases w with
        | none => exact .inl rfl
        | some offset =>
            have h1 : LifeOk i (regWrite st p.dmaCtlReg
              (setDmaPauseN (st.regs p.dmaCtlReg) false)) := h.regWrite ..
            have h2 := h1.regWrite p.limitPtr limit
            refine .inr ⟨_, _, _, rfl, h2.regWrite .., ?_⟩
            rw [view_ctlWrite h2 hp, view_limitWrite h1 hp, view_ctlWrite h hp,
              setDmaPauseN_running, setDmaPauseN_running]
            unfold LifeView.setRunning
            split_ifs <;> rfl

/-! ## All calls -/

/-- The calls that follow a pointer which leads nowhere. -/
def Faults (i : Nat) (st : NacState) : LifeCall → Prop
  | .start => pbmKind i st = .dead
  | .clearBuf => pbmKind i st = .dead
  | .stop => pbmKind i st = .dead ∧ (view i st).attached = true ∧ (view i st).started = true
  | .advance _ _ _ => pbmKind i st = .dead ∧ (view i st).attached = true
  | .detach => pbmKind i st = .dead ∧ (view i st).hasBuf = true
  | _ => False

/-- A call returns with success or failure and leaves a view. -/
inductive Returns (env : Env) (i : Nat) (st : NacState) : LifeCall → Bool → LifeView → Prop
  | configure {n : Int} {ok : Bool} {v : LifeView} (h : ConfigureView env i n st v) :
      Returns env i st (.configure n) ok v
  | attachRefused {extra : Nat} (h : AttachRefused env i extra st) :
      Returns env i st (.attach extra) false (view i st)
  | attach {extra : Nat} (h : ¬AttachRefused env i extra st) (b : Bool) :
      Returns env i st (.attach extra) true
        { view i st with hasBuf := b, attached := true, started := false }
  | startRefused (hpbm : pbmKind i st ≠ .dead)
      (h : (view i st).attached = false ∨ (view i st).started = true) :
      Returns env i st .start false (view i st)
  | start (hpbm : pbmKind i st ≠ .dead) (hatt : (view i st).attached = true)
      (hsta : (view i st).started = false) :
      Returns env i st .start true { (view i st).setRunning true with started := true }
  | stopRefused (h : (view i st).attached = false ∨ (view i st).started = false) :
      Returns env i st .stop false (view i st)
  | stop (hpbm : pbmKind i st ≠ .dead) (hatt : (view i st).attached = true)
      (hsta : (view i st).started = true) :
      Returns env i st .stop true { (view i st).setRunning false with started := false }
  | advanceRefused {bottom reading : Nat} {polls : List (Nat × Bool)}
      (h : (view i st).attached = false) :
      Returns env i st (.advance bottom reading polls) false (view i st)
  | advance {bottom reading : Nat} {polls : List (Nat × Bool)} (hpbm : pbmKind i st ≠ .dead)
      (hatt : (view i st).attached = true) :
      Returns env i st (.advance bottom reading polls) true ((view i st).setRunning true)
  | clearBuf (hpbm : pbmKind i st ≠ .dead) :
      Returns env i st .clearBuf true ((view i st).setRunning false)
  | clearCardBuf {ok : Bool} : Returns env i st .clearCardBuf ok (view i st)
  | detach {v : LifeView} (hatt : v.attached = false)
      (hpbm : (view i st).hasBuf = true → pbmKind i st ≠ .dead) :
      Returns env i st .detach true v

/-- **All a call can come to**: a fault, a wait, or a return with one of the views above. -/
theorem LifeCall.run_view {env : Env} {i : Nat} {st : NacState} (h : LifeOk i st) (c : LifeCall) :
    (∃ e, c.run env i st = .error e ∧ Faults i st c) ∨
      (c.run env i st = .ok none ∧ ∃ bottom reading polls, c = .advance bottom reading polls) ∨
      ∃ ok st', c.run env i st = .ok (some (ok, st')) ∧ LifeOk i st' ∧
        Returns env i st c ok (view i st') := by
  cases c with
  | configure n =>
      obtain ⟨r, hr, hok, hv⟩ := @configure_view env i n st h
      exact .inr (.inr ⟨_, r.2, by rw [LifeCall.run, hr]; rfl, hok, .configure hv⟩)
  | attach extra =>
      obtain ⟨hok, ⟨href, hr, hv⟩ | ⟨href, hr, b, hv⟩⟩ := @attach_view env i extra st h
      · refine .inr (.inr ⟨false, _, by rw [LifeCall.run, hr]; rfl, hok, ?_⟩)
        rw [hv]
        exact .attachRefused href
      · refine .inr (.inr ⟨true, _, by rw [LifeCall.run, hr]; rfl, hok, ?_⟩)
        rw [hv]
        exact .attach href b
  | start =>
      rcases start_view h with ⟨hdead, e, he⟩ | ⟨hpbm, r, hr, hok, ⟨hbad, rfl⟩ | ⟨hatt, hsta, hr0, hv⟩⟩
      · exact .inl ⟨e, by rw [LifeCall.run, he]; rfl, hdead⟩
      · exact .inr (.inr ⟨false, st, by rw [LifeCall.run, hr]; rfl, hok, .startRefused hpbm hbad⟩)
      · refine .inr (.inr ⟨true, r.2, by rw [LifeCall.run, hr, Except.map, hr0]; rfl, hok, ?_⟩)
        rw [hv]
        exact .start hpbm hatt hsta
  | stop =>
      rcases stop_view h with ⟨hbad, hr⟩ | ⟨hatt, hsta, ⟨e, he, hr⟩ | ⟨hpbm, r, hr, hok, hv⟩⟩
      · exact .inr (.inr ⟨false, st, by rw [LifeCall.run, hr]; rfl, h, .stopRefused hbad⟩)
      · exact .inl ⟨e, by rw [LifeCall.run, hr]; rfl, pbmKind_dead he, hatt, hsta⟩
      · refine .inr (.inr ⟨true, r, by rw [LifeCall.run, hr]; rfl, hok, ?_⟩)
        rw [hv]
        exact .stop hpbm hatt hsta
  | advance bottom reading polls =>
      rcases @advance_view i bottom reading polls st h with
        ⟨hatt, hr⟩ | ⟨hatt, ⟨e, he, hr⟩ | ⟨hpbm, hr | ⟨top, b, r, hr, hok, hv⟩⟩⟩
      · exact .inr (.inr ⟨false, st, by rw [LifeCall.run, hr]; rfl, h, .advanceRefused hatt⟩)
      · exact .inl ⟨e, by rw [LifeCall.run, hr]; rfl, pbmKind_dead he, hatt⟩
      · exact .inr (.inl ⟨by rw [LifeCall.run, hr]; rfl, bottom, reading, polls, rfl⟩)
      · refine .inr (.inr ⟨true, r, by rw [LifeCall.run, hr]; rfl, hok, ?_⟩)
        rw [hv]
        exact .advance hpbm hatt
  | clearBuf =>
      rcases clearBuf_view h with ⟨e, he, hr⟩ | ⟨hpbm, r, hr, hok, hv⟩
      · exact .inl ⟨e, by rw [LifeCall.run, hr]; rfl, pbmKind_dead he⟩
      · refine .inr (.inr ⟨true, r, by rw [LifeCall.run, hr]; rfl, hok, ?_⟩)
        rw [hv]
        exact .clearBuf hpbm
  | clearCardBuf =>
      obtain ⟨hok, hv⟩ := clearCardBuf_view h
      refine .inr (.inr ⟨_, _, rfl, hok, ?_⟩)
      rw [hv]
      exact .clearCardBuf
  | detach =>
      rcases detach_view h with ⟨hbuf, e, he, hr⟩ | ⟨r, hr, hok, hatt, hpbm⟩
      · exact .inl ⟨e, by rw [LifeCall.run, hr]; rfl, pbmKind_dead he, hbuf⟩
      · exact .inr (.inr ⟨true, r, by rw [LifeCall.run, hr]; rfl, hok,
          .detach hatt fun hbuf => (hpbm hbuf).1⟩)

/-- A step of the machine is a call that returns. -/
theorem lifecycle_step {env : Env} {i : Nat} {st st' : NacState} {c : LifeCall} (h : LifeOk i st)
    (hstep : (lifecycle env i).step st c = some st') :
    LifeOk i st' ∧ ∃ ok, Returns env i st c ok (view i st') := by
  simp only [lifecycle] at hstep
  rcases @LifeCall.run_view env i st h c with ⟨e, hr, -⟩ | ⟨hr, -⟩ | ⟨ok, r, hr, hok, hret⟩
  · rw [hr] at hstep
    cases hstep
  · rw [hr] at hstep
    cases hstep
  · rw [hr] at hstep
    cases hstep
    exact ⟨hok, ok, hret⟩

end NacCard.Stream
