import NacCard.Base.Reads
import NacCard.Base.Words

/-!
# Port counters

A port counter has 64 bits in two registers.  `nac_statistics_cnt` of the library, and
`read_tx_bytes` and `read_rx_bytes` of the tool, read the high half and then the low one,
while the card goes on counting.

* `PortCounters` — the counters; `card` — the device that makes them larger and shows
  their halves.
* `nacStatisticsCnt`, `readTxBytes`, `readRxBytes` — the reads, and how the halves are
  put together; `CounterCall` — a call of one of them.
* `ReadsHalves` — what two reads of a counter come to, and `readEach_halves` for several.
* `between_iff` — a value lies between the counter's values around the call exactly when
  no carry from the low half is lost, `HalvesFit`.
-/

namespace NacCard.Lib

open NacCard.Base

/-! ## The registers -/

/-- `PORT0_TX_BYTE_LOW`: bytes sent, low half. -/
def PORT0_TX_BYTE_LOW : Nat := 0x60280
/-- `PORT0_TX_BYTE_HIGH`: high half. -/
def PORT0_TX_BYTE_HIGH : Nat := 0x60284
/-- `PORT0_RX_BYTE_LOW`: bytes received, low half. -/
def PORT0_RX_BYTE_LOW : Nat := 0x60288
/-- `PORT0_RX_BYTE_HIGH`: high half. -/
def PORT0_RX_BYTE_HIGH : Nat := 0x6028C
/-- `PORT0_TX_FRAME_LOW`: frames sent, low half. -/
def PORT0_TX_FRAME_LOW : Nat := 0x60290
/-- `PORT0_TX_FRAME_HIGH`: high half. -/
def PORT0_TX_FRAME_HIGH : Nat := 0x60294
/-- `PORT0_RX_FRAME_LOW`: frames received, low half. -/
def PORT0_RX_FRAME_LOW : Nat := 0x60298
/-- `PORT0_RX_FRAME_HIGH`: high half. -/
def PORT0_RX_FRAME_HIGH : Nat := 0x6029C
/-- `PORT_OFFSET_60`: from the registers of one port to those of the next. -/
def PORT_OFFSET_60 : Nat := 0x60

/-- The counters of a port. -/
inductive Counter where
  | txByte
  | rxByte
  | txFrame
  | rxFrame
  deriving Repr, DecidableEq

namespace Counter

/-- The register of the low half, for port 0. -/
def lowReg : Counter → Nat
  | txByte => PORT0_TX_BYTE_LOW
  | rxByte => PORT0_RX_BYTE_LOW
  | txFrame => PORT0_TX_FRAME_LOW
  | rxFrame => PORT0_RX_FRAME_LOW

/-- The register of the high half, for port 0. -/
def highReg : Counter → Nat
  | txByte => PORT0_TX_BYTE_HIGH
  | rxByte => PORT0_RX_BYTE_HIGH
  | txFrame => PORT0_TX_FRAME_HIGH
  | rxFrame => PORT0_RX_FRAME_HIGH

end Counter

/-- The counters of every port. -/
structure PortCounters where
  count : Nat → Counter → Nat
  count_lt : ∀ port k, count port k < 18446744073709551616

namespace PortCounters

/-- What the register of the high half shows. -/
def high (c : PortCounters) (port : Nat) (k : Counter) : Nat := c.count port k / 4294967296
/-- What the register of the low half shows. -/
def low (c : PortCounters) (port : Nat) (k : Counter) : Nat := c.count port k % 4294967296

/-- The value of the register `off` bytes into the bank of a port. -/
def bankRead (c : PortCounters) (port : Nat) : Nat → Nat
  | 0x00 => c.low port .txByte
  | 0x04 => c.high port .txByte
  | 0x08 => c.low port .rxByte
  | 0x0C => c.high port .rxByte
  | 0x10 => c.low port .txFrame
  | 0x14 => c.high port .txFrame
  | 0x18 => c.low port .rxFrame
  | 0x1C => c.high port .rxFrame
  | _ => 0

/-- The value of the register at `addr`: the banks of the ports lie one behind the other. -/
def regRead (c : PortCounters) (addr : Nat) : Nat :=
  c.bankRead ((addr - PORT0_TX_BYTE_LOW) / PORT_OFFSET_60)
    ((addr - PORT0_TX_BYTE_LOW) % PORT_OFFSET_60)

/-- No counter is smaller. -/
def Grown (c c' : PortCounters) : Prop := ∀ port k, c.count port k ≤ c'.count port k

theorem Grown.refl (c : PortCounters) : Grown c c := fun _ _ => le_rfl

theorem Grown.trans {c1 c2 c3 : PortCounters} (h : Grown c1 c2) (g : Grown c2 c3) : Grown c1 c3 :=
  fun port k => (h port k).trans (g port k)

theorem regRead_bank (c : PortCounters) (port : Nat) {addr off : Nat}
    (haddr : addr = PORT0_TX_BYTE_LOW + off) (hoff : off < PORT_OFFSET_60) :
    c.regRead (addr + port * PORT_OFFSET_60) = c.bankRead port off := by
  have hport : (addr + port * PORT_OFFSET_60 - PORT0_TX_BYTE_LOW) / PORT_OFFSET_60 = port := by
    simp only [PORT_OFFSET_60] at hoff ⊢
    omega
  have hmod : (addr + port * PORT_OFFSET_60 - PORT0_TX_BYTE_LOW) % PORT_OFFSET_60 = off := by
    simp only [PORT_OFFSET_60] at hoff ⊢
    omega
  rw [regRead, hport, hmod]

-- from here on a register is found by its name, never by computing with an address
attribute [irreducible] regRead

theorem regRead_low (c : PortCounters) (port : Nat) (k : Counter) :
    c.regRead (k.lowReg + port * PORT_OFFSET_60) = c.low port k := by
  cases k with
  | txByte => exact regRead_bank c port (show _ = _ + 0x00 from rfl) (by decide)
  | rxByte => exact regRead_bank c port (show _ = _ + 0x08 from rfl) (by decide)
  | txFrame => exact regRead_bank c port (show _ = _ + 0x10 from rfl) (by decide)
  | rxFrame => exact regRead_bank c port (show _ = _ + 0x18 from rfl) (by decide)

theorem regRead_high (c : PortCounters) (port : Nat) (k : Counter) :
    c.regRead (k.highReg + port * PORT_OFFSET_60) = c.high port k := by
  cases k with
  | txByte => exact regRead_bank c port (show _ = _ + 0x04 from rfl) (by decide)
  | rxByte => exact regRead_bank c port (show _ = _ + 0x0C from rfl) (by decide)
  | txFrame => exact regRead_bank c port (show _ = _ + 0x14 from rfl) (by decide)
  | rxFrame => exact regRead_bank c port (show _ = _ + 0x1C from rfl) (by decide)

theorem low_lt (c : PortCounters) (port : Nat) (k : Counter) : c.low port k < 4294967296 :=
  Nat.mod_lt _ (by decide)

theorem high_lt (c : PortCounters) (port : Nat) (k : Counter) : c.high port k < 4294967296 := by
  have h := c.count_lt port k
  unfold high
  omega

end PortCounters

open PortCounters

/-- The card: the counters grow, and nothing holds a half back while the other is read. -/
def card : Device PortCounters := ⟨Grown, regRead⟩

theorem card_value (c : PortCounters) (addr : Nat) : card.value c addr = c.regRead addr := rfl

theorem grown_of_moved {c c' : PortCounters} (h : card.Moved c c') : Grown c c' := by
  induction h with
  | refl => exact .refl c
  | tail _ hmove ih => exact ih.trans hmove

/-! ## The functions -/

/-- Two reads, the high half first, joined by `|` … -/
def orHalves (high low portNum : Nat) : Reads Nat := do
  let value ← Reads.reg (high + portNum * PORT_OFFSET_60)
  let value := u64 (value <<< 32 : Nat)
  let half ← Reads.reg (low + portNum * PORT_OFFSET_60)
  pure (value ||| half)

/-- … or by `+=`. -/
def addHalves (high low port : Nat) : Reads Nat := do
  let result ← Reads.reg (high + port * PORT_OFFSET_60)
  let result := u64 (result <<< 32 : Nat)
  let half ← Reads.reg (low + port * PORT_OFFSET_60)
  pure (u64 (result + half : Nat))

/-- `statistics_cnt_t` -/
structure StatisticsCnt where
  txBytes : Nat
  rxBytes : Nat
  txFrames : Nat
  rxFrames : Nat
  deriving Repr, DecidableEq

/-- `nac_statistics_cnt`: four counters, each by its high half and then its low half. -/
def nacStatisticsCnt (portNum : Nat) : Reads StatisticsCnt := do
  let txBytes ← orHalves PORT0_TX_BYTE_HIGH PORT0_TX_BYTE_LOW portNum
  let rxBytes ← orHalves PORT0_RX_BYTE_HIGH PORT0_RX_BYTE_LOW portNum
  let txFrames ← orHalves PORT0_TX_FRAME_HIGH PORT0_TX_FRAME_LOW portNum
  let rxFrames ← orHalves PORT0_RX_FRAME_HIGH PORT0_RX_FRAME_LOW portNum
  pure ⟨txBytes, rxBytes, txFrames, rxFrames⟩

/-- `read_tx_bytes`: the bytes sent, high half first. -/
def readTxBytes (port : Nat) : Reads Nat := addHalves PORT0_TX_BYTE_HIGH PORT0_TX_BYTE_LOW port

/-- `read_rx_bytes`: the bytes received, high half first. -/
def readRxBytes (port : Nat) : Reads Nat := addHalves PORT0_RX_BYTE_HIGH PORT0_RX_BYTE_LOW port

/-! ## Calls -/

/-- A call that reads counters. -/
inductive CounterCall where
  | statisticsCnt (portNum : Nat)
  | txBytes (port : Nat)
  | rxBytes (port : Nat)
  deriving Repr, DecidableEq

namespace CounterCall

/-- The port it is made for. -/
def port : CounterCall → Nat
  | statisticsCnt p => p
  | txBytes p => p
  | rxBytes p => p

/-- The counters that are read, in order. -/
def counters : CounterCall → List Counter
  | statisticsCnt _ => [.txByte, .rxByte, .txFrame, .rxFrame]
  | txBytes _ => [.txByte]
  | rxBytes _ => [.rxByte]

/-- The values that are reported, in that order. -/
def values : CounterCall → Reads (List Nat)
  | statisticsCnt p => do
      let c ← nacStatisticsCnt p
      pure [c.txBytes, c.rxBytes, c.txFrames, c.rxFrames]
  | txBytes p => do
      let value ← readTxBytes p
      pure [value]
  | rxBytes p => do
      let value ← readRxBytes p
      pure [value]

/-- How one counter is read. -/
def half : CounterCall → Counter → Reads Nat
  | statisticsCnt p, k => orHalves k.highReg k.lowReg p
  | txBytes p, k => addHalves k.highReg k.lowReg p
  | rxBytes p, k => addHalves k.highReg k.lowReg p

/-- A call reads its counters one after another. -/
theorem values_eq (c : CounterCall) : c.values = Reads.readEach c.half c.counters := by
  cases c with
  | statisticsCnt p => rfl
  | txBytes p => rfl
  | rxBytes p => rfl

end CounterCall

/-! ## What two reads come to -/

/-- A program that reads the halves of a counter, the high one first. -/
def ReadsHalves (port : Nat) (k : Counter) (p : Reads Nat) : Prop :=
  ∀ s seen v s', card.Runs p s seen v s' → ∃ t1 t2, seen = [t1, t2] ∧
    v = t1.high port k * 4294967296 + t2.low port k ∧ Grown s t1 ∧ Grown t1 t2 ∧ Grown t2 s'

theorem shift_eq {h : Nat} (hh : h < 4294967296) : u64 (h <<< 32 : Nat) = h * 4294967296 := by
  rw [Nat.shiftLeft_eq]
  unfold u64
  omega

/-- The halves do not overlap, so that `|` and `+=` come to the same. -/
theorem join_eq {h l : Nat} (hh : h < 4294967296) (hl : l < 4294967296) :
    u64 (h <<< 32 : Nat) ||| l = h * 4294967296 + l ∧
      u64 (u64 (h <<< 32 : Nat) + l : Nat) = h * 4294967296 + l := by
  constructor
  · rw [shift_eq hh, show h * 4294967296 = h <<< 32 from (Nat.shiftLeft_eq h 32).symm]
    exact (Nat.shiftLeft_add_eq_or_of_lt (by omega) h).symm
  · rw [shift_eq hh]
    unfold u64
    omega

/-- Both ways of joining. -/
theorem readsHalves_of_join (port : Nat) (k : Counter) (join : Nat → Nat → Nat)
    (hjoin : ∀ h l, h < 4294967296 → l < 4294967296 → join h l = h * 4294967296 + l) :
    ReadsHalves port k (Reads.reg (k.highReg + port * PORT_OFFSET_60) >>= fun h =>
      Reads.reg (k.lowReg + port * PORT_OFFSET_60) >>= fun l => pure (join h l)) := by
  intro s seen v s' hrun
  obtain ⟨h, s1, seen1, rest1, hhigh, hrest, rfl⟩ := Device.runs_bind_iff.1 hrun
  obtain ⟨t1, hm1, hseen1, hh, hm2⟩ := Device.runs_reg_iff.1 hhigh
  obtain ⟨l, s2, seen2, rest2, hlow, hdone, rfl⟩ := Device.runs_bind_iff.1 hrest
  obtain ⟨t2, hm3, hseen2, hl, hm4⟩ := Device.runs_reg_iff.1 hlow
  obtain ⟨rfl, rfl, hm5⟩ := Device.runs_done_iff.1 hdone
  rw [card_value, regRead_high] at hh
  rw [card_value, regRead_low] at hl
  refine ⟨t1, t2, ?_, ?_, grown_of_moved hm1, grown_of_moved (hm2.trans hm3),
    grown_of_moved (hm4.trans hm5)⟩
  · rw [hseen1, hseen2]
    rfl
  · rw [hh, hl]
    exact hjoin _ _ (t1.high_lt port k) (t2.low_lt port k)

theorem CounterCall.readsHalves (c : CounterCall) (k : Counter) :
    ReadsHalves c.port k (c.half k) := by
  cases c with
  | statisticsCnt p => exact readsHalves_of_join p k _ fun h l hh hl => (join_eq hh hl).1
  | txBytes p => exact readsHalves_of_join p k _ fun h l hh hl => (join_eq hh hl).2
  | rxBytes p => exact readsHalves_of_join p k _ fun h l hh hl => (join_eq hh hl).2

/-- Row `j` of a run: the states in which counter `k` was read, and its value. -/
structure Row (port : Nat) (k : Counter) (s s' t1 t2 : PortCounters) (v : Nat) : Prop where
  value : v = t1.high port k * 4294967296 + t2.low port k
  begins : Grown s t1
  between : Grown t1 t2
  ends : Grown t2 s'

/-- **Several counters**, one after another. -/
theorem readEach_halves {port : Nat} {f : Counter → Reads Nat}
    (hf : ∀ k, ReadsHalves port k (f k)) {ks : List Counter} {s s' : PortCounters}
    {seen : List PortCounters} {vs : List Nat}
    (h : card.Runs (Reads.readEach f ks) s seen vs s') :
    Grown s s' ∧ ∀ j k, ks[j]? = some k → ∃ t1 t2 v, seen[2 * j]? = some t1 ∧
      seen[2 * j + 1]? = some t2 ∧ vs[j]? = some v ∧ Row port k s s' t1 t2 v := by
  induction ks generalizing s s' seen vs with
  | nil =>
      obtain ⟨rfl, rfl, hmoved⟩ := Device.runs_done_iff.1 h
      exact ⟨grown_of_moved hmoved, fun j k hk => nomatch hk⟩
  | cons k0 ks ih =>
      obtain ⟨v, s1, seen1, rest1, hhead, hrest, rfl⟩ := Device.runs_bind_iff.1 h
      obtain ⟨t1, t2, rfl, hv, hg1, hg2, hg3⟩ := hf k0 _ _ _ _ hhead
      obtain ⟨vs', s2, seen2, rest2, htail, hdone, rfl⟩ := Device.runs_bind_iff.1 hrest
      obtain ⟨rfl, rfl, hmoved⟩ := Device.runs_done_iff.1 hdone
      obtain ⟨hgrown, hrows⟩ := ih htail
      have hend := grown_of_moved hmoved
      have hs1 : Grown s s1 := (hg1.trans hg2).trans hg3
      refine ⟨(hs1.trans hgrown).trans hend, fun j k hk => ?_⟩
      cases j with
      | zero =>
          cases hk
          exact ⟨t1, t2, v, rfl, rfl, rfl, hv, hg1, hg2, (hg3.trans hgrown).trans hend⟩
      | succ j =>
          obtain ⟨u1, u2, w, hu1, hu2, hw, hrow⟩ := hrows j k hk
          refine ⟨u1, u2, w, ?_, ?_, hw, hrow.value, hs1.trans hrow.begins, hrow.between,
            hrow.ends.trans hend⟩
          · simpa [Nat.mul_add] using hu1
          · simpa [Nat.mul_add] using hu2

/-! ## Torn values -/

/-- The value lies between the counter's values when the call begins and when it ends. -/
def Between (port : Nat) (k : Counter) (s s' : PortCounters) (v : Nat) : Prop :=
  s.count port k ≤ v ∧ v ≤ s'.count port k

/-- **No carry is lost**: the high half has moved on since the beginning when it is read, or the low
half is not smaller than at the beginning when it is read. -/
def HalvesFit (port : Nat) (k : Counter) (s t1 t2 : PortCounters) : Prop :=
  s.high port k < t1.high port k ∨ s.low port k ≤ t2.low port k

/-- In particular where the high half is the same in both reads. -/
theorem HalvesFit.of_high_eq {port : Nat} {k : Counter} {s s' t1 t2 : PortCounters} {v : Nat}
    (h : Row port k s s' t1 t2 v) (heq : t1.high port k = t2.high port k) :
    HalvesFit port k s t1 t2 := by
  have hle := h.begins.trans h.between port k
  have hle1 := h.begins port k
  simp only [HalvesFit, high, low] at heq ⊢
  omega

theorem Row.between_iff {port : Nat} {k : Counter} {s s' t1 t2 : PortCounters} {v : Nat}
    (h : Row port k s s' t1 t2 v) : Between port k s s' v ↔ HalvesFit port k s t1 t2 := by
  have h1 := h.begins port k
  have h2 := h.between port k
  have h3 := h.ends port k
  rw [Between, HalvesFit, h.value]
  simp only [high, low]
  omega

/-- **A counter is not torn**, in any interleaving of a call with the card, if and only if no carry is
lost between its two reads. -/
theorem counters_between_iff {c : CounterCall} {s s' : PortCounters} {seen : List PortCounters}
    {vs : List Nat} (h : card.Runs c.values s seen vs s') :
    ∀ j k, c.counters[j]? = some k → ∃ t1 t2 v, seen[2 * j]? = some t1 ∧
      seen[2 * j + 1]? = some t2 ∧ vs[j]? = some v ∧
        (Between c.port k s s' v ↔ HalvesFit c.port k s t1 t2) := by
  rw [c.values_eq] at h
  intro j k hk
  obtain ⟨t1, t2, v, h1, h2, hv, hrow⟩ := (readEach_halves c.readsHalves h).2 j k hk
  exact ⟨t1, t2, v, h1, h2, hv, hrow.between_iff⟩

/-! ## Around a carry -/

/-- All counters at `n`. -/
def countersAt (n : Nat) (hn : n < 18446744073709551616) : PortCounters :=
  ⟨fun _ _ => n, fun _ _ => hn⟩

/-- Five billion bytes, and nothing is sent during the call. -/
theorem counters_between_still : ∃ seen v,
    card.Runs (CounterCall.values (.txBytes 0)) (countersAt 5000000000 (by decide)) seen [v]
      (countersAt 5000000000 (by decide)) ∧
    Between 0 .txByte (countersAt 5000000000 (by decide)) (countersAt 5000000000 (by decide)) v := by
  have hrun : card.Runs (CounterCall.values (.txBytes 0)) (countersAt 5000000000 (by decide))
      [countersAt 5000000000 (by decide), countersAt 5000000000 (by decide)] _
      (countersAt 5000000000 (by decide)) := .read (.read .done)
  obtain ⟨t1, t2, v, h1, h2, hv, hiff⟩ := counters_between_iff hrun 0 .txByte rfl
  cases h1
  cases h2
  cases hv
  exact ⟨_, _, hrun, hiff.2 (.inr le_rfl)⟩

/-- **One byte at the wrong moment**: 4294967295 bytes have been sent when the high half is read, one
more when the low half is; what is reported is 0. -/
theorem counters_torn : ∃ seen vs,
    card.Runs (CounterCall.values (.statisticsCnt 0)) (countersAt 0xffffffff (by decide)) seen vs
      (countersAt 0x100000000 (by decide)) ∧ vs[0]? = some 0 ∧
    ¬Between 0 .txByte (countersAt 0xffffffff (by decide)) (countersAt 0x100000000 (by decide)) 0 := by
  have hgrown : card.moves (countersAt 0xffffffff (by decide)) (countersAt 0x100000000 (by decide)) :=
    fun _ _ => show (0xffffffff : Nat) ≤ 0x100000000 by decide
  have hrun : card.Runs (CounterCall.values (.statisticsCnt 0)) (countersAt 0xffffffff (by decide)) _ _
      (countersAt 0x100000000 (by decide)) :=
    .read (.move hgrown (.read (.read (.read (.read (.read (.read (.read .done))))))))
  have hrun' := hrun
  rw [CounterCall.values_eq] at hrun'
  obtain ⟨t1, t2, v, h1, h2, hv, hrow⟩ :=
    (readEach_halves (CounterCall.readsHalves (.statisticsCnt 0)) hrun').2 0 .txByte rfl
  cases h1
  cases h2
  refine ⟨_, _, hrun, ?_, fun h => absurd h.1 (by decide)⟩
  rw [hv, hrow.value]
  rfl

end NacCard.Lib
