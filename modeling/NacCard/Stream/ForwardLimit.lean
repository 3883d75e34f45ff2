import NacCard.Stream.Slots

/-!
# The limit that follows the transmitter

`nac_inline_advance_stream` gives the card back what has been sent: the limit of RX
stream `i` is put 128 bytes behind the record pointer of its TX stream, whose place
it computes relative to the start of the RX window.

* `nacInlineAdvanceStream` — the function, on what the card answers in each turn of
  its wait loop.
* `Forwarding` — what configuring and attaching leave of all that it reads;
  `forwarding_of_setUp` is the run, `Forwarding.since` the calls in between.
* `LimitInside` and `LimitFits` — the limit lies in the RX window, and when it does.
* `inlineLimit_inside_iff` — for both modes.  In overlap mode the two windows start
  at the same place; in copy mode they are eight shares apart, and only shares of a
  few bytes hide it.
-/

namespace NacCard.Stream

open NacCard.Base

/-! ## `nac_inline_advance_stream` -/

/-- `WRSAFE` for a stream of `size` bytes. -/
def wrsafe (size : Nat) (x : Int) : Int := if x - SAFETY_WINDOW ≤ 0 then size else x - SAFETY_WINDOW

/-- `*bottom` as the function first sets it. -/
def inlineBottom (s : StreamT) (bottom : Nat) : Nat :=
  let bottom := if bottom = 0 then s.buf else bottom
  if bottom > u64 (s.buf + s.size) then u64 (bottom - s.size) else bottom

/-- `limit_ptr_addr`, for a value of the TX record register. -/
def inlineLimit (s : StreamT) (txRecordPhyAddr : Nat) : Nat :=
  let txRecordPtrAddr := u64 (u32 ((txRecordPhyAddr : Int) - s.phyaddr) + s.buf)
  let txRecorderAlign := txRecordPtrAddr &&& 0xffffffffffffff80
  u32 (s.phyaddr + wrsafe s.size ((txRecorderAlign : Int) - s.buf))

/-- Pause the DMA, write the limit, let it go on. -/
def writeInlineLimit (p : NacPbmStream) (limit : Nat) (st : NacState) : NacState :=
  let dmaCtlReg := setDmaPauseN (st.regs p.dmaCtlReg) false
  let st := regWrite st p.dmaCtlReg dmaCtlReg
  let st := regWrite st p.limitPtr limit
  regWrite st p.dmaCtlReg (setDmaPauseN dmaCtlReg true)

/-- What a turn of the wait loop meets: whether the time is up, and the record register. -/
structure Turn where
  late : Bool
  recordPtr : Nat
  deriving Repr, DecidableEq

/-- The bytes that are compared with `mindata`. -/
def inlineAvailable (s : StreamT) (bottom offset : Nat) : Nat :=
  if offset ≥ bottom then u32 ((offset : Int) - bottom) else u32 ((s.size : Int) - bottom + offset)

/-- The wait loop, from `offset`; `none` when it has not ended after these turns. -/
def inlineWait (s : StreamT) (bottom : Nat) : List Turn → Nat → Option Nat
  | [], offset => if inlineAvailable s bottom offset < s.mindata then none else some offset
  | t :: ts, offset =>
      if inlineAvailable s bottom offset < s.mindata then
        if s.maxwait ≠ 0 ∧ t.late then some offset
        -- here the difference is one of pointers, not of 32-bit numbers
        else inlineWait s bottom ts (u64 ((t.recordPtr : Int) - s.phyaddr + s.buf))
      else some offset

/-- What is returned for `offset`. -/
def inlineTop (s : StreamT) (bottom offset : Nat) : Nat :=
  let offset := if offset < bottom then u64 (offset + s.size) else offset
  let last := u64 (s.buf + s.size + s.extraWindowSize)
  if offset > last then last else offset

/-- What a call returns, if it does, and `*bottom` then. -/
inductive Outcome where
  /-- `NULL` -/
  | null
  | waiting (bottom : Nat)
  | top (bottom offset : Nat)
  deriving Repr, DecidableEq

/-- The TX record register is read before any check. -/
def nacInlineAdvanceStream (streamNum bottom : Nat) (turns : List Turn) (st : NacState) :
    Except Fault (Outcome × NacState) :=
  match derefPbm st (streamNum + NUM_STREAM) with
  | .error e => .error e
  | .ok txPbm =>
      let txRecordPhyAddr := st.regs txPbm.recordPtr
      let stream := st.sheep.stream streamNum
      if streamNum ≥ NUM_STREAM || !st.sheep.opened || !stream.attached then .ok (.null, st)
      else
        match derefPbm st streamNum with
        | .error e => .error e
        | .ok pbm =>
            let bottom := inlineBottom stream bottom
            let offset := u64 (u32 ((st.regs pbm.recordPtr : Int) - stream.phyaddr) + stream.buf)
            let st := writeInlineLimit pbm (inlineLimit stream txRecordPhyAddr) st
            match inlineWait stream bottom turns offset with
            | none => .ok (.waiting bottom, st)
            | some offset => .ok (.top bottom (inlineTop stream bottom offset), st)

/-! ## The windows -/

/-- The TX record pointer is `r` bytes into the window that TX stream `i` is configured for. -/
def TxRecordAt (i r : Nat) (st : NacState) : Prop :=
  r ≤ (st.sheep.stream (i + NUM_STREAM)).size ∧
    st.regs (txPbm i).recordPtr = u32 (st.regs (txPbm i).dmaBufStart + r)

/-- The limit of RX stream `i` lies in its own window, behind the start and up to the end. -/
def LimitInside (i : Nat) (st : NacState) : Prop :=
  ∃ x, 0 < x ∧ x ≤ (st.sheep.stream i).size ∧
    st.regs (rxPbm i).limitPtr = u32 (st.regs (rxPbm i).dmaBufStart + x)

/-- The number of the share that TX stream `i` has. -/
def txShare (flags i : Nat) : Nat := if flags = OVERLAP_FWD then i else i + NUM_STREAM

/-- How far the TX record pointer is behind the start of the RX window. -/
def txDistance (flags q r : Nat) : Nat := if flags = OVERLAP_FWD then r else NUM_STREAM * q + r

/-- **When the limit stays inside**, for shares of `q` bytes that are not empty: in copy mode only
where `WRSAFE` takes the distance for a small one. -/
def LimitFits (flags q r : Nat) : Prop :=
  0 < q ∧ (flags = OVERLAP_FWD ∨ NUM_STREAM * q + r < 256)

/-- The limit is written at most 128 bytes in front of the distance, rounded down. -/
theorem alignDown_le_iff {flags q r : Nat} (hr : r ≤ q) :
    alignDown 128 (txDistance flags q r) ≤ q + 128 ↔
      flags = OVERLAP_FWD ∨ NUM_STREAM * q + r < 256 := by
  unfold txDistance
  split_ifs with hflags
  · refine iff_of_true ?_ (.inl hflags)
    exact (alignDown_le 128 r).trans (Nat.le_add_right_of_le hr)
  · simp only [hflags, false_or, alignDown, NUM_STREAM]
    omega

/-! ## What the function reads -/

/-- An address that `mmap` answers with: a page, with 4 GB of addresses above it. -/
def PageMapped (p : Nat) : Prop := 4096 ∣ p ∧ p + 4294967296 ≤ 18446744073709551616

/-- Configure for `flags` and attach RX stream `i`; `none` when one of the calls fails. -/
def forwardSetUp (env : Env) (numStream : Int) (flags i extra : Nat) (st : NacState) :
    Option NacState :=
  match nacInlineMsuConfigure env numStream flags st with
  | .ok (some (0, st)) =>
      match nacAttachStream env i extra st with
      | (0, st) => some st
      | _ => none
  | _ => none

theorem forwardSetUp_some {env : Env} {numStream : Int} {flags i extra : Nat} {st st2 : NacState}
    (h : forwardSetUp env numStream flags i extra st = some st2) :
    ∃ st1, nacInlineMsuConfigure env numStream flags st = .ok (some (0, st1)) ∧
      nacAttachStream env i extra st1 = (0, st2) := by
  unfold forwardSetUp at h
  split at h
  · split at h
    · cases h
      exact ⟨_, by assumption, by assumption⟩
    · cases h
  · cases h

/-- The pair `i` is configured for `flags` with shares of `q` bytes, and its RX side attached. -/
structure Forwarding (flags phy q i : Nat) (st : NacState) : Prop where
  opened : st.sheep.opened = true
  attached : (st.sheep.stream i).attached = true
  rxPbm : derefPbm st i = .ok (rxPbm i)
  txPbm : derefPbm st (i + NUM_STREAM) = .ok (txPbm i)
  rxSize : (st.sheep.stream i).size = q
  txSize : (st.sheep.stream (i + NUM_STREAM)).size = q
  rxStart : st.regs (Stream.rxPbm i).dmaBufStart = u32 (phy + i * q : Nat)
  txStart : st.regs (Stream.txPbm i).dmaBufStart = u32 (phy + txShare flags i * q : Nat)
  phyaddr : (st.sheep.stream i).phyaddr = u32 (phy + i * q : Nat)
  bufAlign : 128 ∣ (st.sheep.stream i).buf
  bufLt : (st.sheep.stream i).buf + 4294967296 ≤ 18446744073709551616

/-- What the card, and the calls for this stream and for others, leave as it is until the pair is
detached or configured again. -/
structure SinceAttach (i : Nat) (st st' : NacState) : Prop where
  opened : st'.sheep.opened = st.sheep.opened
  attached : (st'.sheep.stream i).attached = (st.sheep.stream i).attached
  buf : (st'.sheep.stream i).buf = (st.sheep.stream i).buf
  phyaddr : (st'.sheep.stream i).phyaddr = (st.sheep.stream i).phyaddr
  size : ∀ j, (st'.sheep.stream j).size = (st.sheep.stream j).size
  pbm : ∀ j, (st'.sheep.stream j).pbm = (st.sheep.stream j).pbm
  heap : st'.heap = st.heap
  rxStart : st'.regs (rxPbm i).dmaBufStart = st.regs (rxPbm i).dmaBufStart
  txStart : st'.regs (txPbm i).dmaBufStart = st.regs (txPbm i).dmaBufStart

theorem SinceAttach.deref {i j : Nat} {st st' : NacState} (h : SinceAttach i st st') :
    derefPbm st' j = derefPbm st j := by
  rw [derefPbm, derefPbm, h.pbm, h.heap]

theorem Forwarding.since {flags phy q i : Nat} {st st' : NacState} (h : Forwarding flags phy q i st)
    (hsince : SinceAttach i st st') : Forwarding flags phy q i st' where
  opened := hsince.opened.trans h.opened
  attached := hsince.attached.trans h.attached
  rxPbm := hsince.deref.trans h.rxPbm
  txPbm := hsince.deref.trans h.txPbm
  rxSize := (hsince.size i).trans h.rxSize
  txSize := (hsince.size _).trans h.txSize
  rxStart := hsince.rxStart.trans h.rxStart
  txStart := hsince.txStart.trans h.txStart
  phyaddr := hsince.phyaddr.trans h.phyaddr
  bufAlign := by
    rw [hsince.buf]
    exact h.bufAlign
  bufLt := by
    rw [hsince.buf]
    exact h.bufLt

theorem txLayout_start (flags phy q i : Nat) :
    (txLayout flags phy q i).start = u32 (phy + txShare flags i * q : Nat) ∧
      (txLayout flags phy q i).slot = i + NUM_STREAM ∧ (txLayout flags phy q i).pbm = txPbm i := by
  unfold txLayout txShare
  split_ifs
  · exact ⟨rfl, rfl, rfl⟩
  · exact ⟨rfl, rfl, rfl⟩

/-- **Configure, attach.** -/
theorem forwarding_of_setUp {env : Env} {numStream : Int} {flags phy b i extra q : Nat}
    {st st2 : NacState} (hinf : st.sheep.nacinf = ⟨phy, b⟩) (hb : b < 4294967296)
    (hq : q = if flags = OVERLAP_FWD then b / NUM_STREAM else b / (NUM_STREAM * 2))
    (hi : i < numStream.toNat) (h : forwardSetUp env numStream flags i extra st = some st2)
    (hpage : PageMapped (st2.sheep.stream i).buf) :
    i < NUM_STREAM ∧ Forwarding flags phy q i st2 := by
  obtain ⟨st1, hconf, hattach⟩ := forwardSetUp_some h
  obtain ⟨⟨-, hle, hopen⟩, hready⟩ := nacInlineMsuConfigure_ready hinf hb hq hconf
  have hqlt : q < 2147483648 := by
    rw [hq]
    simp only [NUM_STREAM]
    split_ifs <;> omega
  have hopen1 : st1.sheep.opened = true := hready.setUp.opened.trans hopen
  have hsize1 : (st1.sheep.stream i).size = q := (hready.rx i hi).size
  obtain ⟨hframe1, hring⟩ := nacAttachStream_attached hopen1 hsize1 hqlt hattach
  have hrx := (hready.rx i hi).attach hframe1
  have htx := (hready.tx i hi).attach hframe1
  obtain ⟨hstart, hslot, hpbm⟩ := txLayout_start flags phy q i
  refine ⟨by omega, hframe1.shares.opened.trans hopen1, ?_, hrx.deref, ?_, hrx.size, ?_, hrx.start, ?_,
    hring.phyaddr (hready.setUp.inf.trans hinf), Dvd.dvd.trans (by decide) hpage.1, hpage.2⟩
  · rw [hring.stream]
    rfl
  · rw [← hslot, ← hpbm]
    exact htx.deref
  · rw [← hslot]
    exact htx.size
  · rw [← hpbm, ← hstart]
    exact htx.start

/-! ## The limit -/

theorem txDistance_lt {flags b q r : Nat} (hb : b < 4294967296)
    (hq : q = if flags = OVERLAP_FWD then b / NUM_STREAM else b / (NUM_STREAM * 2)) (hr : r ≤ q) :
    txDistance flags q r < 4294967296 := by
  unfold txDistance
  simp only [NUM_STREAM] at hq ⊢
  split_ifs at hq ⊢ <;> omega

/-- Where the TX record pointer is, seen from the start of the RX window. -/
theorem txRecord_sub {flags phy q i r : Nat} (h : txDistance flags q r < 4294967296) :
    u32 ((u32 ((u32 (phy + txShare flags i * q : Nat) : Int) + r) : Int) - u32 (phy + i * q : Nat)) =
      txDistance flags q r := by
  have hsum : phy + txShare flags i * q + r = phy + i * q + txDistance flags q r := by
    unfold txShare txDistance
    split_ifs
    · rfl
    · ring
  rw [u32_add_u32, ← Nat.cast_add, hsum, Nat.cast_add, ← u32_add_u32]
  exact u32_add_sub_cancel h

/-- The limit, from the distance. -/
theorem inlineLimit_eq {s : StreamT} {txRecord d : Nat} (halign : 128 ∣ s.buf)
    (hbuf : s.buf + 4294967296 ≤ 18446744073709551616) (hd : d < 4294967296)
    (hrecord : u32 ((txRecord : Int) - s.phyaddr) = d) :
    inlineLimit s txRecord = u32 (s.phyaddr + wrsafe s.size (alignDown 128 d)) := by
  have haddr : u64 (((d : Nat) : Int) + s.buf) = s.buf + d := by
    unfold u64
    omega
  have hmask : (s.buf + d) &&& 0xffffffffffffff80 = s.buf + alignDown 128 d := by
    rw [land_not127 (by omega), alignDown_add (by decide) halign]
  unfold inlineLimit
  rw [hrecord]
  dsimp only
  rw [haddr, hmask]
  push_cast
  rw [add_sub_cancel_left]

/-- What `WRSAFE` gives is inside a window that is not empty, up to a distance of one
safety window more than its size. -/
theorem wrsafe_inside_iff {base q a : Nat} (hq : q < 4294967296) (ha : a ≤ 4294967296) :
    (∃ x, 0 < x ∧ x ≤ q ∧ u32 ((base : Int) + wrsafe q a) = u32 ((base : Int) + x)) ↔
      0 < q ∧ a ≤ q + 128 := by
  have hw : (SAFETY_WINDOW : Int) = 128 := rfl
  unfold wrsafe
  rw [hw]
  split_ifs with hsmall
  · constructor
    · rintro ⟨x, hpos, hle, -⟩
      exact ⟨hpos.trans_le hle, by omega⟩
    · rintro ⟨hpos, -⟩
      exact ⟨q, hpos, le_rfl, rfl⟩
  · constructor
    · rintro ⟨x, hpos, hle, heq⟩
      unfold u32 at heq
      omega
    · rintro ⟨hpos, hle⟩
      refine ⟨a - 128, by omega, by omega, ?_⟩
      rw [Nat.cast_sub (by omega)]
      rfl

/-- The limit is the one value the function leaves in the limit register, and the window's start is
not touched. -/
theorem writeInlineLimit_regs (i limit : Nat) (st : NacState) :
    (writeInlineLimit (rxPbm i) limit st).regs (rxPbm i).limitPtr = limit ∧
      (writeInlineLimit (rxPbm i) limit st).regs (rxPbm i).dmaBufStart =
        st.regs (rxPbm i).dmaBufStart := by
  have hctl : (rxPbm i).limitPtr ≠ (rxPbm i).dmaCtlReg := by
    simp only [rxPbm, LIMIT_PTR_LO_REG, DMA_CTL_REG]
    omega
  have hstart : (rxPbm i).dmaBufStart ≠ (rxPbm i).dmaCtlReg := (rxPbm_start_ne i i).2.1
  have hlimit : (rxPbm i).dmaBufStart ≠ (rxPbm i).limitPtr := by
    simp only [rxPbm, LIMIT_PTR_LO_REG, HOST_ADDR_LO_REG]
    omega
  constructor
  · rw [writeInlineLimit, regWrite_ne hctl, regWrite_self]
  · rw [writeInlineLimit, regWrite_ne hstart, regWrite_ne hlimit, regWrite_ne hstart]

/-- **One call** writes the limit that belongs to the TX record pointer, however long it waits. -/
theorem Forwarding.advance {flags phy q i : Nat} {st : NacState} (h : Forwarding flags phy q i st)
    (hi : i < NUM_STREAM) (bottom : Nat) (turns : List Turn) :
    ∃ out, out ≠ .null ∧ nacInlineAdvanceStream i bottom turns st =
      .ok (out, writeInlineLimit (Stream.rxPbm i)
        (inlineLimit (st.sheep.stream i) (st.regs (Stream.txPbm i).recordPtr)) st) := by
  have hguard : ¬((decide (i ≥ NUM_STREAM) || !st.sheep.opened ||
      !(st.sheep.stream i).attached) = true) := by
    simp [h.opened, h.attached, hi]
  unfold nacInlineAdvanceStream
  rw [h.txPbm, h.rxPbm]
  dsimp only
  rw [if_neg hguard]
  generalize inlineBottom (st.sheep.stream i) bottom = bot
  cases inlineWait (st.sheep.stream i) bot turns _ with
  | none => exact ⟨.waiting bot, nofun, rfl⟩
  | some offset => exact ⟨.top bot (inlineTop (st.sheep.stream i) bot offset), nofun, rfl⟩

/-- **The limit stays inside the RX window** if and only if the shares are not empty and the two
streams have the same window, or the distance is below 256 bytes. -/
theorem inlineLimit_inside_iff {env : Env} {numStream : Int} {flags phy b i extra r : Nat}
    {st st2 st3 : NacState} (hinf : st.sheep.nacinf = ⟨phy, b⟩) (hb : b < 4294967296)
    (hi : i < numStream.toNat) (hset : forwardSetUp env numStream flags i extra st = some st2)
    (hpage : PageMapped (st2.sheep.stream i).buf) (hsince : SinceAttach i st2 st3)
    (hrecord : TxRecordAt i r st3) (bottom : Nat) (turns : List Turn) :
    ∃ out st4, nacInlineAdvanceStream i bottom turns st3 = .ok (out, st4) ∧ out ≠ .null ∧
      (LimitInside i st4 ↔ LimitFits flags (st3.sheep.stream i).size r) := by
  generalize hq : (if flags = OVERLAP_FWD then b / NUM_STREAM else b / (NUM_STREAM * 2)) = q
  obtain ⟨hi8, hforward⟩ := forwarding_of_setUp hinf hb hq.symm hi hset hpage
  have h := hforward.since hsince
  obtain ⟨hr, hregs⟩ := hrecord
  rw [h.txSize] at hr
  have hd : txDistance flags q r < 4294967296 := txDistance_lt hb hq.symm hr
  have hqlt : q < 4294967296 := by
    rw [← hq]
    simp only [NUM_STREAM]
    split_ifs <;> omega
  have hsub : u32 ((st3.regs (txPbm i).recordPtr : Int) - (st3.sheep.stream i).phyaddr) =
      txDistance flags q r := by
    rw [hregs, h.txStart, h.phyaddr]
    exact txRecord_sub hd
  have hlimit := inlineLimit_eq h.bufAlign h.bufLt hd hsub
  obtain ⟨out, hout, hcall⟩ := h.advance hi8 bottom turns
  refine ⟨out, _, hcall, hout, ?_⟩
  obtain ⟨hptr, hstart⟩ := writeInlineLimit_regs i
    (inlineLimit (st3.sheep.stream i) (st3.regs (txPbm i).recordPtr)) st3
  have hdown : alignDown 128 (txDistance flags q r) ≤ 4294967296 :=
    (alignDown_le 128 _).trans hd.le
  rw [LimitInside, hptr, hstart, hlimit, h.rxStart, h.phyaddr, h.rxSize]
  show (∃ x, 0 < x ∧ x ≤ (st3.sheep.stream i).size ∧ _) ↔ _
  rw [h.rxSize, wrsafe_inside_iff hqlt hdown, alignDown_le_iff hr, LimitFits]

/-! ## A buffer of 64 MB -/

/-- The card has sent up to `r` bytes into the window of TX stream `i`. -/
def cardSent (i r : Nat) (st : NacState) : NacState :=
  regWrite st (txPbm i).recordPtr (u32 (st.regs (txPbm i).dmaBufStart + r))

theorem sinceAttach_cardSent (r : Nat) (st : NacState) : SinceAttach 0 st (cardSent 0 r st) where
  opened := rfl
  attached := rfl
  buf := rfl
  phyaddr := rfl
  size := fun _ => rfl
  pbm := fun _ => rfl
  heap := rfl
  rxStart := regWrite_ne (by decide)
  txStart := regWrite_ne (by decide)

theorem txRecordAt_cardSent {r : Nat} {st : NacState} (h : r ≤ (st.sheep.stream 8).size) :
    TxRecordAt 0 r (cardSent 0 r st) := by
  have hstart := (sinceAttach_cardSent r st).txStart
  refine ⟨h, ?_⟩
  rw [hstart]
  exact regWrite_self _ _ _

/-- In overlap mode, 1000 bytes sent. -/
theorem inlineLimit_inside_overlap : ∃ st2 out st4,
    forwardSetUp grantAll 1 OVERLAP_FWD 0 0 (freshCard 0x10000000 0x4000000) = some st2 ∧
      nacInlineAdvanceStream 0 0 [] (cardSent 0 1000 st2) = .ok (out, st4) ∧ LimitInside 0 st4 := by
  have hsizes : (forwardSetUp grantAll 1 OVERLAP_FWD 0 0 (freshCard 0x10000000 0x4000000)).map
      (fun s => ((s.sheep.stream 0).buf, (s.sheep.stream 0).size, (s.sheep.stream 8).size)) =
        some (0x42000000, 0x800000, 0x800000) := by
    decide +kernel
  obtain ⟨st2, hset, hval⟩ := Option.map_eq_some_iff.1 hsizes
  simp only [Prod.mk.injEq] at hval
  obtain ⟨hbuf, hrx, htx⟩ := hval
  have hpage : PageMapped (st2.sheep.stream 0).buf := by
    rw [hbuf]
    exact ⟨by decide, by decide⟩
  have hrecord : TxRecordAt 0 1000 (cardSent 0 1000 st2) := txRecordAt_cardSent (by
    rw [htx]
    decide)
  obtain ⟨out, st4, hcall, -, hiff⟩ := inlineLimit_inside_iff rfl (by decide) (by decide) hset hpage
    (sinceAttach_cardSent 1000 st2) hrecord 0 []
  refine ⟨st2, out, st4, hset, hcall, hiff.2 ⟨?_, .inl rfl⟩⟩
  show 0 < (st2.sheep.stream 0).size
  rw [hrx]
  decide

/-- **In copy mode, nothing sent**: RX stream 0 has the first 4 MB, the limit is put 32 MB up, at the
end of the window of RX stream 7. -/
theorem inlineLimit_outside_copy : ∃ st2 out st4,
    forwardSetUp grantAll 1 COPY_FWD 0 0 (freshCard 0x10000000 0x4000000) = some st2 ∧
      TxRecordAt 0 0 (cardSent 0 0 st2) ∧
      nacInlineAdvanceStream 0 0 [] (cardSent 0 0 st2) = .ok (out, st4) ∧
      st4.regs (rxPbm 0).dmaBufStart = 0x10000000 ∧ (st4.sheep.stream 0).size = 0x400000 ∧
      st4.regs (rxPbm 0).limitPtr = 0x11ffff80 ∧ ¬LimitInside 0 st4 := by
  have hvals : ((forwardSetUp grantAll 1 COPY_FWD 0 0 (freshCard 0x10000000 0x4000000)).bind
      fun s => (nacInlineAdvanceStream 0 0 [] (cardSent 0 0 s)).toOption.map fun r =>
        (r.2.regs (rxPbm 0).dmaBufStart, (r.2.sheep.stream 0).size,
          r.2.regs (rxPbm 0).limitPtr)) = some (0x10000000, 0x400000, 0x11ffff80) := by
    decide +kernel
  obtain ⟨st2, hset, hrest⟩ := Option.bind_eq_some_iff.1 hvals
  obtain ⟨r, hr, hval⟩ := Option.map_eq_some_iff.1 hrest
  simp only [Prod.mk.injEq] at hval
  obtain ⟨hstart, hsize, hlimit⟩ := hval
  refine ⟨st2, r.1, r.2, hset, txRecordAt_cardSent (Nat.zero_le _), ?_, hstart, hsize, hlimit, ?_⟩
  · cases hcall : nacInlineAdvanceStream 0 0 [] (cardSent 0 0 st2) with
    | error e =>
        rw [hcall] at hr
        cases hr
    | ok out =>
        rw [hcall] at hr
        cases hr
        rfl
  · rintro ⟨x, -, hle, heq⟩
    rw [hstart, hlimit] at heq
    rw [hsize] at hle
    unfold u32 at heq
    omega

end NacCard.Stream
