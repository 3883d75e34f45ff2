import NacCard.Base.Chunks
import NacCard.FlowTest.Reassembly

/-!
# Whole files

* `sendBuf_eq`, `runTx_eq`, `runTx_none` — which files `run_tx` puts into packets.
* `reassembly` — a file of a packet and more arrives, whatever the order, with at most ten
  packets waiting.
* `deliver_single` — a shorter one never ends.
* `receivedAll_iff` — files sent one after another all arrive if and only if each has at
  least the bytes of one packet and `1600 * tx_count` fits 32 bits.
-/

namespace NacCard.FlowTest

open NacCard.Base

/-! ## The sender's buffers -/

theorem length_freadLoop {size n : Nat} :
    ∀ {rest buf : List UInt8}, buf.length = size → (freadLoop size n rest buf).length = size := by
  induction n with
  | zero => exact id
  | succ n ih =>
      intro rest buf hbuf
      rw [freadLoop]
      split_ifs
      · exact hbuf
      · apply ih
        rw [List.length_append, List.length_take, List.length_drop]
        omega

theorem length_sendBuf (f : SentFile) : f.sendBuf.length = f.size :=
  length_freadLoop (List.length_replicate ..)

theorem freadLoop_nil {size n : Nat} {buf : List UInt8} : freadLoop size n [] buf = buf := by
  cases n with
  | zero => rfl
  | succ n => rw [freadLoop, List.length_nil, Nat.min_zero, if_pos rfl]

/-- A file of less than 4 GB is read at once. -/
theorem sendBuf_eq {f : SentFile} (h : f.contents.length < 4294967296) : f.sendBuf = f.contents := by
  have hsize : f.size = f.contents.length := u32_natCast h
  rw [SentFile.sendBuf, freadLoop, hsize, Nat.min_self]
  split_ifs with hzero
  · rw [hzero, List.length_eq_zero_iff.1 hzero]
    rfl
  · rw [List.drop_length, freadLoop_nil]
    simp

theorem wlen_le {f : SentFile} {size seqnum : Nat} {buf : List UInt8} :
    (f.packet size buf seqnum).wlen ≤ 1584 := by
  have hmod : size % CHIP < CHIP := Nat.mod_lt _ (by decide)
  rw [SentFile.packet]
  dsimp only
  unfold CHIP at hmod ⊢
  split_ifs <;> omega

/-- Where the packet behind `k` others begins. -/
theorem u32_offset {k : Nat} (h : 1600 * k < 4294967296) :
    u32 (1600 * (((k + 1 : Nat) : Int) - 1)) = 1600 * k := by
  have hcast : 1600 * (((k + 1 : Nat) : Int) - 1) = ((1600 * k : Nat) : Int) := by
    push_cast
    ring
  rw [hcast]
  exact u32_natCast h

/-- Where `buffer_packet` has room for all packets it gets them. -/
theorem runTx_eq {f : SentFile} (h : 1600 * txCount f.size < 4294967296) :
    runTx f = some (packets f f.sendBuf) := by
  rw [packets, length_sendBuf]
  apply mapM_eq_map
  intro k hk
  obtain ⟨hpos, hk⟩ := List.mem_range'_1.1 hk
  obtain ⟨i, rfl⟩ := Nat.exists_eq_add_of_le' hpos
  have hwlen := @wlen_le f f.size (i + 1) f.sendBuf
  have hbefore : 1600 * (i + 1) ≤ 1600 * txCount f.size := Nat.mul_le_mul_left _ (by omega)
  have hspace : u32 (1600 * (txCount f.size : Int)) = 1600 * txCount f.size := by
    exact_mod_cast u32_natCast h
  dsimp only
  rw [u32_offset (by omega), hspace, if_pos (by omega)]

theorem u32_of_le {n : Nat} (h : 4294967296 ≤ n) (h' : n < 2 * 4294967296) :
    u32 n = n - 4294967296 := by
  unfold u32
  omega

/-- With more bytes than 32 bits hold, some packet begins behind the buffer. -/
theorem exists_behind {n : Nat} (h : 4294967296 ≤ 1600 * n) (hn : n ≤ 2767419) :
    ∃ k, 1 ≤ k ∧ k < 1 + n ∧ u32 (1600 * (n : Int)) < u32 (1600 * ((k : Int) - 1)) := by
  obtain ⟨d, hd, hd'⟩ : ∃ d, 1600 * n - 4294967296 < 1600 * (d + 1) ∧ 1600 * d ≤ 1600 * n - 4294967296 :=
    ⟨(1600 * n - 4294967296) / 1600, Nat.lt_mul_div_succ _ (by decide), Nat.mul_div_le _ _⟩
  have hspace : u32 (1600 * (n : Int)) = 1600 * n - 4294967296 := by
    exact_mod_cast u32_of_le h (by omega)
  refine ⟨d + 2, by omega, by omega, ?_⟩
  rw [hspace, u32_offset (by omega)]
  exact hd

theorem runTx_none {f : SentFile} (h : 4294967296 ≤ 1600 * txCount f.size) : runTx f = none := by
  have hsize : f.size < 4294967296 := u32_lt _
  have hcount : txCount f.size ≤ 2767419 := by
    unfold txCount CHIP
    omega
  obtain ⟨k, hk1, hk, hbehind⟩ := exists_behind h hcount
  refine mapM_eq_none ⟨k, List.mem_range'_1.2 ⟨hk1, hk⟩, ?_⟩
  dsimp only
  rw [if_neg (by omega)]

/-! ## In any order -/

section Transfer

variable {f : SentFile} {buf : List UInt8} {rx rx' : Receiver}

theorem lt_of_space {n : Nat} (h : 1600 * txCount n < 4294967296) : n < 4294967296 := by
  calc n < CHIP * txCount n := Nat.lt_mul_div_succ n (by decide)
    _ ≤ 1600 * txCount n := Nat.mul_le_mul_right _ (by decide)
    _ < 4294967296 := h

/-- **A file arrives whatever the order** of its packets, as long as at most ten that have arrived
wait for an earlier one: it is opened, written once and in order, and closed once. -/
theorem reassembly (f : SentFile) (hsize : CHIP ≤ f.contents.length)
    (hspace : 1600 * txCount f.contents.length < 4294967296) {rx : Receiver} (hready : Ready rx) :
    ∃ sent, runTx f = some sent ∧
      ∀ arrival, arrival.Perm sent → (∀ k, heldBack sent (arrival.take k) ≤ 10) →
        ∃ rx', deliver rx arrival = some rx' ∧ Received f rx rx' := by
  have hlt := lt_of_space hspace
  have hfsize : f.size = f.contents.length := u32_natCast hlt
  refine ⟨packets f f.contents, ?_, ?_⟩
  · rw [runTx_eq (by rwa [hfsize]), sendBuf_eq hlt]
  · intro arrival hperm hheld
    obtain ⟨rx', hrun, hright, hready', hops⟩ := deliver_of_heldBack hready hsize hperm hheld
    exact ⟨rx', hrun, hops, hright, hready'⟩

theorem heldBack_le_length (sent arrived : List Packet) : heldBack sent arrived ≤ arrived.length :=
  List.length_filter_le _ _

theorem rxStart_ready : Ready rxStart :=
  ⟨rfl, List.length_replicate .., fun _ hnode => congrArg Node.seqnum (List.eq_of_mem_replicate hnode)⟩

/-- A file of 2000 bytes: one full packet and a shorter one. -/
def twoPackets : SentFile := ⟨[], [], List.replicate 2000 7⟩

/-- The second packet arrives before the first. -/
theorem reassembly_reversed : ∃ sent rx', runTx twoPackets = some sent ∧
    deliver rxStart sent.reverse = some rx' ∧ Received twoPackets rxStart rx' := by
  have hlength : twoPackets.contents.length = 2000 := List.length_replicate ..
  obtain ⟨sent, hsent, h⟩ := reassembly twoPackets (by rw [hlength]; decide)
    (by rw [hlength]; decide) rxStart_ready
  have htwo : sent.length = 2 := by
    have hfsize : twoPackets.size = 2000 := by
      rw [SentFile.size, hlength]
      rfl
    rw [runTx_eq (by rw [hfsize]; decide), Option.some_inj] at hsent
    rw [← hsent, packets, List.length_map, List.length_range', length_sendBuf, hfsize]
    decide
  obtain ⟨rx', hrun, hreceived⟩ := h sent.reverse sent.reverse_perm fun k => by
    refine (heldBack_le_length _ _).trans ((List.length_take_le' _ _).trans ?_)
    rw [List.length_reverse, htwo]
    decide
  exact ⟨sent, rx', hsent, hrun, hreceived⟩

/-! ## One file after another -/

/-- The files are sent one after another, their packets arrive in order, and each is received. -/
def ReceivedAll : Receiver → List SentFile → Prop
  | _, [] => True
  | rx, f :: files => ∃ sent rx', runTx f = some sent ∧ deliver rx sent = some rx' ∧
      Received f rx rx' ∧ ReceivedAll rx' files

theorem packets_seqnum {i : Nat} (hi : i < (packets f buf).length) :
    (packets f buf)[i].seqnum = i + 1 := by
  simp [packets, SentFile.packet, Nat.add_comm]

/-- In order nothing is held back. -/
theorem heldBack_inOrder (k : Nat) : heldBack (packets f buf) ((packets f buf).take k) = 0 := by
  rw [heldBack, List.length_eq_zero_iff, List.filter_eq_nil_iff]
  intro q hq hany
  obtain ⟨p, hp, hearly⟩ := List.any_eq_true.1 hany
  rw [Bool.and_eq_true, decide_eq_true_eq, Bool.not_eq_true', List.contains_eq_mem,
    decide_eq_false_iff_not] at hearly
  obtain ⟨i, hi, rfl⟩ := List.mem_take_iff_getElem.1 hq
  obtain ⟨j, hj, rfl⟩ := List.getElem_of_mem hp
  rw [packets_seqnum, packets_seqnum] at hearly
  exact hearly.2 (List.mem_take_iff_getElem.2 ⟨j, by omega, rfl⟩)

theorem deliver_inOrder (hready : Ready rx) (hbuf : CHIP ≤ buf.length) :
    ∃ rx', deliver rx (packets f buf) = some rx' ∧ rx'.rxRightCnt = rx.rxRightCnt + 1 ∧ Ready rx' ∧
      ∃ chunks : List (List UInt8), chunks.flatten = buf ∧
        rx'.ops = rx.ops ++ .fopen f.name :: (chunks.map .fwrite ++ [.fclose]) :=
  deliver_of_heldBack hready hbuf (.refl _) fun k => (heldBack_inOrder k).trans_le (Nat.zero_le 10)

/-- A file of less than a packet's bytes: its packet is taken for a first one, and a second is
expected. -/
theorem deliver_single (hready : Ready rx) (hbuf : buf.length < CHIP)
    (h : deliver rx (packets f buf) = some rx') : rx'.verifySeq = 2 := by
  have hcount : txCount buf.length = 1 := by
    rw [txCount, Nat.div_eq_of_lt hbuf]
  have hone : packets f buf = [f.packet buf.length buf 1] := by
    rw [packets, hcount]
    rfl
  have hnum : (f.packet buf.length buf 1).seqnum = (rx.header (f.packet buf.length buf 1)).verifySeq :=
    hready.verify.symm
  have hfirst : (rx.header (f.packet buf.length buf 1)).verifySeq = 1 := hready.verify
  have hrun : runRx rx (f.packet buf.length buf 1) = some (((rx.header (f.packet buf.length buf 1)).first
      (f.packet buf.length buf 1) ((f.packet buf.length buf 1).wlen - 32)).count
        (f.packet buf.length buf 1)) := by
    rw [runRx]
    dsimp only
    rw [if_pos hnum, Receiver.take, if_pos hfirst]
    refine findNext_none fun node hnode => ?_
    rw [hready.free node hnode]
    exact (Nat.succ_ne_zero _).symm
  rw [hone, deliver, List.foldlM_cons, hrun] at h
  cases h
  exact congrArg (· + 1) hready.verify

/-- `run_tx` has room for the packets, and there are two of them at least. -/
def Fits (f : SentFile) : Prop :=
  CHIP ≤ f.contents.length ∧ 1600 * txCount f.contents.length < 4294967296

theorem received_iff (hready : Ready rx) :
    (∃ sent rx', runTx f = some sent ∧ deliver rx sent = some rx' ∧ Received f rx rx') ↔ Fits f := by
  constructor
  · rintro ⟨sent, rx', hsent, hrun, hreceived⟩
    have hspace : 1600 * txCount f.size < 4294967296 := by
      by_contra hbehind
      rw [runTx_none (not_lt.1 hbehind)] at hsent
      cases hsent
    rw [runTx_eq hspace, Option.some_inj] at hsent
    subst hsent
    have hlength := length_sendBuf f
    have hsize : CHIP ≤ f.sendBuf.length := by
      by_contra hshort
      have htwo := deliver_single hready (not_le.1 hshort) hrun
      rw [hreceived.ready.verify] at htwo
      cases htwo
    -- what has been written is `send_buf`, so this is the file
    obtain ⟨rx1, hrun1, -, -, chunks, hflat, hops⟩ := deliver_inOrder (f := f) hready hsize
    obtain rfl : rx1 = rx' := Option.some_inj.1 (hrun1.symm.trans hrun)
    obtain ⟨chunks', hflat', hops'⟩ := hreceived.ops
    have hsame : chunks = chunks' := by
      rw [hops, List.append_cancel_left_eq, List.cons.injEq, List.append_cancel_right_eq] at hops'
      exact List.map_injective_iff.2 (fun _ _ => FileOp.fwrite.inj) hops'.2
    have hcontents : f.sendBuf = f.contents := by
      rw [← hflat, hsame, hflat']
    rw [hcontents] at hlength hsize
    rw [← hlength] at hspace
    exact ⟨hsize, hspace⟩
  · rintro ⟨hsize, hspace⟩
    have hlt := lt_of_space hspace
    have hfsize : f.size = f.contents.length := u32_natCast hlt
    obtain ⟨rx', hrun, hright, hready', hops⟩ := deliver_inOrder (f := f) hready hsize
    refine ⟨_, rx', ?_, hrun, hops, hright, hready'⟩
    rw [runTx_eq (by rwa [hfsize]), sendBuf_eq hlt]

theorem receivedAll_of_ready (files : List SentFile) :
    ∀ {rx : Receiver}, Ready rx → (ReceivedAll rx files ↔ ∀ f ∈ files, Fits f) := by
  induction files with
  | nil => exact fun _ => ⟨fun _ f hf => (List.not_mem_nil hf).elim, fun _ => trivial⟩
  | cons f files ih =>
      intro rx hready
      rw [ReceivedAll, List.forall_mem_cons, ← received_iff hready]
      constructor
      · rintro ⟨sent, rx', hsent, hrun, hreceived, hrest⟩
        exact ⟨⟨sent, rx', hsent, hrun, hreceived⟩, (ih hreceived.ready).1 hrest⟩
      · rintro ⟨⟨sent, rx', hsent, hrun, hreceived⟩, hrest⟩
        exact ⟨sent, rx', hsent, hrun, hreceived, (ih hreceived.ready).2 hrest⟩

end Transfer

/-- **Files one after another**: all of them are received, from the thread's start on, if and only
if each has the bytes of one full packet at least and its packets are less than 4 GB. -/
theorem receivedAll_iff (files : List SentFile) : ReceivedAll rxStart files ↔
    ∀ f ∈ files, CHIP ≤ f.contents.length ∧ 1600 * txCount f.contents.length < 4294967296 :=
  receivedAll_of_ready files rxStart_ready

/-- An empty file has one packet, which opens a file that is not closed. -/
theorem empty_not_received : ¬ReceivedAll rxStart [⟨[], [], []⟩] := by
  rintro ⟨sent, rx', hsent, hrun, hreceived, -⟩
  have hone : runTx ⟨[], [], []⟩ = some (packets ⟨[], [], []⟩ []) := runTx_eq (by decide)
  rw [hone, Option.some_inj] at hsent
  subst hsent
  have htwo := deliver_single rxStart_ready (by decide) hrun
  rw [hreceived.ready.verify] at htwo
  cases htwo

end NacCard.FlowTest
