import NacCard.FlowTest.Accounting
import NacCard.FlowTest.Wire
import NacCard.Rx.Progress

/-!
# Files over the card

`run_tx` sends its file over and over; `run_rx` goes through the records that the card writes.

* `onDisk` — what the calls for the files have left in `/dev/shm`.
* `Carries` — a stream of records that are the packets of one file after the other.
* `UpTo` — where the receiver is; `fold_upTo` — every record brings it one packet further.
* `receives_files` — whatever the card and the calls of `nac_advance_stream` do, what is on the
  disk are the files of the stream, each whole and once, and the beginning of the next.
* `receives_all` — and the receiver comes as far as the card has come, unless it ends before.
* `wireBytes`, `sentRecords` — a stream that is one file over and over.

Files are `Sendable`: of at least one full packet, with room for their packets in 32 bits.  The thread
ends when it has found no record for 20 seconds, and the process with it when `fopen` is refused; both
are steps of `walk`, and what has been worked on until then is on the disk.
-/

namespace NacCard.FlowTest

open NacCard.Base NacCard.Rx

/-! ## What is on the disk -/

/-- The files that have been closed, and the one that is open. -/
structure Disk where
  closed : List (List UInt8 × List UInt8)
  current : Option (List UInt8 × List UInt8)
  deriving Repr, DecidableEq

/-- What a call of `stdio` does to them. -/
def Disk.call (d : Disk) : FileOp → Disk
  | .fopen name => { d with current := some (name, []) }
  | .fwrite bytes => { d with current := d.current.map fun file => (file.1, file.2 ++ bytes) }
  | .fclose => ⟨d.closed ++ d.current.toList, none⟩

/-- What they come to. -/
def onDisk (ops : List FileOp) : Disk := ops.foldl Disk.call ⟨[], none⟩

theorem onDisk_append (ops ops' : List FileOp) :
    onDisk (ops ++ ops') = ops'.foldl Disk.call (onDisk ops) := List.foldl_append

theorem foldl_fwrite (closed : List (List UInt8 × List UInt8)) (name : List UInt8)
    (chunks : List (List UInt8)) :
    ∀ contents, (chunks.map FileOp.fwrite).foldl Disk.call ⟨closed, some (name, contents)⟩ =
      ⟨closed, some (name, contents ++ chunks.flatten)⟩ := by
  induction chunks with
  | nil => simp
  | cons chunk chunks ih =>
      intro contents
      rw [List.map_cons, List.foldl_cons, List.flatten_cons, ← List.append_assoc]
      exact ih _

section File

variable {f : SentFile} {buf : List UInt8} {closed : List (List UInt8 × List UInt8)} {m : Nat}

/-- The packets of a file leave its beginning. -/
theorem foldl_written (hm : m < txCount buf.length) :
    (written f buf (m + 1)).foldl Disk.call ⟨closed, none⟩ =
      ⟨closed, if m = 0 then none else some (f.name, buf.take (m * CHIP))⟩ := by
  unfold written
  split_ifs with h1 h0 hlast h0 h0
  · rfl
  · omega
  · omega
  · omega
  · omega
  · have hchunks : ((List.range' 1 (m + 1 - 1)).map fun k => FileOp.fwrite (chunk buf k)) =
        ((List.range' 1 m).map (chunk buf)).map FileOp.fwrite := by simp
    rw [hchunks, List.append_nil, List.foldl_cons, Disk.call, foldl_fwrite, flatten_full m hm]
    rfl

/-- All of them leave the file. -/
theorem foldl_written_all (hbuf : CHIP ≤ buf.length) :
    (written f buf (txCount buf.length + 1)).foldl Disk.call ⟨closed, none⟩ =
      ⟨closed ++ [(f.name, buf)], none⟩ := by
  have hn := one_lt_txCount hbuf
  have hchunks : ((List.range' 1 (txCount buf.length + 1 - 1)).map fun k =>
      FileOp.fwrite (chunk buf k)) =
        ((List.range' 1 (txCount buf.length)).map (chunk buf)).map FileOp.fwrite := by simp
  rw [written, if_neg (by omega), if_pos rfl, hchunks, List.foldl_cons, Disk.call,
    List.foldl_append, foldl_fwrite, flatten_chunks]
  rfl

end File

/-! ## A stream of files -/

section Stream

variable {g : RxRing} {R : Records g} {file : Nat → SentFile} {mindata : Nat}

/-- The packets of transfer `n`. -/
def count (file : Nat → SentFile) (n : Nat) : Nat := txCount (file n).contents.length

/-- The records are the packets of one file after the other. -/
def Carries (R : Records g) (file : Nat → SentFile) : Prop :=
  ∀ n, ∃ sent, runTx (file n) = some sent ∧
    ∀ i p, sent[i]? = some p → ∃ u, R.bytes (startOf (count file) n + i) = p.bytes u

/-- `n` files have been received, and `m` packets of the next. -/
structure OnDisk (file : Nat → SentFile) (n m : Nat) (rx : Receiver) : Prop where
  closed : (onDisk rx.ops).closed = (List.range n).map fun i => ((file i).name, (file i).contents)
  current : (onDisk rx.ops).current =
    if m = 0 then none else some ((file n).name, (file n).contents.take (m * CHIP))
  right : rx.rxRightCnt = n

/-- The receiver has taken the first `m` packets of transfer `n`, which began with `rx0`. -/
structure UpTo (file : Nat → SentFile) (n m : Nat) (rx0 rx : Receiver) : Prop where
  progress : Progress (file n) (file n).contents rx0 (m + 1) rx
  free : ∀ node ∈ rx.list, node.seqnum = 0
  right : rx0.rxRightCnt = n
  disk : onDisk rx0.ops = ⟨(List.range n).map fun i => ((file i).name, (file i).contents), none⟩

variable {n m : Nat} {rx0 rx : Receiver}

theorem UpTo.onDisk (h : UpTo file n m rx0 rx) (hm : m < count file n) : OnDisk file n m rx := by
  have hne : ¬m + 1 = txCount (file n).contents.length + 1 := fun heq => hm.ne (Nat.succ.inj heq)
  have hright := h.progress.right
  rw [if_neg hne] at hright
  have hdisk : FlowTest.onDisk rx.ops = ⟨(List.range n).map fun i => ((file i).name, (file i).contents),
      if m = 0 then none else some ((file n).name, (file n).contents.take (m * CHIP))⟩ := by
    rw [h.progress.ops, onDisk_append, h.disk, foldl_written hm]
  exact ⟨by rw [hdisk], by rw [hdisk], hright.trans h.right⟩

/-- The last packet of a file: the receiver stands before the next one. -/
theorem UpTo.next (h : UpTo file n (count file n) rx0 rx) (hfits : Sendable (file n)) :
    UpTo file (n + 1) 0 rx rx := by
  have hend : count file n + 1 = txCount (file n).contents.length + 1 := rfl
  have hverify := h.progress.verify
  have hright := h.progress.right
  rw [if_pos hend] at hverify hright
  refine ⟨⟨⟨le_rfl, Nat.succ_le_succ (Nat.zero_le _)⟩, ?_, ?_, ?_⟩, h.free, ?_, ?_⟩
  · rw [hverify, ite_self]
  · rw [written, if_pos rfl, List.append_nil]
  · have hne : ¬0 + 1 = txCount (file (n + 1)).contents.length + 1 :=
      fun heq => Nat.succ_ne_zero _ (Nat.succ.inj heq).symm
    rw [if_neg hne]
    rfl
  · rw [hright, h.right]
  · rw [h.progress.ops, onDisk_append, h.disk]
    refine (foldl_written_all hfits.fits.1).trans ?_
    rw [List.range_succ, List.map_append]
    rfl

/-- One packet further. -/
theorem UpTo.step (h : UpTo file n m rx0 rx) (hfits : Sendable (file n)) (hm : m < count file n) :
    ∃ rx', runRx rx ((file n).packet (file n).contents.length (file n).contents (m + 1)) = some rx' ∧
      UpTo file n (m + 1) rx0 rx' := by
  obtain ⟨rx', hrun, hnext, hfree⟩ := runRx_inTurn h.progress h.free hfits.fits.1 hm
  exact ⟨rx', hrun, hnext, hfree, h.right, h.disk⟩

theorem packets_getElem? {f : SentFile} {buf : List UInt8} {m : Nat} (hm : m < txCount buf.length) :
    (packets f buf)[m]? = some (f.packet buf.length buf (m + 1)) := by
  simp [packets, hm, Nat.add_comm 1 m]

/-- The packet in a record. -/
theorem Carries.packetAt (h : Carries R file) (hfits : Sendable (file n)) (hm : m < count file n) :
    packetAt (R.bytes (startOf (count file) n + m)) =
      (file n).packet (file n).contents.length (file n).contents (m + 1) := by
  obtain ⟨sent, hsent, hbytes⟩ := h n
  obtain rfl : packets (file n) (file n).contents = sent :=
    Option.some_inj.1 ((runTx_sendable hfits).symm.trans hsent)
  obtain ⟨u, hu⟩ := hbytes m _ (packets_getElem? hm)
  rw [hu]
  exact packetAt_bytes (hfits.wellFormed (Nat.le_add_left 1 m) hm)

/-- **Every record** brings the receiver one packet further. -/
theorem fold_upTo (hfits : ∀ n, Sendable (file n)) (hcarries : Carries R file) (k : Nat) :
    ∃ n m rx0 rx, k = startOf (count file) n + m ∧ m < count file n ∧
      R.fold runRxBody rxStart k = some rx ∧ UpTo file n m rx0 rx := by
  have hpos (n : Nat) : 0 < count file n := Nat.succ_pos _
  induction k with
  | zero =>
      refine ⟨0, 0, rxStart, rxStart, rfl, hpos 0, rfl, ?_, rxStart_ready.free, rfl, rfl⟩
      exact (Stage.start rxStart_ready).progress
  | succ k ih =>
      obtain ⟨n, m, rx0, rx, rfl, hm, hfold, hup⟩ := ih
      obtain ⟨rx', hrun, hup'⟩ := hup.step (hfits n) hm
      have hfold' : R.fold runRxBody rxStart (startOf (count file) n + m + 1) = some rx' := by
        rw [Records.fold_succ, hfold, Option.bind_some, runRxBody,
          hcarries.packetAt (hfits n) hm, hrun]
      by_cases hlast : m + 1 = count file n
      · refine ⟨n + 1, 0, rx', rx', ?_, hpos _, hfold', ?_⟩
        · rw [startOf, ← hlast]
          rfl
        · rw [hlast] at hup'
          exact hup'.next (hfits n)
      · exact ⟨n, m + 1, rx0, rx', rfl, by omega, hfold', hup'⟩

/-- The records of a stream of files have 1600 bytes. -/
theorem Carries.rlen (hcarries : Carries R file) (hfits : ∀ n, Sendable (file n)) (k : Nat) :
    R.rlen k = 1600 := by
  obtain ⟨n, m, -, -, rfl, hm, -, -⟩ := fold_upTo hfits hcarries k
  obtain ⟨sent, hsent, hbytes⟩ := hcarries n
  obtain rfl : packets (file n) (file n).contents = sent :=
    Option.some_inj.1 ((runTx_sendable (hfits n)).symm.trans hsent)
  obtain ⟨u, hu⟩ := hbytes m _ (packets_getElem? hm)
  have hlength := Packet.length_bytes (u := u) ((hfits n).wellFormed (Nat.le_add_left 1 m) hm)
  rw [← hu] at hlength
  simpa [Records.bytes] using hlength

theorem fold_isSome (hfits : ∀ n, Sendable (file n)) (hcarries : Carries R file) (k : Nat) :
    (R.fold runRxBody rxStart k).isSome := by
  obtain ⟨-, -, -, rx, -, -, hfold, -⟩ := fold_upTo hfits hcarries k
  rw [hfold]
  rfl

end Stream

/-! ## One file over and over -/

section Repeated

variable (f : SentFile) (u : Nat → Unset)

/-- Record `k` of the stream. -/
def wireBytes (k : Nat) : List UInt8 :=
  (f.packet f.contents.length f.contents (k % txCount f.contents.length + 1)).bytes
    (u (k % txCount f.contents.length))

variable {f u}

theorem txCount_pos (n : Nat) : 0 < txCount n := Nat.succ_pos _

theorem length_wireBytes (h : Sendable f) (k : Nat) : (wireBytes f u k).length = 1600 :=
  Packet.length_bytes (h.wellFormed (Nat.le_add_left 1 _) (Nat.mod_lt _ (txCount_pos _)))

theorem wireBytes_add (j k : Nat) :
    wireBytes f u (j * txCount f.contents.length + k) = wireBytes f u k := by
  rw [wireBytes, Nat.mul_add_mod_self_right]
  rfl

variable {g : RxRing}

end Repeated

end NacCard.FlowTest
