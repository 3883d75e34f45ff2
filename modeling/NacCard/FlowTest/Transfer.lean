import NacCard.Base.Slots
import NacCard.Base.Words

/-!
# Files in packets

`run_tx` of `flow_test` cuts a file into packets of 1600 bytes, numbered from 1; `run_rx`
puts the packets into a file again and keeps those that come too early in a list of ten.

* `Packet`, `runTx` — the packets of a file, none where one would be written behind
  `buffer_packet`.
* `Receiver`, `findNextpacketinlist`, `runRx` — what a packet does, with `WRITEFILE` and
  without `MD5_CAL`; the calls for the file are kept in `ops`.
* `deliver` — packets in the order in which they arrive.
* `Ready`, `Received` — between two files, and when a file has been received.

A file can always be opened, and the packets are complete in the receive buffer.
-/

namespace NacCard.FlowTest

open NacCard.Base

/-! ## Sender -/

/-- `file.chip` -/
def CHIP : Nat := 1600 - 48

/-- `file.tx_count` -/
def txCount (size : Nat) : Nat := size / CHIP + 1

/-- `ts[0]`, `ts[1]` and the lengths of the header, and what is at 16, 32 and 48. -/
structure Packet where
  size : Nat
  seqnum : Nat
  rlen : Nat
  wlen : Nat
  name : List UInt8
  md5 : List UInt8
  data : List UInt8
  deriving Repr, DecidableEq, Inhabited

/-- The file that is sent: its name, its checksum and its bytes. -/
structure SentFile where
  name : List UInt8
  md5 : List UInt8
  contents : List UInt8
  deriving Repr, DecidableEq

/-- `while (0 != (len = fread(send_buf, 1, file.size, file.fp)))`, at most `n` times, with
`rest` of the file to come. -/
def freadLoop (size : Nat) : Nat → List UInt8 → List UInt8 → List UInt8
  | 0, _, sendBuf => sendBuf
  | n + 1, rest, sendBuf =>
      let len := min size rest.length
      if len = 0 then sendBuf
      else freadLoop size n (rest.drop len) (rest.take len ++ sendBuf.drop len)

namespace SentFile

/-- `file.size = ftell(file.fp)` -/
def size (f : SentFile) : Nat := u32 f.contents.length

/-- `send_buf`; each round reads a byte at least. -/
def sendBuf (f : SentFile) : List UInt8 :=
  freadLoop f.size (f.contents.length + 1) f.contents (List.replicate f.size 0)

/-- Packet `seqnum` of a file of `size` bytes that are in `buf`. -/
def packet (f : SentFile) (size : Nat) (buf : List UInt8) (seqnum : Nat) : Packet :=
  let len := if seqnum < txCount size then CHIP else size % CHIP
  { size := size
    seqnum := seqnum
    rlen := 1600
    wlen := len + 32
    name := f.name
    md5 := f.md5
    data := (buf.drop ((seqnum - 1) * CHIP)).take len ++ List.replicate (CHIP - len) 0 }

end SentFile

/-- `for (seqnum = 1; seqnum <= file.tx_count; seqnum++)`: what is in `buffer_packet`, of
`1600 * file.tx_count` bytes, computed with 32 bits as the offsets are. -/
def runTx (f : SentFile) : Option (List Packet) :=
  (List.range' 1 (txCount f.size)).mapM fun seqnum =>
    let p := f.packet f.size f.sendBuf seqnum
    if u32 (1600 * ((seqnum : Int) - 1)) + 16 + p.wlen ≤ u32 (1600 * (txCount f.size : Int)) then some p
    else none

/-! ## Receiver -/

/-- A call that `run_rx` makes for the file it writes. -/
inductive FileOp where
  | fopen (name : List UInt8)
  | fwrite (bytes : List UInt8)
  | fclose
  deriving Repr, DecidableEq

/-- `file_header_t`, as far as the receiver fills it. -/
structure FileHeader where
  size : Nat
  name : List UInt8
  md5 : List UInt8
  deriving Repr, DecidableEq

/-- `node_t` with what is at `pos`; `seqnum` is 0 where the node is free. -/
structure Node where
  seqnum : Nat
  pos : Packet
  deriving Repr, DecidableEq

/-- The variables of `run_rx` and the list of packets that came too early. -/
structure Receiver where
  verifySeq : Nat
  list : List Node
  file : FileHeader
  /-- the calls of `fopen`, `fwrite` and `fclose` so far -/
  ops : List FileOp
  rxRightCnt : Nat
  totalBytes : Nat
  totalPackets : Nat
  deriving Repr, DecidableEq

namespace Receiver

/-- The first packet of a file, of which `len` bytes are written. -/
def first (rx : Receiver) (p : Packet) (len : Nat) : Receiver :=
  { rx with
    file := { rx.file with name := p.name, md5 := p.md5 }
    ops := rx.ops ++ [.fopen p.name, .fwrite (p.data.take len)]
    verifySeq := rx.verifySeq + 1 }

/-- The last packet of a file: what it carries is written, and the file is closed. -/
def last (rx : Receiver) (p : Packet) : Receiver :=
  { rx with
    ops := rx.ops ++ [.fwrite (p.data.take (p.wlen - 32)), .fclose]
    verifySeq := 1
    rxRightCnt := rx.rxRightCnt + 1 }

/-- A packet in between. -/
def middle (rx : Receiver) (p : Packet) : Receiver :=
  { rx with
    ops := rx.ops ++ [.fwrite (p.data.take (p.wlen - 32))]
    verifySeq := rx.verifySeq + 1 }

/-- The packet whose turn it is; the two places that do this write a different length of a first
packet. -/
def take (rx : Receiver) (p : Packet) (firstLen : Nat) : Receiver :=
  if rx.verifySeq = 1 then rx.first p firstLen
  else if (p.wlen : Int) ≠ p.rlen - 16 then rx.last p
  else rx.middle p

/-- `list[loop].seqnum = 0` -/
def clear (rx : Receiver) (loop : Nat) : Receiver :=
  { rx with list := rx.list.modify loop fun node => { node with seqnum := 0 } }

/-- `list[loop].seqnum = seqnum` and `memcpy(list[loop].pos, bottom, 1600)` -/
def store (rx : Receiver) (loop : Nat) (p : Packet) : Receiver :=
  { rx with list := rx.list.set loop ⟨p.seqnum, p⟩ }

/-- The totals count what did not go through the list. -/
def count (rx : Receiver) (p : Packet) : Receiver :=
  { rx with totalBytes := rx.totalBytes + (p.wlen - 32), totalPackets := rx.totalPackets + 1 }

/-- `file.size = ntohl(erfhdr->ts[0])` -/
def header (rx : Receiver) (p : Packet) : Receiver := { rx with file := { rx.file with size := p.size } }

end Receiver

/-- `FIND: … goto FIND`, at most `n` times; none where that is not enough. -/
def findNextpacketinlist : Nat → Receiver → Option Receiver
  | 0, _ => none
  | n + 1, rx =>
      let loop := rx.list.findIdx fun node => node.seqnum = rx.verifySeq
      match rx.list[loop]? with
      | none => some rx
      | some node => findNextpacketinlist n ((rx.take node.pos CHIP).clear loop)

/-- One packet.  Each round of `findNextpacketinlist` frees a node; none where no node is free
for a packet that is too early. -/
def runRx (rx : Receiver) (p : Packet) : Option Receiver :=
  let rx := rx.header p
  if p.seqnum = rx.verifySeq then
    findNextpacketinlist (rx.list.length + 1) ((rx.take p (p.wlen - 32)).count p)
  else
    let loop := rx.list.findIdx fun node => node.seqnum = 0
    if loop < rx.list.length then some (rx.store loop p) else none

/-- The packets in the order in which they arrive. -/
def deliver (rx : Receiver) (arrival : List Packet) : Option Receiver := arrival.foldlM runRx rx

/-- The thread has started. -/
def rxStart : Receiver :=
  { verifySeq := 1
    list := List.replicate 10 ⟨0, default⟩
    file := ⟨0, [], []⟩
    ops := []
    rxRightCnt := 0
    totalBytes := 0
    totalPackets := 0 }

/-! ## What is expected -/

/-- The first packet of a file is expected and no packet is kept. -/
structure Ready (rx : Receiver) : Prop where
  verify : rx.verifySeq = 1
  length : rx.list.length = 10
  free : ∀ node ∈ rx.list, node.seqnum = 0

/-- The file has been opened, written and closed, and the receiver is ready for the next. -/
structure Received (f : SentFile) (rx rx' : Receiver) : Prop where
  ops : ∃ chunks : List (List UInt8), chunks.flatten = f.contents ∧
    rx'.ops = rx.ops ++ .fopen f.name :: (chunks.map .fwrite ++ [.fclose])
  right : rx'.rxRightCnt = rx.rxRightCnt + 1
  ready : Ready rx'

/-- How many of the packets that have arrived wait for one with a smaller number. -/
def heldBack (packets arrived : List Packet) : Nat :=
  (arrived.filter fun q => packets.any fun p => p.seqnum < q.seqnum && !arrived.contains p).length

end NacCard.FlowTest
