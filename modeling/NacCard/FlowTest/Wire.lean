import NacCard.Base.Bytes
import NacCard.FlowTest.Files
import NacCard.Rx.Walk

/-!
# Packets on the wire

* `beBytes`, `beNat` — numbers in network byte order.
* `Packet.bytes` — what `run_tx` puts into `buffer_packet` for a packet; what it leaves of the
  header is whatever the stack has there.
* `packetAt`, `runRxBody` — what `run_rx` reads of a record, and the body of its loop.
* `packetAt_bytes` — a record is read as the packet that was sent.
* `Sendable.wellFormed` — the packets of a file are well formed.
-/

namespace NacCard.FlowTest

open NacCard.Base

/-! ## Network byte order -/

/-- `htons`, `htonl` -/
def beBytes (k n : Nat) : List UInt8 := (leBytes k n).reverse

/-- `ntohs`, `ntohl` -/
def beNat (bytes : List UInt8) : Nat := leNat bytes.reverse

theorem length_beBytes (k n : Nat) : (beBytes k n).length = k := by
  rw [beBytes, List.length_reverse, length_leBytes]

theorem beNat_beBytes {k n : Nat} (h : n < 256 ^ k) : beNat (beBytes k n) = n := by
  rw [beNat, beBytes, List.reverse_reverse, leNat_leBytes h]

/-! ## Records -/

/-- `type`, `flags` and `lctr`, which are not set. -/
structure Unset where
  type : UInt8
  flags : UInt8
  lctr : UInt16
  deriving Repr, DecidableEq

/-- `memcpy(buffer_packet + offset, &pkt_header, 16)`, the name and the digest behind it and the
part of the file behind these. -/
def Packet.bytes (u : Unset) (p : Packet) : List UInt8 :=
  beBytes 4 p.size ++ (beBytes 4 p.seqnum ++ ([u.type, u.flags] ++ (beBytes 2 p.rlen ++
    (wordBytes u.lctr ++ (beBytes 2 p.wlen ++ (p.name ++ (p.md5 ++ p.data)))))))

/-- `erfhdr`, and what is at 16, 32 and 48. -/
def packetAt (bytes : List UInt8) : Packet :=
  { size := beNat (bytes.take 4)
    seqnum := beNat ((bytes.drop 4).take 4)
    rlen := beNat ((bytes.drop 10).take 2)
    wlen := beNat ((bytes.drop 14).take 2)
    name := (bytes.drop 16).take 16
    md5 := (bytes.drop 32).take 16
    data := (bytes.drop 48).take CHIP }

/-- The body of the loop over the records. -/
def runRxBody (bytes : List UInt8) (rx : Receiver) : Option Receiver := runRx rx (packetAt bytes)

/-- What fits into a record. -/
structure Packet.WellFormed (p : Packet) : Prop where
  size_lt : p.size < 4294967296
  seqnum_lt : p.seqnum < 4294967296
  rlen_eq : p.rlen = 1600
  wlen_lt : p.wlen < 65536
  name_length : p.name.length = 16
  md5_length : p.md5.length = 16
  data_length : p.data.length = CHIP

variable {u : Unset} {p : Packet}

theorem Packet.length_bytes (h : p.WellFormed) : (p.bytes u).length = 1600 := by
  simp [Packet.bytes, length_beBytes, wordBytes, length_leBytes, h.name_length, h.md5_length,
    h.data_length, CHIP]

/-- A part of a record, behind `front`. -/
theorem take_part {front part rest : List UInt8} {k n : Nat} (hk : front.length = k)
    (hn : part.length = n) : ((front ++ (part ++ rest)).drop k).take n = part := by
  rw [List.drop_left' hk, List.take_left' hn]

/-- **What is read is what was sent.** -/
theorem packetAt_bytes (h : p.WellFormed) : packetAt (p.bytes u) = p := by
  have hsize : beNat (beBytes 4 p.size) = p.size := beNat_beBytes h.size_lt
  have hseqnum : beNat (beBytes 4 p.seqnum) = p.seqnum := beNat_beBytes h.seqnum_lt
  have hrlen : beNat (beBytes 2 p.rlen) = p.rlen := beNat_beBytes (by rw [h.rlen_eq]; decide)
  have hwlen : beNat (beBytes 2 p.wlen) = p.wlen := beNat_beBytes h.wlen_lt
  have hlctr : (wordBytes u.lctr).length = 2 := length_leBytes 2 _
  -- the header in one piece, and what is behind each of its fields
  obtain ⟨head, hhead⟩ : ∃ head, head = beBytes 4 p.size ++ beBytes 4 p.seqnum ++
      [u.type, u.flags] ++ beBytes 2 p.rlen ++ wordBytes u.lctr ++ beBytes 2 p.wlen := ⟨_, rfl⟩
  have hlen : head.length = 16 := by simp [hhead, length_beBytes, hlctr]
  have hbytes : p.bytes u = head ++ (p.name ++ (p.md5 ++ p.data)) := by
    simp [Packet.bytes, hhead]
  have h4 : (p.bytes u).take 4 = beBytes 4 p.size := List.take_left' (length_beBytes 4 _)
  have h8 : ((p.bytes u).drop 4).take 4 = beBytes 4 p.seqnum :=
    take_part (length_beBytes 4 _) (length_beBytes 4 _)
  have h12 : ((p.bytes u).drop 10).take 2 = beBytes 2 p.rlen := by
    have hsplit : p.bytes u = (beBytes 4 p.size ++ beBytes 4 p.seqnum ++ [u.type, u.flags]) ++
        (beBytes 2 p.rlen ++ (wordBytes u.lctr ++ (beBytes 2 p.wlen ++
          (p.name ++ (p.md5 ++ p.data))))) := by simp [Packet.bytes]
    rw [hsplit]
    exact take_part (by simp [length_beBytes]) (length_beBytes 2 _)
  have h16 : ((p.bytes u).drop 14).take 2 = beBytes 2 p.wlen := by
    have hsplit : p.bytes u = (beBytes 4 p.size ++ beBytes 4 p.seqnum ++ [u.type, u.flags] ++
        beBytes 2 p.rlen ++ wordBytes u.lctr) ++
        (beBytes 2 p.wlen ++ (p.name ++ (p.md5 ++ p.data))) := by simp [Packet.bytes]
    rw [hsplit]
    exact take_part (by simp [length_beBytes, hlctr]) (length_beBytes 2 _)
  have h32 : ((p.bytes u).drop 16).take 16 = p.name := by
    rw [hbytes]
    exact take_part hlen h.name_length
  have h48 : ((p.bytes u).drop 32).take 16 = p.md5 := by
    rw [hbytes, ← List.append_assoc]
    exact take_part (by rw [List.length_append, hlen, h.name_length]) h.md5_length
  have h1600 : ((p.bytes u).drop 48).take CHIP = p.data := by
    rw [hbytes, ← List.append_assoc, ← List.append_assoc, List.drop_left'
      (by rw [List.length_append, List.length_append, hlen, h.name_length, h.md5_length])]
    exact List.take_of_length_le h.data_length.le
  rw [packetAt, h4, h8, h12, h16, h32, h48, h1600, hsize, hseqnum, hrlen, hwlen]

/-- A file that `run_tx` has room for, with its name and digest as `file_header_t` has them. -/
structure Sendable (f : SentFile) : Prop where
  fits : Fits f
  name_length : f.name.length = 16
  md5_length : f.md5.length = 16

theorem Sendable.wellFormed {f : SentFile} (h : Sendable f) {k : Nat} (h1 : 1 ≤ k)
    (hk : k ≤ txCount f.contents.length) :
    (f.packet f.contents.length f.contents k).WellFormed := by
  have hlt := lt_of_space h.fits.2
  have hend := chunk_end h1 hk
  have hlen := length_chunk h1 hk
  have hspace := h.fits.2
  refine ⟨hlt, ?_, rfl, wlen_le.trans_lt (by decide), h.name_length, h.md5_length, ?_⟩
  · show k < 4294967296
    omega
  · have hmod : f.contents.length % CHIP < CHIP := Nat.mod_lt _ (by decide)
    rw [SentFile.packet, List.length_append, List.length_replicate]
    rw [chunk] at hlen
    rw [hlen]
    split_ifs <;> omega

/-- What `run_tx` puts into its buffer for a file. -/
theorem runTx_sendable {f : SentFile} (h : Sendable f) :
    runTx f = some (packets f f.contents) := by
  have hlt := lt_of_space h.fits.2
  have hfsize : f.size = f.contents.length := u32_natCast hlt
  rw [runTx_eq (by rw [hfsize]; exact h.fits.2), sendBuf_eq hlt]

end NacCard.FlowTest
