import NacCard.Base.Chunks

/-!
# A record copied for another port

`nac_tx_memcpy` puts the number of a port into a record and copies the record. It reads the length
of the record as a field of `erf_record_t`, and finds the port at byte 15.

* `rlen`, `wlen` — fields of `erf_record_t`, in network order; the second is bytes 14 and 15.
* `nacTxMemcpy` — the function, on a memory of bytes.
* `Refused`, `Forwarded`, `Meets` — nothing happens, the record is copied with another port.
* `memcpy_meets_iff` — which ports are handled so: none whose bits were different before, as they
  are bits of `wlen`.
-/

namespace NacCard.Tx

open NacCard.Base

/-! ## Records -/

/-- `ntohs` of the bytes at `a`. -/
def ntohs (mem : Nat → UInt8) (a : Nat) : Nat := 256 * (mem a).toNat + (mem (a + 1)).toNat

/-- `ntohs(erf_hdr->rlen)` -/
def rlen (mem : Nat → UInt8) (erfHdr : Nat) : Nat := ntohs mem (erfHdr + 10)

/-- `ntohs(erf_hdr->wlen)` -/
def wlen (mem : Nat → UInt8) (erfHdr : Nat) : Nat := ntohs mem (erfHdr + 14)

/-- Bits 4 and 5. -/
def portOf (b : UInt8) : Nat := b.toNat / 16 % 4

/-- The byte of the flags with `number` in the two bits of the port. -/
def setPort (b number : UInt8) : UInt8 := (b &&& (0xcf : UInt8)) ||| (number <<< (4 : UInt8))

theorem setPort_spec {b number : UInt8} (h : number.toNat < 4) :
    setPort b number &&& 0xcf = b &&& 0xcf ∧ portOf (setPort b number) = number.toNat ∧
      (setPort b number = b ↔ portOf b = number.toNat) := by
  have hall : ∀ (i : Fin 256) (n : Fin 4), setPort (UInt8.ofNat i) (UInt8.ofNat n) &&& 0xcf
        = UInt8.ofNat i &&& 0xcf ∧
      portOf (setPort (UInt8.ofNat i) (UInt8.ofNat n)) = (UInt8.ofNat n).toNat ∧
      (setPort (UInt8.ofNat i) (UInt8.ofNat n) = UInt8.ofNat i ↔
        portOf (UInt8.ofNat i) = (UInt8.ofNat n).toNat) := by decide +kernel
  have hspec := hall ⟨b.toNat, b.toNat_lt⟩ ⟨number.toNat, h⟩
  simpa only [UInt8.ofNat_toNat] using hspec

/-! ## The function -/

/-- The pointer returned, `*orig_ptr` and the memory afterwards; 0 is `NULL`. -/
structure Memcpy where
  ret : Nat
  cpOrg : Nat
  mem : Nat → UInt8

/-- `(uint8_t)out_port` -/
def portNumber (outPort : Int) : UInt8 := UInt8.ofNat (outPort % 256).toNat

/-- `nac_tx_memcpy`: the port is set in the record itself, which is copied then. -/
def nacTxMemcpy (mem : Nat → UInt8) (cpOrg bottom : Nat) (outPort : Int) : Memcpy :=
  let p := bottom
  let number := portNumber outPort
  if p = 0 ∨ cpOrg = 0 then ⟨0, cpOrg, mem⟩
  else if number > 3 then ⟨0, cpOrg, mem⟩
  else
    let len := rlen mem p
    let mem := Function.update mem (p + 15) (setPort (mem (p + 15)) number)
    let mem := fill cpOrg len (fun i => mem (p + i)) mem
    ⟨cpOrg + len, cpOrg + len, mem⟩

/-! ## What is expected -/

section Expected

variable (mem : Nat → UInt8) (cpOrg bottom : Nat) (outPort : Int)

/-- There is a record at `bottom`, and as much room at `cpOrg`, where both are pointers. -/
structure Room : Prop where
  header : 16 ≤ rlen mem bottom
  apart : cpOrg + rlen mem bottom ≤ bottom ∨ bottom + rlen mem bottom ≤ cpOrg

/-- `NULL` is returned and nothing changes. -/
structure Refused (r : Memcpy) : Prop where
  ret : r.ret = 0
  kept : r.cpOrg = cpOrg
  same : r.mem = mem

/-- Byte `i` of a record, and what becomes of it. -/
def SameButPort (i : Nat) (b b' : UInt8) : Prop :=
  if i = 15 then b' &&& 0xcf = b &&& 0xcf ∧ (portOf b' : Int) = outPort else b' = b

/-- All of the record but the port is in both places, and nothing else has changed. -/
structure Placed (r : Memcpy) : Prop where
  ret : r.ret = cpOrg + rlen mem bottom
  moved : r.cpOrg = cpOrg + rlen mem bottom
  copy : ∀ i < rlen mem bottom, SameButPort outPort i (mem (bottom + i)) (r.mem (cpOrg + i))
  source : ∀ i < rlen mem bottom, SameButPort outPort i (mem (bottom + i)) (r.mem (bottom + i))
  frame : ∀ a, ¬(cpOrg ≤ a ∧ a < cpOrg + rlen mem bottom) →
    ¬(bottom ≤ a ∧ a < bottom + rlen mem bottom) → r.mem a = mem a

/-- And both lengths are what they were. -/
structure Forwarded (r : Memcpy) : Prop extends Placed mem cpOrg bottom outPort r where
  rlenKept : rlen r.mem bottom = rlen mem bottom ∧ rlen r.mem cpOrg = rlen mem bottom
  wlenKept : wlen r.mem bottom = wlen mem bottom ∧ wlen r.mem cpOrg = wlen mem bottom

/-- What is wrong with the arguments. -/
def BadArgs : Prop := bottom = 0 ∨ cpOrg = 0 ∨ outPort < 0 ∨ 3 < outPort

/-- Bad arguments are refused, and a record is copied with its new port. -/
structure Meets : Prop where
  refused : BadArgs cpOrg bottom outPort → Refused mem cpOrg (nacTxMemcpy mem cpOrg bottom outPort)
  forwarded : ¬BadArgs cpOrg bottom outPort →
    Forwarded mem cpOrg bottom outPort (nacTxMemcpy mem cpOrg bottom outPort)

end Expected

/-! ## What is copied -/

section Copy

variable {mem : Nat → UInt8} {cpOrg bottom : Nat} {outPort : Int}

theorem toNat_portNumber (outPort : Int) : (portNumber outPort).toNat = (outPort % 256).toNat := by
  rw [portNumber, UInt8.toNat_ofNat']
  omega

theorem portNumber_gt (outPort : Int) : portNumber outPort > 3 ↔ 3 < outPort % 256 := by
  show (3 : UInt8) < portNumber outPort ↔ _
  rw [UInt8.lt_iff_toNat_lt, toNat_portNumber]
  show 3 < _ ↔ _
  omega

theorem nacTxMemcpy_refuses (h : bottom = 0 ∨ cpOrg = 0 ∨ 3 < outPort % 256) :
    Refused mem cpOrg (nacTxMemcpy mem cpOrg bottom outPort) := by
  have hcases : (bottom = 0 ∨ cpOrg = 0) ∨ portNumber outPort > 3 := by
    rw [portNumber_gt, or_assoc]
    exact h
  unfold nacTxMemcpy
  dsimp only
  split_ifs
  · exact ⟨rfl, rfl, rfl⟩
  · exact ⟨rfl, rfl, rfl⟩
  · simp_all

/-- Byte `i` of the record when its port has been set. -/
def newByte (mem : Nat → UInt8) (bottom : Nat) (number : UInt8) (i : Nat) : UInt8 :=
  if i = 15 then setPort (mem (bottom + 15)) number else mem (bottom + i)

/-- The bytes of the two records afterwards, and all others. -/
structure Bytes (mem : Nat → UInt8) (cpOrg bottom : Nat) (number : UInt8) (r : Memcpy) : Prop where
  ret : r.ret = cpOrg + rlen mem bottom
  moved : r.cpOrg = cpOrg + rlen mem bottom
  copy : ∀ i < rlen mem bottom, r.mem (cpOrg + i) = newByte mem bottom number i
  source : ∀ i < rlen mem bottom, r.mem (bottom + i) = newByte mem bottom number i
  frame : ∀ a, ¬(cpOrg ≤ a ∧ a < cpOrg + rlen mem bottom) →
    ¬(bottom ≤ a ∧ a < bottom + rlen mem bottom) → r.mem a = mem a

theorem update_newByte (number : UInt8) (i : Nat) :
    Function.update mem (bottom + 15) (setPort (mem (bottom + 15)) number) (bottom + i)
      = newByte mem bottom number i := by
  rw [newByte, Function.update_apply]
  simp

theorem nacTxMemcpy_bytes (hroom : Room mem cpOrg bottom) (hbottom : bottom ≠ 0) (horg : cpOrg ≠ 0)
    (hport : ¬3 < outPort % 256) :
    Bytes mem cpOrg bottom (portNumber outPort) (nacTxMemcpy mem cpOrg bottom outPort) := by
  have hlen := hroom.header
  have happart := hroom.apart
  rw [← portNumber_gt] at hport
  rw [nacTxMemcpy, if_neg (by simp [hbottom, horg]), if_neg hport]
  refine ⟨rfl, rfl, fun i hi => ?_, fun i hi => ?_, fun a hcopy hsource => ?_⟩
  · dsimp only
    rw [fill_of_mem (Nat.le_add_right cpOrg i) (by omega), Nat.add_sub_cancel_left]
    exact update_newByte _ i
  · dsimp only
    rw [fill, if_neg (by omega)]
    exact update_newByte _ i
  · dsimp only
    rw [fill, if_neg hcopy, Function.update_of_ne (by omega)]

theorem newByte_sameButPort {number : UInt8} (h : number.toNat < 4) (i : Nat) :
    SameButPort number.toNat i (mem (bottom + i)) (newByte mem bottom number i) := by
  unfold SameButPort newByte
  split_ifs with hi
  · obtain ⟨hbits, hport, -⟩ := @setPort_spec (mem (bottom + 15)) number h
    rw [hi]
    exact ⟨hbits, congrArg _ hport⟩
  · rfl

theorem Bytes.placed {number : UInt8} {r : Memcpy} (h : Bytes mem cpOrg bottom number r)
    (hnumber : number.toNat < 4) : Placed mem cpOrg bottom number.toNat r := by
  refine ⟨h.ret, h.moved, fun i hi => ?_, fun i hi => ?_, h.frame⟩
  · rw [h.copy i hi]
    exact newByte_sameButPort hnumber i
  · rw [h.source i hi]
    exact newByte_sameButPort hnumber i

/-- The port is not among the bytes of `rlen`. -/
theorem Bytes.rlen_kept {number : UInt8} {r : Memcpy} (h : Bytes mem cpOrg bottom number r)
    (hlen : 16 ≤ rlen mem bottom) :
    rlen r.mem bottom = rlen mem bottom ∧ rlen r.mem cpOrg = rlen mem bottom := by
  have hcopy := fun i hi => h.copy i (Nat.lt_of_lt_of_le hi hlen)
  have hsource := fun i hi => h.source i (Nat.lt_of_lt_of_le hi hlen)
  unfold rlen ntohs
  rw [Nat.add_assoc, Nat.add_assoc, hcopy 10 (by decide), hcopy 11 (by decide),
    hsource 10 (by decide), hsource 11 (by decide)]
  exact ⟨rfl, rfl⟩

/-- It is the low byte of `wlen`. -/
theorem Bytes.wlen_iff {number : UInt8} {r : Memcpy} (h : Bytes mem cpOrg bottom number r)
    (hlen : 16 ≤ rlen mem bottom) (hnumber : number.toNat < 4) :
    (wlen r.mem bottom = wlen mem bottom ∧ wlen r.mem cpOrg = wlen mem bottom) ↔
      portOf (mem (bottom + 15)) = number.toNat := by
  have hcopy := fun i hi => h.copy i (Nat.lt_of_lt_of_le hi hlen)
  have hsource := fun i hi => h.source i (Nat.lt_of_lt_of_le hi hlen)
  have hbyte : newByte mem bottom number 14 = mem (bottom + 14) := rfl
  have hnew : newByte mem bottom number 15 = setPort (mem (bottom + 15)) number := rfl
  unfold wlen ntohs
  rw [Nat.add_assoc, Nat.add_assoc, hcopy 14 (by decide), hcopy 15 (by decide),
    hsource 14 (by decide), hsource 15 (by decide), hbyte, hnew, and_self, Nat.add_left_cancel_iff,
    UInt8.toNat_inj]
  exact (setPort_spec hnumber).2.2

/-- **The port is all that changes** exactly where it does not change either, or where its low
byte is refused. -/
theorem memcpy_meets_iff (hroom : bottom ≠ 0 → cpOrg ≠ 0 → Room mem cpOrg bottom) :
    Meets mem cpOrg bottom outPort ↔ bottom = 0 ∨ cpOrg = 0 ∨ 3 < outPort % 256 ∨
      0 ≤ outPort ∧ outPort ≤ 3 ∧ (portOf (mem (bottom + 15)) : Int) = outPort := by
  by_cases hrefuse : bottom = 0 ∨ cpOrg = 0 ∨ 3 < outPort % 256
  · have hbad : BadArgs cpOrg bottom outPort := by
      rcases hrefuse with h | h | h
      · exact .inl h
      · exact .inr (.inl h)
      · exact .inr (.inr (by omega))
    refine iff_of_true ⟨fun _ => nacTxMemcpy_refuses hrefuse, fun hgood => absurd hbad hgood⟩ ?_
    rcases hrefuse with h | h | h
    · exact .inl h
    · exact .inr (.inl h)
    · exact .inr (.inr (.inl h))
  · obtain ⟨hbottom, hrest⟩ := not_or.1 hrefuse
    obtain ⟨horg, hport⟩ := not_or.1 hrest
    have hroom' := hroom hbottom horg
    have hbytes := nacTxMemcpy_bytes hroom' hbottom horg hport
    have hnumber : (portNumber outPort).toNat < 4 := by
      rw [toNat_portNumber]
      omega
    have hwlen := hbytes.wlen_iff hroom'.header hnumber
    rw [or_iff_right hbottom, or_iff_right horg, or_iff_right hport]
    by_cases hrange : 0 ≤ outPort ∧ outPort ≤ 3
    · have hvalue : ((portNumber outPort).toNat : Int) = outPort := by
        rw [toNat_portNumber]
        omega
      have hgood : ¬BadArgs cpOrg bottom outPort := by
        rintro (h | h | h)
        · exact hbottom h
        · exact horg h
        · omega
      have hplaced := hbytes.placed hnumber
      rw [hvalue] at hplaced
      constructor
      · intro h
        refine ⟨hrange.1, hrange.2, ?_⟩
        rw [hwlen.1 (h.forwarded hgood).wlenKept, hvalue]
      · rintro ⟨-, -, hsame⟩
        rw [← hvalue, Nat.cast_inj] at hsame
        refine ⟨fun hbad => absurd hbad hgood, fun _ => ⟨hplaced, hbytes.rlen_kept hroom'.header, ?_⟩⟩
        exact hwlen.2 hsame
    · have hbad : BadArgs cpOrg bottom outPort := .inr (.inr (by omega))
      refine iff_of_false (fun h => ?_) fun h => hrange ⟨h.1, h.2.1⟩
      have hret := (h.refused hbad).ret
      rw [hbytes.ret] at hret
      omega

end Copy

/-! ## A record of 16 bytes -/

/-- At 100, for port 0. -/
def shortRecord (a : Nat) : UInt8 := if a = 111 then 16 else 0

theorem shortRecord_room : Room shortRecord 200 100 := ⟨by decide, by decide⟩

theorem memcpy_port_kept : Meets shortRecord 200 100 0 :=
  (memcpy_meets_iff fun _ _ => shortRecord_room).2
    (.inr (.inr (.inr ⟨le_refl 0, by decide, by decide⟩)))

/-- With port 1 it is a packet of 16 bytes more; 256 is taken for port 0. -/
theorem memcpy_port_changed : ¬Meets shortRecord 200 100 1 ∧ ¬Meets shortRecord 200 100 256 := by
  constructor
  · intro h
    have hgood : ¬BadArgs 200 100 1 := by
      rintro (h | h | h | h)
      · cases h
      · cases h
      · exact absurd h (by decide)
      · exact absurd h (by decide)
    have hwlen := (h.forwarded hgood).wlenKept.1
    exact absurd hwlen (by decide)
  · intro h
    have hret := (h.refused (.inr (.inr (.inr (by decide))))).ret
    exact absurd hret (by decide)

end NacCard.Tx
