import NacCard.Base.Ring
import NacCard.Base.Run
import NacCard.Stream.Types

/-!
# A transmit stream and the card

One attached and started transmit stream as a machine: the library's calls on
one side, the card on the other, in any interleaving.

* The card sends byte after byte from its record pointer until that register
  equals the limit register.  At the end of the buffer it stops if the limit is
  there and goes on at the start otherwise.
* `nac_tx_stream_copy_bytes` waits for free space, copies byte by byte, publishes.
* `nac_tx_get_stream_space` waits and hands out a pointer; the user writes bytes
  through it and `nac_tx_stream_commit_bytes` publishes them.

A call is cut where the card's progress can make a difference: at every read of
the record pointer, at every byte written and at the write of the limit.
Besides the fields the code keeps, `TxState` records three histories: the
buffers given to accepted copy calls, the bytes published and the bytes sent.
Bytes are of any type.
-/

namespace NacCard.Tx

open NacCard.Base NacCard.Stream

/-! ## States -/

/-- A stream's ring: `size` bytes of device memory at `phyaddr`, mapped twice, the
second time for `extra` bytes.  The buffer lies below 4 GB. -/
structure TxRing where
  size : Nat
  extra : Nat
  phyaddr : Nat
  size_pos : 0 < size
  size_lt : size < 2147483648
  extra_le : extra ≤ size
  top_le : phyaddr + size ≤ 4294967296

/-- `nac_inline_msu_configure` makes a ring an eighth of the card's buffer
(`OVERLAP_FWD`), or a sixteenth (`COPY_FWD`). -/
def TxRing.OverlapMode (g : TxRing) : Prop := ∃ bufSize < 4294967296, g.size = bufSize / NUM_STREAM

/-- The ring of a stream in copy mode. -/
def TxRing.CopyMode (g : TxRing) : Prop :=
  ∃ bufSize < 4294967296, g.size = bufSize / (NUM_STREAM * 2)

theorem TxRing.OverlapMode.size_lt {g : TxRing} (h : g.OverlapMode) : g.size < 536870912 := by
  obtain ⟨bufSize, hb, heq⟩ := h
  simp only [NUM_STREAM] at heq
  omega

theorem TxRing.CopyMode.size_lt {g : TxRing} (h : g.CopyMode) : g.size < 268435456 := by
  obtain ⟨bufSize, hb, heq⟩ := h
  simp only [NUM_STREAM] at heq
  omega

/-- Where the library is: between calls, or inside one of them. -/
inductive Pc (β : Type) where
  | idle
  /-- `nac_tx_stream_copy_bytes` in its wait loop -/
  | copyWait (orig : List β)
  /-- `k` bytes of `orig` have been copied -/
  | copying (orig : List β) (k : Nat)
  /-- `nac_tx_get_stream_space` in its wait loop -/
  | spaceWait (n : Nat)
  /-- `nac_tx_get_stream_space` has returned, and the user has written `bytes` -/
  | filling (n : Nat) (bytes : List β)
  deriving DecidableEq

/-- The library's record of a TX stream, the card, the ring, and what was committed and sent. -/
structure TxState (β : Type) where
  /- `stream_t` -/
  offset : Nat
  freeSpace : Int
  lastBusTop : Nat
  lastBusBottom : Nat
  /- the card: its position in the ring and the limit register -/
  record : Nat
  limitPtr : Nat
  ring : Nat → β
  pc : Pc β
  /-- an access outside the two mappings -/
  fault : Bool
  buffers : List (List β)
  committed : List β
  sent : List β

/-- A step of the card, of the call under way, or of the user. -/
inductive Act (β : Type) where
  /-- the card sends a byte, or goes from the end of the buffer to its start -/
  | card
  /-- a call of `nac_tx_stream_copy_bytes` -/
  | copy (orig : List β)
  /-- a call of `nac_tx_get_stream_space` -/
  | space (n : Nat)
  /-- the call under way goes on -/
  | tick
  /-- the user writes the next byte behind the pointer he was given; one he leaves as
  it is counts as written with the value it has -/
  | put (b : β)
  /-- a call of `nac_tx_stream_commit_bytes` for the first `m` bytes written -/
  | commit (m : Nat)

/-- The call under way goes on. -/
def Act.isTick {β : Type} : Act β → Bool
  | .tick => true
  | _ => false

variable {β : Type}

/-- Bytes of the call under way that are in the ring but not published. -/
def Pc.pending : Pc β → List β
  | .copying orig k => orig.take k
  | .filling _ bytes => bytes
  | _ => []

/-- How many bytes the call under way may still come to write. -/
def Pc.reserved : Pc β → Nat
  | .copying orig _ => orig.length
  | .filling n _ => n
  | _ => 0

/-- The buffer of the copy call under way. -/
def Pc.buffer : Pc β → List β
  | .copyWait orig => orig
  | .copying orig _ => orig
  | _ => []

section Pc

variable (orig bytes : List β) (k n : Nat)

@[simp] theorem Pc.pending_idle : (Pc.idle : Pc β).pending = [] := rfl
@[simp] theorem Pc.pending_copyWait : (Pc.copyWait orig).pending = [] := rfl
@[simp] theorem Pc.pending_copying : (Pc.copying orig k).pending = orig.take k := rfl
@[simp] theorem Pc.pending_spaceWait : (Pc.spaceWait n : Pc β).pending = [] := rfl
@[simp] theorem Pc.pending_filling : (Pc.filling n bytes).pending = bytes := rfl
@[simp] theorem Pc.reserved_idle : (Pc.idle : Pc β).reserved = 0 := rfl
@[simp] theorem Pc.reserved_copyWait : (Pc.copyWait orig).reserved = 0 := rfl
@[simp] theorem Pc.reserved_copying : (Pc.copying orig k).reserved = orig.length := rfl
@[simp] theorem Pc.reserved_spaceWait : (Pc.spaceWait n : Pc β).reserved = 0 := rfl
@[simp] theorem Pc.reserved_filling : (Pc.filling n bytes).reserved = n := rfl
@[simp] theorem Pc.buffer_idle : (Pc.idle : Pc β).buffer = [] := rfl
@[simp] theorem Pc.buffer_copyWait : (Pc.copyWait orig).buffer = orig := rfl
@[simp] theorem Pc.buffer_copying : (Pc.copying orig k).buffer = orig := rfl

end Pc

namespace TxRing

variable (g : TxRing)

/-! ## The card -/

/-- The register of the record pointer. -/
def recordPtr (s : TxState β) : Nat := u32 (g.phyaddr + s.record)

/-- The register value of the end of the buffer. -/
def bufEnd : Nat := u32 (g.phyaddr + g.size)

/-- Send the byte at the record pointer and move on. -/
def sendByte (s : TxState β) : TxState β :=
  { s with
    sent := s.sent ++ [s.ring s.record]
    record := if s.record + 1 = g.size ∧ s.limitPtr ≠ g.bufEnd then 0 else s.record + 1 }

/-- The card sends up to the limit, and goes around at the end of the buffer. -/
def cardStep (s : TxState β) : Option (TxState β) :=
  if g.recordPtr s = s.limitPtr then none
  else if s.record = g.size then some { s with record := 0 }
  else some (g.sendByte s)

/-! ## `nac_tx_stream_copy_bytes` -/

/-- One turn of the wait loop. -/
def copyRefresh (s : TxState β) : TxState β :=
  let top := g.recordPtr s
  let bottom := s.limitPtr
  let freeSpace := i32 ((top : Int) - u32 (bottom + SAFETY_WINDOW))
  { s with
    lastBusTop := top
    lastBusBottom := bottom
    freeSpace := if freeSpace < 0 then i32 (freeSpace + g.size) else freeSpace }

/-- Behind the loop: the space is taken. -/
def copyTake (orig : List β) (s : TxState β) : TxState β :=
  { s with freeSpace := i32 (s.freeSpace - orig.length), pc := .copying orig 0 }

/-- Where byte `k` of `written` bytes goes: one `memcpy`, or one up to the end of
the ring and one from its start. -/
def copySlot (offset written k : Nat) : Nat :=
  let remainingBlock := i32 (g.size - offset)
  if remainingBlock ≥ written then offset + k
  else if k < remainingBlock then offset + k
  else k - remainingBlock.toNat

/-- One byte of the `memcpy`. -/
def copyByte (orig : List β) (k : Nat) (b : β) (s : TxState β) : TxState β :=
  { s with
    ring := Function.update s.ring (g.copySlot s.offset orig.length k) b
    pc := .copying orig (k + 1) }

/-- The new offset; reaching the end counts as being at the start. -/
def copyOffset (offset written : Nat) : Nat :=
  let offset := u32 (offset + written)
  if offset ≥ g.size then offset - g.size else offset

/-- Behind the copy: the new offset, and the limit. -/
def copyPublish (orig : List β) (s : TxState β) : TxState β :=
  let offset := g.copyOffset s.offset orig.length
  { s with
    offset := offset
    lastBusBottom := u32 (g.phyaddr + offset)
    limitPtr := u32 (g.phyaddr + offset)
    committed := s.committed ++ orig
    pc := .idle }

/-! ## `nac_tx_get_stream_space` and `nac_tx_stream_commit_bytes` -/

/-- One turn of the wait loop; the limit was read before it. -/
def spaceRefresh (s : TxState β) : TxState β :=
  let top := g.recordPtr s
  let freeSpace := i32 ((top : Int) - s.lastBusBottom)
  { s with
    lastBusTop := top
    freeSpace := if freeSpace ≤ 0 then i32 (freeSpace + g.size) else freeSpace }

/-- Behind the loop: the space is taken, and the user has his pointer. -/
def spaceTake (n : Nat) (s : TxState β) : TxState β :=
  { s with freeSpace := i32 (s.freeSpace - n), pc := .filling n [] }

/-- The ring slot behind `buf + i`, through the first or the second mapping. -/
def mirror (i : Nat) : Option Nat :=
  if i < g.size then some i
  else if i < g.size + g.extra then some (i - g.size)
  else none

/-- The user writes a byte behind those he has written. -/
def putByte (n : Nat) (bytes : List β) (b : β) (s : TxState β) : TxState β :=
  match g.mirror (s.offset + bytes.length) with
  | some j => { s with ring := Function.update s.ring j b, pc := .filling n (bytes ++ [b]) }
  | none => { s with fault := true }

/-- The new offset; here the end of the ring is kept as it is. -/
def commitOffset (offset m : Nat) : Nat :=
  let offset := u32 (offset + m)
  if offset > g.size then offset - g.size else offset

/-- The new offset, and the limit. -/
def commitPublish (m : Nat) (bytes : List β) (s : TxState β) : TxState β :=
  let offset := g.commitOffset s.offset m
  { s with
    offset := offset
    lastBusBottom := u32 (g.phyaddr + offset)
    limitPtr := u32 (g.phyaddr + offset)
    committed := s.committed ++ bytes.take m
    pc := .idle }

/-! ## The machine -/

/-- `nac_tx_attach_stream` and `nac_tx_start_stream` have returned: nothing is in
the ring, and both pointers are at its start. -/
structure Fresh (s : TxState β) : Prop where
  offset : s.offset = 0
  freeSpace : s.freeSpace = 0
  record : s.record = 0
  limitPtr : s.limitPtr = u32 g.phyaddr
  pc : s.pc = .idle
  fault : s.fault = false
  buffers : s.buffers = []
  committed : s.committed = []
  sent : s.sent = []

/-- What the library does next inside a call. -/
def tickStep (s : TxState β) : Option (TxState β) :=
  match s.pc with
  | .copyWait orig =>
      if s.freeSpace < i32 orig.length then some (g.copyRefresh s) else some (copyTake orig s)
  | .copying orig k =>
      match orig[k]? with
      | some b => some (g.copyByte orig k b s)
      | none => some (g.copyPublish orig s)
  | .spaceWait n =>
      if s.freeSpace < i32 (i32 n + 2048) then some (g.spaceRefresh s) else some (spaceTake n s)
  | _ => none

/-- The user's side: calls between calls, and the bytes he writes. -/
def userStep (s : TxState β) : Act β → Option (TxState β)
  | .copy orig =>
      match s.pc with
      | .idle =>
          -- more than the ring holds: `EINVAL`
          if orig.length > g.size then some s
          else some { s with pc := .copyWait orig, buffers := s.buffers ++ [orig] }
      | _ => none
  | .space n =>
      match s.pc with
      | .idle =>
          if n = 0 then some s
          else some { s with pc := .spaceWait n, lastBusBottom := s.limitPtr }
      | _ => none
  | .put b =>
      match s.pc with
      | .filling n bytes => if bytes.length < n then some (g.putByte n bytes b s) else none
      | _ => none
  | .commit m =>
      match s.pc with
      | .filling _ bytes =>
          if m ≤ bytes.length then
            if m > g.size then some { s with pc := .idle } else some (g.commitPublish m bytes s)
          else none
      | _ => none
  | _ => none

/-- What a step does. -/
def step (s : TxState β) : Act β → Option (TxState β)
  | .card => g.cardStep s
  | .tick => g.tickStep s
  | a => g.userStep s a

/-- A TX stream from its start, for any order of steps. -/
def machine (β : Type) : Machine (TxState β) (Act β) := ⟨g.Fresh, g.step⟩

end TxRing

/-! ## A small ring -/

/-- A ring of 4 kB at `0x10000000`, and its stream just started. -/
def ring4k : TxRing where
  size := 4096
  extra := 4096
  phyaddr := 0x10000000
  size_pos := (by decide : 0 < 2 ^ 12)
  size_lt := (by decide : 2 ^ 12 < 2 ^ 31)
  extra_le := le_rfl
  top_le := by decide

/-- Its stream as it is after the start. -/
def started4k : TxState Nat where
  offset := 0
  freeSpace := 0
  lastBusTop := 0
  lastBusBottom := 0
  record := 0
  limitPtr := 0x10000000
  ring := fun _ => 0
  pc := .idle
  fault := false
  buffers := []
  committed := []
  sent := []

theorem ring4k_copyMode : ring4k.CopyMode := ⟨65536, by decide, by decide⟩

theorem started4k_fresh : ring4k.Fresh started4k :=
  ⟨rfl, rfl, rfl, by decide, rfl, rfl, rfl, rfl, rfl⟩

end NacCard.Tx
