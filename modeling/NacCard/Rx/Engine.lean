import NacCard.Base.Ring
import NacCard.Stream.Types

/-!
# A receive ring, the card that fills it, and `nac_advance_stream`

* `RxRing` — where a ring lies for the card and for the process.
* `Engine` — the card: it writes byte after byte at its record pointer, stops when
  that equals the limit, and goes on at the start from the end of the buffer
  unless the limit is there.  What it writes is a stream `data` of bytes.
* `normBottom`, `bottomAlign`, `limitFor`, `recordAddr`, `available`, `advanceTop` —
  the computations of `nac_advance_stream`, on addresses, in the order it makes
  them.  Between them it reads the record pointer, writes the limit, and reads the
  record pointer again and again (`writeLimit`, `waits`, `topFor`).

Addresses are numbers; the library is built for 64-bit ones.
-/

namespace NacCard.Rx

open NacCard.Base NacCard.Stream

/-- A ring of `size` bytes at physical address `phyaddr`, mapped at `buf` and its
first `extra` bytes again behind it. -/
structure RxRing where
  size : Nat
  extra : Nat
  phyaddr : Nat
  buf : Nat
  size_pos : 0 < size
  size_align : 128 ∣ size
  size_lt : size < 2147483648
  extra_le : extra ≤ size
  /-- behind the ring the buffer goes on -/
  top_lt : phyaddr + size < 4294967296
  buf_pos : 0 < buf
  buf_page : 4096 ∣ buf
  buf_lt : buf + 2 * size < 18446744073709551616

variable {β : Type}

/-! ## The card -/

/-- The card's position `record` in the ring, its limit register, and how many
bytes it has written so far. -/
structure Engine (β : Type) where
  written : Nat
  record : Nat
  limitPtr : Nat
  ring : Nat → β

namespace RxRing

variable (g : RxRing)

/-- The value of the record register. -/
def recordPtr (e : Engine β) : Nat := u32 (g.phyaddr + e.record)

/-- Write the next byte of `data`, or go from the end of the buffer to its start. -/
def engineStep (data : Nat → β) (e : Engine β) : Option (Engine β) :=
  if g.recordPtr e = e.limitPtr then none
  else if e.record = g.size then some { e with record := 0 }
  else
    some
      { e with
        ring := Function.update e.ring e.record (data e.written)
        record := e.record + 1
        written := e.written + 1 }

/-- The card after `nac_attach_stream` and `nac_start_stream`: nothing is written, and the
limit is at the end. -/
structure Started (e : Engine β) : Prop where
  written : e.written = 0
  record : e.record = 0
  limitPtr : e.limitPtr = u32 (g.phyaddr + i32 g.size)

/-! ## `nac_advance_stream` -/

/-- `*bottom` as the function first sets it. -/
def normBottom (bottom : Nat) : Nat :=
  let bottom := if bottom = 0 then g.buf else bottom
  if bottom > g.buf + g.size then bottom - g.size else bottom

/-- `bottom_align` -/
def bottomAlign (bottom : Nat) : Nat := bottom &&& 0xffffffffffffff80

/-- `offset`: the address that belongs to a value of the record register. -/
def recordAddr (reg : Nat) : Nat := u32 ((reg : Int) - g.phyaddr) + g.buf

/-- `WRSAFE` -/
def wrsafe (x : Int) : Int := if x - SAFETY_WINDOW ≤ 0 then g.size else x - SAFETY_WINDOW

/-- `limit_ptr_addr` -/
def limitFor (align : Nat) : Nat := u32 (g.phyaddr + g.wrsafe ((align : Int) - g.buf))

/-- The bytes the wait loop compares with `mindata`. -/
def available (align offset : Nat) : Nat :=
  if offset ≥ align then u32 ((offset : Int) - align) else u32 ((g.size : Int) - align + offset)

/-- What is returned for `offset`: lifted into the extra window where it is behind
`align`, capped at the end of the mapping, and less the safety window. -/
def advanceTop (align offset : Nat) : Nat :=
  let offset := if offset < align then offset + g.size else offset
  let offset :=
    if offset > g.buf + g.size + g.extra then g.buf + g.size + g.extra else offset
  if (offset : Int) - align ≥ SAFETY_WINDOW then offset - SAFETY_WINDOW else offset

/-- What a call returns for `bottom` and the last value `r` of the record register. -/
def topFor (bottom r : Nat) : Nat := g.advanceTop (bottomAlign bottom) (g.recordAddr r)

/-- The wait loop goes on. -/
def waits (mindata bottom r : Nat) : Bool :=
  g.available (bottomAlign bottom) (g.recordAddr r) < mindata

/-- The limit that goes with `bottom` is written. -/
def writeLimit (bottom : Nat) (e : Engine β) : Engine β :=
  { e with limitPtr := g.limitFor (bottomAlign bottom) }

/-- The byte at address `p`, through either mapping. -/
def readByte (e : Engine β) (p : Nat) : β :=
  if p - g.buf < g.size then e.ring (p - g.buf) else e.ring (p - g.buf - g.size)

end RxRing

/-! ## A small ring -/

/-- A ring of 4 kB at `0x10000000`, mapped twice. -/
def rx4k : RxRing where
  size := 4096
  extra := 4096
  phyaddr := 0x10000000
  buf := 0x7f0000000000
  size_pos := by decide
  size_align := by decide
  size_lt := by decide
  extra_le := by decide
  top_lt := by decide
  buf_pos := by decide
  buf_page := by decide
  buf_lt := by decide

/-- The card just started, on memory full of zeros. -/
def engine4k {β : Type} (zero : β) : Engine β where
  written := 0
  record := 0
  limitPtr := 0x10001000
  ring := fun _ => zero

theorem engine4k_started {β : Type} (zero : β) : rx4k.Started (engine4k zero) := by
  have hlimit : (0x10001000 : Nat) = u32 (rx4k.phyaddr + i32 rx4k.size) := by decide
  exact ⟨rfl, rfl, hlimit⟩

end NacCard.Rx
