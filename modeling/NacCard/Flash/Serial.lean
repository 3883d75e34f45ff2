import NacCard.Flash.Effects

/-!
# The serial numbers as a store

Two numbers, each in a block of its own in bank 14, are set and read in any order.

* `SnCall`, `SnCall.run`, `runCalls` — the four functions of the library as calls.
* `latest` — the store as its user sees it: the value of the last `set` of a kind.
* `SnInv` — what every sequence of calls keeps of the chip; `SnInv.call` is one call.
* `serialNumbers_store` — every read returns the latest value, and no call touches a word
  outside its own block.
-/

namespace NacCard.Flash

open NacCard.Base

/-- The two serial numbers. -/
inductive SnKind where
  | logic
  | hardware
  deriving Repr, DecidableEq

/-- The block of bank 14 that holds the number. -/
def SnKind.block : SnKind → Nat
  | .logic => 0
  | .hardware => 1

/-- The first word of its block. -/
def SnKind.start (k : SnKind) : Nat := 14 * BANK_SIZE_W + k.block * 0x10000

/-- A call that stores a number or reads it. -/
inductive SnCall where
  | set (k : SnKind) (sn : UInt64)
  | read (k : SnKind)
  deriving Repr, DecidableEq

namespace SnCall

/-- The number a call is about. -/
def kind : SnCall → SnKind
  | set k _ => k
  | read k => k

/-- What the call makes the number of kind `k`. -/
def sets (k : SnKind) : SnCall → Option UInt64
  | set k' sn => if k' = k then some sn else none
  | read _ => none

/-- What the call returns, if anything, and the device after it. -/
def run {σ : Type} [Bus σ] (c : σ) : SnCall → Except Stop (Option UInt64 × σ)
  | set .logic sn => do
      let c ← setLogicNum c sn
      .ok (none, c)
  | set .hardware sn => do
      let c ← setHardwareNum c sn
      .ok (none, c)
  | read .logic => do
      let (sn, c) ← readLogicNum c
      .ok (some sn, c)
  | read .hardware => do
      let (sn, c) ← readHardwareNum c
      .ok (some sn, c)

end SnCall

/-- A sequence of calls, with all that they return. -/
def runCalls {σ : Type} [Bus σ] : σ → List SnCall → Except Stop (List (Option UInt64) × σ)
  | c, [] => .ok ([], c)
  | c, call :: calls => do
      let (out, c) ← call.run c
      let (outs, c) ← runCalls c calls
      .ok (out :: outs, c)

/-- The number of a kind after some calls, from what it was before them. -/
def latest (initial : UInt64) (k : SnKind) (calls : List SnCall) : UInt64 :=
  ((calls.filterMap (SnCall.sets k)).getLast?).getD initial

/-- What the flash holds for a kind. -/
def stored (k : SnKind) (cells : Nat → UInt16) : UInt64 := joinWords fun j => cells (k.start + j)

/-! ## One call -/

variable {c : Chip} {k : SnKind} {cells : Nat → UInt16} {sn : UInt64}

theorem SnKind.block_lt (k : SnKind) : k.block < 8 := by cases k <;> decide

theorem stored_set : stored k (fill k.start 0x10000 (serial sn) cells) = sn := by
  refine (joinWords_congr fun j hj => ?_).trans (joinWords_serial sn)
  rw [fill_of_mem (Nat.le_add_right _ _) (Nat.add_lt_add_left (hj.trans (by decide)) _),
    Nat.add_sub_cancel_left]

/-- The blocks of the two kinds lie apart. -/
theorem stored_other {k' : SnKind} (h : k' ≠ k) :
    stored k' (fill k.start 0x10000 (serial sn) cells) = stored k' cells := by
  refine joinWords_congr fun j hj => ?_
  cases k <;> cases k'
  · exact absurd rfl h
  · exact fill_of_le (by simp only [SnKind.start, SnKind.block]; omega)
  · exact fill_of_lt (by simp only [SnKind.start, SnKind.block]; omega)
  · exact absurd rfl h

theorem SnCall.run_set (h : c.Ready) :
    ∃ c', (SnCall.set k sn).run c = .ok (none, c') ∧ c'.Ready ∧
      c'.cells = fill k.start 0x10000 (serial sn) c.cells := by
  obtain ⟨c', hrun, hready, hcells⟩ := setNum_spec h k.block_lt sn
  refine ⟨c', ?_, hready, hcells⟩
  cases k
  · exact bind_of_ok hrun _
  · exact bind_of_ok hrun _

theorem SnCall.run_read (h : c.Ready) :
    ∃ c', (SnCall.read k).run c = .ok (some (stored k c.cells), c') ∧ c'.Ready ∧
      c'.cells = c.cells := by
  obtain ⟨c', hrun, hready, hcells⟩ := readNum_spec h k.block_lt
  refine ⟨c', ?_, hready, hcells⟩
  cases k
  · exact bind_of_ok hrun _
  · exact bind_of_ok hrun _

/-- The chip after some calls, from a flash that held `initial`. -/
structure SnInv (initial : SnKind → UInt64) (calls : List SnCall) (c : Chip) : Prop where
  ready : c.Ready
  stored : ∀ k, stored k c.cells = latest (initial k) k calls

theorem latest_set (initial : UInt64) (calls : List SnCall) (k' : SnKind) :
    latest initial k (calls ++ [.set k' sn]) = if k' = k then sn else latest initial k calls := by
  by_cases h : k' = k
  · simp [latest, SnCall.sets, h]
  · simp [latest, SnCall.sets, h]

theorem latest_read (initial : UInt64) (calls : List SnCall) (k' : SnKind) :
    latest initial k (calls ++ [.read k']) = latest initial k calls := by
  simp [latest, SnCall.sets]

/-- A call, on a chip that other calls have left behind. -/
theorem SnInv.call {initial : SnKind → UInt64} {calls : List SnCall} (h : SnInv initial calls c)
    (call : SnCall) :
    ∃ out c', call.run c = .ok (out, c') ∧ SnInv initial (calls ++ [call]) c' ∧
      (∀ k, call = .read k → out = some (latest (initial k) k calls)) ∧
      ∀ a, ¬(call.kind.start ≤ a ∧ a < call.kind.start + 0x10000) → c'.cells a = c.cells a := by
  cases call with
  | set k sn =>
      obtain ⟨c', hrun, hready, hcells⟩ := @SnCall.run_set c k sn h.ready
      refine ⟨none, c', hrun, ⟨hready, fun k' => ?_⟩, ?_, fun a ha => ?_⟩
      · rw [latest_set, hcells]
        split_ifs with hkind
        · rw [hkind, stored_set]
        · rw [stored_other (Ne.symm hkind), h.stored]
      · rintro k' ⟨⟩
      · exact (congrFun hcells a).trans (if_neg ha)
  | read k =>
      obtain ⟨c', hrun, hready, hcells⟩ := SnCall.run_read (k := k) h.ready
      refine ⟨_, c', hrun, ⟨hready, fun k' => ?_⟩, ?_, fun a _ => by rw [hcells]⟩
      · rw [latest_read, hcells, h.stored]
      · rintro k' ⟨⟩
        rw [h.stored]

/-! ## Every sequence of calls -/

theorem runCalls_snoc {σ : Type} [Bus σ] {c c1 c2 : σ} {calls : List SnCall} {call : SnCall}
    {outs : List (Option UInt64)} {out : Option UInt64} (h : runCalls c calls = .ok (outs, c1))
    (h' : call.run c1 = .ok (out, c2)) : runCalls c (calls ++ [call]) = .ok (outs ++ [out], c2) := by
  induction calls generalizing c outs with
  | nil =>
      obtain ⟨rfl, rfl⟩ : [] = outs ∧ c = c1 := by simpa [runCalls] using h
      rw [List.nil_append, runCalls, bind_of_ok h']
      rfl
  | cons first rest ih =>
      rw [runCalls] at h
      obtain ⟨⟨out1, c3⟩, hfirst, hcont⟩ := exists_of_bind h
      obtain ⟨⟨outs', c4⟩, hrest, hend⟩ := exists_of_bind hcont
      obtain ⟨rfl, rfl⟩ : out1 :: outs' = outs ∧ c4 = c1 := by simpa using hend
      rw [List.cons_append, runCalls, bind_of_ok hfirst]
      dsimp only
      rw [bind_of_ok (ih hrest)]
      rfl

/-- Every sequence of calls comes to its end. -/
theorem runCalls_ok (cells : Nat → UInt16) (mode : Nat → ReadMode) (calls : List SnCall) :
    ∃ outs c, runCalls (Chip.idle cells mode) calls = .ok (outs, c) ∧
      SnInv (fun k => stored k cells) calls c := by
  induction calls using List.reverseRecOn with
  | nil => exact ⟨[], Chip.idle cells mode, rfl, rfl, fun _ => rfl⟩
  | append_singleton calls call ih =>
      obtain ⟨outs, c, hruns, hinv⟩ := ih
      obtain ⟨out, c', hrun, hinv', -, -⟩ := hinv.call call
      exact ⟨outs ++ [out], c', runCalls_snoc hruns hrun, hinv'⟩

/-- **The serial numbers are a store of two cells.**  After any calls, whatever the flash held,
the next call ends well; a read returns what the latest `set` of its kind has set, or the
flash's own number; and no word outside the block of its kind is changed. -/
theorem serialNumbers_store (cells : Nat → UInt16) (mode : Nat → ReadMode) (calls : List SnCall)
    (call : SnCall) :
    ∃ outs c out c', runCalls (Chip.idle cells mode) calls = .ok (outs, c) ∧
      call.run c = .ok (out, c') ∧
      runCalls (Chip.idle cells mode) (calls ++ [call]) = .ok (outs ++ [out], c') ∧
      (∀ k, call = .read k → out = some (latest (stored k cells) k calls)) ∧
      ∀ a, ¬(call.kind.start ≤ a ∧ a < call.kind.start + 0x10000) → c'.cells a = c.cells a := by
  obtain ⟨outs, c, hruns, hinv⟩ := runCalls_ok cells mode calls
  obtain ⟨out, c', hrun, -, hout, hframe⟩ := hinv.call call
  exact ⟨outs, c, out, c', hruns, hrun, runCalls_snoc hruns hrun, hout, hframe⟩

example : latest 7 .logic [.set .logic 1, .set .hardware 2, .read .logic, .set .logic 3] = 3 := by
  decide

end NacCard.Flash
