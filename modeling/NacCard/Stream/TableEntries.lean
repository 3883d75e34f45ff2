import NacCard.Base.Bytes
import NacCard.Base.Chunks
import NacCard.Stream.Types

/-!
# The entries of the flow table

`nac_write_flowtable` packs a hash and a policy into a word and writes its two bytes, the high
one first, on a host that keeps the low one first.

* `nacWriteFlowtable` — the function, with the bytes that it writes; `writeAll` — calls one after another.
* `FlowMap` — what the table is: an entry for every number.
* `entryWord`, `flowMap` — the table that is in the memory.
* `WritesEntry` — one call is one update of the map, or nothing.
* `writeAll_isMap` — so are all calls together.
-/

namespace NacCard.Stream

open NacCard.Base

/-- `STRATEGY_LIST_MAX`: policies are numbered below it. -/
def STRATEGY_LIST_MAX : Nat := 1024
/-- `FLOWTABLE_MAX_NUM`: entries are numbered below it. -/
def FLOWTABLE_MAX_NUM : Nat := 4194304

/-! ## The function -/

/-- The arguments behind `addr`. -/
structure TableCall where
  flowtableEntryNum : UInt32
  policyId : UInt16
  hash2 : UInt16
  deriving Repr, DecidableEq

/-- What is returned, and what the calls of `memcpy` write. -/
structure TableWrite where
  ret : Int
  bytes : List (Nat × UInt8)
  deriving Repr, DecidableEq

/-- `*(p + k)` with `p = (uint8_t *)&tmp`, low byte first. -/
def byteAt (tmp : UInt16) (k : Nat) : UInt8 := (wordBytes tmp).getD k 0

/-- `nac_write_flowtable`: the checks, and then the two bytes of the entry, high byte first. -/
def nacWriteFlowtable (addr : Nat) (c : TableCall) : TableWrite :=
  if c.policyId.toNat ≥ STRATEGY_LIST_MAX then ⟨-1, []⟩
  else if c.flowtableEntryNum.toNat ≥ FLOWTABLE_MAX_NUM then ⟨-1, []⟩
  else if c.hash2 > 0x3f then ⟨-1, []⟩
  else
    let tmp := ((c.hash2 &&& 0x3f) <<< 10) ||| c.policyId
    ⟨0, [(addr + (c.flowtableEntryNum * 2).toNat, byteAt tmp 1),
      (addr + (c.flowtableEntryNum * 2).toNat + 1, byteAt tmp 0)]⟩

/-- The memory after calls for one table. -/
def writeAll (addr : Nat) (mem : Nat → UInt8) (calls : List TableCall) : Nat → UInt8 :=
  calls.foldl (fun mem c => storeAll (nacWriteFlowtable addr c).bytes mem) mem

/-! ## The map -/

/-- An entry: six bits of a hash and the number of a policy. -/
@[ext] structure FlowEntry where
  hash2 : Fin 64
  policyId : Fin STRATEGY_LIST_MAX
  deriving Repr, DecidableEq

/-- The table as a map. -/
abbrev FlowMap := Fin FLOWTABLE_MAX_NUM → FlowEntry

/-- The three checks. -/
structure TableAccepts (c : TableCall) : Prop where
  policy : c.policyId.toNat < STRATEGY_LIST_MAX
  entry : c.flowtableEntryNum.toNat < FLOWTABLE_MAX_NUM
  hash : c.hash2.toNat ≤ 63

instance (c : TableCall) : Decidable (TableAccepts c) :=
  decidable_of_iff (c.policyId.toNat < STRATEGY_LIST_MAX ∧
    c.flowtableEntryNum.toNat < FLOWTABLE_MAX_NUM ∧ c.hash2.toNat ≤ 63)
    ⟨fun ⟨hp, he, hh⟩ => ⟨hp, he, hh⟩, fun ⟨hp, he, hh⟩ => ⟨hp, he, hh⟩⟩

/-- A call on the map; what is not accepted changes nothing. -/
def FlowMap.write (m : FlowMap) (c : TableCall) : FlowMap :=
  if h : TableAccepts c then
    Function.update m ⟨c.flowtableEntryNum.toNat, h.entry⟩
      ⟨⟨c.hash2.toNat, Nat.lt_succ_of_le h.hash⟩, ⟨c.policyId.toNat, h.policy⟩⟩
  else m

/-- Upper 6 and lower 10 bits. -/
def FlowEntry.ofWord (w : Nat) : FlowEntry :=
  ⟨⟨w / 1024 % 64, Nat.mod_lt _ (by decide)⟩, ⟨w % 1024, Nat.mod_lt _ (by decide)⟩⟩

theorem FlowEntry.ofWord_eq {w : Nat} {e : FlowEntry} (hupper : w / 1024 = e.hash2)
    (hlower : w % 1024 = e.policyId) : ofWord w = e := by
  have hhash : w / 1024 % 64 = e.hash2 := by
    rw [hupper]
    exact Nat.mod_eq_of_lt e.hash2.isLt
  exact FlowEntry.ext (Fin.ext hhash) (Fin.ext hlower)

/-- Entry `n`, high byte first. -/
def entryWord (mem : Nat → UInt8) (addr n : Nat) : Nat :=
  256 * (mem (addr + 2 * n)).toNat + (mem (addr + 2 * n + 1)).toNat

/-- The map that the bytes at `addr` stand for. -/
def flowMap (mem : Nat → UInt8) (addr : Nat) : FlowMap := fun n => .ofWord (entryWord mem addr n)

/-! ## One call -/

section Call

variable {addr : Nat} {mem : Nat → UInt8} {c : TableCall}

theorem nacWriteFlowtable_refuses (h : ¬TableAccepts c) : nacWriteFlowtable addr c = ⟨-1, []⟩ := by
  unfold nacWriteFlowtable
  split_ifs with hpolicy hentry hhash
  · rfl
  · rfl
  · rfl
  · have hle : c.hash2.toNat ≤ 63 := UInt16.le_iff_toNat_le.1 (UInt16.not_lt.1 hhash)
    exact absurd ⟨not_le.1 hpolicy, not_le.1 hentry, hle⟩ h

/-- The hash and the policy side by side. -/
theorem packed_toNat (h : TableAccepts c) :
    (((c.hash2 &&& 0x3f) <<< 10) ||| c.policyId).toNat = 1024 * c.hash2.toNat + c.policyId.toNat := by
  have hhash := h.hash
  have hpolicy : c.policyId.toNat < 1024 := h.policy
  have hmask : (c.hash2 &&& 0x3f).toNat = c.hash2.toNat := by
    rw [UInt16.toNat_and]
    exact (Nat.and_two_pow_sub_one_eq_mod _ 6).trans (Nat.mod_eq_of_lt (by omega))
  have hshift : ((c.hash2 &&& 0x3f) <<< 10).toNat = c.hash2.toNat <<< 10 := by
    rw [UInt16.toNat_shiftLeft, hmask]
    refine Nat.mod_eq_of_lt ?_
    show c.hash2.toNat <<< 10 < 2 ^ 16
    rw [Nat.shiftLeft_eq]
    omega
  rw [UInt16.toNat_or, hshift, ← Nat.shiftLeft_add_eq_or_of_lt (i := 10) hpolicy, Nat.shiftLeft_eq,
    Nat.mul_comm]

theorem entry_offset (h : TableAccepts c) :
    (c.flowtableEntryNum * 2).toNat = 2 * c.flowtableEntryNum.toNat := by
  have hentry := h.entry
  unfold FLOWTABLE_MAX_NUM at hentry
  rw [UInt32.toNat_mul]
  show c.flowtableEntryNum.toNat * 2 % 2 ^ 32 = _
  omega

theorem byteAt_toNat (w : UInt16) : 256 * (byteAt w 1).toNat + (byteAt w 0).toNat = w.toNat := by
  have hback : leNat (wordBytes w) = w.toNat := leNat_leBytes w.toNat_lt
  have hbytes : leNat (wordBytes w) = (byteAt w 0).toNat + 256 * ((byteAt w 1).toNat + 256 * 0) := rfl
  omega

theorem nacWriteFlowtable_accepts (h : TableAccepts c) :
    nacWriteFlowtable addr c =
      ⟨0, [(addr + 2 * c.flowtableEntryNum.toNat,
          byteAt (((c.hash2 &&& 0x3f) <<< 10) ||| c.policyId) 1),
        (addr + 2 * c.flowtableEntryNum.toNat + 1,
          byteAt (((c.hash2 &&& 0x3f) <<< 10) ||| c.policyId) 0)]⟩ := by
  have hhash : ¬c.hash2 > 0x3f := UInt16.not_lt.2 (UInt16.le_iff_toNat_le.2 h.hash)
  rw [nacWriteFlowtable, if_neg (not_le.2 h.policy), if_neg (not_le.2 h.entry), if_neg hhash,
    entry_offset h]

/-- One call: an entry of the table is written, or nothing. -/
structure WritesEntry (addr : Nat) (mem : Nat → UInt8) (c : TableCall) : Prop where
  ret : (nacWriteFlowtable addr c).ret = if TableAccepts c then 0 else -1
  refused : ¬TableAccepts c → (nacWriteFlowtable addr c).bytes = []
  upper : TableAccepts c → entryWord (storeAll (nacWriteFlowtable addr c).bytes mem) addr
    c.flowtableEntryNum.toNat / 1024 = c.hash2.toNat
  lower : TableAccepts c → entryWord (storeAll (nacWriteFlowtable addr c).bytes mem) addr
    c.flowtableEntryNum.toNat % 1024 = c.policyId.toNat
  others : ∀ n, n < FLOWTABLE_MAX_NUM → n ≠ c.flowtableEntryNum.toNat →
    entryWord (storeAll (nacWriteFlowtable addr c).bytes mem) addr n = entryWord mem addr n
  inside : ∀ b ∈ (nacWriteFlowtable addr c).bytes, addr ≤ b.1 ∧ b.1 < addr + RFT_SIZE

theorem writesEntry (addr : Nat) (mem : Nat → UInt8) (c : TableCall) : WritesEntry addr mem c := by
  by_cases h : TableAccepts c
  · have hword : entryWord (storeAll (nacWriteFlowtable addr c).bytes mem) addr
        c.flowtableEntryNum.toNat = 1024 * c.hash2.toNat + c.policyId.toNat := by
      rw [← packed_toNat h, ← byteAt_toNat, nacWriteFlowtable_accepts h]
      simp [entryWord, storeAll]
    have hpolicy : c.policyId.toNat < 1024 := h.policy
    refine ⟨?_, fun hne => absurd h hne, fun _ => ?_, fun _ => ?_, fun n _ hne => ?_, ?_⟩
    · rw [if_pos h, nacWriteFlowtable_accepts h]
    · rw [hword]
      omega
    · rw [hword]
      omega
    · rw [nacWriteFlowtable_accepts h]
      have h1 : addr + 2 * n ≠ addr + 2 * c.flowtableEntryNum.toNat := by omega
      have h2 : addr + 2 * n ≠ addr + 2 * c.flowtableEntryNum.toNat + 1 := by omega
      have h3 : addr + 2 * n + 1 ≠ addr + 2 * c.flowtableEntryNum.toNat := by omega
      have h4 : addr + 2 * n + 1 ≠ addr + 2 * c.flowtableEntryNum.toNat + 1 := by omega
      simp only [entryWord, storeAll, List.foldl_cons, List.foldl_nil, Function.update_of_ne h1,
        Function.update_of_ne h2, Function.update_of_ne h3, Function.update_of_ne h4]
    · have hentry := h.entry
      rw [nacWriteFlowtable_accepts h]
      unfold FLOWTABLE_MAX_NUM at hentry
      unfold RFT_SIZE
      rintro b hb
      rcases List.mem_cons.1 hb with rfl | hb
      · dsimp only
        omega
      · rw [List.mem_singleton.1 hb]
        dsimp only
        omega
  · have hnone : nacWriteFlowtable addr c = ⟨-1, []⟩ := nacWriteFlowtable_refuses h
    refine ⟨?_, fun _ => ?_, fun hacc => absurd hacc h, fun hacc => absurd hacc h, fun n _ _ => ?_, ?_⟩
    · rw [hnone, if_neg h]
    · rw [hnone]
    · rw [hnone]
      rfl
    · rw [hnone]
      exact fun b hb => absurd hb (List.not_mem_nil)

/-- **One call is one update of the map.** -/
theorem flowMap_write (addr : Nat) (mem : Nat → UInt8) (c : TableCall) :
    flowMap (storeAll (nacWriteFlowtable addr c).bytes mem) addr = (flowMap mem addr).write c := by
  have hcall := writesEntry addr mem c
  funext n
  unfold FlowMap.write
  by_cases h : TableAccepts c
  · rw [dif_pos h]
    by_cases hn : (n : Nat) = c.flowtableEntryNum.toNat
    · obtain rfl : n = ⟨c.flowtableEntryNum.toNat, h.entry⟩ := Fin.ext hn
      rw [Function.update_self]
      exact FlowEntry.ofWord_eq (hcall.upper h) (hcall.lower h)
    · have hne : n ≠ ⟨c.flowtableEntryNum.toNat, h.entry⟩ := fun heq => hn (congrArg Fin.val heq)
      rw [Function.update_of_ne hne, flowMap, hcall.others n n.isLt hn, flowMap]
  · rw [dif_neg h, hcall.refused h]
    rfl

end Call

/-! ## All calls -/

/-- **The flow table is a map**, whatever the calls: each one that is accepted writes the entry it
names, the others write nothing, and no byte outside the table changes. -/
theorem writeAll_isMap (addr : Nat) (mem : Nat → UInt8) (calls : List TableCall) :
    (∀ before c after, calls = before ++ c :: after →
      WritesEntry addr (writeAll addr mem before) c) ∧
    flowMap (writeAll addr mem calls) addr = calls.foldl FlowMap.write (flowMap mem addr) ∧
    ∀ a, a < addr ∨ addr + RFT_SIZE ≤ a → writeAll addr mem calls a = mem a := by
  refine ⟨fun before c _ _ => writesEntry addr (writeAll addr mem before) c, ?_, ?_⟩
  · induction calls generalizing mem with
    | nil => rfl
    | cons c calls ih =>
        rw [writeAll, List.foldl_cons, List.foldl_cons, ← flowMap_write]
        exact ih _
  · intro a ha
    induction calls generalizing mem with
    | nil => rfl
    | cons c calls ih =>
        rw [writeAll, List.foldl_cons]
        refine (ih _).trans (storeAll_outside fun b hb => ?_)
        have hinside := (writesEntry addr mem c).inside b hb
        omega

end NacCard.Stream
