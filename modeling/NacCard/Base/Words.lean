import Mathlib

/-!
# Machine words

The integer conversions a C program performs without saying so.  A value is an
`Int` (or a `Nat` once it is known to be unsigned) and every place where the C
code stores a result in a narrower type is a call of one of the functions
below:

* `u32`, `i32`, `u64`, `i64` — keep the low bits of a result, read as unsigned
  or as two's complement;
* `u32_of_lt`, `i32_of_mem` and their companions — a result that fits is kept
  unchanged, which is how a wrapping computation is turned back into an
  ordinary one;
* `alignDown` — clearing the low bits of an address with a mask, and
  `land_not127` — the mask the C code spells out.
-/

namespace NacCard.Base

/-- An integer stored in a `uint32_t`. -/
def u32 (x : Int) : Nat := (x % 4294967296).toNat

/-- An integer stored in an `int32_t` (two's complement). -/
def i32 (x : Int) : Int :=
  if x % 4294967296 < 2147483648 then x % 4294967296 else x % 4294967296 - 4294967296

/-- An integer stored in a 64-bit unsigned type. -/
def u64 (x : Int) : Nat := (x % 18446744073709551616).toNat

/-- An integer stored in a 64-bit signed type (two's complement). -/
def i64 (x : Int) : Int :=
  if x % 18446744073709551616 < 9223372036854775808 then x % 18446744073709551616
  else x % 18446744073709551616 - 18446744073709551616

/-! ## Values that fit are kept -/

theorem u32_lt (x : Int) : u32 x < 4294967296 := by
  unfold u32
  omega

theorem u32_of_lt {x : Int} (h0 : 0 ≤ x) (h : x < 4294967296) : (u32 x : Int) = x := by
  unfold u32
  omega

/-- A negative value becomes a larger one. -/
theorem le_u32 {x : Int} (h : x < 4294967296) : x ≤ u32 x := by
  unfold u32
  omega

/-- A value that is not negative only gets smaller. -/
theorem u32_le {x : Int} (h : 0 ≤ x) : (u32 x : Int) ≤ x := by
  unfold u32
  omega

theorem u32_natCast_le (n : Nat) : u32 n ≤ n := Int.ofNat_le.1 (u32_le (Int.natCast_nonneg n))

@[simp] theorem u32_natCast {n : Nat} (h : n < 4294967296) : u32 n = n := by
  unfold u32
  omega

theorem i32_of_mem {x : Int} (h0 : -2147483648 ≤ x) (h : x < 2147483648) : i32 x = x := by
  unfold i32
  split <;> omega

theorem i32_le {x : Int} (h : -2147483648 ≤ x) : i32 x ≤ x := by
  unfold i32
  split <;> omega

theorem le_i32 (x : Int) : -2147483648 ≤ i32 x := by
  unfold i32
  split <;> omega

theorem i32_lt (x : Int) : i32 x < 2147483648 := by
  unfold i32
  split <;> omega

theorem u64_lt (x : Int) : u64 x < 18446744073709551616 := by
  unfold u64
  omega

theorem u64_of_lt {x : Int} (h0 : 0 ≤ x) (h : x < 18446744073709551616) : (u64 x : Int) = x := by
  unfold u64
  omega

theorem i64_of_mem {x : Int} (h0 : -9223372036854775808 ≤ x) (h : x < 9223372036854775808) :
    i64 x = x := by
  unfold i64
  split <;> omega

theorem i64_mem (x : Int) : -9223372036854775808 ≤ i64 x ∧ i64 x < 9223372036854775808 := by
  unfold i64
  split <;> omega

/-- Keeping the low 32 bits twice, with an exact sum in between, keeps them once. -/
theorem u32_add_u32 (a b : Int) : u32 (u32 a + b) = u32 (a + b) := by
  unfold u32
  omega

theorem u32_add_of_lt {a b : Nat} (h : a + b < 4294967296) : u32 ((a : Int) + b) = a + b := by
  rw [← Nat.cast_add, u32_natCast h]

/-- The distance of two words is the distance of what they are taken from. -/
theorem i32_sub_u32 (a b : Int) : i32 ((u32 a : Int) - u32 b) = i32 (a - b) := by
  have hlow (x : Int) : (u32 x : Int) = x % 4294967296 :=
    Int.toNat_of_nonneg (Int.emod_nonneg x (by decide))
  unfold i32
  rw [hlow, hlow, ← Int.sub_emod]

/-- Truncating a summand to a signed word first makes no difference. -/
theorem u32_add_i32 (a b : Int) : u32 (a + i32 b) = u32 (a + b) := by
  unfold u32 i32
  split <;> omega

theorem u32_add_i32_add (a b c : Int) : u32 (a + i32 b + c) = u32 (a + b + c) := by
  unfold u32 i32
  split <;> omega

/-- Subtracting a base that was added modulo `2 ^ 32` recovers a 32-bit offset. -/
theorem u32_add_sub_cancel {base off : Nat} (h : off < 4294967296) :
    u32 ((u32 (base + off) : Int) - base) = off := by
  unfold u32
  omega

/-! ## Clearing low bits -/

/-- `x` rounded down to a multiple of `k`. -/
def alignDown (k x : Nat) : Nat := x / k * k

theorem alignDown_le (k x : Nat) : alignDown k x ≤ x := Nat.div_mul_le_self x k

theorem lt_alignDown_add {k : Nat} (hk : 0 < k) (x : Nat) : x < alignDown k x + k := by
  have h := Nat.div_add_mod x k
  have h2 := Nat.mod_lt x hk
  unfold alignDown
  rw [Nat.mul_comm]
  omega

theorem alignDown_mono (k : Nat) {x y : Nat} (h : x ≤ y) : alignDown k x ≤ alignDown k y :=
  Nat.mul_le_mul_right k (Nat.div_le_div_right h)

theorem alignDown_add {k x y : Nat} (hk : 0 < k) (h : k ∣ x) :
    alignDown k (x + y) = x + alignDown k y := by
  obtain ⟨m, rfl⟩ := h
  rw [alignDown, alignDown, Nat.mul_add_div hk, Nat.add_mul, Nat.mul_comm m k]

/-- Masking a 64-bit value with `0xffffffffffffff80` rounds it down to a multiple of 128. -/
theorem land_not127 {x : Nat} (h : x < 18446744073709551616) :
    x &&& 0xffffffffffffff80 = alignDown 128 x := by
  have h1 : alignDown 128 x = (x >>> 7) <<< 7 := by
    rw [alignDown, Nat.shiftRight_eq_div_pow, Nat.shiftLeft_eq]
  have hmask : (0xffffffffffffff80 : Nat) = (2 ^ 57 - 1) <<< 7 := by decide
  rw [h1, hmask]
  apply Nat.eq_of_testBit_eq
  intro i
  rw [Nat.testBit_and, Nat.testBit_shiftLeft, Nat.testBit_shiftLeft,
    Nat.testBit_two_pow_sub_one, Nat.testBit_shiftRight]
  by_cases h7 : 7 ≤ i
  · by_cases h64 : i < 64
    · have h57 : i - 7 < 57 := by omega
      simp [h7, h57]
    · -- above bit 63 both sides are zero: the mask ends there and so does `x`
      have hx : x.testBit i = false :=
        Nat.testBit_lt_two_pow
          (lt_of_lt_of_le h (Nat.pow_le_pow_right (by norm_num : 0 < 2) (by omega : 64 ≤ i)))
      have hi : 7 + (i - 7) = i := by omega
      simp [hx, hi]
  · simp [h7]

end NacCard.Base
