import Mathlib

/-!
# Division a digit at a time

The numbers have digits in the base `B`. A digit of a quotient is estimated from the leading digit
`d1` of the divisor `d1 * B + d0`, and the estimate is put right.

* `append_div`, `append_mod` — a digit is appended to the dividend: the remainder carries.
* `div_le_estimate`, `estimate_le` — the estimate is not too small, and how far it is too large;
  `estimate_le_two` — by 2 at most, where the divisor is at least half of what two digits hold.
* `settle` — putting it right in words of `w` bits, where adding the divisor may carry;
  `settle_eq` — quotient and remainder; `settleOnce`, `settleOnce_eq` — where once is enough.
-/

namespace NacCard.Base

/-! ## Digits -/

variable {B d x a : Nat}

theorem append_div (hd : 0 < d) : (x * B + a) / d = x / d * B + (x % d * B + a) / d := by
  have hsplit : x * B + a = x % d * B + a + d * (x / d * B) := by
    calc x * B + a = (d * (x / d) + x % d) * B + a := by rw [Nat.div_add_mod]
      _ = x % d * B + a + d * (x / d * B) := by ring
  rw [hsplit, Nat.add_mul_div_left _ _ hd, Nat.add_comm]

theorem append_mod : (x * B + a) % d = (x % d * B + a) % d := by
  simp [Nat.add_mod, Nat.mul_mod]

/-- A remainder with a digit appended leaves one digit of quotient. -/
theorem append_div_lt (hx : x < d) (ha : a < B) : (x * B + a) / d < B := by
  have hle : (x + 1) * B ≤ d * B := Nat.mul_le_mul_right B hx
  apply Nat.div_lt_of_lt_mul
  calc x * B + a < x * B + B := Nat.add_lt_add_left ha _
    _ = (x + 1) * B := by ring
    _ ≤ d * B := hle

/-! ## The estimate -/

variable {d1 d0 c : Nat}

theorem div_le_estimate (hd : 0 < d1) (ha : a < B) : (x * B + a) / (d1 * B + d0) ≤ x / d1 := by
  have hB : 0 < B := Nat.lt_of_le_of_lt (Nat.zero_le a) ha
  have hlead : (x * B + a) / B = x := by
    rw [Nat.mul_comm, Nat.mul_add_div hB, Nat.div_eq_of_lt ha, Nat.add_zero]
  calc (x * B + a) / (d1 * B + d0) ≤ (x * B + a) / (d1 * B) :=
        Nat.div_le_div_left (Nat.le_add_right _ _) (Nat.mul_pos hd hB)
    _ = (x * B + a) / B / d1 := by rw [Nat.div_div_eq_div_mul, Nat.mul_comm B d1]
    _ = x / d1 := by rw [hlead]

/-- The estimate is too large by no more than the multiples of the divisor that the lower digit
makes up. -/
theorem estimate_le (hd : 0 < d1 * B + d0) (h : x / d1 * d0 ≤ c * (d1 * B + d0)) :
    x / d1 ≤ (x * B + a) / (d1 * B + d0) + c := by
  rw [← Nat.add_mul_div_right _ _ hd, Nat.le_div_iff_mul_le hd]
  calc x / d1 * (d1 * B + d0) = x / d1 * d1 * B + x / d1 * d0 := by ring
    _ ≤ x * B + c * (d1 * B + d0) :=
        Nat.add_le_add (Nat.mul_le_mul_right B (Nat.div_mul_le_self x d1)) h
    _ ≤ x * B + a + c * (d1 * B + d0) := by omega

/-- The estimate is hardly more than a digit. -/
theorem estimate_le_succ (hn : B ≤ 2 * d1) (h0 : d0 < B) (hx : x < d1 * B + d0) :
    x / d1 ≤ B + 1 := by
  have hB : 0 < B := Nat.lt_of_le_of_lt (Nat.zero_le d0) h0
  apply Nat.lt_succ_iff.1
  apply Nat.div_lt_of_lt_mul
  calc x < d1 * B + B := by omega
    _ ≤ d1 * B + 2 * d1 := Nat.add_le_add_left hn _
    _ = d1 * (B + 1 + 1) := by ring

theorem estimate_le_two (hn : B ≤ 2 * d1) (h0 : d0 < B) (hx : x < d1 * B + d0) :
    x / d1 ≤ (x * B + a) / (d1 * B + d0) + 2 := by
  have hB : 0 < B := Nat.lt_of_le_of_lt (Nat.zero_le d0) h0
  have hd : 0 < d1 * B + d0 := Nat.lt_of_le_of_lt (Nat.zero_le x) hx
  apply estimate_le hd
  calc x / d1 * d0 ≤ (B + 1) * d0 := Nat.mul_le_mul_right d0 (estimate_le_succ hn h0 hx)
    _ = B * d0 + d0 := by ring
    _ ≤ B * B + 2 * d0 := by
        have hlow : B * d0 ≤ B * B := Nat.mul_le_mul_left B h0.le
        omega
    _ ≤ 2 * d1 * B + 2 * d0 := Nat.add_le_add_right (Nat.mul_le_mul_right B hn) _
    _ = 2 * (d1 * B + d0) := by ring

/-! ## Putting it right -/

variable {w : Nat}

/-- `q` is estimated, and `x - m` is what remains of the dividend; `d` is added until this is not
negative, at most twice. If the first sum is less than `d` it has carried, and is large enough. -/
def settle (d q x m : BitVec w) : BitVec w × BitVec w :=
  if x < m then
    if d ≤ x + d ∧ x + d < m then (q - 1 - 1, x + d + d - m) else (q - 1, x + d - m)
  else (q, x - m)

/-- A difference of words, also where what it is taken from has carried. -/
theorem toNat_sub_of_add {y m : BitVec w} {r : Nat} (hr : r < 2 ^ w)
    (h : y.toNat = r + m.toNat ∨ y.toNat + 2 ^ w = r + m.toNat) : (y - m).toNat = r := by
  have hm := m.isLt
  rw [BitVec.toNat_sub]
  rcases h with h | h
  · have hsum : 2 ^ w - m.toNat + y.toNat = r + 2 ^ w := by omega
    rw [hsum, Nat.add_mod_right, Nat.mod_eq_of_lt hr]
  · have hsum : 2 ^ w - m.toNat + y.toNat = r := by omega
    rw [hsum, Nat.mod_eq_of_lt hr]

theorem toNat_add_cases (x d : BitVec w) :
    (x + d).toNat = x.toNat + d.toNat ∨ (x + d).toNat + 2 ^ w = x.toNat + d.toNat := by
  have hx := x.isLt
  have hd := d.isLt
  rw [BitVec.toNat_add]
  rcases Nat.lt_or_ge (x.toNat + d.toNat) (2 ^ w) with hlt | hge
  · exact .inl (Nat.mod_eq_of_lt hlt)
  · refine .inr ?_
    rw [Nat.mod_eq_sub_mod hge, Nat.mod_eq_of_lt (by omega)]
    omega

theorem toNat_pred {q : BitVec w} {k : Nat} (h : q.toNat = k + 1) : (q - 1).toNat = k := by
  have hq := q.isLt
  have hone : (1 : BitVec w).toNat = 1 := by
    simp only [BitVec.ofNat_eq_ofNat, BitVec.toNat_ofNat]
    exact Nat.mod_eq_of_lt (by omega)
  exact toNat_sub_of_add (by omega) (.inl (by rw [h, hone]))

/-- What the estimate is too large by is what the difference is too small by. -/
theorem rest_eq {n d q x m j : Nat} (hn : n + m = q * d + x) (hj : q = n / d + j) :
    n % d + m = j * d + x := by
  have hsplit := Nat.div_add_mod n d
  have hprod : q * d = d * (n / d) + j * d := by
    rw [hj]
    ring
  omega

/-- **Quotient and remainder** come of an estimate that is too large by 2 at most. -/
theorem settle_eq {n : Nat} {d q x m : BitVec w} (hd : 0 < d.toNat)
    (hn : n + m.toNat = q.toNat * d.toNat + x.toNat)
    (hle : n / d.toNat ≤ q.toNat) (hq : q.toNat ≤ n / d.toNat + 2) :
    settle d q x m = (BitVec.ofNat w (n / d.toNat), BitVec.ofNat w (n % d.toNat)) := by
  obtain ⟨j, hj⟩ := Nat.exists_eq_add_of_le hle
  have hr := Nat.mod_lt n hd
  have hrw : n % d.toNat < 2 ^ w := hr.trans d.isLt
  have hm := m.isLt
  have hrest := rest_eq hn hj
  have hword (p : BitVec w) (hp : p.toNat = n / d.toNat) : p = BitVec.ofNat w (n / d.toNat) := by
    rw [← hp, BitVec.ofNat_toNat, BitVec.setWidth_eq]
  have hrem (p : BitVec w) (hp : p.toNat = n % d.toNat) : p = BitVec.ofNat w (n % d.toNat) := by
    rw [← hp, BitVec.ofNat_toNat, BitVec.setWidth_eq]
  have hcarry := toNat_add_cases x d
  have hj2 : j ≤ 2 := by omega
  unfold settle
  interval_cases j
  · -- the estimate is the quotient
    have hge : ¬ x < m := by rw [BitVec.lt_def]; omega
    rw [if_neg hge, ← hword q hj, ← hrem (x - m) (toNat_sub_of_add hrw (by omega))]
  · have hlt : x < m := by rw [BitVec.lt_def]; omega
    have honce : ¬ (d ≤ x + d ∧ x + d < m) := by rw [BitVec.le_def, BitVec.lt_def]; omega
    have hquot := hword (q - 1) (toNat_pred hj)
    rw [if_pos hlt, if_neg honce, hquot, ← hrem (x + d - m) (toNat_sub_of_add hrw (by omega))]
  · have hlt : x < m := by rw [BitVec.lt_def]; omega
    have htwice : d ≤ x + d ∧ x + d < m := by rw [BitVec.le_def, BitVec.lt_def]; omega
    have hsum := toNat_add_cases (x + d) d
    have hquot := hword (q - 1 - 1) (toNat_pred (toNat_pred hj))
    rw [if_pos hlt, if_pos htwice, hquot,
      ← hrem (x + d + d - m) (toNat_sub_of_add hrw (by omega))]

variable {v : Nat}

/-- The same where the estimate is too large by 1 at most, and is a word of its own size. -/
def settleOnce (d x m : BitVec w) (q : BitVec v) : BitVec v × BitVec w :=
  if x < m then (q - 1, x - (m - d)) else (q, x - m)

theorem settleOnce_eq {n : Nat} {d x m : BitVec w} {q : BitVec v} (hd : 0 < d.toNat)
    (hn : n + m.toNat = q.toNat * d.toNat + x.toNat)
    (hle : n / d.toNat ≤ q.toNat) (hq : q.toNat ≤ n / d.toNat + 1) :
    (settleOnce d x m q).1.toNat = n / d.toNat ∧
      (settleOnce d x m q).2.toNat = n % d.toNat := by
  obtain ⟨j, hj⟩ := Nat.exists_eq_add_of_le hle
  have hr := Nat.mod_lt n hd
  have hrw : n % d.toNat < 2 ^ w := hr.trans d.isLt
  have hrest := rest_eq hn hj
  have hj1 : j ≤ 1 := by omega
  unfold settleOnce
  interval_cases j
  · have hge : ¬ x < m := by rw [BitVec.lt_def]; omega
    rw [if_neg hge]
    exact ⟨hj, toNat_sub_of_add hrw (by omega)⟩
  · have hlt : x < m := by rw [BitVec.lt_def]; omega
    have hcarry := toNat_add_cases x d
    have hm := m.isLt
    rw [if_pos hlt, sub_sub_eq_add_sub]
    exact ⟨toNat_pred hj, toNat_sub_of_add hrw (by omega)⟩

end NacCard.Base
