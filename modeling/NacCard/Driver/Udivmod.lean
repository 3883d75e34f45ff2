import NacCard.Driver.Divdi3
import NacCard.Driver.DuckIntr

/-!
# Quotient and remainder of 64 bits

* `shl_eq`, `shr_eq`, `shifted` — shifting a dividend of two words gives one of three.
* `udivmodWord_eq`, `udivmodWordNormalized_eq`, `udivmodPair_eq` — the branches of `udivmoddi4`.
* `udivmoddi4_eq` — quotient and remainder on every host, and no result where the divisor is 0.
* `divdi3_eq`, `moddi3_eq` — the signed ones are truncated towards 0; `division_eq` — all four.
* `divide_eq`, `divideInt_eq` — the divisions of the clock's interrupt are these.
-/

namespace NacCard.Driver

open NacCard.Base

variable {h : Host} {n d : UDItype} {k : Nat}

/-! ## Shifts -/

theorem shl_eq (x : USItype) (hk : k < 32) : shl x (BitVec.ofNat 32 k) = some (x <<< k) := by
  have hword : (BitVec.ofNat 32 k).toNat = k := word_toNat (by omega)
  have hlt : BitVec.ofNat 32 k < SI_TYPE_SIZE := by
    rw [BitVec.lt_def, hword]
    exact hk
  rw [shl, if_pos hlt, BitVec.shiftLeft_eq', hword]

theorem shr_eq (x : USItype) (hk : k < 32) : shr x (BitVec.ofNat 32 k) = some (x >>> k) := by
  have hword : (BitVec.ofNat 32 k).toNat = k := word_toNat (by omega)
  have hlt : BitVec.ofNat 32 k < SI_TYPE_SIZE := by
    rw [BitVec.lt_def, hword]
    exact hk
  rw [shr, if_pos hlt, BitVec.ushiftRight_eq', hword]

theorem size_sub (hk : k ≤ 32) : SI_TYPE_SIZE - BitVec.ofNat 32 k = BitVec.ofNat 32 (32 - k) := by
  apply BitVec.eq_of_toNat_eq
  have hsize : SI_TYPE_SIZE.toNat = 32 := rfl
  rw [BitVec.toNat_sub, hsize, word_toNat (by omega), word_toNat (by omega)]
  omega

theorem two_pow_split (hk : k ≤ 32) : 2 ^ (32 - k) * 2 ^ k = 2 ^ 32 := by
  rw [← pow_add, Nat.sub_add_cancel hk]

/-- What is shifted out, and what is left. -/
theorem shift_split (hk : k ≤ 32) (x : Nat) :
    x * 2 ^ k = x / 2 ^ (32 - k) * 2 ^ 32 + x * 2 ^ k % 2 ^ 32 := by
  have hdiv : x * 2 ^ k / 2 ^ 32 = x / 2 ^ (32 - k) := by
    rw [← two_pow_split hk, Nat.mul_div_mul_right _ _ (Nat.two_pow_pos k)]
  rw [← hdiv]
  exact (Nat.div_add_mod' _ _).symm

theorem shl_toNat (x : USItype) (k : Nat) : (x <<< k).toNat = x.toNat * 2 ^ k % 2 ^ 32 := by
  rw [BitVec.toNat_shiftLeft, Nat.shiftLeft_eq]

theorem shr_toNat (x : USItype) (k : Nat) : (x >>> k).toNat = x.toNat / 2 ^ k := by
  rw [BitVec.toNat_ushiftRight, Nat.shiftRight_eq_div_pow]

theorem shr_lt (x : USItype) (hk : k ≤ 32) : (x >>> (32 - k)).toNat < 2 ^ k := by
  rw [shr_toNat]
  apply Nat.div_lt_of_lt_mul
  rw [two_pow_split hk]
  exact x.isLt

/-- Nothing is shifted out. -/
theorem shr_eq_zero {x : USItype} (hk : k ≤ 32) (hx : x.toNat * 2 ^ k < 2 ^ 32) :
    (x >>> (32 - k)).toNat = 0 := by
  rw [shr_toNat]
  apply Nat.div_eq_of_lt
  apply Nat.lt_of_mul_lt_mul_right (a := 2 ^ k)
  rw [two_pow_split hk]
  exact hx

theorem shl_le (x : USItype) (hk : k ≤ 32) : (x <<< k).toNat ≤ 2 ^ 32 - 2 ^ k := by
  have hlt : x.toNat % 2 ^ (32 - k) < 2 ^ (32 - k) := Nat.mod_lt _ (Nat.two_pow_pos _)
  have hle : (x.toNat % 2 ^ (32 - k) + 1) * 2 ^ k ≤ 2 ^ (32 - k) * 2 ^ k :=
    Nat.mul_le_mul_right _ hlt
  rw [two_pow_split hk, Nat.add_mul] at hle
  rw [shl_toNat, ← two_pow_split hk, Nat.mul_mod_mul_right, two_pow_split hk]
  omega

theorem joined_toNat (hi lo : USItype) (hk : k ≤ 32) :
    (hi <<< k ||| lo >>> (32 - k)).toNat =
      hi.toNat * 2 ^ k % 2 ^ 32 + lo.toNat / 2 ^ (32 - k) := by
  have hlow := shr_lt lo hk
  have hhigh : hi.toNat * 2 ^ k % 2 ^ 32 = (hi.toNat % 2 ^ (32 - k)) <<< k := by
    rw [← two_pow_split hk, Nat.mul_mod_mul_right, Nat.shiftLeft_eq]
  rw [shr_toNat] at hlow
  rw [BitVec.toNat_or, shl_toNat, shr_toNat, hhigh, ← Nat.shiftLeft_add_eq_or_of_lt hlow]

/-- A dividend of two words, shifted, is one of three. -/
theorem shifted (n1 n0 : USItype) (hk : k ≤ 32) :
    ((n1 >>> (32 - k)).toNat * 2 ^ 32 + (n1 <<< k ||| n0 >>> (32 - k)).toNat) * 2 ^ 32 +
      (n0 <<< k).toNat = (pair n1 n0).toNat * 2 ^ k := by
  have h1 := shift_split hk n1.toNat
  have h0 := shift_split hk n0.toNat
  rw [joined_toNat n1 n0 hk, shr_toNat, shl_toNat, pair_toNat]
  calc (n1.toNat / 2 ^ (32 - k) * 2 ^ 32 +
          (n1.toNat * 2 ^ k % 2 ^ 32 + n0.toNat / 2 ^ (32 - k))) * 2 ^ 32 +
          n0.toNat * 2 ^ k % 2 ^ 32
      = (n1.toNat / 2 ^ (32 - k) * 2 ^ 32 + n1.toNat * 2 ^ k % 2 ^ 32) * 2 ^ 32 +
          (n0.toNat / 2 ^ (32 - k) * 2 ^ 32 + n0.toNat * 2 ^ k % 2 ^ 32) := by ring
    _ = n1.toNat * 2 ^ k * 2 ^ 32 + n0.toNat * 2 ^ k := by rw [← h1, ← h0]
    _ = (n1.toNat * 2 ^ 32 + n0.toNat) * 2 ^ k := by ring

/-- What shifting a divisor until its highest bit is set makes of it. -/
theorem normalized {x : USItype} (hx : x ≠ 0) :
    2 ^ 31 ≤ x.toNat * 2 ^ (31 - x.toNat.log2) ∧ x.toNat * 2 ^ (31 - x.toNat.log2) < 2 ^ 32 := by
  obtain ⟨hle, hlt, h31⟩ := log2_bounds hx
  have hpow : 2 ^ x.toNat.log2 * 2 ^ (31 - x.toNat.log2) = 2 ^ 31 := by
    rw [← pow_add, Nat.add_sub_cancel' h31]
  refine ⟨?_, ?_⟩
  · rw [← hpow]
    exact Nat.mul_le_mul_right _ hle
  · calc x.toNat * 2 ^ (31 - x.toNat.log2)
        < 2 ^ (x.toNat.log2 + 1) * 2 ^ (31 - x.toNat.log2) :=
          Nat.mul_lt_mul_of_pos_right hlt (Nat.two_pow_pos _)
      _ = 2 ^ x.toNat.log2 * 2 ^ (31 - x.toNat.log2) * 2 := by ring
      _ = 2 ^ 32 := by rw [hpow]; rfl

/-! ## Results -/

theorem quotRem_eq {q1 q0 r1 r0 : USItype}
    (hq : q1.toNat * 2 ^ 32 + q0.toNat = n.toNat / d.toNat)
    (hr : r1.toNat * 2 ^ 32 + r0.toNat = n.toNat % d.toNat) :
    (pair q1 q0, pair r1 r0) = (n / d, n % d) := by
  refine Prod.ext (BitVec.eq_of_toNat_eq ?_) (BitVec.eq_of_toNat_eq ?_)
  · rw [pair_toNat, hq, BitVec.toNat_udiv]
  · rw [pair_toNat, hr, BitVec.toNat_umod]

/-- The first word of a quotient. -/
theorem firstWord (h : Host) {n1 n0 d0 : USItype} (hn : h = .i386 ∨ 2 ^ 31 ≤ d0.toNat)
    (hlt : n1 < d0) :
    ∃ q1, udivQrnnd h n1 n0 d0 =
        some (q1, BitVec.ofNat 32 ((n1.toNat * 2 ^ 32 + n0.toNat) % d0.toNat)) ∧
      q1.toNat = (n1.toNat * 2 ^ 32 + n0.toNat) / d0.toNat := by
  refine ⟨_, ?_, word_toNat (append_div_lt (BitVec.lt_def.1 hlt) n0.isLt)⟩
  rw [udivQrnnd_eq h hn hlt, pair_toNat]

/-- The next word of a quotient, when `x` has been divided before. -/
theorem nextWord (h : Host) {d0 : USItype} (hn : h = .i386 ∨ 2 ^ 31 ≤ d0.toNat)
    (hpos : 0 < d0.toNat) (x : Nat) (n0 : USItype) :
    ∃ q0 r0, udivQrnnd h (BitVec.ofNat 32 (x % d0.toNat)) n0 d0 = some (q0, r0) ∧
      x / d0.toNat * 2 ^ 32 + q0.toNat = (x * 2 ^ 32 + n0.toNat) / d0.toNat ∧
      r0.toNat = (x * 2 ^ 32 + n0.toNat) % d0.toNat := by
  have hr := Nat.mod_lt x hpos
  have hr' := Nat.mod_lt (x % d0.toNat * 2 ^ 32 + n0.toNat) hpos
  have hword : (BitVec.ofNat 32 (x % d0.toNat)).toNat = x % d0.toNat :=
    word_toNat (hr.trans d0.isLt)
  refine ⟨_, _, udivQrnnd_eq h hn (BitVec.lt_def.2 (hword.trans_lt hr)), ?_, ?_⟩
  · rw [pair_toNat, hword, word_toNat (append_div_lt hr n0.isLt)]
    exact (append_div hpos).symm
  · rw [pair_toNat, hword, word_toNat (hr'.trans d0.isLt)]
    exact append_mod.symm

/-! ## A divisor of one word -/

theorem low_of_high (h : high d = 0) : (low d).toNat = d.toNat := by
  have hd := high_low d
  rw [h] at hd
  exact (Nat.zero_add _).symm.trans hd

theorem low_pos (hd : high d = 0) (hne : d ≠ 0) : 0 < (low d).toNat := by
  rw [low_of_high hd]
  exact Nat.pos_of_ne_zero fun h0 => hne (BitVec.eq_of_toNat_eq h0)

theorem low_ne_zero (hd : high d = 0) (hne : d ≠ 0) : low d ≠ 0 := by
  intro h
  have hpos := low_pos hd hne
  rw [h] at hpos
  exact absurd hpos (by decide)

theorem udivmodWord_eq (hd : high d = 0) (hne : d ≠ 0) :
    udivmodWord .i386 (high n) (low n) (low d) = some (n / d, n % d) := by
  have hpos := low_pos hd hne
  have hlow := low_of_high hd
  have hn := high_low n
  unfold udivmodWord
  rw [if_neg (low_ne_zero hd hne)]
  split_ifs with hlt
  · -- the higher word of the dividend is a remainder already
    have hdiv : (high n).toNat / (low d).toNat = 0 := Nat.div_eq_of_lt (BitVec.lt_def.1 hlt)
    have hrem : (high n).toNat % (low d).toNat = (high n).toNat :=
      Nat.mod_eq_of_lt (BitVec.lt_def.1 hlt)
    obtain ⟨q0, r0, heq, hq, hr⟩ := nextWord .i386 (.inl rfl) hpos (high n).toNat (low n)
    rw [hrem, BitVec.ofNat_toNat, BitVec.setWidth_eq] at heq
    rw [hdiv, hn, hlow] at hq
    rw [hn, hlow] at hr
    rw [heq]
    exact congrArg some (quotRem_eq hq (hr ▸ Nat.zero_add _))
  · have hzero : (0 : USItype).toNat * 2 ^ 32 + (high n).toNat = (high n).toNat := Nat.zero_add _
    obtain ⟨q1, hfirst, hq1⟩ :=
      @firstWord .i386 0 (high n) (low d) (.inl rfl) (BitVec.lt_def.2 hpos)
    obtain ⟨q0, r0, heq, hq, hr⟩ := nextWord .i386 (.inl rfl) hpos (high n).toNat (low n)
    rw [hzero] at hfirst hq1
    rw [hn, ← hq1, hlow] at hq
    rw [hn, hlow] at hr
    rw [hfirst]
    simp only [Option.bind_eq_bind, Option.bind_some, heq]
    exact congrArg some (quotRem_eq hq (hr ▸ Nat.zero_add _))

/-- Dividend and divisor are shifted by `k`: the quotient is that of the two, and the remainder is
shifted back. -/
theorem scaled_eq (h : Host) (hd : high d = 0) (hk : k < 32) {q1 n0 d0 : USItype}
    {x : Nat} (hd0 : d0.toNat = (low d).toNat * 2 ^ k) (hn : 2 ^ 31 ≤ d0.toNat)
    (hx : x * 2 ^ 32 + n0.toNat = n.toNat * 2 ^ k) (hq1 : q1.toNat = x / d0.toNat) :
    (do
      let (q0, n0) ← udivQrnnd h (BitVec.ofNat 32 (x % d0.toNat)) n0 d0
      let r0 ← shr n0 (BitVec.ofNat 32 k)
      some (pair q1 q0, pair 0 r0)) = some (n / d, n % d) := by
  have hlow := low_of_high hd
  have hpos : 0 < d0.toNat := Nat.lt_of_lt_of_le (by decide) hn
  obtain ⟨q0, r, heq, hq, hr⟩ := nextWord h (.inr hn) hpos x n0
  have hquot : q1.toNat * 2 ^ 32 + q0.toNat = n.toNat / d.toNat := by
    rw [hq1, hq, hx, hd0, Nat.mul_div_mul_right _ _ (Nat.two_pow_pos k), hlow]
  have hrem : (r >>> k).toNat = n.toNat % d.toNat := by
    rw [shr_toNat, hr, hx, hd0, Nat.mul_mod_mul_right, Nat.mul_div_cancel _ (Nat.two_pow_pos k),
      hlow]
  rw [heq]
  simp only [Option.bind_eq_bind, Option.bind_some, shr_eq r hk]
  exact congrArg some (quotRem_eq hquot (hrem ▸ Nat.zero_add _))

theorem udivmodWordNormalized_eq (h : Host) (hd : high d = 0) (hne : d ≠ 0) :
    udivmodWordNormalized h (high n) (low n) (low d) = some (n / d, n % d) := by
  have hlow := low_of_high hd
  have hlow0 := low_ne_zero hd hne
  have hn := high_low n
  obtain ⟨hge, hlt⟩ := normalized hlow0
  have hcount := countLeadingZeros_eq h hlow0
  obtain ⟨k, hk⟩ : ∃ k, k = 31 - (low d).toNat.log2 := ⟨_, rfl⟩
  rw [← hk] at hge hlt hcount
  have hk32 : k < 32 := by omega
  have hd0 : (low d <<< k).toNat = (low d).toNat * 2 ^ k := by
    rw [shl_toNat, Nat.mod_eq_of_lt hlt]
  unfold udivmodWordNormalized
  rw [if_neg hlow0, hcount]
  simp only [Option.bind_eq_bind, Option.bind_some]
  rcases Nat.eq_zero_or_pos k with h0 | hpos
  · -- nothing is shifted
    subst h0
    rw [Nat.pow_zero, Nat.mul_one] at hge
    have hx : (high n).toNat * 2 ^ 32 + (low n).toNat = n.toNat * 2 ^ 0 := by
      rw [hn, Nat.pow_zero, Nat.mul_one]
    have hb : ¬ BitVec.ofNat 32 0 ≠ 0 := not_not.2 rfl
    simp only [if_neg hb, if_pos (not_not.1 hb)]
    split_ifs with hcmp
    · have hq1 : (0 : USItype).toNat = (high n).toNat / (low d).toNat :=
        (Nat.div_eq_of_lt (BitVec.lt_def.1 hcmp)).symm
      have hfinal := scaled_eq h hd hk32 (Nat.mul_one _).symm hge hx hq1
      rwa [Nat.mod_eq_of_lt (BitVec.lt_def.1 hcmp), BitVec.ofNat_toNat, BitVec.setWidth_eq] at hfinal
    · have hle : (low d).toNat ≤ (high n).toNat := Nat.le_of_not_lt hcmp
      have hnw := (high n).isLt
      have hdiv : (high n).toNat / (low d).toNat = 1 :=
        Nat.div_eq_of_lt_le (by omega) (by omega)
      have hq1 : (1 : USItype).toNat = (high n).toNat / (low d).toNat := hdiv.symm
      have hfinal := scaled_eq h hd hk32 (Nat.mul_one _).symm hge hx hq1
      have hsub : BitVec.ofNat 32 ((high n).toNat % (low d).toNat) = high n - low d := by
        apply BitVec.eq_of_toNat_eq
        rw [BitVec.toNat_sub_of_le hle, Nat.mod_eq_sub_mod hle, Nat.mod_eq_of_lt (by omega),
          word_toNat (by omega)]
      rwa [hsub] at hfinal
  · have hb : BitVec.ofNat 32 k ≠ 0 := by
      intro h
      have hword : (BitVec.ofNat 32 k).toNat = k := word_toNat (by omega)
      rw [h] at hword
      exact hpos.ne hword
    have hk' : 32 - k < 32 := Nat.sub_lt (by decide) hpos
    have hshift := shifted (high n) (low n) hk32.le
    rw [pair_high_low] at hshift
    rw [← hd0] at hge
    simp only [if_pos hb, if_neg hb, size_sub hk32.le, shl_eq _ hk32, shr_eq _ hk',
      Option.bind_some]
    split_ifs with hcmp
    · -- nothing is shifted out of the dividend
      have hle : (high n).toNat * 2 ^ k ≤ (low d).toNat * 2 ^ k :=
        Nat.mul_le_mul_right _ (BitVec.lt_def.1 hcmp).le
      have hn1 := shr_eq_zero hk32.le (Nat.lt_of_le_of_lt hle hlt)
      rw [hn1, Nat.zero_mul, Nat.zero_add] at hshift
      have hlt1 : (high n <<< k ||| low n >>> (32 - k)).toNat < (low d <<< k).toNat := by
        have hsmall : n.toNat < (low d).toNat * 2 ^ 32 := by
          have hle : ((high n).toNat + 1) * 2 ^ 32 ≤ (low d).toNat * 2 ^ 32 :=
            Nat.mul_le_mul_right _ (BitVec.lt_def.1 hcmp)
          have hword := (low n).isLt
          omega
        apply Nat.lt_of_mul_lt_mul_right (a := 2 ^ 32)
        calc (high n <<< k ||| low n >>> (32 - k)).toNat * 2 ^ 32
            ≤ n.toNat * 2 ^ k := by
              rw [← hshift]
              exact Nat.le_add_right _ _
          _ < (low d).toNat * 2 ^ 32 * 2 ^ k :=
              Nat.mul_lt_mul_of_pos_right hsmall (Nat.two_pow_pos k)
          _ = (low d <<< k).toNat * 2 ^ 32 := by
              rw [hd0]
              ring
      have hq1 : (0 : USItype).toNat =
          (high n <<< k ||| low n >>> (32 - k)).toNat / (low d <<< k).toNat :=
        (Nat.div_eq_of_lt hlt1).symm
      have hfinal := scaled_eq h hd hk32 hd0 hge hshift hq1
      rwa [Nat.mod_eq_of_lt hlt1, BitVec.ofNat_toNat, BitVec.setWidth_eq] at hfinal
    · have hpow31 : 2 ^ k ≤ 2 ^ 31 := Nat.pow_le_pow_right (by decide) (by omega)
      have hlt2 : high n >>> (32 - k) < low d <<< k :=
        BitVec.lt_def.2 ((shr_lt _ hk32.le).trans_le (hpow31.trans hge))
      obtain ⟨q1, hfirst, hq1⟩ :=
        @firstWord h _ (high n <<< k ||| low n >>> (32 - k)) _ (.inr hge) hlt2
      rw [hfirst]
      exact scaled_eq h hd hk32 hd0 hge hshift hq1

/-! ## A divisor of two words -/

/-- A remainder is shifted back. -/
theorem unshifted (r1 r0 : USItype) (hk : k ≤ 32) :
    pair (r1 >>> k) (r1 <<< (32 - k) ||| r0 >>> k) = pair r1 r0 >>> k := by
  have hjoin := joined_toNat r1 r0 (Nat.sub_le 32 k)
  have hsplit := shift_split (Nat.sub_le 32 k) r1.toNat
  rw [Nat.sub_sub_self hk] at hjoin hsplit
  apply BitVec.eq_of_toNat_eq
  rw [BitVec.toNat_ushiftRight, Nat.shiftRight_eq_div_pow, pair_toNat, pair_toNat, shr_toNat,
    hjoin, ← Nat.add_assoc, ← hsplit, ← two_pow_split hk, ← Nat.mul_assoc, Nat.add_comm,
    Nat.add_comm (r1.toNat * _ * _), Nat.add_mul_div_right _ _ (Nat.two_pow_pos k)]

/-- Where the divisor is shifted by `k` the estimate is less than `2 ^ (k + 1)`, and its lower word
ends in `k` zeros: the estimate is too large by 1 at most. -/
theorem estimate_small {x d1 d0 : Nat} (hk : k ≤ 31) (hx : x < 2 ^ (32 + k)) (hn : 2 ^ 31 ≤ d1)
    (h0 : d0 ≤ 2 ^ 32 - 2 ^ k) : x / d1 * d0 ≤ 1 * (d1 * 2 ^ 32 + d0) := by
  have hpow : 2 ^ k ≤ 2 ^ 31 := Nat.pow_le_pow_right (by decide) hk
  have hq : x / d1 ≤ 2 * 2 ^ k := by
    apply Nat.div_le_of_le_mul
    calc x ≤ 2 ^ (32 + k) := hx.le
      _ = 2 ^ 31 * (2 * 2 ^ k) := by ring
      _ ≤ d1 * (2 * 2 ^ k) := Nat.mul_le_mul_right _ hn
  have hprod : 2 ^ k * (2 ^ 32 - 2 ^ k) ≤ 2 ^ 62 := by
    obtain ⟨y, hy⟩ := Nat.exists_eq_add_of_le hpow
    have hsub : 2 ^ 32 - 2 ^ k = 2 ^ k + 2 * y := by omega
    calc 2 ^ k * (2 ^ 32 - 2 ^ k) ≤ 2 ^ k * (2 ^ k + 2 * y) + y * y := by
          rw [hsub]
          exact Nat.le_add_right _ _
      _ = (2 ^ k + y) * (2 ^ k + y) := by ring
      _ = 2 ^ 62 := by rw [← hy]; norm_num
  calc x / d1 * d0 ≤ 2 * 2 ^ k * (2 ^ 32 - 2 ^ k) := Nat.mul_le_mul hq h0
    _ = 2 * (2 ^ k * (2 ^ 32 - 2 ^ k)) := by ring
    _ ≤ 2 * 2 ^ 62 := Nat.mul_le_mul_left 2 hprod
    _ = 2 ^ 31 * 2 ^ 32 := by ring
    _ ≤ d1 * 2 ^ 32 := Nat.mul_le_mul_right _ hn
    _ ≤ 1 * (d1 * 2 ^ 32 + d0) := by omega

theorem pair_lt_iff (a1 a0 b1 b0 : USItype) :
    pair a1 a0 < pair b1 b0 ↔ b1 > a1 ∨ (b1 = a1 ∧ b0 > a0) := by
  have ha := a0.isLt
  have hb := b0.isLt
  have heq : b1 = a1 ↔ b1.toNat = a1.toNat := ⟨congrArg _, BitVec.eq_of_toNat_eq⟩
  rw [BitVec.lt_def, pair_toNat, pair_toNat, heq, gt_iff_lt, gt_iff_lt, BitVec.lt_def,
    BitVec.lt_def]
  omega

theorem corrected_spec (h : Host) {q0 n1 n0 d1 d0 : USItype} {x : Nat} (hd : 0 < d1.toNat)
    (hq : q0.toNat = x / d1.toNat) (hr : n1.toNat = x % d1.toNat)
    (hsmall : x / d1.toNat * d0.toNat ≤ 1 * (d1.toNat * 2 ^ 32 + d0.toNat)) :
    (corrected h q0 n1 n0 d1 d0).1.toNat =
        (x * 2 ^ 32 + n0.toNat) / (d1.toNat * 2 ^ 32 + d0.toNat) ∧
      (pair (corrected h q0 n1 n0 d1 d0).2.1 (corrected h q0 n1 n0 d1 d0).2.2).toNat =
        (x * 2 ^ 32 + n0.toNat) % (d1.toNat * 2 ^ 32 + d0.toNat) := by
  have hm : (pair (umulPpmm h q0 d0).1 (umulPpmm h q0 d0).2).toNat = q0.toNat * d0.toNat := by
    have hlt := Nat.mul_lt_mul'' q0.isLt d0.isLt
    rw [umulPpmm_pair, BitVec.toNat_mul, BitVec.toNat_setWidth_of_le (by decide),
      BitVec.toNat_setWidth_of_le (by decide)]
    exact Nat.mod_eq_of_lt hlt
  obtain ⟨m1, hm1⟩ : ∃ m1, m1 = (umulPpmm h q0 d0).1 := ⟨_, rfl⟩
  obtain ⟨m0, hm0⟩ : ∃ m0, m0 = (umulPpmm h q0 d0).2 := ⟨_, rfl⟩
  rw [← hm1, ← hm0] at hm
  have hsettle :
      (corrected h q0 n1 n0 d1 d0).1 =
          (settleOnce (pair d1 d0) (pair n1 n0) (pair m1 m0) q0).1 ∧
        pair (corrected h q0 n1 n0 d1 d0).2.1 (corrected h q0 n1 n0 d1 d0).2.2 =
          (settleOnce (pair d1 d0) (pair n1 n0) (pair m1 m0) q0).2 := by
    simp only [corrected, settleOnce, pair_lt_iff, ← hm1, ← hm0]
    split_ifs
    · exact ⟨rfl, by rw [subDdmmss_pair, subDdmmss_pair]⟩
    · exact ⟨rfl, subDdmmss_pair n1 n0 m1 m0⟩
  have hn : x * 2 ^ 32 + n0.toNat + (pair m1 m0).toNat =
      q0.toNat * (pair d1 d0).toNat + (pair n1 n0).toNat := by
    rw [hm, pair_toNat, pair_toNat, hq, hr]
    calc x * 2 ^ 32 + n0.toNat + x / d1.toNat * d0.toNat
        = (d1.toNat * (x / d1.toNat) + x % d1.toNat) * 2 ^ 32 + n0.toNat +
            x / d1.toNat * d0.toNat := by rw [Nat.div_add_mod]
      _ = x / d1.toNat * (d1.toNat * 2 ^ 32 + d0.toNat) +
            (x % d1.toNat * 2 ^ 32 + n0.toNat) := by ring
  have hpos : 0 < (pair d1 d0).toNat := by
    rw [pair_toNat]
    omega
  have hspec := settleOnce_eq hpos hn
  rw [pair_toNat d1 d0, hq] at hspec
  rw [hsettle.1, hsettle.2]
  exact hspec (div_le_estimate hd n0.isLt) (estimate_le (by omega) hsmall)

theorem some_bind {α β : Type} {x : Option α} {a : α} {f : α → Option β} {r : Option β}
    (hx : x = some a) (hf : f a = r) : (x >>= f) = r := by
  rw [hx]
  exact hf

theorem udivmodPair_eq (h : Host) (hd : high d ≠ 0) (hle : high d ≤ high n) :
    udivmodPair h (high n) (low n) (high d) (low d) = some (n / d, n % d) := by
  have hcount := countLeadingZeros_eq h hd
  obtain ⟨hge, hlt⟩ := normalized hd
  obtain ⟨k, hk⟩ : ∃ k, k = 31 - (high d).toNat.log2 := ⟨_, rfl⟩
  rw [← hk] at hge hlt hcount
  have hk32 : k < 32 := by omega
  unfold udivmodPair
  refine some_bind hcount ?_
  rcases Nat.eq_zero_or_pos k with h0 | hpos
  · subst h0
    have hb : BitVec.ofNat 32 0 = 0 := rfl
    rw [if_pos hb]
    have hn := high_low n
    have hd' := high_low d
    have hnw := n.isLt
    have hcmp : high n > high d ∨ low n ≥ low d ↔ d.toNat ≤ n.toNat := by
      have hlown := (low n).isLt
      have hlowd := (low d).isLt
      rw [BitVec.le_def] at hle
      rw [gt_iff_lt, ge_iff_le, BitVec.lt_def, BitVec.le_def]
      omega
    split_ifs with hbig
    · have hdn := hcmp.1 hbig
      have hdiv : n.toNat / d.toNat = 1 := Nat.div_eq_of_lt_le (by omega) (by omega)
      have hsub := subDdmmss_pair (high n) (low n) (high d) (low d)
      rw [pair_high_low, pair_high_low] at hsub
      cases hs : subDdmmss (high n) (low n) (high d) (low d) with
      | mk s1 s0 =>
      rw [hs] at hsub
      dsimp only at hsub ⊢
      rw [hsub]
      refine congrArg some (Prod.ext (BitVec.eq_of_toNat_eq ?_) (BitVec.eq_of_toNat_eq ?_))
      · rw [pair_toNat, BitVec.toNat_udiv, hdiv]
        rfl
      · rw [BitVec.toNat_sub_of_le hdn, BitVec.toNat_umod, Nat.mod_eq_sub_mod hdn,
          Nat.mod_eq_of_lt (by omega)]
    · have hnd : n.toNat < d.toNat := Nat.lt_of_not_le (fun hle => hbig (hcmp.2 hle))
      rw [pair_high_low]
      refine congrArg some (Prod.ext (BitVec.eq_of_toNat_eq ?_) (BitVec.eq_of_toNat_eq ?_))
      · rw [BitVec.toNat_udiv, Nat.div_eq_of_lt hnd]
        rfl
      · rw [BitVec.toNat_umod, Nat.mod_eq_of_lt hnd]
  · have hb : BitVec.ofNat 32 k ≠ 0 := by
      intro h
      have hword : (BitVec.ofNat 32 k).toNat = k := word_toNat (by omega)
      rw [h] at hword
      exact hpos.ne hword
    have hk' : 32 - k < 32 := Nat.sub_lt (by decide) hpos
    rw [if_neg hb, size_sub hk32.le]
    refine some_bind (shl_eq _ hk32) ?_
    refine some_bind (shr_eq _ hk') ?_
    refine some_bind (shl_eq _ hk32) ?_
    refine some_bind (shr_eq _ hk') ?_
    refine some_bind (shl_eq _ hk32) ?_
    refine some_bind (shr_eq _ hk') ?_
    refine some_bind (shl_eq _ hk32) ?_
    have hpow31 : 2 ^ k ≤ 2 ^ 31 := Nat.pow_le_pow_right (by decide) (by omega)
    have hn := shifted (high n) (low n) hk32.le
    have hd' := shifted (high d) (low d) hk32.le
    rw [pair_high_low, shr_eq_zero hk32.le hlt, Nat.zero_mul, Nat.zero_add] at hd'
    rw [pair_high_low] at hn
    have hge' : 2 ^ 31 ≤ (high d <<< k ||| low d >>> (32 - k)).toNat := by
      rw [joined_toNat _ _ hk32.le, Nat.mod_eq_of_lt hlt]
      exact hge.trans (Nat.le_add_right _ _)
    have hshort := shr_lt (high n) hk32.le
    obtain ⟨q0, hfirst, hq⟩ :=
      @firstWord h _ (high n <<< k ||| low n >>> (32 - k)) _ (.inr hge')
        (BitVec.lt_def.2 (hshort.trans_le (hpow31.trans hge')))
    refine some_bind hfirst ?_
    obtain ⟨x, hx⟩ : ∃ x, x = (high n >>> (32 - k)).toNat * 2 ^ 32 +
        (high n <<< k ||| low n >>> (32 - k)).toNat := ⟨_, rfl⟩
    rw [← hx] at hn hq ⊢
    have hxlt : x < 2 ^ (32 + k) := by
      have hword := (high n <<< k ||| low n >>> (32 - k)).isLt
      have hle := Nat.mul_le_mul_right (2 ^ 32) (Nat.succ_le_of_lt hshort)
      rw [Nat.add_comm 32 k, pow_add, hx]
      omega
    have hpos1 : 0 < (high d <<< k ||| low d >>> (32 - k)).toNat :=
      Nat.lt_of_lt_of_le (by decide) hge'
    obtain ⟨hquot, hrem⟩ := @corrected_spec h _ _ (low n <<< k) _ _ _ hpos1 hq
      (word_toNat ((Nat.mod_lt x hpos1).trans (BitVec.isLt _)))
      (estimate_small (Nat.le_of_lt_succ hk32) hxlt hge' (shl_le (low d) hk32.le))
    rw [hn, hd'] at hquot hrem
    dsimp only
    obtain ⟨q, r1, r0, hc⟩ : ∃ q r1 r0, corrected h q0
        (BitVec.ofNat 32 (x % (high d <<< k ||| low d >>> (32 - k)).toNat)) (low n <<< k)
        (high d <<< k ||| low d >>> (32 - k)) (low d <<< k) = (q, r1, r0) := ⟨_, _, _, rfl⟩
    rw [hc] at hquot hrem ⊢
    refine some_bind (shl_eq _ hk') ?_
    refine some_bind (shr_eq _ hk32) ?_
    refine some_bind (shr_eq _ hk32) ?_
    refine congrArg some (Prod.ext (BitVec.eq_of_toNat_eq ?_) (BitVec.eq_of_toNat_eq ?_))
    · rw [pair_toNat, hquot, Nat.mul_div_mul_right _ _ (Nat.two_pow_pos k), BitVec.toNat_udiv]
      exact Nat.zero_add _
    · rw [unshifted _ _ hk32.le, BitVec.toNat_ushiftRight, Nat.shiftRight_eq_div_pow, hrem,
        Nat.mul_mod_mul_right, Nat.mul_div_cancel _ (Nat.two_pow_pos k), BitVec.toNat_umod]

/-! ## The division -/

theorem udivmodWord_zero (h : Host) (n1 n0 : USItype) : udivmodWord h n1 n0 0 = none := by
  have hn : ¬ (0 : USItype) > n1 := BitVec.not_lt_zero
  rw [udivmodWord, if_neg hn, if_pos rfl]

theorem udivmodWordNormalized_zero (h : Host) (n1 n0 : USItype) :
    udivmodWordNormalized h n1 n0 0 = none := by
  have hn : ¬ (0 : USItype) > n1 := BitVec.not_lt_zero
  rw [udivmodWordNormalized, if_neg hn, if_pos rfl]

/-- **Quotient and remainder** on every host: nothing traps but a divisor that is 0. -/
theorem udivmoddi4_eq (h : Host) (n d : UDItype) :
    udivmoddi4 h n d = if d = 0 then none else some (n / d, n % d) := by
  unfold udivmoddi4
  by_cases hd : d = 0
  · subst hd
    have hzero : high (0 : UDItype) = 0 := by decide
    have hlow : low (0 : UDItype) = 0 := by decide
    rw [if_pos rfl, if_pos hzero, hlow]
    cases h with
    | i386 => exact udivmodWord_zero _ _ _
    | powerpc => exact udivmodWordNormalized_zero _ _ _
    | s390 => exact udivmodWordNormalized_zero _ _ _
  · rw [if_neg hd]
    split_ifs with hhigh hlt
    · cases h with
      | i386 => exact udivmodWord_eq hhigh hd
      | powerpc => exact udivmodWordNormalized_eq _ hhigh hd
      | s390 => exact udivmodWordNormalized_eq _ hhigh hd
    · have hn := high_low n
      have hd' := high_low d
      have hnd : n.toNat < d.toNat := by
        have hlown := (low n).isLt
        have hless := BitVec.lt_def.1 hlt
        omega
      rw [pair_high_low]
      refine congrArg some (Prod.ext (BitVec.eq_of_toNat_eq ?_) (BitVec.eq_of_toNat_eq ?_))
      · rw [BitVec.toNat_udiv, Nat.div_eq_of_lt hnd]
        rfl
      · rw [BitVec.toNat_umod, Nat.mod_eq_of_lt hnd]
    · exact udivmodPair_eq h hhigh (BitVec.not_lt.1 hlt)

theorem udivdi3_eq (h : Host) (n d : UDItype) :
    udivdi3 h n d = if d = 0 then none else some (n / d) := by
  rw [udivdi3, udivmoddi4_eq]
  split_ifs <;> rfl

theorem umoddi3_eq (h : Host) (u v : UDItype) :
    umoddi3 h u v = if v = 0 then none else some (u % v) := by
  rw [umoddi3, udivmoddi4_eq]
  split_ifs <;> rfl

theorem negative_eq (u : UDItype) : negative u = u.msb := by
  have hu := u.isLt
  rw [negative, BitVec.msb_eq_decide, BitVec.msb_eq_decide, high_toNat, decide_eq_decide]
  omega

theorem neg_eq_zero_iff (v : UDItype) : -v = 0 ↔ v = 0 := neg_eq_zero

/-- **Signed division** is truncated towards 0, also where the quotient is not a word: the least
number divided by -1 is itself. -/
theorem divdi3_eq (h : Host) (u v : UDItype) :
    divdi3 h u v = if v = 0 then none else some (u.sdiv v) := by
  unfold divdi3
  rw [BitVec.sdiv_eq, negative_eq, negative_eq, negdi2_eq, negdi2_eq]
  cases hu : u.msb <;> cases hv : v.msb <;>
    simp only [Bool.false_eq_true, if_true, if_false, udivmoddi4_eq, neg_eq_zero_iff, Bool.not_true,
      Bool.not_false, negdi2_eq] <;>
    split_ifs <;> rfl

theorem moddi3_eq (h : Host) (u v : UDItype) :
    moddi3 h u v = if v = 0 then none else some (u.srem v) := by
  unfold moddi3
  rw [BitVec.srem_eq, negative_eq, negative_eq, negdi2_eq, negdi2_eq]
  cases hu : u.msb <;> cases hv : v.msb <;>
    simp only [Bool.false_eq_true, if_true, if_false, udivmoddi4_eq, neg_eq_zero_iff,
      negdi2_eq] <;>
    split_ifs <;> rfl

/-- **All divisions of 64 bits** are exact on every host. -/
theorem division_eq (h : Host) (u v : UDItype) :
    udivdi3 h u v = (if v = 0 then none else some (u / v)) ∧
      umoddi3 h u v = (if v = 0 then none else some (u % v)) ∧
      divdi3 h u v = (if v = 0 then none else some (u.sdiv v)) ∧
      moddi3 h u v = (if v = 0 then none else some (u.srem v)) :=
  ⟨udivdi3_eq h u v, umoddi3_eq h u v, divdi3_eq h u v, moddi3_eq h u v⟩

/-! ## What the clock divides -/

theorem ofNat_eq_zero_iff {b : Nat} (hb : b < 2 ^ 64) : BitVec.ofNat 64 b = 0 ↔ b = 0 := by
  have hword : (BitVec.ofNat 64 b).toNat = b := by rw [BitVec.toNat_ofNat, Nat.mod_eq_of_lt hb]
  refine ⟨fun h => ?_, fun h => by rw [h]; rfl⟩
  rw [← hword, h]
  rfl

theorem divide_eq (h : Host) {a b : Nat} (ha : a < 2 ^ 64) (hb : b < 2 ^ 64) :
    divide a b = (udivdi3 h (BitVec.ofNat 64 a) (BitVec.ofNat 64 b)).map BitVec.toNat := by
  rw [divide, udivdi3_eq]
  by_cases h0 : b = 0
  · rw [if_pos h0, if_pos ((ofNat_eq_zero_iff hb).2 h0)]
    rfl
  · rw [if_neg h0, if_neg (mt (ofNat_eq_zero_iff hb).1 h0), Option.map_some, BitVec.toNat_udiv,
      BitVec.toNat_ofNat, BitVec.toNat_ofNat, Nat.mod_eq_of_lt ha, Nat.mod_eq_of_lt hb]

theorem divideInt_eq (h : Host) {a : Int} {b : Nat} (hlow : -2 ^ 63 ≤ a) (hhigh : a < 2 ^ 63)
    (hb : b < 2 ^ 63) :
    divideInt a b = (divdi3 h (BitVec.ofInt 64 a) (BitVec.ofNat 64 b)).map BitVec.toInt := by
  have hbw : b < 2 ^ 64 := by omega
  rw [divideInt, divdi3_eq]
  by_cases h0 : b = 0
  · rw [if_pos h0, if_pos ((ofNat_eq_zero_iff hbw).2 h0)]
    rfl
  · have hbi : (BitVec.ofNat 64 b).toInt = b := by
      rw [BitVec.toInt_ofNat', Int.bmod_eq_of_le] <;> omega
    have hneg : BitVec.ofNat 64 b ≠ -1#64 := by
      intro heq
      rw [heq] at hbi
      have hminus : (-1#64 : BitVec 64).toInt = -1 := by decide
      omega
    rw [if_neg h0, if_neg (mt (ofNat_eq_zero_iff hbw).1 h0), Option.map_some,
      BitVec.toInt_sdiv_of_ne_or_ne _ _ (.inr hneg), hbi,
      BitVec.toInt_ofInt_eq_self (by decide) hlow hhigh]

end NacCard.Driver
