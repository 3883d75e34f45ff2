import NacCard.Base.Division

/-!
# Division of 64 bits on hosts of 32

The kernel has no 64-bit division on a 32-bit host, so the driver brings its own: `udivmoddi4`
divides words by the algorithm of schoolbooks, with what each processor has for it.

* `countLeadingZeros`, `udivQrnnd`, `umulPpmm`, `subDdmmss` — what a host brings along: a divide
  instruction or `udivQrnndC`, two half-words at a time.
* `udivmoddi4` — the quotient and the remainder; `divdi3`, `moddi3`, `udivdi3`, `umoddi3`.
* `countLeadingZeros_eq`, `udivQrnnd_eq`, `umulPpmm_pair` — they are the same on every host.

There is no result where a processor traps, a shift is as long as the word or a table is left.
-/

namespace NacCard.Driver

open NacCard.Base

/-- `USItype`, also `SItype`: 32 bits. -/
abbrev USItype := BitVec 32
/-- Also `DItype`: the bits are the same. -/
abbrev UDItype := BitVec 64

/-- The three sets of macros, one for each processor. -/
inductive Host
  | i386
  | powerpc
  | s390
  deriving Repr, DecidableEq

/-- `SI_TYPE_SIZE`, the width of a word. -/
def SI_TYPE_SIZE : USItype := 32

/-- `DIunion`: `s.low` -/
def low (ll : UDItype) : USItype := ll.setWidth 32

/-- `DIunion`: `s.high` -/
def high (ll : UDItype) : USItype := (ll >>> 32).setWidth 32

/-- `DIunion`: `ll` -/
def pair (high low : USItype) : UDItype := high ++ low

/-- `x << bm`; a shift by the whole width is undefined. -/
def shl (x bm : USItype) : Option USItype := if bm < SI_TYPE_SIZE then some (x <<< bm) else none

/-- `x >> bm`, under the same condition. -/
def shr (x bm : USItype) : Option USItype := if bm < SI_TYPE_SIZE then some (x >>> bm) else none

/-! ## What a host brings along -/

/-- `sub_ddmmss`: the difference of two pairs of words, with the borrow. -/
def subDdmmss (ah al bh bl : USItype) : USItype × USItype :=
  (ah - bh - (if al < bl then 1 else 0), al - bl)

/-- `umul_ppmm`: the product of two words, as a pair. -/
def umulPpmm (h : Host) (u v : USItype) : USItype × USItype :=
  match h with
  | .i386 | .powerpc => (high (u.setWidth 64 * v.setWidth 64), u * v)
  | .s390 =>
    -- the product is signed: what a negative factor takes from the high word is added
    let r : UDItype := u.signExtend 64 * v.signExtend 64
    let r0 := if u.msb then high r + v else high r
    (if v.msb then r0 + u else r0, low r)

/-- `__clz_tab`: how many bits there are in a byte. -/
def clzTab : List Nat :=
  [0, 1] ++ List.replicate 2 2 ++ List.replicate 4 3 ++ List.replicate 8 4 ++
    List.replicate 16 5 ++ List.replicate 32 6 ++ List.replicate 64 7 ++ List.replicate 128 8

/-- Where the highest byte starts that is not 0. -/
def clzByte (xr : USItype) : Nat :=
  if xr < 1 <<< (16 : Nat) then (if xr < 1 <<< (8 : Nat) then 0 else 8)
  else (if xr < 1 <<< (24 : Nat) then 16 else 24)

/-- The position of the highest bit; there is none in 0. -/
def bsrl (x : USItype) : Option USItype :=
  if x = 0 then none else some (BitVec.ofNat 32 x.toNat.log2)

/-- `count_leading_zeros`; on i386 it is undefined for 0. -/
def countLeadingZeros (h : Host) (x : USItype) : Option USItype :=
  match h with
  | .i386 => do
    let cbtmp ← bsrl x
    some (cbtmp ^^^ 31)
  | .powerpc => some x.clz
  | .s390 => do
    let a := clzByte x
    let bits ← clzTab[(x >>> a).toNat]?
    some (SI_TYPE_SIZE - BitVec.ofNat 32 (bits + a))

/-- `divl`: there is a trap where the quotient is not a word. -/
def divl (n1 n0 d : USItype) : Option (USItype × USItype) :=
  if n1 < d then
    some (low (pair n1 n0 / d.setWidth 64), low (pair n1 n0 % d.setWidth 64))
  else none

/-- `__ll_B`: the values of half a word. -/
def llB : USItype := 1 <<< (16 : Nat)
/-- `__ll_lowpart`, the low half of a word. -/
def llLowpart (t : USItype) : USItype := t % llB
/-- `__ll_highpart`, the high half of a word. -/
def llHighpart (t : USItype) : USItype := t / llB

/-- Half a word of the quotient, and what remains. -/
def qrnndHalf (n d d1 d0 a : USItype) : USItype × USItype :=
  let r := n % d1
  let q := n / d1
  let m := q * d0
  let r := r * llB ||| a
  let (q, r) :=
    if r < m then
      let (q, r) := (q - 1, r + d)
      -- otherwise there was a carry
      if r ≥ d ∧ r < m then (q - 1, r + d) else (q, r)
    else (q, r)
  (q, r - m)

/-- `__udiv_qrnnd_c`, which divides by the higher half of `d`. -/
def udivQrnndC (n1 n0 d : USItype) : Option (USItype × USItype) :=
  let d1 := llHighpart d
  let d0 := llLowpart d
  if d1 = 0 then none
  else
    let (q1, r1) := qrnndHalf n1 d d1 d0 (llHighpart n0)
    let (q0, r0) := qrnndHalf r1 d d1 d0 (llLowpart n0)
    some (q1 * llB ||| q0, r0)

/-- `udiv_qrnnd`: an instruction on i386, `__udiv_qrnnd_c` elsewhere. -/
def udivQrnnd (h : Host) (n1 n0 d : USItype) : Option (USItype × USItype) :=
  match h with
  | .i386 => divl n1 n0 d
  | .powerpc | .s390 => udivQrnndC n1 n0 d

/-! ## The division -/

/-- `d1 == 0`, where `udiv_qrnnd` takes any divisor. -/
def udivmodWord (h : Host) (n1 n0 d0 : USItype) : Option (UDItype × UDItype) :=
  if d0 > n1 then do
    let (q0, n0) ← udivQrnnd h n1 n0 d0
    some (pair 0 q0, pair 0 n0)
  else if d0 = 0 then none
  else do
    let (q1, n1) ← udivQrnnd h 0 n1 d0
    let (q0, n0) ← udivQrnnd h n1 n0 d0
    some (pair q1 q0, pair 0 n0)

/-- `d1 == 0` with `UDIV_NEEDS_NORMALIZATION` -/
def udivmodWordNormalized (h : Host) (n1 n0 d0 : USItype) : Option (UDItype × UDItype) :=
  if d0 > n1 then do
    let bm ← countLeadingZeros h d0
    let (d0, n1, n0) ←
      if bm ≠ 0 then do
        let d0 ← shl d0 bm
        let hi ← shl n1 bm
        let lo ← shr n0 (SI_TYPE_SIZE - bm)
        let n0 ← shl n0 bm
        some (d0, hi ||| lo, n0)
      else some (d0, n1, n0)
    let (q0, n0) ← udivQrnnd h n1 n0 d0
    let r0 ← shr n0 bm
    some (pair 0 q0, pair 0 r0)
  else if d0 = 0 then none
  else do
    let bm ← countLeadingZeros h d0
    let (q1, n1, n0, d0) ←
      if bm = 0 then some (1, n1 - d0, n0, d0)
      else do
        let b := SI_TYPE_SIZE - bm
        let d0 ← shl d0 bm
        let n2 ← shr n1 b
        let hi ← shl n1 bm
        let lo ← shr n0 b
        let n0 ← shl n0 bm
        let (q1, n1) ← udivQrnnd h n2 (hi ||| lo) d0
        some (q1, n1, n0, d0)
    let (q0, n0) ← udivQrnnd h n1 n0 d0
    let r0 ← shr n0 bm
    some (pair q1 q0, pair 0 r0)

/-- The quotient for the higher word of the divisor is put right, and what remains. -/
def corrected (h : Host) (q0 n1 n0 d1 d0 : USItype) : USItype × USItype × USItype :=
  let (m1, m0) := umulPpmm h q0 d0
  let (q0, m1, m0) :=
    if m1 > n1 ∨ (m1 = n1 ∧ m0 > n0) then (q0 - 1, subDdmmss m1 m0 d1 d0) else (q0, m1, m0)
  let (n1, n0) := subDdmmss n1 n0 m1 m0
  (q0, n1, n0)

/-- `d1 != 0` and `d1 <= n1` -/
def udivmodPair (h : Host) (n1 n0 d1 d0 : USItype) : Option (UDItype × UDItype) := do
  let bm ← countLeadingZeros h d1
  if bm = 0 then
    if n1 > d1 ∨ n0 ≥ d0 then
      let (n1, n0) := subDdmmss n1 n0 d1 d0
      some (pair 0 1, pair n1 n0)
    else some (pair 0 0, pair n1 n0)
  else
    let b := SI_TYPE_SIZE - bm
    let d1hi ← shl d1 bm
    let d1lo ← shr d0 b
    let d0 ← shl d0 bm
    let n2 ← shr n1 b
    let n1hi ← shl n1 bm
    let n1lo ← shr n0 b
    let n0 ← shl n0 bm
    let (q0, n1) ← udivQrnnd h n2 (n1hi ||| n1lo) (d1hi ||| d1lo)
    let (q0, n1, n0) := corrected h q0 n1 n0 (d1hi ||| d1lo) d0
    let rhi ← shl n1 b
    let rlo ← shr n0 bm
    let r1 ← shr n1 bm
    some (pair 0 q0, pair r1 (rhi ||| rlo))

/-- `__udivmoddi4`: the quotient and `*rp`. -/
def udivmoddi4 (h : Host) (n d : UDItype) : Option (UDItype × UDItype) :=
  if high d = 0 then
    match h with
    | .i386 => udivmodWord h (high n) (low n) (low d)
    | .powerpc | .s390 => udivmodWordNormalized h (high n) (low n) (low d)
  else if high d > high n then some (pair 0 0, pair (high n) (low n))
  else udivmodPair h (high n) (low n) (high d) (low d)

/-- `__udivdi3`, the unsigned quotient. -/
def udivdi3 (h : Host) (n d : UDItype) : Option UDItype := do
  let (w, _) ← udivmoddi4 h n d
  some w

/-- `__umoddi3`, the unsigned remainder. -/
def umoddi3 (h : Host) (u v : UDItype) : Option UDItype := do
  let (_, w) ← udivmoddi4 h u v
  some w

/-- `__negdi2`: the negative of a pair of words. -/
def negdi2 (u : UDItype) : UDItype :=
  let wlow := -low u
  pair (-high u - (if wlow > 0 then 1 else 0)) wlow

/-- `uu.s.high < 0` -/
def negative (u : UDItype) : Bool := (high u).msb

/-- `__divdi3`: the quotient of the absolute values, with the sign of the two. -/
def divdi3 (h : Host) (u v : UDItype) : Option UDItype := do
  let (c, uu) := if negative u then (true, negdi2 u) else (false, u)
  let (c, vv) := if negative v then (!c, negdi2 v) else (c, v)
  let (w, _) ← udivmoddi4 h uu vv
  some (if c then negdi2 w else w)

/-- `__moddi3`: the remainder has the sign of the dividend. -/
def moddi3 (h : Host) (u v : UDItype) : Option UDItype := do
  let (c, uu) := if negative u then (true, negdi2 u) else (false, u)
  let vv := if negative v then negdi2 v else v
  let (_, w) ← udivmoddi4 h uu vv
  some (if c then negdi2 w else w)

/-! ## Words -/

theorem word_toNat {a : Nat} (ha : a < 2 ^ 32) : (BitVec.ofNat 32 a).toNat = a := by
  rw [BitVec.toNat_ofNat, Nat.mod_eq_of_lt ha]

@[simp] theorem low_toNat (ll : UDItype) : (low ll).toNat = ll.toNat % 2 ^ 32 := by
  simp [low]

@[simp] theorem high_toNat (ll : UDItype) : (high ll).toNat = ll.toNat / 2 ^ 32 := by
  have hll := ll.isLt
  simp only [high, BitVec.toNat_setWidth, BitVec.toNat_ushiftRight, Nat.shiftRight_eq_div_pow]
  omega

@[simp] theorem pair_toNat (hi lo : USItype) : (pair hi lo).toNat = hi.toNat * 2 ^ 32 + lo.toNat := by
  rw [pair, BitVec.toNat_append, ← Nat.shiftLeft_add_eq_or_of_lt lo.isLt, Nat.shiftLeft_eq]

theorem high_low (ll : UDItype) : (high ll).toNat * 2 ^ 32 + (low ll).toNat = ll.toNat := by
  rw [high_toNat, low_toNat]
  exact Nat.div_add_mod' ll.toNat (2 ^ 32)

@[simp] theorem pair_high_low (ll : UDItype) : pair (high ll) (low ll) = ll :=
  BitVec.eq_of_toNat_eq (by rw [pair_toNat, high_low])

/-- Half-words that do not overlap. -/
theorem or_half {x y : USItype} (hx : x.toNat < 2 ^ 16) (hy : y.toNat < 2 ^ 16) :
    (x * llB ||| y).toNat = x.toNat * 2 ^ 16 + y.toNat := by
  have hprod : (x * llB).toNat = x.toNat <<< 16 := by
    have hB : llB.toNat = 2 ^ 16 := by decide
    rw [BitVec.toNat_mul, Nat.shiftLeft_eq, hB]
    exact Nat.mod_eq_of_lt (by omega)
  rw [BitVec.toNat_or, hprod, ← Nat.shiftLeft_add_eq_or_of_lt hy, Nat.shiftLeft_eq]

theorem or_ofNat {a b : Nat} (ha : a < 2 ^ 16) (hb : b < 2 ^ 16) :
    BitVec.ofNat 32 a * llB ||| BitVec.ofNat 32 b = BitVec.ofNat 32 (a * 2 ^ 16 + b) := by
  have hwa : (BitVec.ofNat 32 a).toNat = a := word_toNat (by omega)
  have hwb : (BitVec.ofNat 32 b).toNat = b := word_toNat (by omega)
  apply BitVec.eq_of_toNat_eq
  rw [or_half (by rwa [hwa]) (by rwa [hwb]), hwa, hwb, word_toNat (by omega)]

theorem negdi2_eq (u : UDItype) : negdi2 u = -u := by
  apply BitVec.eq_of_toNat_eq
  have hu := u.isLt
  simp only [negdi2, pair_toNat]
  split_ifs with hlow <;> simp [BitVec.lt_def] at hlow ⊢ <;> omega

theorem subDdmmss_pair (ah al bh bl : USItype) :
    pair (subDdmmss ah al bh bl).1 (subDdmmss ah al bh bl).2 = pair ah al - pair bh bl := by
  apply BitVec.eq_of_toNat_eq
  have ha := al.isLt
  have hb := bl.isLt
  have hah := ah.isLt
  have hbh := bh.isLt
  simp only [subDdmmss, pair_toNat, BitVec.toNat_sub]
  split_ifs with hlt <;> rw [BitVec.lt_def] at hlt <;> simp <;> omega

theorem pair_zero_toNat (v : USItype) : (pair v 0).toNat = v.toNat * 2 ^ 32 := by
  rw [pair_toNat]
  exact Nat.add_zero _

theorem pair_add (hi lo v : USItype) : pair (hi + v) lo = pair hi lo + pair v 0 := by
  apply BitVec.eq_of_toNat_eq
  have hlo := lo.isLt
  rw [pair_toNat, BitVec.toNat_add, BitVec.toNat_add, pair_toNat, pair_zero_toNat]
  omega

theorem pair_zero (v : USItype) : pair v 0 = v.setWidth 64 * pair 1 0 := by
  apply BitVec.eq_of_toNat_eq
  have hv := v.isLt
  have hone : (1 : USItype).toNat = 1 := rfl
  rw [BitVec.toNat_mul, pair_zero_toNat, pair_zero_toNat, BitVec.toNat_setWidth, hone]
  omega

theorem signExtend_eq (u : USItype) :
    u.signExtend 64 = u.setWidth 64 - (if u.msb then pair 1 0 else 0) := by
  apply BitVec.eq_of_toNat_eq
  have hu := u.isLt
  have hone : (1 : USItype).toNat = 1 := rfl
  have hzero : (0 : UDItype).toNat = 0 := rfl
  rw [BitVec.toNat_signExtend, BitVec.toNat_sub, BitVec.toNat_setWidth]
  split_ifs
  · rw [pair_zero_toNat, hone]
    omega
  · rw [hzero]
    omega

/-- The two words are the product, on every host. -/
theorem umulPpmm_pair (h : Host) (u v : USItype) :
    pair (umulPpmm h u v).1 (umulPpmm h u v).2 = u.setWidth 64 * v.setWidth 64 := by
  have hlow : u * v = low (u.setWidth 64 * v.setWidth 64) := by
    rw [low, BitVec.setWidth_mul _ _ (by decide), BitVec.setWidth_setWidth_of_le _ (by decide),
      BitVec.setWidth_setWidth_of_le _ (by decide), BitVec.setWidth_eq, BitVec.setWidth_eq]
  cases h with
  | i386 => rw [umulPpmm, hlow, pair_high_low]
  | powerpc => rw [umulPpmm, hlow, pair_high_low]
  | s390 =>
    have hsq : pair 1 0 * pair 1 0 = 0 := by decide
    have hu := signExtend_eq u
    have hv := signExtend_eq v
    simp only [umulPpmm]
    cases hmu : u.msb <;> cases hmv : v.msb <;>
      simp only [hmu, hmv, if_true, Bool.false_eq_true, if_false, sub_zero] at hu hv ⊢
    · rw [pair_high_low, hu, hv]
    · rw [pair_add, pair_high_low, hu, hv, pair_zero u]
      ring
    · rw [pair_add, pair_high_low, hu, hv, pair_zero v]
      ring
    · rw [pair_add, pair_add, pair_high_low, hu, hv, pair_zero u, pair_zero v]
      linear_combination hsq

/-! ## Leading zeros -/

theorem log2_bounds {x : USItype} (hx : x ≠ 0) :
    2 ^ x.toNat.log2 ≤ x.toNat ∧ x.toNat < 2 ^ (x.toNat.log2 + 1) ∧ x.toNat.log2 ≤ 31 := by
  have hne : x.toNat ≠ 0 := by
    intro h
    exact hx (BitVec.eq_of_toNat_eq h)
  exact ⟨Nat.log2_self_le hne, Nat.lt_log2_self, Nat.le_of_lt_succ ((Nat.log2_lt hne).2 x.isLt)⟩

theorem clzTab_get : ∀ i : Nat, i < 256 → i ≠ 0 → clzTab[i]? = some (i.log2 + 1) := by
  decide +kernel

theorem clzByte_spec (x : USItype) :
    clzByte x ≤ 24 ∧ x.toNat / 2 ^ clzByte x < 256 ∧ (x ≠ 0 → 2 ^ clzByte x ≤ x.toNat) := by
  have hx := x.isLt
  have h8 : (1 <<< (8 : Nat) : USItype).toNat = 2 ^ 8 := by decide
  have h16 : (1 <<< (16 : Nat) : USItype).toNat = 2 ^ 16 := by decide
  have h24 : (1 <<< (24 : Nat) : USItype).toNat = 2 ^ 24 := by decide
  have hpos : x ≠ 0 → 0 < x.toNat := by
    intro h
    exact Nat.pos_of_ne_zero fun h0 => h (BitVec.eq_of_toNat_eq h0)
  unfold clzByte
  simp only [BitVec.lt_def, h8, h16, h24]
  split_ifs <;> refine ⟨by decide, by omega, ?_⟩ <;> intro h <;> have := hpos h <;> omega

theorem countLeadingZeros_eq (h : Host) {x : USItype} (hx : x ≠ 0) :
    countLeadingZeros h x = some (BitVec.ofNat 32 (31 - x.toNat.log2)) := by
  obtain ⟨hle, hlt, h31⟩ := log2_bounds hx
  cases h with
  | i386 =>
    have hflip : ∀ k ≤ 31, BitVec.ofNat 32 k ^^^ 31 = BitVec.ofNat 32 (31 - k) := by decide
    rw [countLeadingZeros, bsrl, if_neg hx]
    exact congrArg some (hflip _ h31)
  | powerpc =>
    have hge := BitVec.two_pow_sub_clz_le_toNat_of_ne_zero (by decide) hx
    have hlt' := BitVec.toNat_lt_two_pow_sub_clz (x := x)
    have hclz : x.clz.toNat < 32 := BitVec.lt_def.1 (BitVec.clz_lt_iff_ne_zero.2 hx)
    have hlog : x.toNat.log2 = 31 - x.clz.toNat := by
      have hne : x.toNat ≠ 0 := fun h => hx (BitVec.eq_of_toNat_eq h)
      have hsucc : 31 - x.clz.toNat + 1 = 32 - x.clz.toNat := by omega
      rw [Nat.log2_eq_iff hne, hsucc]
      exact ⟨hge, hlt'⟩
    have hback : 31 - x.toNat.log2 = x.clz.toNat := by omega
    rw [countLeadingZeros, hback, BitVec.ofNat_toNat, BitVec.setWidth_eq]
  | s390 =>
    obtain ⟨-, hbyte, hpos⟩ := clzByte_spec x
    have hshift : (x >>> clzByte x).toNat = x.toNat / 2 ^ clzByte x := by
      rw [BitVec.toNat_ushiftRight, Nat.shiftRight_eq_div_pow]
    have hne : x.toNat / 2 ^ clzByte x ≠ 0 := (Nat.div_pos (hpos hx) (Nat.two_pow_pos _)).ne'
    have hdiv : x.toNat.log2 = (x.toNat / 2 ^ clzByte x).log2 + clzByte x := by
      have hx0 : x.toNat ≠ 0 := fun h => hx (BitVec.eq_of_toNat_eq h)
      rw [Nat.log2_eq_iff hx0]
      refine ⟨?_, ?_⟩
      · rw [pow_add, ← Nat.le_div_iff_mul_le (Nat.two_pow_pos _)]
        exact Nat.log2_self_le hne
      · rw [Nat.add_right_comm, pow_add, ← Nat.div_lt_iff_lt_mul (Nat.two_pow_pos _)]
        exact Nat.lt_log2_self
    have hcount : ∀ k ≤ 31, SI_TYPE_SIZE - BitVec.ofNat 32 (k + 1) = BitVec.ofNat 32 (31 - k) := by
      decide
    simp only [countLeadingZeros]
    rw [hshift, clzTab_get _ hbyte hne, ← hcount _ h31, hdiv, Nat.add_right_comm]
    rfl

/-! ## Two half-words -/

theorem qrnndHalf_settle (n d d1 d0 a : USItype) :
    qrnndHalf n d d1 d0 a = settle d (n / d1) (n % d1 * llB ||| a) (n / d1 * d0) := by
  simp only [qrnndHalf, settle, ge_iff_le]
  split_ifs <;> rfl

theorem llHighpart_toNat (t : USItype) : (llHighpart t).toNat = t.toNat / 2 ^ 16 := by
  have hB : llB.toNat = 2 ^ 16 := by decide
  rw [llHighpart, BitVec.toNat_udiv, hB]

theorem llLowpart_toNat (t : USItype) : (llLowpart t).toNat = t.toNat % 2 ^ 16 := by
  have hB : llB.toNat = 2 ^ 16 := by decide
  rw [llLowpart, BitVec.toNat_umod, hB]

theorem qrnndHalf_eq {n d a : USItype} (hn : 2 ^ 31 ≤ d.toNat) (hlt : n < d) (ha : a.toNat < 2 ^ 16) :
    qrnndHalf n d (llHighpart d) (llLowpart d) a =
      (BitVec.ofNat 32 ((n.toNat * 2 ^ 16 + a.toNat) / d.toNat),
        BitVec.ofNat 32 ((n.toNat * 2 ^ 16 + a.toNat) % d.toNat)) := by
  have hsplit : (llHighpart d).toNat * 2 ^ 16 + (llLowpart d).toNat = d.toNat := by
    rw [llHighpart_toNat, llLowpart_toNat]
    exact Nat.div_add_mod' d.toNat (2 ^ 16)
  have h0 : (llLowpart d).toNat < 2 ^ 16 := by
    rw [llLowpart_toNat]
    exact Nat.mod_lt _ (by decide)
  generalize llHighpart d = d1 at hsplit ⊢
  generalize llLowpart d = d0 at hsplit h0 ⊢
  have hnorm : 2 ^ 16 ≤ 2 * d1.toNat := by omega
  have hlt' : n.toNat < d1.toNat * 2 ^ 16 + d0.toNat := by
    rw [hsplit]
    exact hlt
  have hq := estimate_le_succ hnorm h0 hlt'
  have hm : (n / d1 * d0).toNat = n.toNat / d1.toNat * d0.toNat := by
    have hprod : n.toNat / d1.toNat * d0.toNat ≤ (2 ^ 16 + 1) * (2 ^ 16 - 1) :=
      Nat.mul_le_mul hq (by omega)
    rw [BitVec.toNat_mul, BitVec.toNat_udiv]
    exact Nat.mod_eq_of_lt (Nat.lt_of_le_of_lt hprod (by decide))
  have hrem : n.toNat % d1.toNat < d1.toNat := Nat.mod_lt _ (by omega)
  have hd1 : d1.toNat < 2 ^ 16 := by
    have hd := d.isLt
    omega
  have hx : (n % d1 * llB ||| a).toNat = n.toNat % d1.toNat * 2 ^ 16 + a.toNat := by
    rw [or_half (by rw [BitVec.toNat_umod]; omega) ha, BitVec.toNat_umod]
  rw [qrnndHalf_settle]
  apply settle_eq (by omega)
  · rw [hm, hx, BitVec.toNat_udiv, ← hsplit]
    calc n.toNat * 2 ^ 16 + a.toNat + n.toNat / d1.toNat * d0.toNat
        = (d1.toNat * (n.toNat / d1.toNat) + n.toNat % d1.toNat) * 2 ^ 16 + a.toNat +
            n.toNat / d1.toNat * d0.toNat := by rw [Nat.div_add_mod]
      _ = n.toNat / d1.toNat * (d1.toNat * 2 ^ 16 + d0.toNat) +
            (n.toNat % d1.toNat * 2 ^ 16 + a.toNat) := by ring
  · rw [BitVec.toNat_udiv, ← hsplit]
    exact div_le_estimate (by omega) ha
  · rw [BitVec.toNat_udiv, ← hsplit]
    exact estimate_le_two hnorm h0 hlt'

theorem udivQrnndC_of_half {n1 n0 d q1 r1 q0 r0 : USItype} (hd1 : llHighpart d ≠ 0)
    (h1 : qrnndHalf n1 d (llHighpart d) (llLowpart d) (llHighpart n0) = (q1, r1))
    (h0 : qrnndHalf r1 d (llHighpart d) (llLowpart d) (llLowpart n0) = (q0, r0)) :
    udivQrnndC n1 n0 d = some (q1 * llB ||| q0, r0) := by
  simp only [udivQrnndC, if_neg hd1, h1, h0]

theorem udivQrnndC_eq {n1 n0 d : USItype} (hn : 2 ^ 31 ≤ d.toNat) (hlt : n1 < d) :
    udivQrnndC n1 n0 d =
      some (BitVec.ofNat 32 ((pair n1 n0).toNat / d.toNat),
        BitVec.ofNat 32 ((pair n1 n0).toNat % d.toNat)) := by
  have hd := d.isLt
  have hd0 : 0 < d.toNat := Nat.lt_of_lt_of_le (by decide) hn
  have hd1 : llHighpart d ≠ 0 := by
    intro h
    have hzero : d.toNat / 2 ^ 16 = 0 := by
      rw [← llHighpart_toNat, h]
      rfl
    omega
  have ha : (llHighpart n0).toNat < 2 ^ 16 := by
    have hn0 := n0.isLt
    rw [llHighpart_toNat]
    omega
  have hb : (llLowpart n0).toNat < 2 ^ 16 := by
    rw [llLowpart_toNat]
    exact Nat.mod_lt _ (by decide)
  have hn0 : (llHighpart n0).toNat * 2 ^ 16 + (llLowpart n0).toNat = n0.toNat := by
    rw [llHighpart_toNat, llLowpart_toNat]
    exact Nat.div_add_mod' n0.toNat (2 ^ 16)
  have htop : (pair n1 n0).toNat =
      (n1.toNat * 2 ^ 16 + (llHighpart n0).toNat) * 2 ^ 16 + (llLowpart n0).toNat := by
    rw [pair_toNat, ← hn0]
    ring
  have hhalf := qrnndHalf_eq hn hlt ha
  have hq1 := append_div_lt (BitVec.lt_def.1 hlt) ha
  -- what is divided is the higher half of the dividend, then what remains with the lower half
  obtain ⟨x, hx⟩ : ∃ x, x = n1.toNat * 2 ^ 16 + (llHighpart n0).toNat := ⟨_, rfl⟩
  rw [← hx] at htop hhalf hq1
  have hr := Nat.mod_lt x hd0
  have hr1 : (BitVec.ofNat 32 (x % d.toNat)).toNat = x % d.toNat :=
    word_toNat (hr.trans hd)
  have hrest := qrnndHalf_eq hn (BitVec.lt_def.2 (hr1.trans_lt hr)) hb
  rw [hr1] at hrest
  rw [udivQrnndC_of_half hd1 hhalf hrest]
  have hquot : (pair n1 n0).toNat / d.toNat =
      x / d.toNat * 2 ^ 16 + (x % d.toNat * 2 ^ 16 + (llLowpart n0).toNat) / d.toNat := by
    rw [htop, append_div hd0]
  have hrem : (pair n1 n0).toNat % d.toNat =
      (x % d.toNat * 2 ^ 16 + (llLowpart n0).toNat) % d.toNat := by
    rw [htop, append_mod]
  rw [or_ofNat hq1 (append_div_lt hr hb), hquot, hrem]

theorem divl_eq {n1 n0 d : USItype} (hlt : n1 < d) :
    divl n1 n0 d =
      some (BitVec.ofNat 32 ((pair n1 n0).toNat / d.toNat),
        BitVec.ofNat 32 ((pair n1 n0).toNat % d.toNat)) := by
  have hd := d.isLt
  have hwide : (d.setWidth 64).toNat = d.toNat := by
    rw [BitVec.toNat_setWidth]
    omega
  have hquot : low (pair n1 n0 / d.setWidth 64) =
      BitVec.ofNat 32 ((pair n1 n0).toNat / d.toNat) := by
    apply BitVec.eq_of_toNat_eq
    rw [low_toNat, BitVec.toNat_udiv, hwide, BitVec.toNat_ofNat]
  have hrem : low (pair n1 n0 % d.setWidth 64) =
      BitVec.ofNat 32 ((pair n1 n0).toNat % d.toNat) := by
    apply BitVec.eq_of_toNat_eq
    rw [low_toNat, BitVec.toNat_umod, hwide, BitVec.toNat_ofNat]
  rw [divl, if_pos hlt, hquot, hrem]

theorem udivQrnnd_eq (h : Host) {n1 n0 d : USItype} (hn : h = .i386 ∨ 2 ^ 31 ≤ d.toNat)
    (hlt : n1 < d) :
    udivQrnnd h n1 n0 d =
      some (BitVec.ofNat 32 ((pair n1 n0).toNat / d.toNat),
        BitVec.ofNat 32 ((pair n1 n0).toNat % d.toNat)) := by
  cases h with
  | i386 => exact divl_eq hlt
  | powerpc => exact udivQrnndC_eq (hn.resolve_left (by decide)) hlt
  | s390 => exact udivQrnndC_eq (hn.resolve_left (by decide)) hlt

end NacCard.Driver
