import Mathlib

/-!
# Numbers in bytes, low byte first

* `leNat`, `leBytes` — a number from its bytes and back; `leBytes_leNat`, `leNat_leBytes`.
* `words` — bytes taken two at a time; `words_append`, and `words_flatMap` for the bytes of
  words that were written one after the other; `flatMap_words` — no byte is lost.
-/

namespace NacCard.Base

/-! ## Numbers -/

/-- The number that the bytes stand for, lowest byte first. -/
def leNat (bytes : List UInt8) : Nat := bytes.foldr (fun b n => b.toNat + 256 * n) 0

/-- The `k` lowest bytes of a number, lowest first. -/
def leBytes : Nat → Nat → List UInt8
  | 0, _ => []
  | k + 1, n => UInt8.ofNat (n % 256) :: leBytes k (n / 256)

theorem leNat_cons (b : UInt8) (bytes : List UInt8) :
    leNat (b :: bytes) = b.toNat + 256 * leNat bytes := rfl

theorem length_leBytes (k n : Nat) : (leBytes k n).length = k := by
  induction k generalizing n with
  | zero => rfl
  | succ k ih => simp [leBytes, ih]

theorem leNat_lt (bytes : List UInt8) : leNat bytes < 256 ^ bytes.length := by
  induction bytes with
  | nil => simp [leNat]
  | cons b bytes ih =>
      have hb := b.toNat_lt
      rw [leNat_cons, List.length_cons, Nat.pow_succ]
      omega

theorem leBytes_leNat (bytes : List UInt8) : leBytes bytes.length (leNat bytes) = bytes := by
  induction bytes with
  | nil => rfl
  | cons b bytes ih =>
      have hb := b.toNat_lt
      have hlow : (b.toNat + 256 * leNat bytes) % 256 = b.toNat := by omega
      have hhigh : (b.toNat + 256 * leNat bytes) / 256 = leNat bytes := by omega
      rw [List.length_cons, leBytes, leNat_cons, hlow, hhigh, ih, UInt8.ofNat_toNat]

theorem leNat_leBytes {k n : Nat} (h : n < 256 ^ k) : leNat (leBytes k n) = n := by
  induction k generalizing n with
  | zero =>
      rw [Nat.pow_zero, Nat.lt_one_iff] at h
      exact h.symm
  | succ k ih =>
      have hhigh : n / 256 < 256 ^ k := by
        rw [Nat.pow_succ] at h
        omega
      rw [leBytes, leNat_cons, ih hhigh, UInt8.toNat_ofNat', Nat.mod_mod]
      exact Nat.mod_add_div n 256

/-! ## 16-bit words -/

/-- The words of a file of even length. -/
def words : List UInt8 → List UInt16
  | a :: b :: rest => UInt16.ofNat (leNat [a, b]) :: words rest
  | _ => []

/-- The two bytes of a 16-bit word, as a little-endian host stores them. -/
def wordBytes (w : UInt16) : List UInt8 := leBytes 2 w.toNat

theorem words_wordBytes (w : UInt16) (rest : List UInt8) :
    words (wordBytes w ++ rest) = w :: words rest := by
  have hback : leNat (wordBytes w) = w.toNat := leNat_leBytes w.toNat_lt
  show UInt16.ofNat (leNat (wordBytes w)) :: words rest = _
  rw [hback, UInt16.ofNat_toNat]

theorem words_flatMap (ws : List UInt16) (rest : List UInt8) :
    words (ws.flatMap wordBytes ++ rest) = ws ++ words rest := by
  induction ws with
  | nil => rfl
  | cons w ws ih => rw [List.flatMap_cons, List.append_assoc, words_wordBytes, ih, List.cons_append]

theorem length_flatMap_wordBytes (ws : List UInt16) :
    (ws.flatMap wordBytes).length = 2 * ws.length := by
  induction ws with
  | nil => rfl
  | cons w ws ih =>
      rw [List.flatMap_cons, List.length_append, ih, wordBytes, length_leBytes, List.length_cons]
      omega

theorem length_words (bytes : List UInt8) : (words bytes).length = bytes.length / 2 := by
  induction bytes using words.induct with
  | case1 a b rest ih =>
      rw [words, List.length_cons, ih, List.length_cons, List.length_cons]
      omega
  | case2 bytes hshort =>
      rcases bytes with _ | ⟨a, _ | ⟨b, rest⟩⟩
      · rfl
      · simp [words]
      · exact (hshort a b rest rfl).elim

theorem flatMap_words {bytes : List UInt8} (h : bytes.length % 2 = 0) :
    (words bytes).flatMap wordBytes = bytes := by
  induction bytes using words.induct with
  | case1 a b rest ih =>
      rw [List.length_cons, List.length_cons] at h
      have hword : wordBytes (UInt16.ofNat (leNat [a, b])) = [a, b] := by
        have hback : (UInt16.ofNat (leNat [a, b])).toNat = leNat [a, b] := by
          have hlt : leNat [a, b] < 65536 := by simpa using leNat_lt [a, b]
          exact UInt16.toNat_ofNat_of_lt' hlt
        rw [wordBytes, hback]
        exact leBytes_leNat [a, b]
      rw [words, List.flatMap_cons, hword, ih (by omega)]
      rfl
  | case2 bytes hshort =>
      rcases bytes with _ | ⟨a, _ | ⟨b, rest⟩⟩
      · rfl
      · simp at h
      · exact (hshort a b rest rfl).elim

theorem words_append {l1 : List UInt8} (l2 : List UInt8) (h : l1.length % 2 = 0) :
    words (l1 ++ l2) = words l1 ++ words l2 := by
  induction l1 using words.induct with
  | case1 a b rest ih =>
      rw [List.length_cons, List.length_cons] at h
      rw [List.cons_append, List.cons_append, words, words, ih (by omega), List.cons_append]
  | case2 bytes hshort =>
      rcases bytes with _ | ⟨a, _ | ⟨b, rest⟩⟩
      · rfl
      · simp at h
      · exact (hshort a b rest rfl).elim

end NacCard.Base
