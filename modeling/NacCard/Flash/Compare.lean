import NacCard.Base.Loop
import NacCard.Flash.Isp

/-!
# Comparing the two files

The loop of `compare_file_order`, on files that are open at a position.

* `File`, `fread`, `ftell` — of the C library.
* `Compare.compareFileOrder` — the function; `compareFileOrder_eq` finds in it the comparison of
  words that `doIsp` ends with.
* `getLsbD_bitSwap` — `bit_swap` turns the bits of a word round, so it takes itself back.
* `SameImage` — one file is the other one, swapped but for its last eight bytes;
  `SameImage.unique`, `SameImage.unique_image` — no other file is.
* `compareFileOrder_exact` — this is what the comparison finds out.
-/

namespace NacCard.Flash

open NacCard.Base

/-! ## Files -/

/-- An open file and its position. -/
structure File where
  bytes : List UInt8
  pos : Nat
  deriving Repr, DecidableEq

namespace File

/-- A `long int`. -/
def ftell (fp : File) : Int := fp.pos

/-- `fread(&tempt, sizeof(uint16_t), 1, fp)`; a byte of `tempt` that the file does not have stays. -/
def fread (fp : File) (tempt : UInt16) : UInt16 × File :=
  let got := (fp.bytes.drop fp.pos).take 2
  (UInt16.ofNat (leNat (got ++ (wordBytes tempt).drop got.length)),
    { fp with pos := fp.pos + got.length })

theorem drop_pos {fp : File} (h : fp.pos + 2 ≤ fp.bytes.length) :
    fp.bytes.drop fp.pos =
      fp.bytes[fp.pos] :: fp.bytes[fp.pos + 1] :: fp.bytes.drop (fp.pos + 2) := by
  rw [List.drop_eq_getElem_cons (by omega), List.drop_eq_getElem_cons (by omega)]

/-- Away from its end the next word of the file is read. -/
theorem fread_spec {fp : File} (h : fp.pos + 2 ≤ fp.bytes.length) (tempt : UInt16) :
    words (fp.bytes.drop fp.pos) =
        (fp.fread tempt).1 :: words (fp.bytes.drop (fp.pos + 2)) ∧
      (fp.fread tempt).2 = { fp with pos := fp.pos + 2 } := by
  rw [fread, drop_pos h]
  exact ⟨rfl, rfl⟩

end File

/-! ## The function -/

/-- The variables of the loop. -/
structure Compare where
  fp1 : File
  fp2 : File
  tempt1 : UInt16
  tempt2 : UInt16
  deriving Repr, DecidableEq

namespace Compare

/-- From `do` to `while`. -/
def turn (fileSize1 : Int) (s : Compare) : Turn Compare Int :=
  let (tempt1, fp1) := s.fp1.fread s.tempt1
  let tempt1 := if fp1.ftell ≤ fileSize1 - 8 then bitSwap tempt1 else tempt1
  let (tempt2, fp2) := s.fp2.fread s.tempt2
  if tempt1 ≠ tempt2 then .leave (-1)
  else if fp1.ftell < fileSize1 then .again ⟨fp1, fp2, tempt1, tempt2⟩
  else .leave 0

/-- For two files that can be opened. -/
def compareFileOrder (fuel : Nat) (file1 file2 : List UInt8) : Option Int :=
  if file1.length ≠ file2.length then some (-1)
  else if file1.length % 2 ≠ 0 then some (-1)
  else loop (turn file1.length) fuel ⟨⟨file1, 0⟩, ⟨file2, 0⟩, 0, 0⟩

variable {file1 file2 : List UInt8} {s : Compare} {fuel : Nat}

/-- Both files are at the same word, and what is left of them decides. -/
structure Inv (file1 file2 : List UInt8) (s : Compare) : Prop where
  bytes1 : s.fp1.bytes = file1
  bytes2 : s.fp2.bytes = file2
  samePos : s.fp2.pos = s.fp1.pos
  even : s.fp1.pos % 2 = 0
  more : s.fp1.pos < file1.length
  rest : compareWords file1.length s.fp1.pos (words (file1.drop s.fp1.pos))
    (words (file2.drop s.fp1.pos)) = compareWords file1.length 0 (words file1) (words file2)

/-- **A turn** ends the comparison of words or takes one word off. -/
theorem turn_spec (hlen : file1.length = file2.length) (heven : file1.length % 2 = 0)
    (h : Inv file1 file2 s) :
    (∃ r, turn file1.length s = .leave r ∧
        r = compareWords file1.length 0 (words file1) (words file2)) ∨
      ∃ s', turn file1.length s = .again s' ∧ Inv file1 file2 s' ∧
        file1.length - s'.fp1.pos < file1.length - s.fp1.pos := by
  obtain ⟨fp1, fp2, tempt1, tempt2⟩ := s
  obtain ⟨rfl, rfl, hpos, hword, hmore, hrest⟩ := h
  dsimp only at hpos hword hmore hrest hlen heven
  obtain ⟨hnext1, hfile1⟩ := @File.fread_spec fp1 (by omega) tempt1
  obtain ⟨hnext2, hfile2⟩ := @File.fread_spec fp2 (by omega) tempt2
  rw [hpos] at hnext2
  rw [hnext1, hnext2, compareWords] at hrest
  have hftell : ({ fp1 with pos := fp1.pos + 2 } : File).ftell = fp1.pos + 2 := rfl
  rw [turn]
  dsimp only
  rw [hfile1, hfile2, hftell]
  by_cases hsame : (if (fp1.pos : Int) + 2 ≤ fp1.bytes.length - 8
      then bitSwap (fp1.fread tempt1).1 else (fp1.fread tempt1).1) ≠ (fp2.fread tempt2).1
  · rw [if_pos hsame] at hrest ⊢
    exact .inl ⟨-1, rfl, hrest⟩
  · rw [if_neg hsame] at hrest ⊢
    by_cases hend : (fp1.pos : Int) + 2 < fp1.bytes.length
    · rw [if_pos hend] at hrest ⊢
      refine .inr ⟨_, rfl, ⟨rfl, rfl, ?_, ?_, ?_, ?_⟩, ?_⟩
      · exact congrArg (· + 2) hpos
      · show (fp1.pos + 2) % 2 = 0
        omega
      · show fp1.pos + 2 < fp1.bytes.length
        omega
      · exact hrest
      · show fp1.bytes.length - (fp1.pos + 2) < fp1.bytes.length - fp1.pos
        omega
    · rw [if_neg hend] at hrest ⊢
      exact .inl ⟨0, rfl, hrest⟩

/-- **The loop comes to its end**, with what the comparison of the words comes to. -/
theorem compareFileOrder_eq (hfuel : file1.length < fuel) :
    compareFileOrder fuel file1 file2 = some (Flash.compareFileOrder file1 file2) := by
  unfold compareFileOrder Flash.compareFileOrder
  split_ifs with hlen heven
  · rfl
  · rfl
  · rw [not_not] at hlen heven
    by_cases hempty : file1 = []
    · have hempty2 : file2 = [] := List.eq_nil_of_length_eq_zero (by rw [← hlen, hempty]; rfl)
      obtain ⟨fuel, rfl⟩ : ∃ n, fuel = n + 1 := ⟨fuel - 1, by omega⟩
      subst hempty hempty2
      exact loop_leave rfl fuel
    · have hpos := List.length_pos_of_ne_nil hempty
      obtain ⟨r, hrun, hr⟩ := loop_variant (Inv file1 file2) _
        (fun s => file1.length - s.fp1.pos) (fun s hs => turn_spec hlen heven hs)
        (s := ⟨⟨file1, 0⟩, ⟨file2, 0⟩, 0, 0⟩) hfuel ⟨rfl, rfl, rfl, rfl, hpos, rfl⟩
      rw [hrun, hr]

end Compare

/-! ## The bits of a word -/

/-- The bits of words that are joined one after the other. -/
theorem getLsbD_foldl_or (f : Nat → UInt16) (l : List Nat) (word : UInt16) (j : Nat) :
    (l.foldl (fun dst i => dst ||| f i) word).toBitVec.getLsbD j =
      (word.toBitVec.getLsbD j || l.any fun i => (f i).toBitVec.getLsbD j) := by
  induction l generalizing word with
  | nil => simp
  | cons i l ih =>
      rw [List.foldl_cons, ih, UInt16.toBitVec_or, BitVec.getLsbD_or, List.any_cons, Bool.or_assoc]

/-- What `1 << i` leaves of a word. -/
theorem and_bit (src : UInt16) (i : Fin 16) : src &&& (1 <<< UInt16.ofNat i) =
    if src.toBitVec.getLsbD i then 1 <<< UInt16.ofNat i else 0 := by
  have hbit : ∀ i k : Fin 16, (1 <<< UInt16.ofNat i : UInt16).toBitVec.getLsbD k = decide (i = k) := by
    decide +kernel
  apply UInt16.toBitVec_inj.1
  apply BitVec.eq_of_getLsbD_eq
  intro k hk
  rw [UInt16.toBitVec_and, BitVec.getLsbD_and, hbit i ⟨k, hk⟩]
  by_cases hik : i = ⟨k, hk⟩
  · subst hik
    split_ifs with hsrc
    · rw [hbit ⟨k, hk⟩ ⟨k, hk⟩, hsrc, Bool.true_and]
    · simp [hsrc]
  · split_ifs
    · rw [hbit i ⟨k, hk⟩]
      simp [hik]
    · simp [hik]

/-- One turn of `bit_swap` takes a bit to the other side. -/
theorem getLsbD_bitSwap_turn (src : UInt16) (i j : Fin 16) :
    (if (i : Nat) < 8 then (src &&& (1 <<< UInt16.ofNat i)) <<< UInt16.ofNat (15 - i * 2)
      else (src &&& (1 <<< UInt16.ofNat i)) >>> UInt16.ofNat (2 * i - 15)).toBitVec.getLsbD j =
      (src.toBitVec.getLsbD i && decide ((i : Nat) + j = 15)) := by
  rw [and_bit]
  cases src.toBitVec.getLsbD i with
  | false =>
      revert i j
      decide +kernel
  | true =>
      revert i j
      decide +kernel

theorem getLsbD_bitSwap (src : UInt16) (i : Fin 16) :
    (bitSwap src).toBitVec.getLsbD i = src.toBitVec.getLsbD (15 - i) := by
  have hmirror : 15 - (i : Nat) < 16 := by omega
  rw [bitSwap, getLsbD_foldl_or, Bool.eq_iff_iff]
  constructor
  · intro hany
    simp only [UInt16.toBitVec_zero, BitVec.getLsbD_zero, Bool.false_or, List.any_eq_true,
      List.mem_range] at hany
    obtain ⟨k, hk, hbit⟩ := hany
    have hturn := getLsbD_bitSwap_turn src ⟨k, hk⟩ i
    rw [hturn, Bool.and_eq_true, decide_eq_true_eq] at hbit
    rw [← hbit.1]
    congr 1
    omega
  · intro hsrc
    rw [Bool.or_eq_true, List.any_eq_true]
    refine .inr ⟨15 - i, List.mem_range.2 hmirror, ?_⟩
    rw [getLsbD_bitSwap_turn src ⟨15 - i, hmirror⟩ i, hsrc]
    simp
    omega

@[simp] theorem bitSwap_bitSwap (src : UInt16) : bitSwap (bitSwap src) = src := by
  apply UInt16.toBitVec_inj.1
  apply BitVec.eq_of_getLsbD_eq
  intro i hi
  have hmirror : 15 - (15 - i) = i := by omega
  have hfirst := getLsbD_bitSwap (bitSwap src) ⟨i, hi⟩
  have hsecond := getLsbD_bitSwap src ⟨15 - i, by omega⟩
  rw [hfirst, hsecond, hmirror]

theorem expectedWord_expectedWord (fileSize pos : Int) (word : UInt16) :
    expectedWord fileSize pos (expectedWord fileSize pos word) = word := by
  unfold expectedWord
  split_ifs <;> simp

/-! ## What is found out -/

/-- Word `k` of a file, 0 behind its end. -/
def wordAt (file : List UInt8) (k : Nat) : UInt16 := (words file).getD k 0

/-- The second file is the first one, with the bits of every word turned round but in the last
eight bytes. -/
structure SameImage (file1 file2 : List UInt8) : Prop where
  sizes : file1.length = file2.length
  even : file1.length % 2 = 0
  word : ∀ k, k < file1.length / 2 → wordAt file2 k =
    if 2 * ((k : Int) + 1) ≤ file1.length - 8 then bitSwap (wordAt file1 k) else wordAt file1 k

variable {file1 file2 file : List UInt8}

theorem word_eq_expectedWord (k : Nat) :
    (if 2 * ((k : Int) + 1) ≤ file1.length - 8 then bitSwap (wordAt file1 k) else wordAt file1 k) =
      expectedWord file1.length (0 + 2 * k) (wordAt file1 k) := by
  rw [expectedWord, Int.mul_add, Int.mul_one, Int.zero_add]

/-- Files of the same even size are known by their words. -/
theorem eq_of_wordAt (hlen : file1.length = file2.length) (heven : file1.length % 2 = 0)
    (h : ∀ k, k < file1.length / 2 → wordAt file1 k = wordAt file2 k) : file1 = file2 := by
  have hwords : words file1 = words file2 := by
    apply List.ext_getElem
    · rw [length_words, length_words, hlen]
    · intro k hk1 hk2
      have hword := h k (by rwa [length_words] at hk1)
      rwa [wordAt, wordAt, List.getD_eq_getElem _ _ hk1, List.getD_eq_getElem _ _ hk2] at hword
  rw [← flatMap_words heven, hwords, flatMap_words (hlen ▸ heven)]

namespace SameImage

/-- No other file is taken for what was read back. -/
theorem unique (h : SameImage file1 file2) (h' : SameImage file1 file) : file = file2 := by
  refine eq_of_wordAt (h'.sizes.symm.trans h.sizes) (h'.sizes ▸ h.even) ?_
  intro k hk
  rw [← h'.sizes] at hk
  rw [h'.word k hk, h.word k hk]

/-- Nor is what was read back taken for another image. -/
theorem unique_image (h : SameImage file1 file2) (h' : SameImage file file2) : file = file1 := by
  have hlen : file.length = file1.length := h'.sizes.trans h.sizes.symm
  refine eq_of_wordAt hlen h'.even ?_
  intro k hk
  have hword := h'.word k hk
  rw [h.word k (hlen ▸ hk), word_eq_expectedWord, word_eq_expectedWord, hlen] at hword
  rw [← expectedWord_expectedWord file1.length (0 + 2 * k) (wordAt file k), ← hword,
    expectedWord_expectedWord]

end SameImage

theorem compareWords_cases (fileSize pos : Int) (l1 l2 : List UInt16) :
    compareWords fileSize pos l1 l2 = 0 ∨ compareWords fileSize pos l1 l2 = -1 := by
  induction l1 generalizing pos l2 with
  | nil => exact .inl (by rw [compareWords]; simp)
  | cons tempt1 rest1 ih =>
      obtain _ | ⟨tempt2, rest2⟩ := l2
      · exact .inl (by rw [compareWords]; simp)
      · rw [compareWords]
        generalize (if pos + 2 ≤ fileSize - 8 then bitSwap tempt1 else tempt1) = word
        split_ifs
        · exact .inr rfl
        · exact ih (pos + 2) rest2
        · exact .inl rfl

theorem compareFileOrder_cases (file1 file2 : List UInt8) :
    compareFileOrder file1 file2 = 0 ∨ compareFileOrder file1 file2 = -1 := by
  unfold compareFileOrder
  split_ifs
  · exact .inr rfl
  · exact .inr rfl
  · exact compareWords_cases ..

theorem compareFileOrder_eq_zero :
    compareFileOrder file1 file2 = 0 ↔ SameImage file1 file2 := by
  unfold compareFileOrder
  split_ifs with hlen heven
  · exact iff_of_false (by decide) fun h => hlen h.sizes
  · exact iff_of_false (by decide) fun h => heven h.even
  · rw [not_not] at hlen heven
    rw [compareWords_eq_zero (by rw [length_words, length_words, hlen])
      (by rw [length_words]; omega), length_words]
    constructor
    · intro h
      refine ⟨hlen, heven, fun k hk => ?_⟩
      rw [word_eq_expectedWord]
      exact (h k hk).symm
    · intro h k hk
      have hword := h.word k hk
      rw [word_eq_expectedWord] at hword
      exact hword.symm

theorem compareFileOrder_differs (h : ¬SameImage file1 file2) : compareFileOrder file1 file2 = -1 :=
  (compareFileOrder_cases file1 file2).resolve_left fun hzero => h (compareFileOrder_eq_zero.1 hzero)

/-- **The comparison ends, and it is exact**: 0 is for the one file that is the image, and every
other file in place of either of the two is found out. -/
theorem compareFileOrder_exact (file1 file2 : List UInt8) :
    (∃ r, (∀ fuel, file1.length < fuel → Compare.compareFileOrder fuel file1 file2 = some r) ∧
      (r = 0 ↔ SameImage file1 file2)) ∧
    (SameImage file1 file2 →
      (∀ file fuel, file ≠ file2 → file1.length < fuel →
        Compare.compareFileOrder fuel file1 file = some (-1)) ∧
      ∀ file fuel, file ≠ file1 → file.length < fuel →
        Compare.compareFileOrder fuel file file2 = some (-1)) := by
  refine ⟨⟨_, fun fuel hfuel => Compare.compareFileOrder_eq hfuel, compareFileOrder_eq_zero⟩, ?_⟩
  intro h
  constructor
  · intro file fuel hne hfuel
    rw [Compare.compareFileOrder_eq hfuel, compareFileOrder_differs fun h' => hne (h.unique h')]
  · intro file fuel hne hfuel
    rw [Compare.compareFileOrder_eq hfuel,
      compareFileOrder_differs fun h' => hne (h.unique_image h')]

end NacCard.Flash
