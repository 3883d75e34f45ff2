import NacCard.Base.Words

/-!
# Tokens of a character buffer

C strings in a buffer of fixed size, as lists of characters: `closed` tells whether a
NUL follows the characters within the buffer.  Reading on where none does is a fault.

* `strtok` — skip delimiters, take characters up to the next one, remember the rest.
* `FirstToken` — what that comes to, without saying how; `strtok_some_iff` is the link.
* `isdigit`, `decValue`, `atoi` — decimal numbers; `atoi_eq_iff` tells which of them an `int` holds.
-/

namespace NacCard.Base

/-- A read behind the end of a buffer. -/
inductive Overread where
  | overread
  deriving Repr, DecidableEq

/-! ## `strtok` -/

/-- The token, `none` for `NULL`, and what the next call goes on with. -/
def strtok (delim : Char → Bool) (closed : Bool) (s : List Char) :
    Except Overread (Option (List Char) × List Char) :=
  let s := s.dropWhile delim
  match s.dropWhile (!delim ·) with
  | [] =>
      if closed then .ok (if s.isEmpty then none else some s, []) else .error .overread
  | _ :: rest => .ok (some (s.takeWhile (!delim ·)), rest)

/-- `tok` is the first token of `s`, and `tail` what is behind it. -/
def FirstToken (delim : Char → Bool) (s tok tail : List Char) : Prop :=
  ∃ lead, s = lead ++ (tok ++ tail) ∧ (∀ c ∈ lead, delim c) ∧ tok ≠ [] ∧
    (∀ c ∈ tok, ¬delim c) ∧ ∀ c ∈ tail.head?, delim c

section Tokens

variable {delim : Char → Bool} {closed : Bool} {s tok tail rest : List Char}

theorem dropWhile_of_head (h : ∀ c ∈ s.head?, ¬delim c) : s.dropWhile delim = s := by
  cases s with
  | nil => rfl
  | cons c s => exact List.dropWhile_cons_of_neg (h c rfl)

theorem FirstToken.dropWhile (h : FirstToken delim s tok tail) :
    s.dropWhile delim = tok ++ tail := by
  obtain ⟨lead, rfl, hlead, hne, htok, -⟩ := h
  rw [List.dropWhile_append_of_pos hlead]
  refine dropWhile_of_head fun c hc => ?_
  cases tok with
  | nil => exact absurd rfl hne
  | cons d tok =>
      cases hc
      exact htok _ List.mem_cons_self

theorem FirstToken.split (h : FirstToken delim s tok tail) :
    (tok ++ tail).takeWhile (!delim ·) = tok ∧ (tok ++ tail).dropWhile (!delim ·) = tail := by
  obtain ⟨lead, -, -, -, htok, htail⟩ := h
  have hpos : ∀ c ∈ tok, (!delim c) = true := fun c hc => by simpa using htok c hc
  rw [List.takeWhile_append_of_pos hpos, List.dropWhile_append_of_pos hpos]
  cases tail with
  | nil => exact ⟨List.append_nil tok, rfl⟩
  | cons d tail =>
      have hd : ¬(!delim d) = true := by simpa using htail d rfl
      rw [@List.takeWhile_cons_of_neg _ (!delim ·) d tail hd,
        @List.dropWhile_cons_of_neg _ (!delim ·) d tail hd]
      exact ⟨List.append_nil tok, rfl⟩

/-- Either all characters are delimiters, or there is a first token. -/
theorem firstToken_or (delim : Char → Bool) (s : List Char) :
    (∀ c ∈ s, delim c) ∨ ∃ tok tail, FirstToken delim s tok tail := by
  by_cases hall : s.dropWhile delim = []
  · exact .inl (List.dropWhile_eq_nil_iff.1 hall)
  · refine .inr ⟨(s.dropWhile delim).takeWhile (!delim ·), (s.dropWhile delim).dropWhile (!delim ·),
      s.takeWhile delim, ?_, fun c hc => List.mem_takeWhile_imp hc, ?_, ?_, ?_⟩
    · rw [List.takeWhile_append_dropWhile, List.takeWhile_append_dropWhile]
    · intro hnil
      cases hd : s.dropWhile delim with
      | nil => exact hall hd
      | cons c r =>
          have hc : delim c = false := by
            have hhead := List.head?_dropWhile_not delim s
            rw [hd] at hhead
            simpa using hhead
          rw [hd, List.takeWhile_cons_of_pos (by simp [hc])] at hnil
          cases hnil
    · intro c hc
      simpa using List.mem_takeWhile_imp hc
    · intro c hc
      have hhead := List.head?_dropWhile_not (!delim ·) (s.dropWhile delim)
      rw [Option.mem_def.1 hc] at hhead
      simpa using hhead

theorem strtok_of_firstToken (h : FirstToken delim s tok tail) :
    strtok delim closed s =
      if tail = [] ∧ closed = false then .error .overread else .ok (some tok, tail.tail) := by
  obtain ⟨htake, hdrop⟩ := h.split
  have hne : tok ≠ [] := h.choose_spec.2.2.1
  unfold strtok
  rw [h.dropWhile]
  dsimp only
  rw [hdrop]
  cases tail with
  | nil =>
      cases closed with
      | false => rfl
      | true => simp [hne]
  | cons d tail => simp [htake]

theorem strtok_of_delims (h : ∀ c ∈ s, delim c) :
    strtok delim closed s = if closed then .ok (none, []) else .error .overread := by
  rw [strtok, List.dropWhile_eq_nil_iff.2 h]
  rfl

/-- **A token is found** where there is one and its end is in the buffer. -/
theorem strtok_some_iff : strtok delim closed s = .ok (some tok, rest) ↔
    ∃ tail, FirstToken delim s tok tail ∧ (tail = [] → closed = true) ∧ rest = tail.tail := by
  constructor
  · intro h
    rcases firstToken_or delim s with hall | ⟨tok', tail, hfirst⟩
    · rw [strtok_of_delims hall] at h
      split_ifs at h
      cases h
    · rw [strtok_of_firstToken hfirst] at h
      split_ifs at h with hend
      cases h
      exact ⟨tail, hfirst, fun hnil => by simpa [hnil] using hend, rfl⟩
  · rintro ⟨tail, hfirst, hend, rfl⟩
    rw [strtok_of_firstToken hfirst, if_neg]
    rintro ⟨hnil, hclosed⟩
    rw [hend hnil] at hclosed
    cases hclosed

end Tokens

/-! ## Decimal numbers -/

/-- `isdigit` in the C locale. -/
def isdigit (c : Char) : Bool := '0' ≤ c && c ≤ '9'

/-- `c - '0'` -/
def digitValue (c : Char) : Nat := c.toNat - '0'.toNat

/-- The number that a list of digits stands for. -/
def decValue (s : List Char) : Nat := s.foldl (fun v c => 10 * v + digitValue c) 0

/-- `LONG_MAX`, for a `long` of 64 bits. -/
def LONG_MAX : Nat := 9223372036854775807

/-- `atoi` of characters that start with a digit. -/
def atoi (s : List Char) : Int := i32 (min (decValue (s.takeWhile isdigit)) LONG_MAX : Nat)

section Decimal

variable {c t : Char} {s : List Char}

theorem isdigit_iff : isdigit c ↔ ∃ k < 10, c = Nat.digitChar k := by
  constructor
  · intro h
    have hval : 48 ≤ c.toNat ∧ c.toNat ≤ 57 := by
      simpa [isdigit, Char.le_def, UInt32.le_iff_toNat_le] using h
    refine ⟨c.toNat - 48, by omega, ?_⟩
    have hall : ∀ k < 10, Nat.digitChar k = Char.ofNat (48 + k) := by decide
    rw [hall _ (by omega), Nat.add_sub_cancel' hval.1, Char.ofNat_toNat]
  · rintro ⟨k, hk, rfl⟩
    revert k
    decide

theorem decValue_one : decValue [c] = digitValue c := by
  simp [decValue]

theorem decValue_two : decValue [t, c] = 10 * digitValue t + digitValue c := by
  simp [decValue]

theorem digitValue_lt (h : isdigit c) : digitValue c < 10 := by
  obtain ⟨k, hk, rfl⟩ := isdigit_iff.1 h
  revert k
  decide

/-- One digit is printed as it was read. -/
theorem toDigits_one (h : isdigit c) : Nat.toDigits 10 (digitValue c) = [c] := by
  obtain ⟨k, hk, rfl⟩ := isdigit_iff.1 h
  revert k
  decide

/-- Two digits are printed as they were read where the first is not 0. -/
theorem toDigits_two_iff (ht : isdigit t) (hc : isdigit c) :
    Nat.toDigits 10 (10 * digitValue t + digitValue c) = [t, c] ↔ t ≠ '0' := by
  obtain ⟨k, hk, rfl⟩ := isdigit_iff.1 ht
  obtain ⟨l, hl, rfl⟩ := isdigit_iff.1 hc
  have hall : ∀ k < 10, ∀ l < 10,
      (Nat.toDigits 10 (10 * digitValue (Nat.digitChar k) + digitValue (Nat.digitChar l)) =
        [Nat.digitChar k, Nat.digitChar l] ↔ Nat.digitChar k ≠ '0') := by decide
  exact hall k hk l hl

/-- **An `int` holds the number** exactly where it is less than `2 ^ 31`. -/
theorem atoi_eq_iff (h : ∀ c ∈ s, isdigit c) : atoi s = decValue s ↔ decValue s < 2147483648 := by
  rw [atoi, List.takeWhile_eq_self_iff.2 h]
  constructor
  · intro heq
    have hlt := i32_lt (min (decValue s) LONG_MAX : Nat)
    rw [heq] at hlt
    exact_mod_cast hlt
  · intro hlt
    rw [min_eq_left (hlt.le.trans (by decide)), i32_of_mem (by simp) (by exact_mod_cast hlt)]

end Decimal

end NacCard.Base
