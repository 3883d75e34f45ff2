import NacCard.Base.Regexec
import NacCard.Lib.ParseName

/-!
# The other devices of a card

`nac_clone` finds the unit in the name that an entry was opened under, and opens the device of
the kind asked for.  `nac_parse_name` makes names of one or two digits; the expression matches one.

* `reg` — the expression; `matchLengths_reg` tells what it matches in such a name.
* `Produced`, `produced_iff` — the names that `nac_parse_name` makes.
* `OpenedAs`, `Posix` — an entry opened under a name; what is expected of the C library.
* `clone_same_unit_iff` — for which units the device is one of the same card.
-/

namespace NacCard.Lib

open NacCard.Base

/-- `NACMINOR_NAC`: the device of the card. -/
def NACMINOR_NAC : Nat := 0
/-- `NACMINOR_MEM`: the device of its buffer. -/
def NACMINOR_MEM : Nat := 1

/-! ## The expression -/

/-- The class `[0-9]`. -/
def digits : List Char := ['0', '1', '2', '3', '4', '5', '6', '7', '8', '9']

/-- `(iom|mem)*` -/
def kinds : RegularExpression Char := .star (literal ['i', 'o', 'm'] + literal ['m', 'e', 'm'])

/-- `/dev/nac(iom|mem)*[0-9]` -/
def reg : RegularExpression Char := literal devNac * (kinds * oneOf digits)

theorem mem_digits_iff {c : Char} : c ∈ digits ↔ isdigit c := by
  constructor
  · have hall : ∀ c ∈ digits, isdigit c := by simp [digits, isdigit]
    exact hall c
  · intro h
    obtain ⟨k, hk, rfl⟩ := isdigit_iff.1 h
    revert k
    decide

/-- A word of kinds does not begin with a digit. -/
theorem kinds_head {x : List Char} (hx : x ∈ kinds.matches') :
    x = [] ∨ ∃ c y, x = c :: y ∧ ¬isdigit c := by
  obtain ⟨words, rfl, hwords⟩ := Language.mem_kstar.1 hx
  induction words with
  | nil => exact .inl rfl
  | cons w words ih =>
      have hw := hwords w List.mem_cons_self
      rw [RegularExpression.matches'_add, Language.mem_add, mem_literal, mem_literal] at hw
      rcases hw with rfl | rfl
      · exact .inr ⟨'i', 'o' :: 'm' :: words.flatten, rfl, by decide⟩
      · exact .inr ⟨'m', 'e' :: 'm' :: words.flatten, rfl, by decide⟩

theorem mem_reg {x : List Char} : x ∈ reg.matches' ↔
    ∃ y ∈ kinds.matches', ∃ c, isdigit c ∧ x = devNac ++ (y ++ [c]) := by
  rw [reg, RegularExpression.matches'_mul, Language.mem_mul]
  constructor
  · rintro ⟨p, hp, x, hx, rfl⟩
    rw [RegularExpression.matches'_mul, Language.mem_mul] at hx
    obtain ⟨y, hy, d, hd, rfl⟩ := hx
    obtain ⟨c, hc, rfl⟩ := mem_oneOf.1 hd
    rw [mem_literal.1 hp]
    exact ⟨y, hy, c, mem_digits_iff.1 hc, rfl⟩
  · rintro ⟨y, hy, c, hc, rfl⟩
    refine ⟨devNac, mem_literal.2 rfl, y ++ [c], ?_, rfl⟩
    rw [RegularExpression.matches'_mul, Language.mem_mul]
    exact ⟨y, hy, [c], mem_oneOf.2 ⟨c, mem_digits_iff.2 hc, rfl⟩, rfl⟩

/-- **One digit is matched** where a digit follows the name of the driver, whatever follows it. -/
theorem matchLengths_reg {c : Char} (hc : isdigit c) (rest : List Char) :
    IsGreatest (matchLengths reg (devNac ++ c :: rest)) 9 := by
  constructor
  · refine ⟨by simp [devNac], ?_⟩
    rw [RegularExpression.rmatch_iff_matches']
    refine mem_reg.2 ⟨[], Language.nil_mem_kstar _, c, hc, ?_⟩
    simp [devNac]
  · rintro k ⟨hk, hmatch⟩
    rw [RegularExpression.rmatch_iff_matches'] at hmatch
    obtain ⟨y, hy, d, -, heq⟩ := mem_reg.1 hmatch
    by_contra hlong
    obtain ⟨m, rfl⟩ := Nat.exists_eq_add_of_lt (not_le.1 hlong)
    have hlength : 9 + m + 1 = devNac.length + (m + 2) := by
      show 9 + m + 1 = 8 + (m + 2)
      omega
    rw [hlength, List.take_length_add_append, List.append_cancel_left_eq,
      List.take_succ_cons] at heq
    rcases kinds_head hy with rfl | ⟨e, z, rfl, he⟩
    · have hlen := congrArg List.length heq
      rw [hlength, List.length_append] at hk
      have hroom : m + 2 ≤ rest.length + 1 := Nat.add_le_add_iff_left.1 hk
      simp only [List.length_cons, List.length_take, List.nil_append, List.length_nil] at hlen
      omega
    · rw [List.cons_append, List.cons.injEq] at heq
      exact he (heq.1 ▸ hc)

/-! ## The names that are made -/

/-- A name that `nac_parse_name` makes. -/
def Produced (nacname : List Char) : Prop :=
  ∃ name buffer buflen stream out, nacParseName name buffer buflen stream = .ok out ∧
    out.result = 0 ∧ out.buffer = nacname

/-- The unit, behind `/dev/nac`. -/
def unit (nacname : List Char) : Nat := decValue (nacname.drop devNac.length)

theorem unitDigits_toDigits {n : Nat} (hn : n < 100) :
    UnitDigits (Nat.toDigits 10 n) ∧ decValue (Nat.toDigits 10 n) = n := by
  have hdigit : ∀ k < 10, isdigit (Nat.digitChar k) ∧ digitValue (Nat.digitChar k) = k := by decide
  by_cases hone : n < 10
  · obtain ⟨hc, hv⟩ := hdigit n hone
    rw [Nat.toDigits_of_lt_base hone, decValue_one]
    exact ⟨.one hc, hv⟩
  · obtain ⟨ht, htv⟩ := hdigit (n / 10) (by omega)
    obtain ⟨hc, hcv⟩ := hdigit (n % 10) (by omega)
    rw [Nat.toDigits_of_base_le (by decide) (not_lt.1 hone),
      Nat.toDigits_of_lt_base (show n / 10 < 10 by omega)]
    refine ⟨.two ht hc, ?_⟩
    rw [List.singleton_append, decValue_two, htv, hcv]
    exact Nat.div_add_mod n 10

/-- The units are those of one or two digits. -/
theorem produced_iff {nacname : List Char} :
    Produced nacname ↔ ∃ n < 100, nacname = devNac ++ Nat.toDigits 10 n := by
  constructor
  · rintro ⟨name, buffer, buflen, stream, out, hparse, hresult, rfl⟩
    rw [nacParseName] at hparse
    split_ifs at hparse with hbuf
    · cases hparse
      cases hresult
    · split at hparse
      · cases hparse
      · cases hparse
        exact ⟨0, by decide, rfl⟩
      · rename_i device rest _
        split at hparse
        · cases hparse
          cases hresult
        · rename_i n hn
          split_ifs at hn
          have hlt := deviceNumber_lt hn
          split at hparse
          · cases hparse
          · cases hparse
            exact ⟨n, hlt, path_take hlt (not_lt.1 hbuf)⟩
  · rintro ⟨n, hn, rfl⟩
    obtain ⟨hdigits, hvalue⟩ := unitDigits_toDigits hn
    have hdev : devNac ∈ prefixes := List.mem_cons_self
    have hparse := @nacParseName_form _ _ _ [] 16 0 (.device hdev hdigits) (le_refl 16)
    rw [if_pos (show _ < 16 from device_length hdev hdigits), unitPath, hvalue] at hparse
    exact ⟨_, [], 16, 0, _, hparse, rfl, rfl⟩

theorem Produced.unit_eq {nacname : List Char} (h : Produced nacname) :
    unit nacname < 100 ∧ nacname = devNac ++ Nat.toDigits 10 (unit nacname) := by
  obtain ⟨n, hn, rfl⟩ := produced_iff.1 h
  have hunit : unit (devNac ++ Nat.toDigits 10 n) = n := by
    rw [unit, List.drop_left, (unitDigits_toDigits hn).2]
  rw [hunit]
  exact ⟨hn, rfl⟩

/-- One digit is printed for the units below 10. -/
theorem toDigits_eq_singleton_iff {n : Nat} : (∃ c, Nat.toDigits 10 n = [c]) ↔ n < 10 := by
  constructor
  · rintro ⟨c, hc⟩
    have hlen : (Nat.toDigits 10 n).length ≤ 1 := by rw [hc, List.length_singleton]
    exact (Nat.length_toDigits_le_iff (by decide) Nat.one_pos).1 hlen
  · intro h
    exact ⟨n.digitChar, Nat.toDigits_of_lt_base h⟩

/-! ## The companion -/

/-- The expression is compiled, and what it matches is found as it should be. -/
structure Posix (o : Answers) : Prop where
  regcomp : o.regcomp = true
  regexec : ∀ s, o.regexec s = (regexec reg s.toList).map Prod.snd

/-- An entry that `nac_open` has filled in under a name. -/
def OpenedAs (sheep : Sheep) (nacname : String) : Prop :=
  ∃ openMax s o rc s', nacOpen openMax s nacname o = .returned rc s' ∧ 0 ≤ rc ∧
    s'.entries rc.toNat = sheep

theorem OpenedAs.nacname_eq {sheep : Sheep} {nacname : String} (h : OpenedAs sheep nacname) :
    sheep.nacname = nacname := by
  obtain ⟨openMax, s, o, rc, s', hopen, hrc, rfl⟩ := h
  cases hdevice : o.device with
  | error errno =>
      rw [nacOpen, hdevice] at hopen
      cases hopen
      exact absurd hrc (by decide)
  | ok nacfd =>
      rcases nacOpen_cases hdevice with ⟨-, naciom, nacinf, addr, -, -, heq⟩ |
        ⟨-, ⟨t, heq, -⟩ | heq⟩
      · rw [heq] at hopen
        cases hopen
        simp [Proc.opened, Proc.entries, Proc.put, Proc.map]
      · rw [heq] at hopen
        rw [(openFail_returned hopen).1] at hrc
        exact absurd hrc (by decide)
      · rw [heq] at hopen
        cases hopen

/-- The path of a kind of device of a unit. -/
def companionPath (minor n : Nat) : String := fmt.getD minor "" ++ String.ofList (Nat.toDigits 10 n)

/-- `nac_clone` calls `open` with this path, and returns what it is answered. -/
def Opens (sheep : Sheep) (minor : Nat) (path : String) : Prop :=
  ∀ o, Posix o → nacClone o sheep.nacname minor = o.companion path

/-- Everything is granted, and the C library does what is expected. -/
def posix (companion : String → Except Int Nat) : Answers :=
  { granted 3 4 0x40000000 with
    regexec := fun s => (regexec reg s.toList).map Prod.snd
    companion := companion }

theorem posix_ok (companion : String → Except Int Nat) : Posix (posix companion) :=
  ⟨rfl, fun _ => rfl⟩

section Paths

variable {sheep : Sheep} {minor : Nat} {path path' : String} {nacname : List Char}

/-- One path is opened. -/
theorem Opens.path_eq (h : Opens sheep minor path) (h' : Opens sheep minor path') : path = path' := by
  have ho := posix_ok fun s => if s = path then .ok 0 else .error ENODEV
  have heq := (h _ ho).symm.trans (h' _ ho)
  simp only [posix, if_true] at heq
  by_contra hne
  rw [if_neg (Ne.symm hne)] at heq
  cases heq

/-- It ends in the first digit of the unit. -/
theorem opens_first_digit {c : Char} {rest : List Char} (hc : isdigit c)
    (hname : sheep.nacname = String.ofList (devNac ++ c :: rest)) (hminor : minor < NACMINOR_MAX) :
    Opens sheep minor (fmt.getD minor "" ++ c.toString) := by
  intro o ho
  have hmatch : o.regexec sheep.nacname = some 9 := by
    rw [ho.regexec, hname, String.toList_ofList, regexec_of_greatest (matchLengths_reg hc rest)]
    rfl
  have hchar : sheep.nacname.toList.getD (9 - 1) '0' = c := by
    rw [hname, String.toList_ofList]
    rfl
  rw [nacClone, if_neg (not_le.2 hminor), if_neg (by simp [ho.regcomp]), hmatch]
  dsimp only
  rw [hchar]

/-- A name that is made can be opened. -/
theorem Produced.exists_openedAs (hname : Produced nacname) :
    ∃ sheep, OpenedAs sheep (String.ofList nacname) := by
  obtain ⟨n, hn, rfl⟩ := produced_iff.1 hname
  have hsize : ∀ n < 100,
      (String.ofList (devNac ++ Nat.toDigits 10 n)).utf8ByteSize < NACNAME_SIZE := by
    decide +kernel
  have ho := posix_ok fun _ => .ok 4
  have hclone : (nacClone (posix fun _ => .ok 4) (String.ofList (devNac ++ Nat.toDigits 10 n))
      NACMINOR_IOM).isOk = true := by
    have hdigits := (unitDigits_toDigits hn).1.digits
    cases hd : Nat.toDigits 10 n with
    | nil => exact absurd hd Nat.toDigits_ne_nil
    | cons c rest =>
        rw [hd] at hdigits
        have hopens := @opens_first_digit { nacname := String.ofList (devNac ++ c :: rest) }
          NACMINOR_IOM c rest (hdigits c List.mem_cons_self) rfl (by decide)
        exact isOk_of_eq (hopens _ ho)
  rcases @nacOpen_cases 16 3 {} (String.ofList (devNac ++ Nat.toDigits 10 n))
      (posix fun _ => .ok 4) rfl with ⟨-, naciom, nacinf, addr, -, -, heq⟩ | ⟨hno, -⟩
  · exact ⟨_, 16, {}, _, _, _, heq, by decide, rfl⟩
  · exact absurd ⟨rfl, by decide, hsize n hn, hclone, rfl, rfl⟩ hno

/-- **The device is one of the same card** exactly for the units below 10. -/
theorem clone_same_unit_iff (hname : Produced nacname)
    (hopen : OpenedAs sheep (String.ofList nacname))
    (hminor : minor ∈ [NACMINOR_NAC, NACMINOR_MEM, NACMINOR_IOM]) :
    Opens sheep minor (companionPath minor (unit nacname)) ↔ unit nacname < 10 := by
  obtain ⟨hlt, hpath⟩ := hname.unit_eq
  have hbelow : minor < NACMINOR_MAX := by
    have hall : ∀ m ∈ [NACMINOR_NAC, NACMINOR_MEM, NACMINOR_IOM], m < NACMINOR_MAX := by decide
    exact hall minor hminor
  cases hdigits : Nat.toDigits 10 (unit nacname) with
  | nil => exact absurd hdigits Nat.toDigits_ne_nil
  | cons c rest =>
      have hc : isdigit c := (unitDigits_toDigits hlt).1.digits c (hdigits ▸ List.mem_cons_self)
      rw [hdigits] at hpath
      have hfirst := opens_first_digit hc (hopen.nacname_eq.trans (congrArg _ hpath)) hbelow
      rw [← toDigits_eq_singleton_iff, hdigits]
      constructor
      · intro h
        have heq := congrArg String.toList (hfirst.path_eq h)
        rw [companionPath, hdigits, String.toList_append, String.toList_append,
          List.append_cancel_left_eq, String.toList_ofList] at heq
        exact ⟨c, heq.symm.trans (String.toList_singleton c)⟩
      · rintro ⟨d, hd⟩
        cases hd
        rw [companionPath, hdigits]
        exact hfirst

/-- The registers of unit 7 are opened with it. -/
theorem clone_nac7 : ∃ sheep, OpenedAs sheep (String.ofList (devNac ++ ['7'])) ∧
    Opens sheep NACMINOR_IOM "/dev/naciom7" := by
  have hname : Produced (devNac ++ ['7']) := produced_iff.2 ⟨7, by decide, rfl⟩
  obtain ⟨sheep, hopen⟩ := hname.exists_openedAs
  exact ⟨sheep, hopen, (clone_same_unit_iff hname hopen (by decide)).2 (by decide)⟩

/-- With unit 12, those of unit 1. -/
theorem clone_nac12 : ∃ sheep, Produced (devNac ++ ['1', '2']) ∧
    OpenedAs sheep (String.ofList (devNac ++ ['1', '2'])) ∧
      Opens sheep NACMINOR_IOM "/dev/naciom1" ∧ ¬Opens sheep NACMINOR_IOM "/dev/naciom12" := by
  have hname : Produced (devNac ++ ['1', '2']) := produced_iff.2 ⟨12, by decide, rfl⟩
  obtain ⟨sheep, hopen⟩ := hname.exists_openedAs
  have hone : Opens sheep NACMINOR_IOM "/dev/naciom1" :=
    opens_first_digit (by decide) hopen.nacname_eq (by decide)
  exact ⟨sheep, hname, hopen, hone, fun h => absurd (hone.path_eq h) (by decide)⟩

end Paths

end NacCard.Lib
