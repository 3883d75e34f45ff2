import NacCard.Base.Tokens
import NacCard.Lib.Open

/-!
# Names of cards

`nac_parse_name` copies at most 16 characters of a name, cuts them at `:`, and looks for a unit
number at the end of the first part and for a stream number at the start of the second.

* `nacParseName` — the function; a name is its characters, up to the NUL.
* `Form` — the names it is for: `/dev/nac0:3`, `nac0:3` and `0:3`, with or without a stream, and
  the empty one; `nacParseName_form` tells what it makes of those.
* `Meets` — it makes of a name what the grammar says, or refuses it.
* `Accepted`, `Refused` — the names of the grammar there is room for, and those with a device that
  is found to be wrong.
* `parseName_meets_iff` — these are the names that are parsed as they should be.
-/

namespace NacCard.Lib

open NacCard.Base

/-! ## The function -/

/-- The characters of `/dev/nac`. -/
def devNac : List Char := ['/', 'd', 'e', 'v', '/', 'n', 'a', 'c']

/-- The characters of `nac`. -/
def nac : List Char := ['n', 'a', 'c']

/-- The size of `tokbuf`. -/
def TOKBUF_SIZE : Nat := 16

/-- What ends the device. -/
def deviceDelim (c : Char) : Bool := c == ':' || c == '\n'

/-- What ends the number of the stream. -/
def streamDelim (c : Char) : Bool := c == ' ' || c == '\t' || c == ':' || c == '\n'

/-- What the call returns, and what the caller finds in `errno`, where it is set, and in the two
results. -/
structure Parsed where
  result : Int
  errno : Option Int := none
  buffer : List Char
  streamNumber : Int
  deriving Repr, DecidableEq

/-- The first part of the copy, and what is behind it. -/
def deviceToken (name : List Char) : Except Overread (Option (List Char) × List Char) :=
  if name = [] then .ok (none, [])
  else strtok deviceDelim (name.length < TOKBUF_SIZE) (name.take TOKBUF_SIZE)

/-- `strstr` finds the prefix, where it is looked for. -/
def prefixFound (device : List Char) : Bool :=
  if device.head? = some '/' then devNac <:+: device
  else if device.head? = some 'd' then nac <:+: device
  else true

/-- The last digit, with the one before it. -/
def deviceNumber (device : List Char) : Option Nat :=
  let deviceChar := device.getD (device.length - 1) '0'
  if isdigit deviceChar then
    let tens := device.getD (device.length - 2) '0'
    if 2 ≤ device.length ∧ isdigit tens then some (digitValue deviceChar + 10 * digitValue tens)
    else some (digitValue deviceChar)
  else none

/-- The number of the stream, 0 where there is none. -/
def streamNumber (closed : Bool) (rest : List Char) : Except Overread Int :=
  match strtok streamDelim closed rest with
  | .error e => .error e
  | .ok (some stream, _) => .ok (if stream.head?.any isdigit then atoi stream else 0)
  | .ok (none, _) => .ok 0

/-- `buffer` and `stream` are what is in the two results before. -/
def nacParseName (name buffer : List Char) (buflen stream : Int) : Except Overread Parsed :=
  if buflen < 16 then
    .ok { result := -1, errno := some EINVAL, buffer := buffer, streamNumber := stream }
  else
    match deviceToken name with
    | .error e => .error e
    | .ok (none, _) => .ok { result := 0, buffer := devNac ++ ['0'], streamNumber := 0 }
    | .ok (some device, rest) =>
        match if prefixFound device then deviceNumber device else none with
        | none => .ok { result := -1, errno := some EINVAL, buffer := [], streamNumber := 0 }
        | some n =>
            match streamNumber (name.length < TOKBUF_SIZE) rest with
            | .error e => .error e
            | .ok s => .ok
                { result := 0
                  buffer := (devNac ++ Nat.toDigits 10 n).take (buflen - 1).toNat
                  streamNumber := s }

/-! ## The names it is for -/

/-- One or two digits. -/
inductive UnitDigits : List Char → Prop where
  | one {c : Char} (hc : isdigit c) : UnitDigits [c]
  | two {t c : Char} (ht : isdigit t) (hc : isdigit c) : UnitDigits [t, c]

/-- What may stand before the unit. -/
def prefixes : List (List Char) := [devNac, nac, []]

/-- `name` names the unit and the stream with these digits, or has none and means 0. -/
inductive Form : List Char → List Char → List Char → Prop where
  | empty : Form [] ['0'] ['0']
  | device {p n : List Char} (hp : p ∈ prefixes) (hn : UnitDigits n) : Form (p ++ n) n ['0']
  | stream {p n s : List Char} (hp : p ∈ prefixes) (hn : UnitDigits n) (hne : s ≠ [])
      (hs : ∀ c ∈ s, isdigit c) : Form (p ++ n ++ ':' :: s) n s

section Device

variable {p n : List Char}

theorem UnitDigits.digits (h : UnitDigits n) : ∀ c ∈ n, isdigit c := by
  cases h with
  | one hc => simpa using hc
  | two ht hc => simpa using ⟨ht, hc⟩

theorem UnitDigits.length (h : UnitDigits n) : n.length = 1 ∨ n.length = 2 := by
  cases h with
  | one => exact .inl rfl
  | two => exact .inr rfl

theorem UnitDigits.ne_nil (h : UnitDigits n) : n ≠ [] := by
  cases h <;> exact List.cons_ne_nil _ _

theorem digit_not_delim {c : Char} (h : isdigit c) : ¬deviceDelim c ∧ ¬streamDelim c := by
  obtain ⟨k, hk, rfl⟩ := isdigit_iff.1 h
  revert k
  decide

theorem digit_not_head {c : Char} (h : isdigit c) : c ≠ '/' ∧ c ≠ 'd' := by
  obtain ⟨k, hk, rfl⟩ := isdigit_iff.1 h
  revert k
  decide

theorem device_not_delim (hp : p ∈ prefixes) (hn : UnitDigits n) :
    ∀ c ∈ p ++ n, ¬deviceDelim c := by
  have hall : ∀ p ∈ prefixes, ∀ c ∈ p, ¬deviceDelim c := by
    simp [prefixes, devNac, nac, deviceDelim]
  intro c hc
  rcases List.mem_append.1 hc with hc | hc
  · exact hall p hp c hc
  · exact (digit_not_delim (hn.digits c hc)).1

theorem device_length (hp : p ∈ prefixes) (hn : UnitDigits n) : (p ++ n).length < TOKBUF_SIZE := by
  have hall : ∀ p ∈ prefixes, p.length < 14 := by simp [prefixes, devNac, nac]
  have hp := hall p hp
  rw [List.length_append, TOKBUF_SIZE]
  rcases hn.length with h | h <;> omega

theorem prefixFound_form (hp : p ∈ prefixes) (hn : UnitDigits n) : prefixFound (p ++ n) := by
  simp only [prefixes, List.mem_cons, List.not_mem_nil, or_false] at hp
  rcases hp with rfl | rfl | rfl
  · rw [prefixFound, if_pos (show (devNac ++ n).head? = some '/' from rfl)]
    exact decide_eq_true (List.prefix_append devNac n).isInfix
  · simp [prefixFound, nac]
  · cases hn with
    | one hc => simp [prefixFound, digit_not_head hc]
    | two ht => simp [prefixFound, digit_not_head ht]

/-- No prefix ends in a digit, so no third one is read. -/
theorem deviceNumber_form (hp : p ∈ prefixes) (hn : UnitDigits n) :
    deviceNumber (p ++ n) = some (decValue n) := by
  have hletter : isdigit 'c' = false := by decide
  simp only [prefixes, List.mem_cons, List.not_mem_nil, or_false] at hp
  rcases hp with rfl | rfl | rfl <;> cases hn with
  | one hc => simp [deviceNumber, decValue_one, devNac, nac, hc, hletter]
  | two ht hc => simp [deviceNumber, decValue_two, devNac, nac, ht, hc, add_comm]

theorem UnitDigits.lt (h : UnitDigits n) : decValue n < 100 := by
  cases h with
  | one hc =>
      rw [decValue_one]
      exact (digitValue_lt hc).trans (by decide)
  | two ht hc =>
      have hlt := digitValue_lt ht
      have hlc := digitValue_lt hc
      rw [decValue_two]
      omega

end Device

/-- Whatever number is printed, it is one of two digits. -/
theorem deviceNumber_lt {device : List Char} {n : Nat} (h : deviceNumber device = some n) :
    n < 100 := by
  simp only [deviceNumber] at h
  split_ifs at h with hlast htens
  · have hlt := digitValue_lt hlast
    have htl := digitValue_lt htens.2
    cases h
    omega
  · have hlt := digitValue_lt hlast
    cases h
    omega

theorem deviceNumber_none_iff {device : List Char} (hne : device ≠ []) :
    deviceNumber device = none ↔ ∀ c ∈ device.getLast?, ¬isdigit c := by
  have hlast : device.getLast? = some (device.getD (device.length - 1) '0') := by
    rw [List.getLast?_eq_getElem?, List.getD_eq_getElem?_getD]
    have hlen := List.length_pos_iff.2 hne
    rw [List.getElem?_eq_getElem (by omega)]
    rfl
  rw [hlast]
  simp only [deviceNumber]
  split_ifs with hdigit htens
  · exact ⟨nofun, fun h => absurd hdigit (h _ rfl)⟩
  · exact ⟨nofun, fun h => absurd hdigit (h _ rfl)⟩
  · refine iff_of_true rfl fun c hc => ?_
    cases hc
    exact hdigit

/-- The path fits in the buffer. -/
theorem path_take {n : Nat} {buflen : Int} (hn : n < 100) (hbuf : 16 ≤ buflen) :
    (devNac ++ Nat.toDigits 10 n).take (buflen - 1).toNat = devNac ++ Nat.toDigits 10 n := by
  have hall : ∀ n < 100, (devNac ++ Nat.toDigits 10 n).length ≤ 15 := by decide
  exact List.take_of_length_le ((hall n hn).trans (by omega))

/-! ## What is made of them -/

section Parts

variable {p n s tail name device rest : List Char}

theorem deviceToken_some_iff : deviceToken name = .ok (some device, rest) ↔
    ∃ tail, FirstToken deviceDelim (name.take TOKBUF_SIZE) device tail ∧
      (tail = [] → name.length < TOKBUF_SIZE) ∧ rest = tail.tail := by
  by_cases hname : name = []
  · rw [deviceToken, if_pos hname]
    refine iff_of_false nofun ?_
    rintro ⟨tail, ⟨lead, heq, -, hdevice, -⟩, -⟩
    simp [hname, hdevice] at heq
  · rw [deviceToken, if_neg hname, strtok_some_iff]
    simp only [decide_eq_true_eq]

/-- The first part of such a name is all of its device, and the copy has room for it. -/
theorem firstToken_form (hp : p ∈ prefixes) (hn : UnitDigits n)
    (htail : ∀ c ∈ tail.head?, deviceDelim c) :
    FirstToken deviceDelim ((p ++ n ++ tail).take TOKBUF_SIZE) (p ++ n)
      (tail.take (TOKBUF_SIZE - (p ++ n).length)) := by
  refine ⟨[], ?_, by simp, ?_, device_not_delim hp hn, ?_⟩
  · rw [List.nil_append, List.take_append, List.take_of_length_le (device_length hp hn).le]
  · simp [hn.ne_nil]
  · intro c hc
    rw [List.head?_take, if_neg (Nat.sub_ne_zero_of_lt (device_length hp hn))] at hc
    exact htail c hc

/-- Digits that end in the copy are read as a number. -/
theorem streamNumber_digits (hne : s ≠ []) (hs : ∀ c ∈ s, isdigit c) :
    streamNumber true s = .ok (atoi s) := by
  have hfirst : FirstToken streamDelim s s [] :=
    ⟨[], by simp, by simp, hne, fun c hc => (digit_not_delim (hs c hc)).2, by simp⟩
  rw [streamNumber, strtok_some_iff.2 ⟨[], hfirst, fun _ => rfl, rfl⟩]
  cases s with
  | nil => exact absurd rfl hne
  | cons c s => simp [hs c List.mem_cons_self]

/-- Where they do not, what is behind the copy is read. -/
theorem streamNumber_open (hs : ∀ c ∈ s, isdigit c) : streamNumber false s = .error .overread := by
  cases s with
  | nil => rfl
  | cons c t =>
      have hfirst : FirstToken streamDelim (c :: t) (c :: t) [] :=
        ⟨[], by simp, by simp, by simp, fun d hd => (digit_not_delim (hs d hd)).2, by simp⟩
      rw [streamNumber, strtok_of_firstToken hfirst, if_pos ⟨rfl, rfl⟩]

end Parts

/-- The stream is 0 where none is named. -/
theorem atoi_absent : atoi ['0'] = 0 := by decide

section Names

variable {name n s buffer : List Char} {buflen stream : Int}

/-- `/dev/nacN`, with the unit as it is printed. -/
def unitPath (n : List Char) : List Char := devNac ++ Nat.toDigits 10 (decValue n)

/-- **What a name of the grammar becomes**: of 16 characters or more, it is read beyond the copy;
of less, it leads to the path of its unit and the number that `atoi` makes of its stream. -/
theorem nacParseName_form (h : Form name n s) (hbuf : 16 ≤ buflen) :
    nacParseName name buffer buflen stream =
      if name.length < 16 then
        .ok { result := 0, buffer := unitPath n, streamNumber := atoi s }
      else .error .overread := by
  rw [nacParseName, if_neg (not_lt.2 hbuf)]
  cases h with
  | empty =>
      rw [atoi_absent]
      rfl
  | @device p _ hp hn =>
      have hlen := device_length hp hn
      have hfirst := @firstToken_form p n [] hp hn (by simp)
      rw [List.append_nil, List.take_nil] at hfirst
      rw [deviceToken_some_iff.2 ⟨[], hfirst, fun _ => hlen, rfl⟩, if_pos (show _ < 16 from hlen)]
      simp only [prefixFound_form hp hn, if_true, deviceNumber_form hp hn, decide_eq_true hlen,
        path_take hn.lt hbuf, atoi_absent]
      rfl
  | @stream p _ _ hp hn hne hs =>
      have hlen := device_length hp hn
      obtain ⟨k, hk⟩ := Nat.exists_eq_add_of_lt hlen
      have hfirst := @firstToken_form p n (':' :: s) hp hn (by simp [deviceDelim])
      rw [show TOKBUF_SIZE - (p ++ n).length = k + 1 by omega, List.take_succ_cons] at hfirst
      rw [deviceToken_some_iff.2 ⟨_, hfirst, nofun, rfl⟩]
      simp only [prefixFound_form hp hn, if_true, deviceNumber_form hp hn, path_take hn.lt hbuf,
        List.tail_cons]
      have hname : (p ++ n ++ ':' :: s).length = (p ++ n).length + 1 + s.length := by
        simp only [List.length_append, List.length_cons]
        omega
      by_cases hfits : (p ++ n ++ ':' :: s).length < TOKBUF_SIZE
      · rw [decide_eq_true hfits, if_pos (show _ < 16 from hfits),
          List.take_of_length_le (by omega), streamNumber_digits hne hs]
        rfl
      · rw [decide_eq_false hfits, if_neg (show ¬_ < 16 from hfits),
          streamNumber_open fun c hc => hs c (List.mem_of_mem_take hc)]

/-- `0` alone and a stream that is not named are numbers as well. -/
theorem Form.digits (h : Form name n s) : UnitDigits n ∧ ∀ c ∈ s, isdigit c := by
  have hzero : isdigit '0' := by decide
  cases h with
  | empty => exact ⟨.one hzero, by simpa using hzero⟩
  | device _ hn => exact ⟨hn, by simpa using hzero⟩
  | stream _ hn _ hs => exact ⟨hn, hs⟩

/-! ## Which names are parsed as they should -/

/-- The name leads to the path of its unit, which `path` makes of the digits, and to its stream;
one that is not in the grammar is refused. -/
structure Meets (path : List Char → List Char) (name buffer : List Char)
    (buflen stream : Int) : Prop where
  accepted : ∀ n s, Form name n s → ∃ out, nacParseName name buffer buflen stream = .ok out ∧
    out.result = 0 ∧ out.buffer = path n ∧ out.streamNumber = decValue s
  refused : (¬∃ n s, Form name n s) → ∃ out, nacParseName name buffer buflen stream = .ok out ∧
    out.result = -1

/-- A name of the grammar that the copy and the stream number have room for. -/
structure Accepted (name : List Char) : Prop where
  form : ∃ n s, Form name n s
  fits : name.length < 16
  inRange : ∀ n s, Form name n s → decValue s < 2147483648

/-- What `nac_parse_name` finds wrong with a device. -/
def BadDevice (device : List Char) : Prop :=
  device.head? = some '/' ∧ ¬devNac <:+: device ∨ device.head? = some 'd' ∧ ¬nac <:+: device ∨
    ∀ c ∈ device.getLast?, ¬isdigit c

/-- Up to the first `:`, which is among 16 characters or behind all of the name, there is a
device that is bad. -/
def Refused (name : List Char) : Prop :=
  ∃ device tail, FirstToken deviceDelim (name.take TOKBUF_SIZE) device tail ∧
    (tail = [] → name.length < TOKBUF_SIZE) ∧ BadDevice device

theorem badDevice_iff {device : List Char} (hne : device ≠ []) : BadDevice device ↔
    (if prefixFound device then deviceNumber device else none) = none := by
  rw [BadDevice, ← deviceNumber_none_iff hne, prefixFound]
  by_cases hslash : device.head? = some '/'
  · simp [hslash, imp_iff_not_or]
  · by_cases hd : device.head? = some 'd'
    · simp [hd, imp_iff_not_or]
    · simp [hslash, hd]

/-- **Refused** is a name with a bad device, whatever is behind it. -/
theorem nacParseName_refused_iff (hbuf : 16 ≤ buflen) :
    (∃ out, nacParseName name buffer buflen stream = .ok out ∧ out.result = -1) ↔
      Refused name := by
  rw [nacParseName, if_neg (not_lt.2 hbuf)]
  constructor
  · rintro ⟨out, hparse, hresult⟩
    cases hdevice : deviceToken name with
    | error => simp [hdevice] at hparse
    | ok token =>
        obtain ⟨_ | device, rest⟩ := token
        · simp only [hdevice] at hparse
          cases hparse
          cases hresult
        · obtain ⟨tail, hfirst, hend, -⟩ := deviceToken_some_iff.1 hdevice
          refine ⟨device, tail, hfirst, hend, (badDevice_iff hfirst.choose_spec.2.2.1).2 ?_⟩
          simp only [hdevice] at hparse
          split at hparse
          · assumption
          · split at hparse
            · cases hparse
            · cases hparse
              cases hresult
  · rintro ⟨device, tail, hfirst, hend, hbad⟩
    have hnone := (badDevice_iff hfirst.choose_spec.2.2.1).1 hbad
    refine ⟨{ result := -1, errno := some EINVAL, buffer := [], streamNumber := 0 }, ?_, rfl⟩
    simp only [deviceToken_some_iff.2 ⟨tail, hfirst, hend, rfl⟩, hnone]

/-- A name of the grammar is not refused. -/
theorem Form.not_refused (h : Form name n s) : ¬Refused name := by
  intro hrefused
  obtain ⟨out, hparse, hresult⟩ :=
    (@nacParseName_refused_iff name [] 16 0 (le_refl 16)).2 hrefused
  rw [nacParseName_form h (le_refl 16)] at hparse
  split_ifs at hparse
  cases hparse
  cases hresult

/-- A path is met by a name of the grammar exactly where there is room for it. -/
theorem form_meets_iff (hbuf : 16 ≤ buflen) (h : Form name n s) (path : List Char → List Char) :
    (∃ out, nacParseName name buffer buflen stream = .ok out ∧
      out.result = 0 ∧ out.buffer = path n ∧ out.streamNumber = decValue s) ↔
    name.length < 16 ∧ decValue s < 2147483648 ∧ unitPath n = path n := by
  rw [nacParseName_form h hbuf, ← atoi_eq_iff h.digits.2]
  split_ifs with hlen
  · constructor
    · rintro ⟨out, hparse, -, hpath, hstream⟩
      cases hparse
      dsimp only at hpath hstream
      exact ⟨hlen, hstream, hpath⟩
    · rintro ⟨-, hstream, hpath⟩
      refine ⟨{ result := 0, buffer := unitPath n, streamNumber := atoi s }, rfl, rfl, ?_⟩
      dsimp only
      exact ⟨hpath, hstream⟩
  · constructor
    · rintro ⟨out, hparse, -⟩
      cases hparse
    · rintro ⟨hlen', -⟩
      exact absurd hlen' hlen

theorem meets_iff (hbuf : 16 ≤ buflen) (path : List Char → List Char) :
    Meets path name buffer buflen stream ↔
      Accepted name ∧ (∀ n s, Form name n s → unitPath n = path n) ∨ Refused name := by
  constructor
  · intro h
    by_cases hform : ∃ n s, Form name n s
    · have hall := fun n s hf => (form_meets_iff hbuf hf path).1 (h.accepted n s hf)
      obtain ⟨n, s, hf⟩ := hform
      exact .inl ⟨⟨⟨n, s, hf⟩, (hall n s hf).1, fun n s hf => (hall n s hf).2.1⟩,
        fun n s hf => (hall n s hf).2.2⟩
    · exact .inr ((nacParseName_refused_iff hbuf).1 (h.refused hform))
  · rintro (⟨haccepted, hpath⟩ | hrefused)
    · refine ⟨fun n s hf => (form_meets_iff hbuf hf path).2
        ⟨haccepted.fits, haccepted.inRange n s hf, hpath n s hf⟩, fun hnone => ?_⟩
      exact absurd haccepted.form hnone
    · exact ⟨fun n s hf => absurd hrefused hf.not_refused,
        fun _ => (nacParseName_refused_iff hbuf).2 hrefused⟩

/-- The digits of a unit, as they were written, behind `/dev/nac`. -/
def writtenPath (n : List Char) : List Char := devNac ++ n

theorem unitPath_eq_iff (h : UnitDigits n) :
    unitPath n = writtenPath n ↔ n.length = 2 → n.head? ≠ some '0' := by
  rw [unitPath, writtenPath, List.append_cancel_left_eq]
  cases h with
  | one hc =>
      rw [decValue_one, toDigits_one hc]
      simp
  | two ht hc =>
      rw [decValue_two, toDigits_two_iff ht hc]
      simp

/-- **A name is parsed as the grammar says** exactly where it is in it and there is room for it, or
its device is one of those that are refused; to get the path with the unit as it was written, it
must not have been written with a leading 0. -/
theorem parseName_meets_iff (hbuf : 16 ≤ buflen) :
    (Meets unitPath name buffer buflen stream ↔ Accepted name ∨ Refused name) ∧
      (Meets writtenPath name buffer buflen stream ↔
        Accepted name ∧ (∀ n s, Form name n s → n.length = 2 → n.head? ≠ some '0') ∨
          Refused name) := by
  constructor
  · rw [meets_iff hbuf]
    simp
  · rw [meets_iff hbuf]
    have hpath : (∀ n s, Form name n s → unitPath n = writtenPath n) ↔
        ∀ n s, Form name n s → n.length = 2 → n.head? ≠ some '0' :=
      forall₃_congr fun n s hf => unitPath_eq_iff hf.digits.1
    rw [hpath]

/-- `d7` is refused, as it begins like none of them. -/
theorem parseName_d7 : Meets unitPath ['d', '7'] [] 16 0 := by
  refine (parseName_meets_iff (le_refl 16)).1.2 (.inr ⟨['d', '7'], [], ?_, by decide, ?_⟩)
  · exact ⟨[], rfl, by simp, by simp, by simp [deviceDelim], by simp⟩
  · exact .inr (.inl ⟨rfl, by decide⟩)

/-- `n7` begins like none of them either. -/
theorem n7_not_form : ¬Form ['n', '7'] n s := by
  generalize hname : ['n', '7'] = name
  intro h
  cases h with
  | empty => cases hname
  | device hp hn =>
      simp only [prefixes, List.mem_cons, List.not_mem_nil, or_false] at hp
      rcases hp with rfl | rfl | rfl
      · simp [devNac] at hname
      · simp [nac] at hname
      · have hmem : 'n' ∈ n := (show ['n', '7'] = n from hname) ▸ List.mem_cons_self
        have hdigit := hn.digits 'n' hmem
        exact absurd hdigit (by decide)
  | stream hp hn =>
      simp only [prefixes, List.mem_cons, List.not_mem_nil, or_false] at hp
      rcases hp with rfl | rfl | rfl
      · simp [devNac] at hname
      · simp [nac] at hname
      · cases hn with
        | one => simp at hname
        | two => simp at hname

/-- It is accepted all the same; and the end of `/dev/nac12:12345` is looked for behind the
copy. -/
theorem parseName_n7 : ¬Meets unitPath ['n', '7'] [] 16 0 ∧
    ¬Meets unitPath (devNac ++ ['1', '2'] ++ ':' :: ['1', '2', '3', '4', '5']) [] 16 0 := by
  constructor
  · intro h
    obtain ⟨out, hparse, hresult⟩ := h.refused fun ⟨n, s, hform⟩ => n7_not_form hform
    have haccepted : nacParseName ['n', '7'] [] 16 0 =
        .ok { result := 0, buffer := devNac ++ ['7'], streamNumber := 0 } := by decide +kernel
    rw [haccepted] at hparse
    cases hparse
    cases hresult
  · intro h
    obtain ⟨out, hparse, -⟩ := h.accepted _ _
      (.stream (by decide) (.two (by decide) (by decide)) (by decide) (by simp [isdigit]))
    have hover : nacParseName (devNac ++ ['1', '2'] ++ ':' :: ['1', '2', '3', '4', '5']) [] 16 0 =
        .error .overread := by decide +kernel
    rw [hover] at hparse
    cases hparse

example : nacParseName ['n', 'a', 'c', '0', ':', '3'] [] 16 0 =
    .ok { result := 0, buffer := devNac ++ ['0'], streamNumber := 3 } := by decide +kernel

end Names

end NacCard.Lib
