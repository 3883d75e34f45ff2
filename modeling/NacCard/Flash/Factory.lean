import NacCard.Flash.Chip

/-!
# Enhanced factory programming

`buffer_enhanced_factory_program_command` hands words to the flash without addresses, 32 at a time.

* `Session` — what has been written, and what reads are still to be answered.
* `factoryProgram` — the function, on the status words it reads; `factoryProgram_returns` — it comes
  to its end when the flash is never busy.
* `dataWords` — what is written between the two words that begin the command and `0xffff`.
* `factoryProgram_data` — these are the first 32 words, once for each 32 of `count`.
* `factoryProgram_whole_iff` — which data they are all of.
-/

namespace NacCard.Flash

open NacCard.Base

/-! ## The function -/

/-- The write cycles so far, and the answers of the status register to come. -/
structure Session where
  written : List (Nat × UInt16)
  answers : List UInt16
  deriving Repr, DecidableEq

namespace Session

/-- `flash_write` -/
def write (s : Session) (addr : Nat) (data : UInt16) : Session :=
  if addr > 0x7fffff then s else { s with written := s.written ++ [(addr, data)] }

/-- `do stat_reg.value = flash_read(nacfd, addr); while (…)`: the first answer that ends it, and
what is left of the answers. -/
def poll (busy : UInt16 → Bool) : List UInt16 → Except Stop (UInt16 × List UInt16)
  | [] => .error .hang
  | stat :: rest => if busy stat then poll busy rest else .ok (stat, rest)

/-- No value is read outside the flash. -/
def wait (s : Session) (addr : Nat) (busy : UInt16 → Bool) : Except Stop Session :=
  if addr > 0x7fffff then .error .undefined
  else do
    let (_, rest) ← poll busy s.answers
    .ok { s with answers := rest }

end Session

/-- `sr0` of the status. -/
def sr0 (stat : UInt16) : Bool := stat &&& 0x1 ≠ 0
/-- `sr7` of the status. -/
def sr7 (stat : UInt16) : Bool := stat &&& 0x80 ≠ 0

/-- 32 words, then a wait; `data_flow` is an array of words. -/
def factoryChunk (startAddr : Nat) (dataFlow : List UInt16) (s : Session) : Except Stop Session := do
  let s ← (List.range 32).foldlM (fun s i => do
    let w ← readWord dataFlow i
    .ok (s.write startAddr w)) s
  s.wait startAddr sr0

/-- The errors in the status are printed. -/
def factoryProgram (startAddr count : Nat) (dataFlow : List UInt16) (s : Session) :
    Except Stop Session :=
  let remainder := count % 32
  if remainder ≠ 0 then .ok s
  else do
    let s := s.write startAddr 0x80
    let s := s.write startAddr 0xd0
    let s ← s.wait startAddr sr7
    let s ← (List.range (count / 32)).foldlM (fun s _ => factoryChunk startAddr dataFlow s) s
    let s := s.write startAddr 0xffff
    s.wait startAddr fun stat => !sr7 stat

/-- What is written for the data. -/
def dataWords (s : Session) : List UInt16 := ((s.written.drop 2).dropLast).map Prod.snd

/-! ## What is written -/

section Written

variable {startAddr count : Nat} {dataFlow : List UInt16} {s s' : Session} {busy : UInt16 → Bool}

theorem Session.wait_ok (h : s.wait startAddr busy = .ok s') :
    startAddr ≤ 0x7fffff ∧ s'.written = s.written := by
  unfold Session.wait at h
  split_ifs at h with haddr
  obtain ⟨⟨stat, rest⟩, -, hrest⟩ := exists_of_bind h
  cases hrest
  exact ⟨not_lt.1 haddr, rfl⟩

theorem Session.write_written (haddr : startAddr ≤ 0x7fffff) (data : UInt16) :
    (s.write startAddr data).written = s.written ++ [(startAddr, data)] := by
  rw [Session.write, if_neg (not_lt.2 haddr)]

@[simp] theorem Session.write_answers (s : Session) (addr : Nat) (data : UInt16) :
    (s.write addr data).answers = s.answers := by
  unfold Session.write
  split_ifs <;> rfl

theorem factoryChunk_ok (haddr : startAddr ≤ 0x7fffff) (hlen : 32 ≤ dataFlow.length)
    (h : factoryChunk startAddr dataFlow s = .ok s') :
    s'.written = s.written ++ (dataFlow.take 32).map fun w => (startAddr, w) := by
  obtain ⟨s1, hloop, hwait⟩ := exists_of_bind h
  rw [(Session.wait_ok hwait).2]
  refine foldlM_range_of_ok (fun i t => t.written = s.written ++
    (dataFlow.take i).map fun w => (startAddr, w)) ?_ (by simp) hloop
  intro i t t' hi ht hbody
  obtain ⟨w, hread, hwrite⟩ := exists_of_bind hbody
  have hget : dataFlow[i]? = some dataFlow[i] := List.getElem?_eq_getElem (by omega)
  rw [readWord, hget] at hread
  cases hread
  cases hwrite
  rw [Session.write_written haddr, ht, List.append_assoc, ← List.take_concat_get' _ i (by omega),
    List.map_append]
  rfl

theorem factoryChunk_returns (haddr : startAddr ≤ 0x7fffff) (hlen : 32 ≤ dataFlow.length)
    {rest : List UInt16} (hans : s.answers = 0x0 :: rest) :
    ∃ s', factoryChunk startAddr dataFlow s = .ok s' ∧ s'.answers = rest := by
  obtain ⟨s1, hloop, hkept⟩ : ∃ s1, (List.range 32).foldlM (fun s i => do
      let w ← readWord dataFlow i
      .ok (s.write startAddr w)) s = .ok s1 ∧ s1.answers = 0x0 :: rest := by
    refine foldlM_range (fun _ (t : Session) => t.answers = 0x0 :: rest) ?_ hans
    intro i t hi ht
    have hget : dataFlow[i]? = some dataFlow[i] := List.getElem?_eq_getElem (by omega)
    refine ⟨t.write startAddr dataFlow[i], ?_, ?_⟩
    · rw [readWord, hget]
      rfl
    · rwa [Session.write_answers]
  refine ⟨{ s1 with answers := rest }, ?_, rfl⟩
  rw [factoryChunk, hloop]
  show s1.wait startAddr sr0 = _
  rw [Session.wait, if_neg (not_lt.2 haddr), hkept]
  rfl

/-- It comes to its end with a flash that is never busy. -/
theorem factoryProgram_returns (haddr : startAddr ≤ 0x7fffff) (hcount : count % 32 = 0)
    (hlen : dataFlow.length = count) :
    ∃ s', factoryProgram startAddr count dataFlow
      ⟨[], 0x0 :: (List.replicate (count / 32) 0x0 ++ [0x80])⟩ = .ok s' := by
  rw [factoryProgram, if_neg (not_not.2 hcount)]
  obtain ⟨s1, hloop, hleft⟩ : ∃ s1, (List.range (count / 32)).foldlM
      (fun s _ => factoryChunk startAddr dataFlow s)
      ⟨[(startAddr, 0x80), (startAddr, 0xd0)], List.replicate (count / 32) 0x0 ++ [0x80]⟩
        = .ok s1 ∧ s1.answers = [0x80] := by
    have hrun := foldlM_range (f := fun s _ => factoryChunk startAddr dataFlow s)
      (fun i (t : Session) => t.answers = List.replicate (count / 32 - i) 0x0 ++ [0x80])
      (n := count / 32)
      (s := ⟨[(startAddr, 0x80), (startAddr, 0xd0)], List.replicate (count / 32) 0x0 ++ [0x80]⟩)
      ?_ rfl
    · simpa using hrun
    · intro i t hi ht
      rw [show count / 32 - i = (count / 32 - (i + 1)) + 1 by omega, List.replicate_succ] at ht
      exact factoryChunk_returns haddr (by omega) ht
  simp only [Session.write, if_neg (not_lt.2 haddr), Session.wait, List.nil_append]
  rw [show Session.poll sr7 (0x0 :: (List.replicate (count / 32) 0x0 ++ [0x80])) =
    .ok (0x0, List.replicate (count / 32) 0x0 ++ [0x80]) from rfl]
  refine ⟨⟨s1.written ++ [(startAddr, 0xffff)], []⟩, ?_⟩
  show ((List.range (count / 32)).foldlM (fun s _ => factoryChunk startAddr dataFlow s)
    ⟨[(startAddr, 0x80), (startAddr, 0xd0)], List.replicate (count / 32) 0x0 ++ [0x80]⟩ >>= _) = _
  rw [hloop]
  show (do
    let (_, rest) ← Session.poll (fun stat => !sr7 stat) s1.answers
    Except.ok (⟨s1.written ++ [(startAddr, 0xffff)], rest⟩ : Session)) = _
  rw [hleft]
  rfl

/-- **The first chunk again and again.** -/
theorem factoryProgram_data {answers : List UInt16} (hcount : count % 32 = 0)
    (hlen : dataFlow.length = count)
    (h : factoryProgram startAddr count dataFlow ⟨[], answers⟩ = .ok s') :
    dataWords s' = (List.replicate (count / 32) (dataFlow.take 32)).flatten := by
  rw [factoryProgram, if_neg (not_not.2 hcount)] at h
  obtain ⟨s1, hsetup, hrest⟩ := exists_of_bind h
  obtain ⟨s2, hloop, hlast⟩ := exists_of_bind hrest
  obtain ⟨haddr, hsetup⟩ := Session.wait_ok hsetup
  have hchunks : s2.written = s1.written ++
      (List.replicate (count / 32) (dataFlow.take 32)).flatten.map fun w => (startAddr, w) := by
    refine foldlM_range_of_ok (fun i t => t.written = s1.written ++
      (List.replicate i (dataFlow.take 32)).flatten.map fun w => (startAddr, w)) ?_ (by simp) hloop
    intro i t t' hi ht hbody
    rw [factoryChunk_ok haddr (by omega) hbody, ht, List.replicate_succ', List.flatten_concat,
      List.map_append, List.append_assoc]
  rw [Session.write_written haddr, Session.write_written haddr] at hsetup
  rw [dataWords, (Session.wait_ok hlast).2, Session.write_written haddr, hchunks, hsetup]
  simp [Function.comp_def]

/-- **All of the data is sent** exactly where every word is repeated 32 words later. -/
theorem factoryProgram_whole_iff {answers : List UInt16} (hcount : count % 32 = 0)
    (hlen : dataFlow.length = count)
    (h : factoryProgram startAddr count dataFlow ⟨[], answers⟩ = .ok s') :
    dataWords s' = dataFlow ↔ ∀ k < count, dataFlow[k]? = dataFlow[k % 32]? := by
  rw [factoryProgram_data hcount hlen h]
  by_cases hzero : count = 0
  · have hnil : dataFlow = [] := List.length_eq_zero_iff.1 (hlen.trans hzero)
    simp [hzero, hnil]
  · have hfull : (dataFlow.take 32).length = 32 := by
      rw [List.length_take]
      omega
    have hsame (k : Nat) (hk : k < count) :
        (List.replicate (count / 32) (dataFlow.take 32)).flatten[k]? = dataFlow[k % 32]? := by
      rw [getElem?_flatten_replicate _ (by rw [hfull]; omega), hfull,
        List.getElem?_take_of_lt (Nat.mod_lt k (by decide))]
    constructor
    · intro heq k hk
      rw [← hsame k hk, heq]
    · intro hper
      apply List.ext_getElem?
      intro k
      by_cases hk : k < count
      · rw [hsame k hk, hper k hk]
      · rw [List.getElem?_eq_none, List.getElem?_eq_none]
        · rw [hlen]
          exact not_lt.1 hk
        · have hall : (List.replicate (count / 32) (dataFlow.take 32)).flatten.length = count := by
            rw [List.length_flatten, List.map_replicate, List.sum_replicate_nat, hfull]
            omega
          rw [hall]
          exact not_lt.1 hk

/-- 64 words, the second half like the first. -/
theorem factoryProgram_whole_twice :
    64 % 32 = 0 ∧ (List.replicate 2 ((List.range 32).map UInt16.ofNat)).flatten.length = 64 ∧
      ∃ s', factoryProgram 0x10000 64 (List.replicate 2 ((List.range 32).map UInt16.ofNat)).flatten
          ⟨[], [0x0, 0x0, 0x1, 0x0, 0x0, 0x80]⟩ = .ok s' ∧
        dataWords s' = (List.replicate 2 ((List.range 32).map UInt16.ofNat)).flatten := by
  refine ⟨rfl, rfl, _, rfl, ?_⟩
  refine (@factoryProgram_whole_iff 0x10000 64 _ _ [0x0, 0x0, 0x1, 0x0, 0x0, 0x80]
    rfl rfl rfl).2 ?_
  decide +kernel

/-- 64 words that all differ: the second half is never sent. -/
theorem factoryProgram_cut :
    (factoryProgram 0x10000 64 ((List.range 64).map UInt16.ofNat) ⟨[], [0x0, 0x0, 0x0, 0x80]⟩).map
        dataWords = .ok (((List.range 32).map UInt16.ofNat) ++ ((List.range 32).map UInt16.ofNat)) ∧
      ((List.range 32).map UInt16.ofNat) ++ ((List.range 32).map UInt16.ofNat) ≠
        (List.range 64).map UInt16.ofNat := by
  constructor <;> decide +kernel

end Written

end NacCard.Flash
