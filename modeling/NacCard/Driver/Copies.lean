import NacCard.Driver.Files

/-!
# Reading and writing, in the types of the kernel

`nac_mem_read` and the three functions like it, with a signed 64-bit position, an unsigned 64-bit
size and areas of 32-bit sizes.

* `Request` — what the kernel passes.
* `Vfs.memCopy`, `Vfs.iomCopy` — the functions; `memCopy_eq`, `iomCopy_eq` — they are those of
  the operations on files, where no sum can overflow.
* `KeepsTo` — what is accessed, and how far the position moves.
* `copies_keepTo` — all four.
-/

namespace NacCard.Driver

open NacCard.Base

/-! ## The functions -/

/-- A position and a size that the kernel lets through. -/
structure Request where
  ppos : Int
  count : Nat
  ppos_nonneg : 0 ≤ ppos
  ppos_lt : ppos < 9223372036854775808
  count_lt : count < 9223372036854775808

/-- What is returned, the position afterwards, and the bytes that are accessed. -/
structure Transfer where
  rc : Int
  ppos : Int
  access : Option (Int × Nat) := none
  deriving Repr, DecidableEq

/-- How many of `n` bytes `copy_to_user` and `copy_from_user` do not copy. -/
abbrev Uncopied := (n : Nat) → Fin (n + 1)

namespace Vfs

/-- From the copy to the end. -/
def copied (ppos : Int) (count : Nat) (left : Uncopied) : Transfer :=
  let remain : Nat := left count
  { rc := if remain = count then -EINVAL else i64 (u64 ((count : Int) - remain))
    ppos := i64 (u64 (u64 ppos + u64 ((count : Int) - remain)))
    access := some (ppos, count) }

/-- `nac_mem_read` and `nac_mem_write`, but for what is returned at the end of the buffer; with the
conversions of C between `loff_t` and `size_t`. -/
def memCopy (atEnd : Int) (sc : Softc) (ppos : Int) (count : Nat) (left : Uncopied) : Transfer :=
  if sc.mmbuf = 0 then { rc := - ENXIO, ppos := ppos }
  else if ppos ≥ sc.bufSize then { rc := atEnd, ppos := ppos }
  else
    let count := if u64 (u64 ppos + count) > sc.bufSize then u64 (sc.bufSize - ppos) else count
    if count = 0 then { rc := atEnd, ppos := ppos }
    else copied ppos count left

/-- `nac_iom_read` and `nac_iom_write`: whole words of the registers, at word offsets. -/
def iomCopy (sc : Softc) (ppos : Int) (count : Nat) (left : Uncopied) : Transfer :=
  if ppos > sc.mmioSize then { rc := 0, ppos := ppos }
  else
    let count := if u64 (u64 ppos + count) > sc.mmioSize then u64 (sc.mmioSize - ppos) else count
    if count = 0 then { rc := 0, ppos := ppos }
    else if ppos % 4 ≠ 0 then { rc := -EFAULT, ppos := ppos }
    else if count % 4 ≠ 0 then { rc := -EFAULT, ppos := ppos }
    else copied ppos count left

/-- `nac_mem_read`: nothing is read at the end of the buffer. -/
def nacMemRead : Softc → Int → Nat → Uncopied → Transfer := memCopy 0

/-- `nac_mem_write`: at the end of the buffer there is no space left. -/
def nacMemWrite : Softc → Int → Nat → Uncopied → Transfer := memCopy (-ENOSPC)

/-- `nac_iom_read`: words of the registers. -/
def nacIomRead : Softc → Int → Nat → Uncopied → Transfer := iomCopy

/-- `nac_iom_write`: the same checks as for reading. -/
def nacIomWrite : Softc → Int → Nat → Uncopied → Transfer := iomCopy

end Vfs

/-! ## No sum overflows -/

section Sums

variable {sc : Softc} {q : Request} {size : Nat} {left : Uncopied}

/-- The size that is left for a position in an area. -/
theorem clamp_eq (hsize : size < 4294967296) (hpos : q.ppos ≤ size) :
    (if u64 (u64 q.ppos + q.count) > size then u64 (size - q.ppos) else q.count) =
      min q.count (size - q.ppos.toNat) := by
  have hnonneg := q.ppos_nonneg
  have hlt := q.ppos_lt
  have hcount := q.count_lt
  have hppos : (u64 q.ppos : Int) = q.ppos := u64_of_lt hnonneg (by omega)
  have hsum : (u64 (u64 q.ppos + q.count) : Int) = q.ppos + q.count := by
    rw [hppos]
    exact u64_of_lt (by omega) (by omega)
  have hrest : (u64 (size - q.ppos) : Int) = size - q.ppos := u64_of_lt (by omega) (by omega)
  split_ifs <;> omega

/-- What a copy inside the area moves. -/
theorem copied_eq {n : Nat} (hsize : size < 4294967296) (hend : q.ppos + n ≤ size) :
    Vfs.copied q.ppos n left =
      { rc := if (left n : Nat) = n then -EINVAL else (n : Int) - (left n : Nat)
        ppos := q.ppos + (n - (left n : Nat) : Nat)
        access := some (q.ppos, n) } := by
  have hnonneg := q.ppos_nonneg
  have hleft : (left n : Nat) ≤ n := Nat.le_of_lt_succ (left n).isLt
  have hmoved : (u64 ((n : Int) - (left n : Nat)) : Int) = n - (left n : Nat) :=
    u64_of_lt (by omega) (by omega)
  have hppos : (u64 q.ppos : Int) = q.ppos := u64_of_lt hnonneg (by omega)
  have hsum : (u64 (q.ppos + (n - (left n : Nat))) : Int) = q.ppos + (n - (left n : Nat)) :=
    u64_of_lt (by omega) (by omega)
  rw [Vfs.copied, hmoved, hppos, hsum, i64_of_mem (by omega) (by omega),
    i64_of_mem (by omega) (by omega), Nat.cast_sub hleft]

/-- As a result of an operation on a file. -/
def Transfer.result (use : Int → Nat → Use) (q : Request) (t : Transfer) : FileResult :=
  { rc := some t.rc
    uses := t.access.elim [] fun a => [use a.1 a.2]
    moved := (t.ppos - q.ppos).toNat }

theorem result_idle (use : Int → Nat → Use) (rc : Int) :
    Transfer.result use q { rc := rc, ppos := q.ppos } = { rc := some rc } := by
  simp [Transfer.result]

theorem result_copied {n : Nat} (hsize : size < 4294967296) (hend : q.ppos + n ≤ size)
    (use : Int → Nat → Use) :
    (Vfs.copied q.ppos n left).result use q = copied (use q.ppos n) n (left n) := by
  rw [copied_eq hsize hend, Transfer.result, copied, add_sub_cancel_left, Int.toNat_natCast]
  rfl

/-- **The buffer**: the wide sums come to those of the operations on files. -/
theorem memCopy_eq {atEnd : Int} (hsize : sc.bufSize < 4294967296) :
    (Vfs.memCopy atEnd sc q.ppos q.count left).result
        (fun start len => .buffer (sc.mmbuf + start.toNat) len) q =
      memCopy atEnd sc q.ppos.toNat q.count (left (min q.count (sc.bufSize - q.ppos.toNat))) := by
  have hnonneg := q.ppos_nonneg
  have hend : q.ppos ≥ sc.bufSize ↔ q.ppos.toNat ≥ sc.bufSize := by omega
  have hclamp : (if q.ppos.toNat + q.count > sc.bufSize then sc.bufSize - q.ppos.toNat else q.count) =
      min q.count (sc.bufSize - q.ppos.toNat) := by
    split_ifs <;> omega
  unfold Vfs.memCopy memCopy
  by_cases hbuf : sc.mmbuf = 0
  · rw [if_pos hbuf, if_pos hbuf, result_idle]
  rw [if_neg hbuf, if_neg hbuf]
  by_cases hbehind : q.ppos ≥ sc.bufSize
  · rw [if_pos hbehind, if_pos (hend.1 hbehind), result_idle]
  rw [if_neg hbehind, if_neg (mt hend.2 hbehind)]
  dsimp only
  rw [clamp_eq hsize (le_of_not_ge hbehind), hclamp]
  split_ifs with hzero
  · rw [result_idle]
  · exact result_copied hsize (by omega) _

/-- **The registers.** -/
theorem iomCopy_eq (hsize : sc.mmioSize < 4294967296) :
    (Vfs.iomCopy sc q.ppos q.count left).result
        (fun start len => .registers (sc.mmio + start.toNat) len) q =
      iomCopy sc q.ppos.toNat q.count (left (min q.count (sc.mmioSize - q.ppos.toNat))) := by
  have hnonneg := q.ppos_nonneg
  have hend : q.ppos > sc.mmioSize ↔ q.ppos.toNat > sc.mmioSize := by omega
  have hword : q.ppos % 4 ≠ 0 ↔ q.ppos.toNat % 4 ≠ 0 := by omega
  have hclamp : (if q.ppos.toNat + q.count > sc.mmioSize then sc.mmioSize - q.ppos.toNat
      else q.count) = min q.count (sc.mmioSize - q.ppos.toNat) := by
    split_ifs <;> omega
  unfold Vfs.iomCopy iomCopy
  by_cases hbehind : q.ppos > sc.mmioSize
  · rw [if_pos hbehind, if_pos (hend.1 hbehind), result_idle]
  rw [if_neg hbehind, if_neg (mt hend.2 hbehind)]
  dsimp only
  rw [clamp_eq hsize (not_lt.1 hbehind), hclamp]
  simp only [hword]
  split_ifs with hzero hstart hlen
  · rw [result_idle]
  · rw [result_idle]
  · rw [result_idle]
  · exact result_copied hsize (by omega) _

/-! ## What is accessed -/

/-- A call stays in an area of `size` bytes, at the position and for no more than the size it was
called with, and moves the position over what has been copied. -/
structure KeepsTo (size : Nat) (q : Request) (left : Uncopied) (t : Transfer) : Prop where
  inside : ∀ start n, t.access = some (start, n) →
    start = q.ppos ∧ n ≤ q.count ∧ 0 ≤ start ∧ start + n ≤ size
  moved : ∀ start n, t.access = some (start, n) → t.ppos = q.ppos + (n - (left n : Nat) : Nat)
  idle : t.access = none → t.ppos = q.ppos
  error : t.rc < 0 → t.ppos = q.ppos

/-- A transfer of whole registers. -/
def WordAligned (t : Transfer) : Prop :=
  ∀ start n, t.access = some (start, n) → start % 4 = 0 ∧ n % 4 = 0

theorem keepsTo_idle (size : Nat) (rc : Int) : KeepsTo size q left { rc := rc, ppos := q.ppos } :=
  ⟨fun _ _ h => (nomatch h), fun _ _ h => (nomatch h), fun _ => rfl, fun _ => rfl⟩

theorem wordAligned_idle (rc ppos : Int) : WordAligned { rc := rc, ppos := ppos } :=
  fun _ _ h => (nomatch h)

theorem keepsTo_copied {n : Nat} (hsize : size < 4294967296) (hcount : n ≤ q.count)
    (hend : q.ppos + n ≤ size) : KeepsTo size q left (Vfs.copied q.ppos n left) := by
  rw [copied_eq hsize hend]
  refine ⟨?_, ?_, ?_, ?_⟩
  · intro start m h
    cases h
    exact ⟨rfl, hcount, q.ppos_nonneg, hend⟩
  · intro start m h
    cases h
    rfl
  · intro h
    cases h
  · intro h
    have hleft : (left n : Nat) ≤ n := Nat.le_of_lt_succ (left n).isLt
    dsimp only at h ⊢
    split_ifs at h with hnone
    · rw [hnone, Nat.sub_self]
      exact add_zero _
    · omega

theorem memCopy_keepsTo {atEnd : Int} (hsize : sc.bufSize < 4294967296) :
    KeepsTo sc.bufSize q left (Vfs.memCopy atEnd sc q.ppos q.count left) := by
  have hnonneg := q.ppos_nonneg
  unfold Vfs.memCopy
  by_cases hbuf : sc.mmbuf = 0
  · rw [if_pos hbuf]
    exact keepsTo_idle ..
  rw [if_neg hbuf]
  by_cases hbehind : q.ppos ≥ sc.bufSize
  · rw [if_pos hbehind]
    exact keepsTo_idle ..
  rw [if_neg hbehind, clamp_eq hsize (le_of_not_ge hbehind)]
  dsimp only
  split_ifs
  · exact keepsTo_idle ..
  · exact keepsTo_copied hsize (Nat.min_le_left _ _) (by omega)

theorem iomCopy_keepsTo (hsize : sc.mmioSize < 4294967296) :
    KeepsTo sc.mmioSize q left (Vfs.iomCopy sc q.ppos q.count left) ∧
      WordAligned (Vfs.iomCopy sc q.ppos q.count left) := by
  have hnonneg := q.ppos_nonneg
  unfold Vfs.iomCopy
  by_cases hbehind : q.ppos > sc.mmioSize
  · rw [if_pos hbehind]
    exact ⟨keepsTo_idle .., wordAligned_idle _ _⟩
  rw [if_neg hbehind, clamp_eq hsize (not_lt.1 hbehind)]
  dsimp only
  split_ifs with hzero hstart hlen
  · exact ⟨keepsTo_idle .., wordAligned_idle _ _⟩
  · exact ⟨keepsTo_idle .., wordAligned_idle _ _⟩
  · exact ⟨keepsTo_idle .., wordAligned_idle _ _⟩
  · refine ⟨keepsTo_copied hsize (Nat.min_le_left _ _) (by omega), ?_⟩
    intro start n h
    cases h
    exact ⟨not_not.1 hstart, not_not.1 hlen⟩

end Sums

/-- **Reads and writes are bounded**, whatever the position and the size, and however much of a copy
fails. -/
theorem copies_keepTo (sc : Softc) (hbuf : sc.bufSize < 4294967296)
    (hmmio : sc.mmioSize < 4294967296) (q : Request) (left : Uncopied) :
    KeepsTo sc.bufSize q left (Vfs.nacMemRead sc q.ppos q.count left) ∧
    KeepsTo sc.bufSize q left (Vfs.nacMemWrite sc q.ppos q.count left) ∧
    (KeepsTo sc.mmioSize q left (Vfs.nacIomRead sc q.ppos q.count left) ∧
      WordAligned (Vfs.nacIomRead sc q.ppos q.count left)) ∧
    KeepsTo sc.mmioSize q left (Vfs.nacIomWrite sc q.ppos q.count left) ∧
      WordAligned (Vfs.nacIomWrite sc q.ppos q.count left) :=
  ⟨memCopy_keepsTo hbuf, memCopy_keepsTo hbuf, iomCopy_keepsTo hmmio, iomCopy_keepsTo hmmio⟩

/-- The largest size, 8 bytes before the end of a buffer of 4 GB less one page, of which 3 are not
copied. -/
theorem copies_keepTo_last : ∃ (sc : Softc) (q : Request) (left : Uncopied),
    Vfs.nacMemRead sc q.ppos q.count left = { rc := 5, ppos := 4294963197, access := some (4294963192, 8) } ∧
      KeepsTo sc.bufSize q left (Vfs.nacMemRead sc q.ppos q.count left) := by
  refine ⟨{ mmbuf := 4096, bufSize := 4294963200, mmioSize := 65536 },
    ⟨4294963192, 9223372036854775807, by decide, by decide, by decide⟩,
    fun n => ⟨min 3 n, by omega⟩, by decide, ?_⟩
  exact (copies_keepTo _ (by decide) (by decide) _ _).1

end NacCard.Driver
