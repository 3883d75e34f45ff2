import NacCard.Base.Words

/-!
# Mapping the card into a process

`nac_mmap` maps the large memory buffer of a unit, `nac_iom_mmap` its register
bank (PCI resource 0).  Both build the byte offset from the page offset the
caller chose, check it against the size of the area and hand a physical range
to `remap_pfn_range`.

The two functions share their shape, so the arithmetic is stated once
(`rangeInside_iff`): a signed 64-bit offset `off` and length `vsize` that
passed the test `vsize ≤ len - off` describe a range inside the area exactly
when the range is empty or neither of them is negative.  The test itself is
signed, so it lets every negative offset through, and
`nacMmap_negative_offset` is the run in which the page *below* the buffer is
mapped.  `mmap_inside_iff` is the exact condition for both functions.
-/

namespace NacCard.Driver

open NacCard.Base

/-! ## The data the two functions read -/

/-- The error numbers the driver returns. -/
inductive Errno where
  | enomem
  | enxio
  | einval
  | eagain
  deriving Repr, DecidableEq

/-- `PAGE_SHIFT`: offsets of mappings count pages. -/
def PAGE_SHIFT : Nat := 12
/-- `PAGE_SIZE`, in bytes. -/
def PAGE_SIZE : Int := 4096

/-- The flags of a `vm_area_struct` that the two functions set. -/
structure VmFlags where
  io : Bool := false
  reserved : Bool := false
  dontexpand : Bool := false
  deriving Repr, DecidableEq

/-- A process's request; every field is an `unsigned long`. -/
structure VmAreaStruct where
  vmStart : UInt64
  vmEnd : UInt64
  vmPgoff : UInt64
  vmFlags : VmFlags := {}
  deriving Repr, DecidableEq

/-- PCI resource 0.  Physical addresses stop well below `2 ^ 63`. -/
structure PciDev where
  resourceStart : UInt64
  resourceLen : UInt64
  fits : resourceStart.toNat + resourceLen.toNat < 9223372036854775808

/-- The fields of a unit that mapping reads: `buf` is the physical address of
the buffer (zero for a unit without one), `bufSize` its size. -/
structure NacSoftc where
  buf : UInt64
  bufSize : UInt32
  device : PciDev
  fits : buf.toNat + bufSize.toNat ≤ 18446744073709551616

/-- What the functions use of the kernel: the physical address of `high_memory`
and the answer of `remap_pfn_range` (zero on success). -/
structure Kernel where
  paHighMemory : UInt64
  remapPfnRange : (start : UInt64) → (pfn : Int) → (size : Nat) → Int

/-- The call of `remap_pfn_range` a successful request ends in; `physical` is
the address whose page frame number is passed. -/
structure Remap where
  vma : VmAreaStruct
  physical : Int
  size : Nat
  deriving Repr, DecidableEq

/-- The page frame number passed: an arithmetic shift of a signed value. -/
def Remap.pfn (m : Remap) : Int := m.physical / PAGE_SIZE

/-- The physical range `[physical, physical + vsize)`, as addresses. -/
def Remap.range (m : Remap) : Set Nat :=
  Set.Ico (u64 m.physical) (u64 m.physical + m.size)

/-! ## The functions -/

/-- `off = (off_t)vma->vm_pgoff << PAGE_SHIFT` -/
def mmapOff (vma : VmAreaStruct) : Int := i64 (i64 vma.vmPgoff.toNat * 2 ^ PAGE_SHIFT)

/-- `vsize = vma->vm_end - vma->vm_start`, an unsigned difference kept in a `loff_t` -/
def mmapVsize (vma : VmAreaStruct) : Int := i64 ((vma.vmEnd.toNat : Int) - vma.vmStart.toNat)

/-- The end of both functions: alignment and bound checks, flags, remap. -/
def remapChecked (k : Kernel) (oSync : Bool) (dontexpand : Bool) (vma : VmAreaStruct)
    (physical psize : Int) : Except Errno Remap :=
  let off := mmapOff vma
  let vsize := mmapVsize vma
  if off % PAGE_SIZE ≠ 0 then .error .enxio
  else if vsize > psize then .error .einval
  else
    -- `off >= __pa(high_memory)` compares as unsigned
    let io := vma.vmFlags.io || decide (k.paHighMemory.toNat ≤ u64 off) || oSync
    let flags : VmFlags :=
      { io := io, reserved := true, dontexpand := vma.vmFlags.dontexpand || dontexpand }
    let m : Remap := { vma := { vma with vmFlags := flags }, physical := physical, size := u64 vsize }
    if k.remapPfnRange vma.vmStart m.pfn m.size ≠ 0 then .error .eagain else .ok m

/-- `nac_mmap`: a mapping of the card's buffer. -/
def nacMmap (k : Kernel) (oSync : Bool) (sc : NacSoftc) (vma : VmAreaStruct) :
    Except Errno Remap :=
  if sc.buf = 0 then .error .enomem
  else
    remapChecked k oSync true vma (i64 (sc.buf.toNat + mmapOff vma))
      (i64 (sc.bufSize.toNat - mmapOff vma))

/-- Unlike `nacMmap` this truncates the start of the area to 32 bits, and the
test for a missing area looks at `buf` all the same. -/
def nacIomMmap (k : Kernel) (oSync : Bool) (sc : NacSoftc) (vma : VmAreaStruct) :
    Except Errno Remap :=
  if sc.buf = 0 then .error .enomem
  else
    remapChecked k oSync false vma (i64 (u32 sc.device.resourceStart.toNat + mmapOff vma))
      (i64 (sc.device.resourceLen.toNat - mmapOff vma))


/-! ## The signed bound check -/

/-- A non-empty range lies in a region exactly when both of its ends do. -/
theorem Ico_subset_iff {a n s l : Nat} (hn : n ≠ 0) :
    Set.Ico a (a + n) ⊆ Set.Ico s (s + l) ↔ s ≤ a ∧ a + n ≤ s + l :=
  Set.Ico_subset_Ico_iff (by omega)

/-- **The bound check, exactly.**  `lo` is the base the code adds the offset to,
`[start, start + len)` the area it means.  A request with a non-zero length that
passed `vsize ≤ len - off` stays inside the area if and only if its length is not
negative and its offset makes up for what `lo` falls short of `start`. -/
theorem rangeInside_iff {lo start len : Nat} {off vsize : Int} (hlo : lo ≤ start)
    (hspan : start - lo + len < 9223372036854775808)
    (hfits : start + len ≤ 18446744073709551616)
    (hoff : -9223372036854775808 ≤ off ∧ off < 9223372036854775808)
    (hvs : -9223372036854775808 ≤ vsize ∧ vsize < 9223372036854775808)
    (hpass : vsize ≤ i64 (len - off)) (hne : vsize ≠ 0) :
    Set.Ico (u64 (i64 (lo + off))) (u64 (i64 (lo + off)) + u64 vsize) ⊆
        Set.Ico start (start + len) ↔
      0 ≤ vsize ∧ (start : Int) - lo ≤ off := by
  have hsize : u64 vsize ≠ 0 := by
    unfold u64
    omega
  have hphys : u64 (i64 (lo + off)) = u64 (lo + off) := by
    unfold u64 i64
    split <;> omega
  rw [Ico_subset_iff hsize, hphys]
  by_cases hneg : vsize < 0
  · -- read as unsigned, a negative length is longer than any area
    have hbig : 9223372036854775808 ≤ u64 vsize := by
      unfold u64
      omega
    constructor <;> intro h <;> omega
  · have hlen : u64 vsize = vsize.toNat := by
      unfold u64
      omega
    rcases lt_or_ge off 0 with hoffneg | hoffpos
    · -- a negative offset lands below `lo`, or wraps to the top half of the address space
      have hout : u64 (lo + off) < start ∨ start + len ≤ u64 (lo + off) := by
        unfold u64
        omega
      constructor <;> intro h <;> omega
    · have hexact : i64 (len - off) = len - off := i64_of_mem (by omega) (by omega)
      rw [hexact] at hpass
      have hsum : u64 (lo + off) = lo + off.toNat := by
        unfold u64
        omega
      rw [hsum, hlen]
      constructor <;> intro h <;> omega

/-- What an accepted request looks like: every check passed, and the range handed
to the kernel is the one computed from the offset. -/
theorem remapChecked_ok {k : Kernel} {oSync de : Bool} {vma : VmAreaStruct} {physical psize : Int}
    {m : Remap} (h : remapChecked k oSync de vma physical psize = .ok m) :
    mmapVsize vma ≤ psize ∧ m.physical = physical ∧ m.size = u64 (mmapVsize vma) := by
  simp only [remapChecked] at h
  split_ifs at h with h1 h2
  · cases h
    exact ⟨not_lt.1 h2, rfl, rfl⟩

/-- The page offset is shifted, so the alignment check never fires. -/
theorem mmapOff_aligned (vma : VmAreaStruct) : mmapOff vma % PAGE_SIZE = 0 := by
  unfold mmapOff PAGE_SIZE PAGE_SHIFT i64
  split <;> omega

/-- A request that passes the bound check is accepted when the kernel remaps it. -/
theorem remapChecked_of_le {k : Kernel} {oSync de : Bool} {vma : VmAreaStruct}
    {physical psize : Int} (hk : ∀ s p n, k.remapPfnRange s p n = 0)
    (h : mmapVsize vma ≤ psize) : ∃ m, remapChecked k oSync de vma physical psize = .ok m := by
  simp only [remapChecked, mmapOff_aligned, hk]
  simp [not_lt.2 h]

/-- Whenever the function succeeds, the range it maps lies in `area`. -/
def MapsInside (f : Kernel → Bool → Except Errno Remap) (area : Set Nat) : Prop :=
  ∀ k oSync m, f k oSync = .ok m → m.range ⊆ area

/-- The buffer of the unit, `[sc->buf, sc->buf + sc->buf_size)`. -/
def NacSoftc.region (sc : NacSoftc) : Set Nat :=
  Set.Ico sc.buf.toNat (sc.buf.toNat + sc.bufSize.toNat)

/-- PCI resource 0 of the device. -/
def PciDev.region (d : PciDev) : Set Nat :=
  Set.Ico d.resourceStart.toNat (d.resourceStart.toNat + d.resourceLen.toNat)

/-- The requests on which `nacMmap` keeps to the buffer: rejected ones, empty
ones, and those whose byte offset and length are both non-negative as signed
64-bit numbers. -/
def MmapCondition (sc : NacSoftc) (vma : VmAreaStruct) : Prop :=
  sc.buf = 0 ∨ mmapVsize vma = 0 ∨ i64 (sc.bufSize.toNat - mmapOff vma) < mmapVsize vma ∨
    (0 ≤ mmapVsize vma ∧ 0 ≤ mmapOff vma)

/-- The same for `nacIomMmap`, whose offset must also make up for the upper half
of the resource address that the cast to `uint32_t` drops. -/
def IomMmapCondition (sc : NacSoftc) (vma : VmAreaStruct) : Prop :=
  sc.buf = 0 ∨ mmapVsize vma = 0 ∨
    i64 (sc.device.resourceLen.toNat - mmapOff vma) < mmapVsize vma ∨
    (0 ≤ mmapVsize vma ∧
      (sc.device.resourceStart.toNat : Int) - u32 sc.device.resourceStart.toNat ≤ mmapOff vma)

/-- A kernel in which every remap succeeds. -/
def remappingKernel : Kernel :=
  { paHighMemory := 0x38000000, remapPfnRange := fun _ _ _ => 0 }

/-- The shared half of both equivalences: a function that checks a range against
an area and remaps it stays inside if and only if every request it accepts does. -/
theorem mapsInside_remapChecked_iff {de : Bool} {vma : VmAreaStruct} {lo start len : Nat}
    (hlo : lo ≤ start) (hspan : start - lo + len < 9223372036854775808)
    (hfits : start + len ≤ 18446744073709551616) :
    MapsInside (fun k oSync => remapChecked k oSync de vma (i64 (lo + mmapOff vma))
        (i64 (len - mmapOff vma))) (Set.Ico start (start + len)) ↔
      mmapVsize vma = 0 ∨ i64 (len - mmapOff vma) < mmapVsize vma ∨
        (0 ≤ mmapVsize vma ∧ (start : Int) - lo ≤ mmapOff vma) := by
  have hoff : -9223372036854775808 ≤ mmapOff vma ∧ mmapOff vma < 9223372036854775808 := i64_mem _
  have hvs : -9223372036854775808 ≤ mmapVsize vma ∧ mmapVsize vma < 9223372036854775808 :=
    i64_mem _
  constructor
  · intro h
    by_cases hne : mmapVsize vma = 0
    · exact Or.inl hne
    · rcases lt_or_ge (i64 (len - mmapOff vma)) (mmapVsize vma) with hrej | hpass
      · exact Or.inr (Or.inl hrej)
      · obtain ⟨m, hm⟩ : ∃ m, remapChecked remappingKernel false de vma
            (i64 (lo + mmapOff vma)) (i64 (len - mmapOff vma)) = .ok m :=
          remapChecked_of_le (fun _ _ _ => rfl) hpass
        obtain ⟨-, hp, hs⟩ := remapChecked_ok hm
        have hin := h remappingKernel false m hm
        rw [Remap.range, hp, hs, rangeInside_iff hlo hspan hfits hoff hvs hpass hne] at hin
        exact Or.inr (Or.inr hin)
  · intro h k oSync m hm
    obtain ⟨hpass, hp, hs⟩ := remapChecked_ok hm
    rw [Remap.range, hp, hs]
    rcases h with h0 | hrej | hin
    · rw [h0]
      simp [u64]
    · exact absurd hrej (not_lt.2 hpass)
    · by_cases hne : mmapVsize vma = 0
      · rw [hne]
        simp [u64]
      · rw [rangeInside_iff hlo hspan hfits hoff hvs hpass hne]
        exact hin

/-- **Mapping stays inside the card's own region**, exactly: for every unit and
every request, `nacMmap` keeps to the buffer and `nacIomMmap` to PCI resource 0
if and only if the request meets the respective condition. -/
theorem mmap_inside_iff (sc : NacSoftc) (vma : VmAreaStruct) :
    (MapsInside (fun k oSync => nacMmap k oSync sc vma) sc.region ↔ MmapCondition sc vma) ∧
      (MapsInside (fun k oSync => nacIomMmap k oSync sc vma) sc.device.region ↔
        IomMmapCondition sc vma) := by
  by_cases hbuf : sc.buf = 0
  · simp [MapsInside, nacMmap, nacIomMmap, MmapCondition, IomMmapCondition, hbuf]
  · have hmem := sc.bufSize.toNat_lt
    have hdev := sc.device.fits
    have h32 := u32_natCast_le sc.device.resourceStart.toNat
    constructor
    · simp only [nacMmap, MmapCondition, hbuf, if_false, false_or, NacSoftc.region]
      rw [mapsInside_remapChecked_iff (le_refl _) (by omega) sc.fits]
      simp
    · simp only [nacIomMmap, IomMmapCondition, hbuf, if_false, false_or, PciDev.region]
      exact mapsInside_remapChecked_iff h32 (by omega) (by omega)

/-- A unit with 32 MB at 256 MB, and a 1 MB register bank. -/
def exampleUnit : NacSoftc :=
  { buf := 0x10000000
    bufSize := 0x2000000
    device := { resourceStart := 0xe0000000, resourceLen := 0x100000, fits := by decide }
    fits := by decide }

/-- One page at page offset `2 ^ 52 - 1`, which is byte offset `-4096`. -/
def pageBelow : VmAreaStruct :=
  { vmStart := 0x7f0000000000, vmEnd := 0x7f0000001000, vmPgoff := 0xfffffffffffff }

/-- One accepted request that leaves the area is enough. -/
theorem not_mapsInside {f : Kernel → Bool → Except Errno Remap} {area : Set Nat} {a n : Nat}
    (hf : (f remappingKernel false).map (fun m => (u64 m.physical, m.size)) = .ok (a, n))
    (hn : 0 < n) (ha : a ∉ area) : ¬ MapsInside f area := by
  intro h
  cases hm : f remappingKernel false with
  | error e => simp [hm, Except.map] at hf
  | ok m =>
      simp only [hm, Except.map, Except.ok.injEq, Prod.mk.injEq] at hf
      obtain ⟨hp, hs⟩ := hf
      have hmem : a ∈ m.range := by
        rw [Remap.range, hp, hs]
        exact ⟨le_refl a, by omega⟩
      exact ha (h remappingKernel false m hm hmem)

/-- The page just below the buffer, and the page just below the register bank,
are mapped without complaint. -/
theorem nacMmap_negative_offset :
    ¬ MapsInside (fun k oSync => nacMmap k oSync exampleUnit pageBelow) exampleUnit.region ∧
      ¬ MapsInside (fun k oSync => nacIomMmap k oSync exampleUnit pageBelow)
        exampleUnit.device.region := by
  constructor
  · exact not_mapsInside (a := 0xffff000) (n := 4096) (by decide +kernel) (by decide)
      (by simp [NacSoftc.region, exampleUnit])
  · exact not_mapsInside (a := 0xdffff000) (n := 4096) (by decide +kernel) (by decide)
      (by simp [PciDev.region, exampleUnit])

end NacCard.Driver
