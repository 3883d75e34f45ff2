import NacCard.Base.Run
import NacCard.Driver.Duck
import NacCard.Driver.Mmap
import NacCard.Mem.Reserve

/-!
# Binding and unbinding cards

`nac_init_one` takes a slot of `nac_array`, then a memory region, a mapping of it, a
buffer of `nac_mem` and an interrupt, and returns an error where one of these is
refused; `nac_remove_one` gives all of them back.

* `Softc`, `Buffer`, `DriverState` — the slots, the buffers with their use counts, and
  what the kernel has granted.
* `nacMemMalloc`, `nacMemFree`, `nacFindUnattached` — the pool and the slot table.
* `nacInitOne`, `nacRemoveOne` — the two functions; `Answers` is what the kernel says to
  the calls of one probe.
* `drivers` — probes and removals in any order, of any devices.
* `nacInitOne_cases` — a probe finds no slot, succeeds, or keeps the slot it has taken.

The configuration of a device (mastering, latency, interrupt messages) and its character
devices are left out.
-/

namespace NacCard.Driver

open NacCard.Base NacCard.Mem

/-! ## State -/

/-- `NAC_MAX_BOARDS`, the slots of `nac_array`. -/
def NAC_MAX_BOARDS : Nat := 8

/-- `NACF_ATTACHED`, the flag of a slot that is taken. -/
def NACF_ATTACHED : Nat := 1

/-- `EIO`: the device has no interrupt. -/
def EIO : Int := 5
/-- `ENOMEM`: there is no free slot, or no buffer. -/
def ENOMEM : Int := 12
/-- `EBUSY`: the memory region is taken. -/
def EBUSY : Int := 16

/-- `nac_softc_t`; a fresh or released one is all zeros. -/
structure Softc where
  unit : Nat := 0
  flags : Nat := 0
  device : Nat := 0
  mmio : Nat := 0
  mmioSize : Nat := 0
  mmbuf : Nat := 0
  buf : Nat := 0
  bufSize : Nat := 0
  irq : Nat := 0
  /-- none for `NULL`; no code sets it, the call of `duck_new` is commented out -/
  duck : Option Duck := none
  deriving Repr, DecidableEq

/-- The slot is taken. -/
def Softc.attached (sc : Softc) : Bool := sc.flags &&& NACF_ATTACHED ≠ 0

/-- `nac_mem_vaddr[i]` and `size[i]` with `nac_mem_inuse[i]` -/
structure Buffer where
  card : Card
  inuse : Int
  deriving Repr, DecidableEq

/-- The driver's tables, and what it has requested of the kernel. -/
structure DriverState where
  /-- `nac_array` -/
  slots : Nat → Softc
  pool : List Buffer
  /-- the unit in a device's `driver_data` -/
  driverData : Nat → Option Nat
  /-- memory regions requested, as start and length -/
  regions : List (Nat × Nat)
  ioremaps : List Nat
  /-- interrupts requested, each for a unit -/
  irqs : List (Nat × Nat)

/-- What the kernel answers during one probe. -/
structure Answers where
  /-- `pci_enable_device` -/
  enable : Int
  /-- another driver has the memory region -/
  busy : Bool
  /-- `ioremap_nocache` -/
  mmio : Nat
  /-- `pci_enable_msi` -/
  msi : Int
  /-- `dev->irq`, after that -/
  irq : Nat
  /-- `request_irq` -/
  requestIrq : Int
  deriving Repr, DecidableEq

/-! ## The pool and the slots -/

/-- The buffer, 0 for `NULL`, the size stored in `*msize`, and the pool. -/
def nacMemMalloc (pool : List Buffer) (msize : Nat) : Nat × Nat × List Buffer :=
  let i := pool.findIdx fun b => b.inuse = 0
  match pool[i]? with
  | none => (0, msize, pool)
  | some b =>
      let msize := if msize > b.card.size then b.card.size
        else if msize = 0 then b.card.size else msize
      if b.card.vaddr = 0 then (0, msize, pool)
      else (b.card.vaddr, msize, pool.modify i fun b => { b with inuse := b.inuse + 1 })

/-- The first buffer at that address is the one that is given back. -/
def nacMemFree (pool : List Buffer) (objp : Nat) : List Buffer :=
  pool.modify (pool.findIdx fun b => b.card.vaddr = objp) fun b => { b with inuse := b.inuse - 1 }

/-- `nac_find_unattached`: the first free slot. -/
def nacFindUnattached (slots : Nat → Softc) : Option Nat :=
  (List.range NAC_MAX_BOARDS).find? fun c => !(slots c).attached

/-- `check_mem_region`, against the regions this driver has requested. -/
def regionBusy (regions : List (Nat × Nat)) (start len : Nat) : Bool :=
  regions.any fun r => r.1 < start + len && start < r.1 + r.2

/-! ## Probe and remove -/

section Functions

variable (pci : Nat → PciDev) (pa : Nat → Nat)

/-- `sc->unit`, `sc->flags`, `sc->device` and the device's `driver_data` -/
def DriverState.takeSlot (s : DriverState) (unit dev : Nat) : DriverState :=
  let sc := s.slots unit
  { s with
    slots := Function.update s.slots unit
      { sc with unit := unit, flags := sc.flags ||| NACF_ATTACHED, device := dev }
    driverData := Function.update s.driverData dev (some unit) }

/-- `request_mem_region` and `ioremap_nocache` -/
def DriverState.mapRegisters (s : DriverState) (unit iom iomSize mmio : Nat) : DriverState :=
  { s with
    slots := Function.update s.slots unit { s.slots unit with mmio := mmio, mmioSize := iomSize }
    regions := (iom, iomSize) :: s.regions
    ioremaps := mmio :: s.ioremaps }

/-- The answer of `nac_mem_malloc`, stored. -/
def DriverState.takeBuffer (s : DriverState) (unit : Nat) (r : Nat × Nat × List Buffer) : DriverState :=
  { s with
    slots := Function.update s.slots unit
      { s.slots unit with mmbuf := r.1, buf := pa r.1, bufSize := r.2.1 }
    pool := r.2.2 }

/-- `request_irq`, granted -/
def DriverState.takeIrq (s : DriverState) (unit irq : Nat) : DriverState :=
  { s with
    slots := Function.update s.slots unit { s.slots unit with irq := irq }
    irqs := (irq, unit) :: s.irqs }

/-- The value returned and the state; none where the code writes through the `NULL` that
`ioremap_nocache` has answered. -/
def nacInitOne (dev : Nat) (o : Answers) (s : DriverState) : Option (Int × DriverState) :=
  match nacFindUnattached s.slots with
  | none => some (-ENOMEM, s)
  | some unit =>
      let s := s.takeSlot unit dev
      if o.enable ≠ 0 then some (o.enable, s)
      else
        let iom := (pci dev).resourceStart.toNat
        let iomSize := u32 (pci dev).resourceLen.toNat
        if o.busy || regionBusy s.regions iom iomSize then some (-EBUSY, s)
        else if o.mmio = 0 then none
        else
          let s := s.mapRegisters unit iom iomSize o.mmio
          let r := nacMemMalloc s.pool 0
          if r.1 = 0 then some (-ENOMEM, s)
          else
            let s := s.takeBuffer pa unit r
            if o.msi < 0 then some (o.msi, s)
            else if o.irq ≠ 0 then
              if o.requestIrq < 0 then some (o.requestIrq, s)
              else some (0, s.takeIrq unit o.irq)
            else some (- EIO, s)

/-- `nac_remove_one`: the interrupt, the buffer, the registers and the slot, in this order. -/
def nacRemoveOne (dev : Nat) (s : DriverState) : DriverState :=
  match s.driverData dev with
  | none => s
  | some unit =>
      let sc := s.slots unit
      { s with
        irqs := if sc.irq ≠ 0 then s.irqs.erase (sc.irq, unit) else s.irqs
        pool := if sc.mmbuf ≠ 0 then nacMemFree s.pool sc.mmbuf else s.pool
        ioremaps := if sc.mmio ≠ 0 then s.ioremaps.erase sc.mmio else s.ioremaps
        regions :=
          if sc.mmio ≠ 0 then
            s.regions.erase ((pci dev).resourceStart.toNat, (pci dev).resourceLen.toNat)
          else s.regions
        slots := Function.update s.slots unit {} }

end Functions

/-! ## The machine -/

/-- A bound device: its slot, and which buffer of the pool it was given. -/
structure Binding where
  dev : Nat
  unit : Nat
  entry : Nat
  deriving Repr, DecidableEq

/-- The driver, and the devices bound to it. -/
structure BusState where
  driver : DriverState
  bound : List Binding

/-- A device is found, or one that is bound goes away. -/
inductive BusAct where
  | probe (dev : Nat) (o : Answers)
  | remove (dev : Nat)
  deriving Repr, DecidableEq

/-- The kernel probes devices that are not bound, binds those whose probe returns 0, and
removes bound ones. -/
def busStep (pci : Nat → PciDev) (pa : Nat → Nat) (s : BusState) : BusAct → Option BusState
  | .probe dev o =>
      if s.bound.any fun b => b.dev = dev then none
      else
        (nacInitOne pci pa dev o s.driver).map fun r =>
          if r.1 = 0 then
            { driver := r.2
              bound := ⟨dev, (r.2.driverData dev).getD 0,
                s.driver.pool.findIdx fun b => b.inuse = 0⟩ :: s.bound }
          else { s with driver := r.2 }
  | .remove dev =>
      (s.bound.find? fun b => b.dev = dev).map fun b =>
        { driver := nacRemoveOne pci dev s.driver, bound := s.bound.erase b }

/-- The module is loaded, with the buffers `nac_mem` has got. -/
def loaded (cards : List Card) : BusState where
  driver :=
    { slots := fun _ => {}
      pool := cards.map fun card => ⟨card, 0⟩
      driverData := fun _ => none
      regions := []
      ioremaps := []
      irqs := [] }
  bound := []

/-- The driver from the time it is loaded, for any order of such events. -/
def drivers (pci : Nat → PciDev) (pa : Nat → Nat) (cards : List Card) : Machine BusState BusAct :=
  ⟨fun s => s = loaded cards, busStep pci pa⟩

/-! ## What the parts do -/

theorem attached_or (sc : Softc) (dev unit : Nat) :
    ({ sc with unit := unit, flags := sc.flags ||| NACF_ATTACHED, device := dev } : Softc).attached
      = true := by
  simp [Softc.attached, NACF_ATTACHED]

theorem nacFindUnattached_some {slots : Nat → Softc} {unit : Nat}
    (h : nacFindUnattached slots = some unit) :
    unit < NAC_MAX_BOARDS ∧ (slots unit).attached = false := by
  have hmem := List.mem_of_find?_eq_some h
  have hfree := List.find?_some h
  exact ⟨List.mem_range.1 hmem, by simpa using hfree⟩

/-- A buffer is one that was not in use, at an address other than 0. -/
theorem nacMemMalloc_some {pool : List Buffer} {msize : Nat} (h : (nacMemMalloc pool msize).1 ≠ 0) :
    ∃ b, pool[pool.findIdx fun b => b.inuse = 0]? = some b ∧ b.inuse = 0 ∧
      (nacMemMalloc pool msize).1 = b.card.vaddr ∧ (nacMemMalloc pool msize).2.2 =
        pool.modify (pool.findIdx fun b => b.inuse = 0) fun b => { b with inuse := b.inuse + 1 } := by
  unfold nacMemMalloc at h ⊢
  dsimp only at h ⊢
  cases hb : pool[pool.findIdx fun b => b.inuse = 0]? with
  | none =>
      rw [hb] at h
      exact absurd rfl h
  | some b =>
      rw [hb] at h
      dsimp only at h ⊢
      by_cases hzero : b.card.vaddr = 0
      · rw [if_pos hzero] at h
        exact absurd rfl h
      · obtain ⟨hlt, hget⟩ := List.getElem?_eq_some_iff.1 hb
        have hfree := List.findIdx_getElem (w := hlt)
        rw [hget] at hfree
        refine ⟨b, rfl, by simpa using hfree, ?_⟩
        rw [if_neg hzero]
        exact ⟨rfl, rfl⟩

theorem nacMemMalloc_none {pool : List Buffer} {msize : Nat} (h : (nacMemMalloc pool msize).1 = 0) :
    (nacMemMalloc pool msize).2.2 = pool := by
  unfold nacMemMalloc at h ⊢
  dsimp only at h ⊢
  cases hb : pool[pool.findIdx fun b => b.inuse = 0]? with
  | none => rfl
  | some b =>
      rw [hb] at h
      dsimp only at h ⊢
      by_cases hzero : b.card.vaddr = 0
      · rw [if_pos hzero]
      · rw [if_neg hzero] at h
        exact absurd h hzero

/-- A size of 0 asks for the whole buffer. -/
theorem nacMemMalloc_zero {pool : List Buffer} {b : Buffer}
    (hb : pool[pool.findIdx fun b => b.inuse = 0]? = some b) :
    (nacMemMalloc pool 0).2.1 = b.card.size := by
  unfold nacMemMalloc
  dsimp only
  rw [hb]
  dsimp only
  rw [if_neg (Nat.not_lt_zero _), if_pos rfl]
  split_ifs <;> rfl

/-! ## What a probe does -/

section Probe

variable {pci : Nat → PciDev} {pa : Nat → Nat} {s s' : DriverState} {dev unit : Nat} {o : Answers}
  {rc : Int}

/-- Every request of a probe is granted. -/
def Granted (pci : Nat → PciDev) (s : DriverState) (dev : Nat) (o : Answers) : Prop :=
  o.enable = 0 ∧
    (o.busy || regionBusy s.regions (pci dev).resourceStart.toNat
      (u32 (pci dev).resourceLen.toNat)) = false ∧
    (nacMemMalloc s.pool 0).1 ≠ 0 ∧ 0 ≤ o.msi ∧ o.irq ≠ 0 ∧ 0 ≤ o.requestIrq

/-- The state after a probe that succeeds. -/
def DriverState.probed (pci : Nat → PciDev) (pa : Nat → Nat) (s : DriverState) (unit dev : Nat)
    (o : Answers) : DriverState :=
  (((s.takeSlot unit dev).mapRegisters unit (pci dev).resourceStart.toNat
    (u32 (pci dev).resourceLen.toNat) o.mmio).takeBuffer pa unit (nacMemMalloc s.pool 0)).takeIrq
      unit o.irq

theorem takeSlot_attached : ((s.takeSlot unit dev).slots unit).attached = true := by
  rw [DriverState.takeSlot]
  simp only [Function.update_self]
  exact attached_or _ _ _

@[simp] theorem mapRegisters_attached {iom iomSize mmio : Nat} :
    ((s.mapRegisters unit iom iomSize mmio).slots unit).attached = (s.slots unit).attached := by
  simp [DriverState.mapRegisters, Softc.attached]

@[simp] theorem takeBuffer_attached {r : Nat × Nat × List Buffer} :
    ((s.takeBuffer pa unit r).slots unit).attached = (s.slots unit).attached := by
  simp [DriverState.takeBuffer, Softc.attached]

/-- **A probe** finds no slot, or keeps the slot it has taken, or gets all it asks for. -/
theorem nacInitOne_cases (h : nacInitOne pci pa dev o s = some (rc, s')) :
    nacFindUnattached s.slots = none ∧ rc ≠ 0 ∧ s' = s ∨
      ∃ unit, nacFindUnattached s.slots = some unit ∧
        (rc ≠ 0 ∧ (s'.slots unit).attached = true ∧ ¬Granted pci s dev o ∨
          rc = 0 ∧ o.mmio ≠ 0 ∧ Granted pci s dev o ∧ s' = s.probed pci pa unit dev o) := by
  unfold nacInitOne at h
  cases hunit : nacFindUnattached s.slots with
  | none =>
      rw [hunit] at h
      cases h
      exact .inl ⟨rfl, by decide, rfl⟩
  | some unit =>
      rw [hunit] at h
      refine .inr ⟨unit, rfl, ?_⟩
      dsimp only at h
      have hslot := @takeSlot_attached s dev unit
      split_ifs at h with henable hbusy hmmio hnomem hmsi hirq hrequest
      · cases h
        exact .inl ⟨henable, hslot, fun hg => henable hg.1⟩
      · cases h
        exact .inl ⟨by decide, hslot, fun hg => Bool.noConfusion (hbusy.symm.trans hg.2.1)⟩
      · cases h
        exact .inl ⟨by decide, by simpa using hslot, fun hg => hg.2.2.1 hnomem⟩
      · cases h
        exact .inl ⟨hmsi.ne, by simpa using hslot, fun hg => absurd hmsi hg.2.2.2.1.not_gt⟩
      · cases h
        exact .inl ⟨hrequest.ne, by simpa using hslot,
          fun hg => absurd hrequest hg.2.2.2.2.2.not_gt⟩
      · cases h
        exact .inr ⟨rfl, hmmio, ⟨not_not.1 henable, eq_false_of_ne_true hbusy, hnomem,
          not_lt.1 hmsi, hirq, not_lt.1 hrequest⟩, rfl⟩
      · cases h
        exact .inl ⟨by decide, by simpa using hslot, fun hg => hirq hg.2.2.2.2.1⟩

end Probe

end NacCard.Driver
