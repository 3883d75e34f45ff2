import NacCard.Driver.Probe

/-!
# What probes and removals leave behind

* `Exact` — the attached slots and everything the kernel has granted are those of the
  bound devices.
* `StepFits` — a probe finds no slot at all, or is granted everything it asks for; a
  removal gives back the buffer the device was given.
* `BusInv` — `Exact`, and each bound device's slot says what it holds.
* `probe_leaves_no_trace` — in a run of such steps `Exact` holds throughout, and any other
  step breaks it: no exit of `nac_init_one` undoes what was done before it.
* `removeFits_of_distinct` — where the buffers have different addresses, removals always
  are such steps.
-/

namespace NacCard.Driver

open NacCard.Base NacCard.Mem

variable {pci : Nat → PciDev} {pa : Nat → Nat} {cards : List Card}

/-! ## The two properties -/

/-- The memory region of a device, as start and length. -/
def region (d : PciDev) : Nat × Nat := (d.resourceStart.toNat, d.resourceLen.toNat)

/-- Nothing is held for anyone but the bound devices, and everything they need is. -/
structure Exact (pci : Nat → PciDev) (s : BusState) : Prop where
  attached : ∀ c, c < NAC_MAX_BOARDS →
    ((s.driver.slots c).attached = true ↔ ∃ b ∈ s.bound, b.unit = c)
  /-- no two devices share a slot -/
  own : (s.bound.map Binding.unit).Nodup
  regions : s.driver.regions.Perm (s.bound.map fun b => region (pci b.dev))
  ioremaps : s.driver.ioremaps.Perm (s.bound.map fun b => (s.driver.slots b.unit).mmio)
  irqs : s.driver.irqs.Perm (s.bound.map fun b => ((s.driver.slots b.unit).irq, b.unit))
  buffers : ∀ (i : Nat) (p : Buffer), s.driver.pool[i]? = some p →
    p.inuse = (((s.bound.map Binding.entry).count i : Nat) : Int)

/-- A probe that has to do nothing, or can do everything; its region has a 32-bit length. -/
def ProbeFits (pci : Nat → PciDev) (s : DriverState) (dev : Nat) (o : Answers) : Prop :=
  nacFindUnattached s.slots = none ∨
    Granted pci s dev o ∧ (pci dev).resourceLen.toNat < 4294967296

/-- `nac_mem_free` finds the buffer that `nac_mem_malloc` gave. -/
def RemoveFits (s : BusState) (dev : Nat) : Prop :=
  ∀ b ∈ s.bound, b.dev = dev →
    s.driver.pool.findIdx (fun p => p.card.vaddr = (s.driver.slots b.unit).mmbuf) = b.entry

/-- The step does not take a branch that leaves something behind. -/
def StepFits (pci : Nat → PciDev) (s : BusState) : BusAct → Prop
  | .probe dev o => ProbeFits pci s.driver dev o
  | .remove dev => RemoveFits s dev

instance (s : DriverState) (dev : Nat) (o : Answers) : Decidable (Granted pci s dev o) :=
  inferInstanceAs (Decidable (_ ∧ _ ∧ _ ∧ _ ∧ _ ∧ _))

instance (s : BusState) : ∀ a, Decidable (StepFits pci s a)
  | .probe dev o =>
      inferInstanceAs (Decidable (nacFindUnattached s.driver.slots = none ∨
        Granted pci s.driver dev o ∧ (pci dev).resourceLen.toNat < 4294967296))
  | .remove dev =>
      inferInstanceAs (Decidable (∀ b ∈ s.bound, b.dev = dev → _ = b.entry))

/-! ## The invariant -/

/-- What a bound device's slot says. -/
structure Holds (s : DriverState) (b : Binding) : Prop where
  data : s.driverData b.dev = some b.unit
  mmio : (s.slots b.unit).mmio ≠ 0
  irq : (s.slots b.unit).irq ≠ 0
  mmbuf : (s.slots b.unit).mmbuf ≠ 0
  buffer : ∃ p, s.pool[b.entry]? = some p ∧ p.card.vaddr = (s.slots b.unit).mmbuf

/-- Between two steps: what is held is what the bound cards need, and the pool has its cards. -/
structure BusInv (pci : Nat → PciDev) (cards : List Card) (s : BusState) : Prop where
  held : Exact pci s
  holds : ∀ b ∈ s.bound, Holds s.driver b
  cards : s.driver.pool.map Buffer.card = cards

theorem BusInv.loaded : BusInv pci cards (loaded cards) := by
  refine ⟨⟨?_, List.nodup_nil, .nil, .nil, .nil, ?_⟩, ?_, ?_⟩
  · intro c _
    simp [Driver.loaded, Softc.attached]
  · intro i b hb
    simp only [Driver.loaded, List.getElem?_map, Option.map_eq_some_iff] at hb
    obtain ⟨card, -, rfl⟩ := hb
    rfl
  · intro b hb
    cases hb
  · simp [Driver.loaded, Function.comp_def]

/-! ## Lists of what is held -/

/-- Giving back what one device held. -/
theorem erase_perm {α β : Type} [DecidableEq α] [BEq β] [LawfulBEq β] {held : List β} {bound : List α}
    {f : α → β} {b : α} (h : held.Perm (bound.map f)) (hb : b ∈ bound) :
    (held.erase (f b)).Perm ((bound.erase b).map f) := by
  have hsplit : (bound.map f).Perm (f b :: (bound.erase b).map f) :=
    (List.perm_cons_erase hb).map f
  have herase := (h.trans hsplit).erase (f b)
  rwa [List.erase_cons_head] at herase

theorem count_erase {bound : List Binding} {b : Binding} (hb : b ∈ bound) (i : Nat) :
    (bound.map Binding.entry).count i =
      ((bound.erase b).map Binding.entry).count i + if b.entry = i then 1 else 0 := by
  have hsplit := ((List.perm_cons_erase hb).map Binding.entry).count_eq i
  rw [hsplit, List.map_cons, List.count_cons]
  simp

theorem eq_of_cons_perm {α : Type} {a b : α} {l l' : List α} (h : (a :: l).Perm (b :: l'))
    (hl : l.Perm l') : a = b := by
  have hcons : (a ::ₘ (l : Multiset α)) = b ::ₘ (l : Multiset α) := by
    rw [Multiset.cons_coe, Multiset.cons_coe]
    exact Quot.sound (h.trans (hl.symm.cons b))
  exact (Multiset.cons_inj_left _).1 hcons

/-- Counting a use of one buffer. -/
theorem inuse_modify {pool : List Buffer} {i j : Nat} {f : Int → Int} {p' : Buffer}
    (h : (pool.modify i fun b => { b with inuse := f b.inuse })[j]? = some p') :
    ∃ p, pool[j]? = some p ∧ p'.inuse = if i = j then f p.inuse else p.inuse := by
  rw [List.getElem?_modify, Option.map_eq_map, Option.map_eq_some_iff] at h
  obtain ⟨p, hp, rfl⟩ := h
  refine ⟨p, hp, ?_⟩
  split_ifs <;> rfl

theorem card_modify {pool : List Buffer} {j : Nat} {p : Buffer} (i : Nat) (f : Int → Int)
    (h : pool[j]? = some p) :
    ∃ p', (pool.modify i fun b => { b with inuse := f b.inuse })[j]? = some p' ∧
      p'.card = p.card ∧ (i ≠ j → p' = p) := by
  rw [List.getElem?_modify, h]
  refine ⟨_, rfl, ?_, ?_⟩
  · dsimp only
    split_ifs <;> rfl
  · intro hij
    simp [hij]

theorem map_card_modify (pool : List Buffer) (i : Nat) (f : Int → Int) :
    (pool.modify i fun b => { b with inuse := f b.inuse }).map Buffer.card =
      pool.map Buffer.card := by
  apply List.ext_getElem?
  intro j
  rw [List.getElem?_map, List.getElem?_map, List.getElem?_modify]
  cases pool[j]? with
  | none => rfl
  | some p =>
      simp only [Option.map_eq_map, Option.map_some]
      split_ifs <;> rfl

/-! ## A probe that succeeds -/

section Probe

variable {s : BusState} {dev unit : Nat} {o : Answers}

theorem probed_slot {s : DriverState} : ∃ sc : Softc,
    (s.probed pci pa unit dev o).slots unit = sc ∧ sc.attached = true ∧ sc.mmio = o.mmio ∧
      sc.irq = o.irq ∧ sc.mmbuf = (nacMemMalloc s.pool 0).1 := by
  refine ⟨_, rfl, ?_, ?_, ?_, ?_⟩
  · simp [DriverState.probed, DriverState.takeIrq, DriverState.takeBuffer,
      DriverState.mapRegisters, DriverState.takeSlot, Softc.attached, NACF_ATTACHED]
  · simp [DriverState.probed, DriverState.takeIrq, DriverState.takeBuffer,
      DriverState.mapRegisters]
  · simp [DriverState.probed, DriverState.takeIrq]
  · simp [DriverState.probed, DriverState.takeIrq, DriverState.takeBuffer]

theorem probed_slot_ne {s : DriverState} {c : Nat} (hc : c ≠ unit) :
    (s.probed pci pa unit dev o).slots c = s.slots c := by
  simp [DriverState.probed, DriverState.takeIrq, DriverState.takeBuffer,
    DriverState.mapRegisters, DriverState.takeSlot, hc]

/-- The bindings there were are in other slots. -/
theorem Exact.unit_ne (h : Exact pci s) (hfree : (s.driver.slots unit).attached = false)
    (hlt : unit < NAC_MAX_BOARDS) {b : Binding} (hb : b ∈ s.bound) : b.unit ≠ unit := by
  intro heq
  have hattached := (h.attached unit hlt).2 ⟨b, hb, heq⟩
  rw [hfree] at hattached
  cases hattached

theorem probed_pool {s : DriverState} (hg : Granted pci s dev o) :
    (s.probed pci pa unit dev o).pool =
      s.pool.modify (s.pool.findIdx fun b => b.inuse = 0) fun b => { b with inuse := b.inuse + 1 } := by
  obtain ⟨-, -, -, -, hpool⟩ := nacMemMalloc_some hg.2.2.1
  exact hpool

/-- What is held is what was held, and the new device's. -/
theorem Exact.probe (h : Exact pci s) (hunit : nacFindUnattached s.driver.slots = some unit)
    (hg : Granted pci s.driver dev o) (hlen : (pci dev).resourceLen.toNat < 4294967296) :
    Exact pci
      { driver := s.driver.probed pci pa unit dev o
        bound := ⟨dev, unit, s.driver.pool.findIdx fun b => b.inuse = 0⟩ :: s.bound } := by
  obtain ⟨hlt, hfree⟩ := nacFindUnattached_some hunit
  obtain ⟨sc, hslot, hattached, hmmio, hirq, -⟩ := @probed_slot pci pa dev unit o s.driver
  have hne : ∀ b ∈ s.bound, b.unit ≠ unit := fun b hb => h.unit_ne hfree hlt hb
  have hsame : ∀ b ∈ s.bound, (s.driver.probed pci pa unit dev o).slots b.unit =
      s.driver.slots b.unit := fun b hb => probed_slot_ne (hne b hb)
  refine ⟨?_, ?_, ?_, ?_, ?_, ?_⟩
  · intro c hc
    by_cases hcu : c = unit
    · subst hcu
      simp [hslot, hattached]
    · have hold := h.attached c hc
      dsimp only
      rw [probed_slot_ne hcu, hold]
      simp [Ne.symm hcu]
  · refine List.nodup_cons.2 ⟨?_, h.own⟩
    intro hmem
    obtain ⟨b, hb, heq⟩ := List.mem_map.1 hmem
    exact hne b hb heq
  · have hregion : ((pci dev).resourceStart.toNat, u32 (pci dev).resourceLen.toNat) =
        region (pci dev) := by
      rw [region, u32_natCast hlen]
    show (((pci dev).resourceStart.toNat, u32 (pci dev).resourceLen.toNat) ::
      s.driver.regions).Perm _
    rw [hregion]
    exact h.regions.cons _
  · have hmap : (s.bound.map fun b => ((s.driver.probed pci pa unit dev o).slots b.unit).mmio) =
        s.bound.map fun b => (s.driver.slots b.unit).mmio :=
      List.map_congr_left fun b hb => by rw [hsame b hb]
    show (o.mmio :: s.driver.ioremaps).Perm _
    rw [List.map_cons]
    dsimp only
    rw [hmap, hslot, hmmio]
    exact h.ioremaps.cons _
  · have hmap : (s.bound.map fun b =>
          (((s.driver.probed pci pa unit dev o).slots b.unit).irq, b.unit)) =
        s.bound.map fun b => ((s.driver.slots b.unit).irq, b.unit) :=
      List.map_congr_left fun b hb => by rw [hsame b hb]
    show ((o.irq, unit) :: s.driver.irqs).Perm _
    rw [List.map_cons]
    dsimp only
    rw [hmap, hslot, hirq]
    exact h.irqs.cons _
  · intro i p hp
    dsimp only at hp
    rw [probed_pool hg] at hp
    obtain ⟨p0, hp0, hinuse⟩ := inuse_modify (f := fun n => n + 1) hp
    have hold := h.buffers i p0 hp0
    rw [hinuse, hold, List.map_cons, List.count_cons]
    by_cases hi : s.driver.pool.findIdx (fun b => b.inuse = 0) = i
    · simp [hi]
    · simp [hi]

/-- **A probe that is granted everything** keeps the invariant. -/
theorem BusInv.probe (h : BusInv pci cards s) (hunit : nacFindUnattached s.driver.slots = some unit)
    (hdev : ∀ b ∈ s.bound, b.dev ≠ dev) (hmmio : o.mmio ≠ 0) (hg : Granted pci s.driver dev o)
    (hlen : (pci dev).resourceLen.toNat < 4294967296) :
    BusInv pci cards
      { driver := s.driver.probed pci pa unit dev o
        bound := ⟨dev, unit, s.driver.pool.findIdx fun b => b.inuse = 0⟩ :: s.bound } := by
  obtain ⟨hlt, hfree⟩ := nacFindUnattached_some hunit
  obtain ⟨p, hp, -, hvaddr, -⟩ := nacMemMalloc_some hg.2.2.1
  obtain ⟨sc, hslot, -, hscmmio, hscirq, hscmmbuf⟩ := @probed_slot pci pa dev unit o s.driver
  have hpool := @probed_pool pci pa dev unit o s.driver hg
  refine ⟨h.held.probe hunit hg hlen, ?_, ?_⟩
  swap
  · dsimp only
    rw [hpool, map_card_modify _ _ (fun n => n + 1)]
    exact h.cards
  intro b hb
  rcases List.mem_cons.1 hb with rfl | hb
  · obtain ⟨q, hq, hcard, -⟩ :=
      card_modify (s.driver.pool.findIdx fun b => b.inuse = 0) (fun n => n + 1) hp
    rw [← hpool] at hq
    refine ⟨?_, ?_, ?_, ?_, q, hq, ?_⟩
    · exact Function.update_self ..
    · rw [hslot, hscmmio]
      exact hmmio
    · rw [hslot, hscirq]
      exact hg.2.2.2.2.1
    · rw [hslot, hscmmbuf]
      exact hg.2.2.1
    · rw [hslot, hscmmbuf, hvaddr, hcard]
  · obtain ⟨hdata, hmm, hirq, hmb, p, hp, haddr⟩ := h.holds b hb
    obtain ⟨q, hq, hcard, -⟩ :=
      card_modify (s.driver.pool.findIdx fun b => b.inuse = 0) (fun n => n + 1) hp
    rw [← hpool] at hq
    have hsame := @probed_slot_ne pci pa dev unit o s.driver b.unit (h.held.unit_ne hfree hlt hb)
    have hdata' : (s.driver.probed pci pa unit dev o).driverData b.dev = some b.unit :=
      (Function.update_of_ne (hdev b hb) _ _).trans hdata
    dsimp only
    refine ⟨hdata', ?_, ?_, ?_, q, hq, ?_⟩ <;> rw [hsame]
    · exact hmm
    · exact hirq
    · exact hmb
    · rw [hcard, haddr]

end Probe

/-! ## A removal -/

section Remove

variable {s : BusState} {b : Binding}

/-- The state after the removal of a device that has everything. -/
theorem nacRemoveOne_eq {s : DriverState} (h : Holds s b) :
    nacRemoveOne pci b.dev s =
      { s with
        irqs := s.irqs.erase ((s.slots b.unit).irq, b.unit)
        pool := nacMemFree s.pool (s.slots b.unit).mmbuf
        ioremaps := s.ioremaps.erase (s.slots b.unit).mmio
        regions := s.regions.erase (region (pci b.dev))
        slots := Function.update s.slots b.unit {} } := by
  unfold nacRemoveOne
  rw [h.data]
  dsimp only
  rw [if_pos h.irq, if_pos h.mmbuf, if_pos h.mmio, if_pos h.mmio]
  rfl

/-- Other devices are in other slots. -/
theorem Exact.unit_ne_of_mem_erase (h : Exact pci s) (hb : b ∈ s.bound) {b' : Binding}
    (hb' : b' ∈ s.bound.erase b) : b'.unit ≠ b.unit := by
  have hsplit : (s.bound.map Binding.unit).Perm (b.unit :: (s.bound.erase b).map Binding.unit) :=
    (List.perm_cons_erase hb).map Binding.unit
  have hnodup := List.nodup_cons.1 (hsplit.nodup_iff.1 h.own)
  intro heq
  exact hnodup.1 (heq ▸ List.mem_map_of_mem hb')

/-- What is held is what was held, less the device's. -/
theorem Exact.remove (h : Exact pci s) (hb : b ∈ s.bound) (hholds : Holds s.driver b)
    (hentry : s.driver.pool.findIdx
      (fun p => p.card.vaddr = (s.driver.slots b.unit).mmbuf) = b.entry) :
    Exact pci { driver := nacRemoveOne pci b.dev s.driver, bound := s.bound.erase b } := by
  have hne : ∀ b' ∈ s.bound.erase b, b'.unit ≠ b.unit := fun b' hb' => h.unit_ne_of_mem_erase hb hb'
  rw [nacRemoveOne_eq hholds]
  refine ⟨?_, ?_, ?_, ?_, ?_, ?_⟩
  · intro c hc
    dsimp only
    by_cases hcu : c = b.unit
    · subst hcu
      rw [Function.update_self]
      have hnone : ¬∃ b' ∈ s.bound.erase b, b'.unit = b.unit := by
        rintro ⟨b', hb', heq⟩
        exact hne b' hb' heq
      simp only [hnone, iff_false]
      decide
    · rw [Function.update_of_ne hcu, h.attached c hc]
      constructor
      · rintro ⟨b', hb', heq⟩
        refine ⟨b', (List.mem_erase_of_ne ?_).2 hb', heq⟩
        rintro rfl
        exact hcu heq.symm
      · rintro ⟨b', hb', heq⟩
        exact ⟨b', List.mem_of_mem_erase hb', heq⟩
  · exact h.own.sublist (List.erase_sublist.map Binding.unit)
  · exact erase_perm h.regions hb
  · have hperm := erase_perm h.ioremaps hb
    refine hperm.trans (List.Perm.of_eq ?_)
    refine List.map_congr_left fun b' hb' => ?_
    dsimp only
    rw [Function.update_of_ne (hne b' hb')]
  · have hperm := erase_perm h.irqs hb
    refine hperm.trans (List.Perm.of_eq ?_)
    refine List.map_congr_left fun b' hb' => ?_
    dsimp only
    rw [Function.update_of_ne (hne b' hb')]
  · intro i p hp
    dsimp only at hp
    rw [nacMemFree, hentry] at hp
    obtain ⟨p0, hp0, hinuse⟩ := inuse_modify (f := fun n => n - 1) hp
    have hold := h.buffers i p0 hp0
    have hcount := count_erase hb i
    rw [hinuse, hold, hcount]
    split_ifs <;> simp

/-- **A removal that gives back the right buffer** keeps the invariant. -/
theorem BusInv.remove (h : BusInv pci cards s) (hb : b ∈ s.bound)
    (hentry : s.driver.pool.findIdx
      (fun p => p.card.vaddr = (s.driver.slots b.unit).mmbuf) = b.entry) :
    BusInv pci cards { driver := nacRemoveOne pci b.dev s.driver, bound := s.bound.erase b } := by
  have hholds := h.holds b hb
  refine ⟨h.held.remove hb hholds hentry, ?_, ?_⟩
  swap
  · rw [nacRemoveOne_eq hholds]
    dsimp only
    rw [nacMemFree, map_card_modify _ _ (fun n => n - 1)]
    exact h.cards
  intro b' hb'
  obtain ⟨hdata, hmm, hirq, hmb, p, hp, haddr⟩ := h.holds b' (List.mem_of_mem_erase hb')
  have hne := h.held.unit_ne_of_mem_erase hb hb'
  obtain ⟨q, hq, hcard, -⟩ := card_modify (s.driver.pool.findIdx
    (fun p => p.card.vaddr = (s.driver.slots b.unit).mmbuf)) (fun n => n - 1) hp
  rw [nacRemoveOne_eq hholds]
  refine ⟨hdata, ?_, ?_, ?_, q, hq, ?_⟩ <;> dsimp only <;> rw [Function.update_of_ne hne]
  · exact hmm
  · exact hirq
  · exact hmb
  · rw [hcard, haddr]

end Remove

/-! ## Probes and removals in any order -/

theorem probe_step {s s' : BusState} {dev : Nat} {o : Answers}
    (h : busStep pci pa s (.probe dev o) = some s') : (∀ b ∈ s.bound, b.dev ≠ dev) ∧
      ∃ rc driver, nacInitOne pci pa dev o s.driver = some (rc, driver) ∧
        (rc ≠ 0 → s' = { s with driver := driver }) ∧
          (rc = 0 → s' = ⟨driver, ⟨dev, (driver.driverData dev).getD 0,
            s.driver.pool.findIdx fun b => b.inuse = 0⟩ :: s.bound⟩) := by
  simp only [busStep] at h
  split_ifs at h with hbound
  obtain ⟨⟨rc, driver⟩, hinit, hs⟩ := Option.map_eq_some_iff.1 h
  refine ⟨?_, rc, driver, hinit, ?_, ?_⟩
  · intro b hb heq
    exact hbound (List.any_eq_true.2 ⟨b, hb, by simpa using heq⟩)
  · intro hrc
    rw [if_neg hrc] at hs
    exact hs.symm
  · intro hrc
    rw [if_pos hrc] at hs
    exact hs.symm

theorem remove_step {s s' : BusState} {dev : Nat} (h : busStep pci pa s (.remove dev) = some s') :
    ∃ b ∈ s.bound, b.dev = dev ∧
      s' = { driver := nacRemoveOne pci dev s.driver, bound := s.bound.erase b } := by
  obtain ⟨b, hb, rfl⟩ := Option.map_eq_some_iff.1 h
  have hdev := List.find?_some hb
  exact ⟨b, List.mem_of_find?_eq_some hb, by simpa using hdev, rfl⟩

theorem probed_driverData {s : DriverState} {dev unit : Nat} {o : Answers} :
    (s.probed pci pa unit dev o).driverData dev = some unit := Function.update_self ..

/-- A step that fits keeps the invariant. -/
theorem BusInv.step {s s' : BusState} {a : BusAct} (h : BusInv pci cards s) (hfits : StepFits pci s a)
    (hstep : busStep pci pa s a = some s') : BusInv pci cards s' := by
  cases a with
  | probe dev o =>
      obtain ⟨hdev, rc, driver, hinit, hfail, hbind⟩ := probe_step hstep
      rcases nacInitOne_cases hinit with ⟨-, hrc, rfl⟩ |
        ⟨unit, hunit, ⟨hrc, -, hrefused⟩ | ⟨hrc, hmmio, hg, rfl⟩⟩
      · rw [hfail hrc]
        exact h
      · rcases hfits with hnone | ⟨hg, -⟩
        · rw [hunit] at hnone
          cases hnone
        · exact absurd hg hrefused
      · have hlen : (pci dev).resourceLen.toNat < 4294967296 := by
          rcases hfits with hnone | ⟨-, hlen⟩
          · rw [hunit] at hnone
            cases hnone
          · exact hlen
        rw [hbind hrc, probed_driverData, Option.getD_some]
        exact h.probe hunit hdev hmmio hg hlen
  | remove dev =>
      obtain ⟨b, hb, rfl, rfl⟩ := remove_step hstep
      exact h.remove hb (hfits b hb rfl)

/-- A step that does not fit leaves a trace. -/
theorem BusInv.fits_of_exact {s s' : BusState} {a : BusAct} (h : BusInv pci cards s)
    (hstep : busStep pci pa s a = some s') (hexact : Exact pci s') : StepFits pci s a := by
  cases a with
  | probe dev o =>
      obtain ⟨hdev, rc, driver, hinit, hfail, hbind⟩ := probe_step hstep
      rcases nacInitOne_cases hinit with ⟨hnone, -, -⟩ |
        ⟨unit, hunit, ⟨hrc, hattached, -⟩ | ⟨hrc, hmmio, hg, rfl⟩⟩
      · exact .inl hnone
      · -- the slot is attached, and no bound device's
        obtain ⟨hlt, hfree⟩ := nacFindUnattached_some hunit
        rw [hfail hrc] at hexact
        obtain ⟨b, hb, heq⟩ := (hexact.attached unit hlt).1 hattached
        exact absurd heq (h.held.unit_ne hfree hlt hb)
      · refine .inr ⟨hg, ?_⟩
        rw [hbind hrc] at hexact
        have hregion : ((pci dev).resourceStart.toNat, u32 (pci dev).resourceLen.toNat) =
            region (pci dev) := eq_of_cons_perm hexact.regions h.held.regions
        have hlen : u32 (pci dev).resourceLen.toNat = (pci dev).resourceLen.toNat :=
          congrArg Prod.snd hregion
        rw [← hlen]
        exact u32_lt _
  | remove dev =>
      obtain ⟨b, hb, rfl, rfl⟩ := remove_step hstep
      intro b' hb' hdev
      have hunit : b'.unit = b.unit := by
        have hdata := (h.holds b' hb').data
        rw [hdev, (h.holds b hb).data] at hdata
        exact (Option.some.inj hdata).symm
      obtain rfl : b' = b := List.inj_on_of_nodup_map h.held.own hb' hb hunit
      obtain ⟨-, -, -, -, p, hp, haddr⟩ := h.holds b' hb'
      by_contra hother
      -- the device's buffer stays in use
      rw [nacRemoveOne_eq (h.holds b' hb')] at hexact
      obtain ⟨q, hq, -, hsame⟩ := card_modify (s.driver.pool.findIdx
        (fun p => p.card.vaddr = (s.driver.slots b'.unit).mmbuf)) (fun n => n - 1) hp
      have hafter := hexact.buffers b'.entry q hq
      have hbefore := h.held.buffers b'.entry p hp
      have hcount := count_erase hb' b'.entry
      rw [hsame hother, hbefore, hcount, if_pos rfl] at hafter
      dsimp only at hafter
      omega

theorem busInv_of_reach {s : BusState} (h : (drivers pci pa cards).Reach (StepFits pci) s) :
    BusInv pci cards s := by
  refine h.invariant ?_ ?_
  · rintro _ rfl
    exact .loaded
  · intro s a s' hinv hfits hstep
    exact hinv.step hfits hstep

/-- The buffers have different addresses. -/
def Distinct (cards : List Card) : Prop :=
  ∀ (i j : Nat) (c c' : Card), cards[i]? = some c → cards[j]? = some c' → c.vaddr = c'.vaddr →
    c.vaddr ≠ 0 → i = j

/-- Then every removal finds its buffer. -/
theorem removeFits_of_distinct {s : BusState} (hdistinct : Distinct cards)
    (h : (drivers pci pa cards).Reach (StepFits pci) s) (dev : Nat) : RemoveFits s dev := by
  have hinv := busInv_of_reach h
  have hcard : ∀ (i : Nat) (p : Buffer), s.driver.pool[i]? = some p → cards[i]? = some p.card := by
    intro i p hp
    rw [← hinv.cards, List.getElem?_map, hp, Option.map_some]
  intro b hb _
  obtain ⟨-, -, -, hne, p, hp, haddr⟩ := hinv.holds b hb
  obtain ⟨hlt, hget⟩ := List.getElem?_eq_some_iff.1 hp
  have hfound : s.driver.pool.findIdx
      (fun p => p.card.vaddr = (s.driver.slots b.unit).mmbuf) < s.driver.pool.length :=
    List.findIdx_lt_length_of_exists ⟨p, List.mem_of_getElem? hp, by simpa using haddr⟩
  have hfirst := List.findIdx_getElem (w := hfound)
  rw [decide_eq_true_eq] at hfirst
  refine hdistinct _ b.entry _ p.card (hcard _ _ (List.getElem?_eq_getElem hfound)) (hcard _ _ hp)
    (hfirst.trans haddr.symm) ?_
  rw [hfirst]
  exact hne

/-- **Failed probes leave a trace, all but one kind.**  As long as every probe finds no slot
or is granted everything, and removals find their buffers, the attached slots and everything
held are those of the bound devices; the first step that is different changes that. -/
theorem probe_leaves_no_trace {s : BusState} (h : (drivers pci pa cards).Reach (StepFits pci) s) :
    Exact pci s ∧
      ∀ a s', busStep pci pa s a = some s' → (Exact pci s' ↔ StepFits pci s a) := by
  have hinv := busInv_of_reach h
  refine ⟨hinv.held, ?_⟩
  intro a s' hstep
  exact ⟨hinv.fits_of_exact hstep, fun hfits => (hinv.step hfits hstep).held⟩

/-! ## Two cards -/

/-- Two devices with different regions. -/
def twoDevices (dev : Nat) : PciDev :=
  if dev = 0 then ⟨0xd0000000, 0x100000, by decide⟩ else ⟨0xd0100000, 0x100000, by decide⟩

/-- Two buffers of 128 MB. -/
def twoBuffers : List Card := [⟨0xc8000000, 0x8000000⟩, ⟨0xc0000000, 0x8000000⟩]

/-- Everything is granted. -/
def granted (mmio irq : Nat) : Answers := ⟨0, false, mmio, 0, irq, 0⟩

/-- Both devices are bound and the first is removed. -/
theorem probe_two_remove_one : ∃ s : BusState,
    (s.bound, s.driver.regions) = ([⟨1, 1, 1⟩], [(0xd0100000, 0x100000)]) ∧ Exact twoDevices s := by
  have hstart : (drivers twoDevices id twoBuffers).Reach (StepFits twoDevices) (loaded twoBuffers) :=
    .start rfl
  obtain ⟨s, hreach, hs⟩ := Machine.exists_reach_of_run hstart
    [.probe 0 (granted 0xf8000000 40), .probe 1 (granted 0xf8200000 41), .remove 0]
    (fun s => (s.bound, s.driver.regions)) ([⟨1, 1, 1⟩], [(0xd0100000, 0x100000)])
    (by decide +kernel)
  exact ⟨s, hs, (probe_leaves_no_trace hreach).1⟩

/-- A probe whose interrupt is refused: no device is bound, and the slot, the region, its
mapping and a buffer stay taken. -/
theorem refused_irq_leaks : ∃ s : BusState,
    (drivers twoDevices id twoBuffers).Reach (fun _ _ => True) s ∧
      (s.bound, s.driver.regions, s.driver.ioremaps, s.driver.pool.map Buffer.inuse) =
        ([], [(0xd0000000, 0x100000)], [0xf8000000], [1, 0]) ∧ ¬Exact twoDevices s := by
  have hstart : (drivers twoDevices id twoBuffers).Reach (fun _ _ => True) (loaded twoBuffers) :=
    .start rfl
  obtain ⟨s, hreach, hs⟩ := Machine.exists_reach_of_run hstart
    [.probe 0 { granted 0xf8000000 40 with requestIrq := -16 }]
    (fun s => (s.bound, s.driver.regions, s.driver.ioremaps, s.driver.pool.map Buffer.inuse))
    ([], [(0xd0000000, 0x100000)], [0xf8000000], [1, 0]) (by decide +kernel)
  refine ⟨s, hreach, hs, ?_⟩
  intro hexact
  have hregions := hexact.regions.length_eq
  rw [Prod.mk.injEq, Prod.mk.injEq] at hs
  rw [hs.1, hs.2.1] at hregions
  cases hregions

end NacCard.Driver
