import NacCard.Driver.Files

/-!
# Operations on units in any state

* `holders` — how many units have a value in a field; `holders_update` for one unit.
* `Consistent`, `Held` — the fields of a unit agree with one another, and what the pool and
  the kernel have given out is what the units have, whatever probes have failed.
* `Held.probe`, `Held.remove` — kept by every probe and every removal.
* `fileOp_safe_iff` — after every history an operation uses only what its unit holds, if and
  only if `OpFits`; `duck_ioctl_null` is one that does not.
* `mmapBuffer_eq`, `mmapRegisters_eq` — the mappings are those of a unit with 64-bit fields.
-/

namespace NacCard.Driver

open NacCard.Base NacCard.Mem

/-! ## Counting -/

/-- The units that have the value `v` in the field `f`. -/
def holders (f : Softc → Nat) (slots : Nat → Softc) (v : Nat) : Nat :=
  (List.range NAC_MAX_BOARDS).countP fun u => f (slots u) = v

theorem countP_update {σ : Type} {P : σ → Bool} {slots : Nat → σ} {u n : Nat} (hu : u < n) (sc : σ) :
    (List.range n).countP (fun i => P (Function.update slots u sc i)) + (if P (slots u) then 1 else 0)
      = (List.range n).countP (fun i => P (slots i)) + if P sc then 1 else 0 := by
  have hperm := List.perm_cons_erase (List.mem_range.2 hu)
  have hrest : ((List.range n).erase u).countP (fun i => P (Function.update slots u sc i))
      = ((List.range n).erase u).countP fun i => P (slots i) := by
    apply List.countP_congr
    intro i hi
    have hne : i ≠ u := (List.nodup_range.mem_erase_iff.1 hi).1
    rw [Function.update_of_ne hne]
  rw [hperm.countP_eq, hperm.countP_eq, List.countP_cons, List.countP_cons, hrest,
    Function.update_self]
  omega

theorem holders_update {f : Softc → Nat} {slots : Nat → Softc} {u v : Nat} (hu : u < NAC_MAX_BOARDS)
    (sc : Softc) :
    holders f (Function.update slots u sc) v + (if f (slots u) = v then 1 else 0)
      = holders f slots v + if f sc = v then 1 else 0 := by
  have h := @countP_update _ (fun sc => decide (f sc = v)) slots u _ hu sc
  simp only [decide_eq_true_eq] at h
  exact h

theorem holders_pos {f : Softc → Nat} {slots : Nat → Softc} {u : Nat} (hu : u < NAC_MAX_BOARDS) :
    0 < holders f slots (f (slots u)) :=
  List.countP_pos_iff.2 ⟨u, List.mem_range.2 hu, decide_eq_true rfl⟩

theorem outstanding_modify {pool : List Buffer} {i v : Nat} {b : Buffer} {f : Int → Int}
    (h : pool[i]? = some b) :
    outstanding (pool.modify i fun b => { b with inuse := f b.inuse }) v
      = outstanding pool v + if b.card.vaddr = v then f b.inuse - b.inuse else 0 := by
  obtain ⟨hi, rfl⟩ := List.getElem?_eq_some_iff.1 h
  obtain ⟨l₁, a, l₂, hpool, hlen, hmodify⟩ :=
    List.exists_of_modify (fun b : Buffer => { b with inuse := f b.inuse }) hi
  have ha : pool[i] = a := by
    simp [hpool, ← hlen]
  rw [hmodify, ha]
  conv_rhs => rw [hpool]
  unfold outstanding
  by_cases hv : a.card.vaddr = v
  · simp [hv]
    ring
  · simp [hv]

/-- One more buffer at the address that has been returned. -/
theorem outstanding_malloc {pool : List Buffer} {msize v : Nat} (h : (nacMemMalloc pool msize).1 ≠ 0) :
    outstanding (nacMemMalloc pool msize).2.2 v
      = outstanding pool v + if (nacMemMalloc pool msize).1 = v then 1 else 0 := by
  obtain ⟨b, hb, -, haddr, hpool⟩ := nacMemMalloc_some h
  rw [hpool, haddr]
  refine (outstanding_modify (f := fun n => n + 1) hb).trans ?_
  simp

/-- One less, of whichever buffer at the address comes first. -/
theorem outstanding_free {pool : List Buffer} {objp v : Nat} (h : ∃ b ∈ pool, b.card.vaddr = objp) :
    outstanding (nacMemFree pool objp) v = outstanding pool v - if objp = v then 1 else 0 := by
  obtain ⟨b, hb, haddr⟩ := h
  obtain ⟨first, hget, hfirst⟩ := getElem?_findIdx (p := fun b : Buffer => decide (b.card.vaddr = objp))
    ⟨b, hb, decide_eq_true haddr⟩
  have hfirst' : first.card.vaddr = objp := of_decide_eq_true hfirst
  refine (outstanding_modify (f := fun n => n - 1) hget).trans ?_
  rw [hfirst']
  split_ifs <;> ring

theorem map_card_malloc (pool : List Buffer) (msize : Nat) :
    (nacMemMalloc pool msize).2.2.map Buffer.card = pool.map Buffer.card := by
  by_cases h : (nacMemMalloc pool msize).1 = 0
  · rw [nacMemMalloc_none h]
  · obtain ⟨b, -, -, -, hpool⟩ := nacMemMalloc_some h
    rw [hpool]
    exact map_card_modify pool _ fun n => n + 1

theorem map_card_free (pool : List Buffer) (objp : Nat) :
    (nacMemFree pool objp).map Buffer.card = pool.map Buffer.card :=
  map_card_modify pool _ fun n => n - 1

/-! ## What has been given out -/

section Held

variable {pci : Nat → PciDev} {pa : Nat → Nat} {cards : List Card} {s s' : DriverState}
  {dev unit : Nat} {o : Answers}

/-- What the fields of a `nac_softc` say about each other and about the device and its region. -/
structure Consistent (pci : Nat → PciDev) (pa : Nat → Nat) (cards : List Card) (sc : Softc) : Prop where
  noBuffer : sc.mmbuf = 0 → sc.buf = 0 ∧ sc.bufSize = 0
  buffer : sc.mmbuf ≠ 0 → sc.mmio ≠ 0 ∧ sc.buf = pa sc.mmbuf ∧
    ∃ card ∈ cards, card.vaddr = sc.mmbuf ∧ card.size = sc.bufSize
  noRegisters : sc.mmio = 0 → sc.mmioSize = 0
  registers : sc.mmio ≠ 0 → sc.mmioSize = u32 (pci sc.device).resourceLen.toNat
  duck : sc.duck = none

/-- The units' fields are what the pool and the kernel have given out. -/
structure Held (pci : Nat → PciDev) (pa : Nat → Nat) (cards : List Card) (s : DriverState) : Prop where
  pool_eq : s.pool.map Buffer.card = cards
  outstanding : ∀ v, v ≠ 0 → outstanding s.pool v = holders Softc.mmbuf s.slots v
  mapped : ∀ m, m ≠ 0 → s.ioremaps.count m = holders Softc.mmio s.slots m
  units : ∀ u, Consistent pci pa cards (s.slots u)
  free : ∀ u, (s.slots u).attached = false → s.slots u = {}
  lt : ∀ dev u, s.driverData dev = some u → u < NAC_MAX_BOARDS

theorem Consistent.empty : Consistent pci pa cards {} :=
  ⟨fun _ => ⟨rfl, rfl⟩, fun h => absurd rfl h, fun _ => rfl, fun h => absurd rfl h, rfl⟩

theorem holders_empty {f : Softc → Nat} {v : Nat} (hf : f {} = 0) (hv : v ≠ 0) :
    holders f (fun _ => {}) v = 0 := by
  rw [holders, List.countP_eq_zero]
  intro u _ h
  exact hv ((of_decide_eq_true h).symm.trans hf)

theorem Held.loaded : Held pci pa cards (loaded cards).driver := by
  refine ⟨?_, ?_, ?_, fun _ => .empty, fun _ _ => rfl, fun dev u h => nomatch h⟩
  · simp [Driver.loaded, Function.comp_def]
  · intro v hv
    rw [Driver.loaded, holders_empty rfl hv, Driver.outstanding]
    apply List.sum_eq_zero
    intro n hn
    obtain ⟨b, hb, rfl⟩ := List.mem_map.1 hn
    obtain ⟨card, -, rfl⟩ := List.mem_map.1 (List.mem_filter.1 hb).1
    rfl
  · intro m hm
    rw [Driver.loaded, holders_empty rfl hm]
    rfl

/-- What holds of every unit and of the new one. -/
theorem forall_update {P : Softc → Prop} {slots : Nat → Softc} {sc : Softc} {u : Nat}
    (h : ∀ i, P (slots i)) (hsc : P sc) : ∀ i, P (Function.update slots u sc i) := by
  intro i
  by_cases hi : i = u
  · rw [hi, Function.update_self]
    exact hsc
  · rw [Function.update_of_ne hi]
    exact h i

theorem holders_same {f : Softc → Nat} {slots : Nat → Softc} {sc : Softc} {v : Nat}
    (hu : unit < NAC_MAX_BOARDS) (hf : f sc = f (slots unit)) :
    holders f (Function.update slots unit sc) v = holders f slots v := by
  have h := @holders_update f slots unit v hu sc
  rw [hf] at h
  omega

theorem holders_more {f : Softc → Nat} {slots : Nat → Softc} {sc : Softc} {v : Nat}
    (hu : unit < NAC_MAX_BOARDS) (hv : v ≠ 0) (hf : f (slots unit) = 0) :
    holders f (Function.update slots unit sc) v = holders f slots v + if f sc = v then 1 else 0 := by
  have h := @holders_update f slots unit v hu sc
  rwa [hf, if_neg hv.symm, Nat.add_zero] at h

theorem holders_less {f : Softc → Nat} {slots : Nat → Softc} {sc : Softc} {v : Nat}
    (hu : unit < NAC_MAX_BOARDS) (hv : v ≠ 0) (hf : f sc = 0) :
    holders f (Function.update slots unit sc) v + (if f (slots unit) = v then 1 else 0)
      = holders f slots v := by
  have h := @holders_update f slots unit v hu sc
  rwa [hf, if_neg hv.symm, Nat.add_zero] at h

/-- A slot that a probe is filling. -/
theorem Held.takeSlot (h : Held pci pa cards s) (hu : unit < NAC_MAX_BOARDS)
    (hfree : (s.slots unit).attached = false) : Held pci pa cards (s.takeSlot unit dev) := by
  have hempty := h.free unit hfree
  have hattached := @takeSlot_attached s dev unit
  unfold DriverState.takeSlot at hattached ⊢
  simp only [hempty] at hattached ⊢
  refine ⟨h.pool_eq, ?_, ?_, ?_, ?_, ?_⟩
  · intro v hv
    dsimp only
    rw [holders_same hu (by rw [hempty])]
    exact h.outstanding v hv
  · intro m hm
    dsimp only
    rw [holders_same hu (by rw [hempty])]
    exact h.mapped m hm
  · exact forall_update h.units ⟨fun _ => ⟨rfl, rfl⟩, fun h => absurd rfl h, fun _ => rfl,
      fun h => absurd rfl h, rfl⟩
  · refine forall_update (P := fun sc => sc.attached = false → sc = {}) h.free ?_
    intro hnot
    rw [Function.update_self] at hattached
    exact absurd hnot (by rw [hattached]; decide)
  · intro d u hd
    by_cases hdev : d = dev
    · subst hdev
      dsimp only at hd
      rw [Function.update_self] at hd
      cases hd
      exact hu
    · dsimp only at hd
      rw [Function.update_of_ne hdev] at hd
      exact h.lt d u hd

/-- The slots after one that is attached has been written. -/
theorem free_update {sc : Softc} (h : ∀ u, (s.slots u).attached = false → s.slots u = {})
    (hsc : sc.attached = true) (u : Nat) :
    (Function.update s.slots unit sc u).attached = false → Function.update s.slots unit sc u = {} :=
  forall_update (P := fun sc => sc.attached = false → sc = {}) h
    (fun hnot => absurd (hsc.symm.trans hnot) (by decide)) u

theorem Held.mapRegisters (h : Held pci pa cards s) (hu : unit < NAC_MAX_BOARDS)
    (hattached : (s.slots unit).attached = true) (hmmio : (s.slots unit).mmio = 0)
    (hmmbuf : (s.slots unit).mmbuf = 0) {iom mmio : Nat} (hne : mmio ≠ 0) :
    Held pci pa cards (s.mapRegisters unit iom (u32 (pci (s.slots unit).device).resourceLen.toNat) mmio) := by
  have hunit := h.units unit
  unfold DriverState.mapRegisters
  refine ⟨h.pool_eq, ?_, ?_, ?_, ?_, h.lt⟩
  · intro v hv
    dsimp only
    rw [holders_same hu]
    · exact h.outstanding v hv
    · rfl
  · intro m hm
    dsimp only
    rw [holders_more hu hm hmmio, List.count_cons, h.mapped m hm]
    simp
  · refine forall_update h.units ⟨hunit.noBuffer, fun hbuf => absurd hmmbuf hbuf, ?_, ?_, hunit.duck⟩
    · exact fun hzero => absurd hzero hne
    · exact fun _ => rfl
  · exact free_update h.free hattached

theorem Held.takeBuffer (h : Held pci pa cards s) (hu : unit < NAC_MAX_BOARDS)
    (hattached : (s.slots unit).attached = true) (hmmio : (s.slots unit).mmio ≠ 0)
    (hmmbuf : (s.slots unit).mmbuf = 0) (hne : (nacMemMalloc s.pool 0).1 ≠ 0) :
    Held pci pa cards (s.takeBuffer pa unit (nacMemMalloc s.pool 0)) := by
  have hunit := h.units unit
  unfold DriverState.takeBuffer
  refine ⟨?_, ?_, ?_, ?_, ?_, h.lt⟩
  · dsimp only
    rw [map_card_malloc, h.pool_eq]
  · intro v hv
    dsimp only
    rw [outstanding_malloc hne, holders_more hu hv hmmbuf, h.outstanding v hv]
    split_ifs <;> simp
  · intro m hm
    dsimp only
    rw [holders_same hu]
    · exact h.mapped m hm
    · rfl
  · refine forall_update h.units ⟨fun hzero => absurd hzero hne, fun _ => ⟨hmmio, rfl, ?_⟩, hunit.noRegisters,
      hunit.registers, hunit.duck⟩
    obtain ⟨b, hb, -, haddr, -⟩ := nacMemMalloc_some hne
    refine ⟨b.card, ?_, haddr.symm, ?_⟩
    · rw [← h.pool_eq]
      exact List.mem_map_of_mem (List.mem_of_getElem? hb)
    · exact (nacMemMalloc_zero hb).symm
  · exact free_update h.free hattached

theorem Held.takeIrq (h : Held pci pa cards s) (hu : unit < NAC_MAX_BOARDS)
    (hattached : (s.slots unit).attached = true) {irq : Nat} :
    Held pci pa cards (s.takeIrq unit irq) := by
  have hunit := h.units unit
  unfold DriverState.takeIrq
  refine ⟨h.pool_eq, ?_, ?_, ?_, ?_, h.lt⟩
  · intro v hv
    dsimp only
    rw [holders_same hu]
    · exact h.outstanding v hv
    · rfl
  · intro m hm
    dsimp only
    rw [holders_same hu]
    · exact h.mapped m hm
    · rfl
  · exact forall_update h.units ⟨hunit.noBuffer, hunit.buffer, hunit.noRegisters, hunit.registers, hunit.duck⟩
  · exact free_update h.free hattached

/-- **A probe**, wherever it stops. -/
theorem Held.probe (h : Held pci pa cards s) {rc : Int}
    (hprobe : nacInitOne pci pa dev o s = some (rc, s')) : Held pci pa cards s' := by
  unfold nacInitOne at hprobe
  cases hunit : nacFindUnattached s.slots with
  | none =>
      rw [hunit] at hprobe
      cases hprobe
      exact h
  | some unit =>
      rw [hunit] at hprobe
      obtain ⟨hu, hfree⟩ := nacFindUnattached_some hunit
      have htaken := @Held.takeSlot _ _ _ _ dev _ h hu hfree
      have hattached := @takeSlot_attached s dev unit
      have hempty := h.free unit hfree
      have hdevice : ((s.takeSlot unit dev).slots unit).device = dev := by
        simp [DriverState.takeSlot]
      have hmmio : ((s.takeSlot unit dev).slots unit).mmio = 0 := by
        simp [DriverState.takeSlot, hempty]
      have hmmbuf : ((s.takeSlot unit dev).slots unit).mmbuf = 0 := by
        simp [DriverState.takeSlot, hempty]
      dsimp only at hprobe
      split_ifs at hprobe with henable hbusy hnull hnomem hmsi hirq hrequest
      · cases hprobe
        exact htaken
      · cases hprobe
        exact htaken
      all_goals
        have hmapped := @Held.mapRegisters _ _ _ _ _ htaken hu hattached hmmio hmmbuf
          (pci dev).resourceStart.toNat _ hnull
        rw [hdevice] at hmapped
      · cases hprobe
        exact hmapped
      all_goals
        have hbuffer := hmapped.takeBuffer hu (by simpa using hattached)
          (by simpa [DriverState.mapRegisters] using hnull)
          (by simpa [DriverState.mapRegisters] using hmmbuf) hnomem
      · cases hprobe
        exact hbuffer
      · cases hprobe
        exact hbuffer
      · cases hprobe
        exact hbuffer.takeIrq hu (by simpa using hattached)
      · cases hprobe
        exact hbuffer

/-- The unit's buffer is one of the pool's. -/
theorem Held.mem_pool (h : Held pci pa cards s) (hne : (s.slots unit).mmbuf ≠ 0) :
    ∃ b ∈ s.pool, b.card.vaddr = (s.slots unit).mmbuf ∧ b.card.size = (s.slots unit).bufSize := by
  obtain ⟨-, -, card, hcard, haddr, hsize⟩ := (h.units unit).buffer hne
  rw [← h.pool_eq] at hcard
  obtain ⟨b, hb, rfl⟩ := List.mem_map.1 hcard
  exact ⟨b, hb, haddr, hsize⟩

/-- **A removal**, of whatever device. -/
theorem Held.remove (h : Held pci pa cards s) (dev : Nat) : Held pci pa cards (nacRemoveOne pci dev s) := by
  unfold nacRemoveOne
  cases hunit : s.driverData dev with
  | none => exact h
  | some unit =>
      have hu := h.lt dev unit hunit
      refine ⟨?_, ?_, ?_, ?_, ?_, h.lt⟩
      · dsimp only
        split_ifs
        · rw [map_card_free, h.pool_eq]
        · exact h.pool_eq
      · intro v hv
        have hless := @holders_less unit Softc.mmbuf s.slots {} v hu hv rfl
        have hold := h.outstanding v hv
        dsimp only
        split_ifs with hne
        · obtain ⟨b, hb, haddr, -⟩ := h.mem_pool hne
          rw [outstanding_free ⟨b, hb, haddr⟩, hold, ← hless]
          split_ifs <;> simp
        · rw [not_not.1 hne, if_neg hv.symm, Nat.add_zero] at hless
          rw [hold, hless]
      · intro m hm
        have hless := @holders_less unit Softc.mmio s.slots {} m hu hm rfl
        have hold := h.mapped m hm
        dsimp only
        split_ifs with hne
        · rw [List.count_erase, hold, ← hless]
          simp
        · rw [not_not.1 hne, if_neg hm.symm, Nat.add_zero] at hless
          rw [hold, hless]
      · exact forall_update h.units .empty
      · exact forall_update (P := fun sc => sc.attached = false → sc = {}) h.free fun _ => rfl

theorem Held.busStep (h : Held pci pa cards s) {bound : List Binding} {a : BusAct} {t : BusState}
    (hstep : busStep pci pa ⟨s, bound⟩ a = some t) : Held pci pa cards t.driver := by
  cases a with
  | probe dev o =>
      rw [Driver.busStep] at hstep
      split_ifs at hstep
      obtain ⟨⟨rc, s'⟩, hprobe, rfl⟩ := Option.map_eq_some_iff.1 hstep
      have hheld := h.probe hprobe
      dsimp only
      split_ifs
      · exact hheld
      · exact hheld
  | remove dev =>
      obtain ⟨b, -, rfl⟩ := Option.map_eq_some_iff.1 hstep
      exact h.remove dev

theorem nacOpen_lt {slots : Nat → Softc} {iminor : Nat} {file : OpenFile}
    (h : nacOpen slots iminor = some file) : file.unit < NAC_MAX_BOARDS := by
  unfold nacOpen at h
  dsimp only at h
  split_ifs at h
  cases h
  exact Nat.mod_lt _ (by decide)

/-- After every history. -/
theorem held_of_reach {s : FilesState} (h : (files pci pa cards).Reach (fun _ _ => True) s) :
    Held pci pa cards s.bus.driver ∧ ∀ file ∈ s.files, file.unit < NAC_MAX_BOARDS := by
  refine Machine.Reach.invariant (I := fun s => Held pci pa cards s.bus.driver ∧
    ∀ file ∈ s.files, file.unit < NAC_MAX_BOARDS) ?_ ?_ h
  · rintro _ rfl
    exact ⟨.loaded, fun file hfile => (List.not_mem_nil hfile).elim⟩
  · rintro s a s' ⟨hheld, hfiles⟩ - hstep
    cases a with
    | bus a =>
        obtain ⟨t, ht, rfl⟩ := Option.map_eq_some_iff.1 hstep
        exact ⟨hheld.busStep ht, hfiles⟩
    | opens iminor =>
        obtain ⟨file, hopen, rfl⟩ := Option.map_eq_some_iff.1 hstep
        exact ⟨hheld, List.forall_mem_cons.2 ⟨nacOpen_lt hopen, hfiles⟩⟩
    | release file =>
        simp only [files, filesStep] at hstep
        split_ifs at hstep
        cases hstep
        exact ⟨hheld, fun f hf => hfiles f (List.mem_of_mem_erase hf)⟩

/-! ## What the operations use -/

theorem Held.holdsBuffer (h : Held pci pa cards s) (hu : unit < NAC_MAX_BOARDS)
    (hne : (s.slots unit).mmbuf ≠ 0) : HoldsBuffer s (s.slots unit) := by
  refine ⟨hne, ?_, h.mem_pool hne⟩
  rw [h.outstanding _ hne]
  exact Int.natCast_pos.2 (holders_pos hu)

theorem Held.holdsRegisters (h : Held pci pa cards s) (hu : unit < NAC_MAX_BOARDS)
    (hne : (s.slots unit).mmio ≠ 0) : HoldsRegisters s (s.slots unit) := by
  refine ⟨hne, ?_⟩
  rw [← List.count_pos_iff, h.mapped _ hne]
  exact holders_pos hu

end Held

section Operations

variable {sc : Softc} {use : Use}

theorem memCopy_use {atEnd : Int} {ppos count remain : Nat}
    (h : use ∈ (memCopy atEnd sc ppos count remain).uses) :
    ∃ start len, use = .buffer start len ∧ sc.mmbuf ≠ 0 ∧ sc.mmbuf ≤ start ∧
      start + len ≤ sc.mmbuf + sc.bufSize := by
  unfold memCopy at h
  dsimp only at h
  split_ifs at h with hne hend hlong hzero hzero
  all_goals first | exact (List.not_mem_nil h).elim | skip
  · exact ⟨_, _, List.mem_singleton.1 h, hne, Nat.le_add_right _ _, by omega⟩
  · exact ⟨_, _, List.mem_singleton.1 h, hne, Nat.le_add_right _ _, by omega⟩

theorem iomCopy_use {ppos count remain : Nat} (h : use ∈ (iomCopy sc ppos count remain).uses) :
    ∃ start len, use = .registers start len ∧ sc.mmioSize ≠ 0 ∧ sc.mmio ≤ start ∧
      start + len ≤ sc.mmio + sc.mmioSize := by
  unfold iomCopy at h
  dsimp only at h
  split_ifs at h with hend hlong hzero
  all_goals first | exact (List.not_mem_nil h).elim | skip
  · exact ⟨_, _, List.mem_singleton.1 h, by omega, Nat.le_add_right _ _, by omega⟩
  · exact ⟨_, _, List.mem_singleton.1 h, by omega, Nat.le_add_right _ _, by omega⟩

/-- Only one command uses anything, the clock. -/
theorem nacIoctl_uses {deviceCode : Nat → Nat} {now : Int} {cmd : Nat} {arg : UserArg} :
    (nacIoctl deviceCode now sc cmd arg).uses
      = if cmd = NACIOCDUCK ∧ arg.accessOk = true ∧ arg.duckinf ≠ none then [.duck sc.duck] else [] := by
  by_cases hcmd : cmd = NACIOCDUCK
  · subst hcmd
    have hdir : iocDir NACIOCDUCK &&& 3 ≠ 0 := by decide
    rw [nacIoctl, if_neg (by decide), if_neg (by decide)]
    cases hok : arg.accessOk with
    | false => simp [hdir]
    | true =>
        rw [if_neg (by simp), if_neg (by decide), if_pos rfl]
        cases arg.duckinf with
        | none => simp
        | some duckinf =>
            dsimp only
            rw [if_pos ⟨rfl, rfl, Option.some_ne_none _⟩]
            cases duckIoctl now sc.duck duckinf with
            | none => rfl
            | some r =>
                dsimp only
                split_ifs <;> rfl
  · rw [if_neg fun h => hcmd h.1, nacIoctl, if_neg hcmd]
    split_ifs <;> rfl

theorem mem_mapped {f : Remap → Use} {r : Except Errno Remap} :
    use ∈ (mapped f r).uses ↔ ∃ m, r = .ok m ∧ use = f m := by
  cases r with
  | error e => simp [mapped]
  | ok m => simp [mapped]

theorem buf_eq_zero_iff {n : NacSoftc} (hbuf : sc.buf = n.buf.toNat) : sc.buf = 0 ↔ n.buf = 0 := by
  rw [hbuf]
  exact UInt64.toNat_inj (b := 0)

/-- The mapping functions read the same fields of a `NacSoftc`. -/
theorem mmapBuffer_eq (k : Kernel) (oSync : Bool) (n : NacSoftc) (vma : VmAreaStruct)
    (hbuf : sc.buf = n.buf.toNat) (hsize : sc.bufSize = n.bufSize.toNat) :
    mmapBuffer k oSync sc vma = nacMmap k oSync n vma := by
  unfold mmapBuffer nacMmap
  simp only [buf_eq_zero_iff hbuf]
  rw [hbuf, hsize]

theorem mmapRegisters_eq (k : Kernel) (oSync : Bool) (n : NacSoftc) (vma : VmAreaStruct)
    (hbuf : sc.buf = n.buf.toNat) : mmapRegisters k oSync n.device sc vma = nacIomMmap k oSync n vma := by
  unfold mmapRegisters nacIomMmap
  simp only [buf_eq_zero_iff hbuf]

end Operations

/-! ## Safety -/

section Safety

variable {pci : Nat → PciDev} {pa : Nat → Nat} {cards : List Card} {s : DriverState}
  {file : OpenFile}

/-- Buffers of the pool lie in the 64-bit physical address space. -/
def Physical (pa : Nat → Nat) (cards : List Card) : Prop :=
  ∀ card ∈ cards, card.size < 9223372036854775808 ∧
    pa card.vaddr + card.size ≤ 18446744073709551616

theorem Held.memCopy_allowed (h : Held pci pa cards s) (hu : file.unit < NAC_MAX_BOARDS)
    {atEnd : Int} {ppos count remain : Nat} :
    ∀ use ∈ (memCopy atEnd (s.slots file.unit) ppos count remain).uses,
      Allowed pci pa s (s.slots file.unit) use := by
  intro use huse
  obtain ⟨start, len, rfl, hne, hle⟩ := memCopy_use huse
  exact ⟨h.holdsBuffer hu hne, hle⟩

theorem Held.iomCopy_allowed (h : Held pci pa cards s) (hu : file.unit < NAC_MAX_BOARDS)
    {ppos count remain : Nat} :
    ∀ use ∈ (iomCopy (s.slots file.unit) ppos count remain).uses,
      Allowed pci pa s (s.slots file.unit) use := by
  intro use huse
  obtain ⟨start, len, rfl, hsize, hle⟩ := iomCopy_use huse
  have hunit := h.units file.unit
  -- a unit without a mapping has no size to read
  have hne : (s.slots file.unit).mmio ≠ 0 := fun hzero => hsize (hunit.noRegisters hzero)
  rw [hunit.registers hne] at hle
  exact ⟨h.holdsRegisters hu hne, hle⟩

theorem Held.ioctl_safe_iff (h : Held pci pa cards s) {cmd : Nat} {arg : UserArg} :
    Safe pci pa s file (.ioctl cmd arg) ↔
      OpFits pci (s.slots file.unit) file.minor (.ioctl cmd arg) := by
  have hduck := (h.units file.unit).duck
  rw [OpFits]
  constructor
  · intro hsafe hreach
    have huse := hsafe ⟨remappingKernel, false, 0, 0, fun _ => 0⟩ (.duck (s.slots file.unit).duck)
    rw [fileOp, nacIoctl_uses, if_pos hreach] at huse
    exact huse (List.mem_singleton_self _) hduck
  · intro hfits k use huse
    rw [fileOp, nacIoctl_uses, if_neg hfits] at huse
    exact (List.not_mem_nil huse).elim

/-- A mapping is safe for every answer of the kernel if what is mapped lies in the area. -/
theorem mapped_safe_iff {f : Remap → Use} {map : Kernel → Bool → Except Errno Remap} {area : Set Nat}
    {vma : VmAreaStruct}
    (hop : ∀ k, fileOp pci k (s.slots file.unit) file.minor (.mmap vma) = mapped f (map k.kernel k.oSync))
    (hallowed : ∀ m, Allowed pci pa s (s.slots file.unit) (f m) ↔ m.range ⊆ area) :
    Safe pci pa s file (.mmap vma) ↔ MapsInside map area := by
  constructor
  · intro hsafe kernel oSync m hm
    refine (hallowed m).1 (hsafe ⟨kernel, oSync, 0, 0, fun _ => 0⟩ (f m) ?_)
    rw [hop]
    exact mem_mapped.2 ⟨m, hm, rfl⟩
  · intro hinside k use huse
    rw [hop] at huse
    obtain ⟨m, hm, rfl⟩ := mem_mapped.1 huse
    exact (hallowed m).2 (hinside k.kernel k.oSync m hm)

theorem Held.mmap_safe_iff (h : Held pci pa cards s) (hu : file.unit < NAC_MAX_BOARDS)
    (hpa : Physical pa cards) {vma : VmAreaStruct} :
    Safe pci pa s file (.mmap vma) ↔ OpFits pci (s.slots file.unit) file.minor (.mmap vma) := by
  have hunit := h.units file.unit
  by_cases hbuf : (s.slots file.unit).buf = 0
  · refine ⟨fun _ => .inl hbuf, fun _ k use huse => ?_⟩
    rw [fileOp, mmapBuffer, mmapRegisters, if_pos hbuf, if_pos hbuf] at huse
    split_ifs at huse <;> exact (List.not_mem_nil huse).elim
  · have hne : (s.slots file.unit).mmbuf ≠ 0 := fun hzero => hbuf (hunit.noBuffer hzero).1
    obtain ⟨hmmio, hphys, card, hcard, haddr, hsize⟩ := hunit.buffer hne
    obtain ⟨hlt, hend⟩ := hpa card hcard
    rw [haddr, ← hphys, hsize] at hend
    rw [hsize] at hlt
    rw [OpFits, or_iff_right hbuf]
    split_ifs with hminor
    · have hregs := h.holdsRegisters hu hmmio
      have hdev := (pci (s.slots file.unit).device).fits
      have h32 := u32_natCast_le (pci (s.slots file.unit).device).resourceStart.toNat
      rw [@mapped_safe_iff _ _ _ _ .mapRegisters
        (fun k oSync => mmapRegisters k oSync (pci (s.slots file.unit).device) (s.slots file.unit) vma)
        (pci (s.slots file.unit).device).region _ (fun k => by rw [fileOp, if_pos hminor])
        fun m => and_iff_right hregs]
      simp only [mmapRegisters, if_neg hbuf]
      exact mapsInside_remapChecked_iff h32 (by omega) (by omega)
    · have hbuffer := h.holdsBuffer hu hne
      rw [@mapped_safe_iff _ _ _ _ .mapBuffer
        (fun k oSync => mmapBuffer k oSync (s.slots file.unit) vma) _ _
        (fun k => by rw [fileOp, if_neg hminor]) fun m => and_iff_right hbuffer]
      rw [← hphys]
      simp only [mmapBuffer, if_neg hbuf]
      exact mapsInside_remapChecked_iff le_rfl (by omega) hend

/-- **Operations after any history** of probes, failed probes, removals and opens: an operation on
an open unit uses only what the unit holds if and only if it is not the clock's `ioctl`, whose pointer
is `NULL` in every unit, nor a mapping at a negative offset. -/
theorem fileOp_safe_iff (hpa : Physical pa cards) {s : FilesState}
    (h : (files pci pa cards).Reach (fun _ _ => True) s) (hfile : file ∈ s.files)
    (op : FileOperation) :
    Safe pci pa s.bus.driver file op ↔
      OpFits pci (s.bus.driver.slots file.unit) file.minor op := by
  obtain ⟨hheld, hfiles⟩ := held_of_reach h
  have hu := hfiles file hfile
  cases op with
  | read ppos count =>
      refine ⟨fun _ => trivial, fun _ k use huse => ?_⟩
      rw [fileOp] at huse
      split_ifs at huse
      · exact hheld.iomCopy_allowed hu use huse
      · exact hheld.memCopy_allowed hu use huse
  | write ppos count =>
      refine ⟨fun _ => trivial, fun _ k use huse => ?_⟩
      rw [fileOp] at huse
      split_ifs at huse
      · exact hheld.iomCopy_allowed hu use huse
      · exact hheld.memCopy_allowed hu use huse
  | ioctl cmd arg => exact hheld.ioctl_safe_iff
  | mmap vma => exact hheld.mmap_safe_iff hu hpa

end Safety

/-! ## One card -/

/-- The card has been bound and its buffer opened. -/
theorem exists_opened : ∃ s, (files twoDevices id twoBuffers).Reach (fun _ _ => True) s ∧
    s.files = [⟨0, 1⟩] := by
  have hstart : (files twoDevices id twoBuffers).Reach (fun _ _ => True) ⟨loaded twoBuffers, []⟩ :=
    .start rfl
  exact Machine.exists_reach_of_run hstart [.bus (.probe 0 (granted 0xf8000000 40)), .opens 8]
    (fun s => s.files) [⟨0, 1⟩] (by decide +kernel)

theorem twoBuffers_physical : Physical id twoBuffers := by
  unfold Physical
  decide

/-- Reading the buffer is safe. -/
theorem read_safe : ∃ s, (files twoDevices id twoBuffers).Reach (fun _ _ => True) s ∧
    ∃ file ∈ s.files, Safe twoDevices id s.bus.driver file (.read 0 4096) := by
  obtain ⟨s, hreach, hfiles⟩ := exists_opened
  have hfile : ⟨0, 1⟩ ∈ s.files := by
    rw [hfiles]
    exact List.mem_singleton_self _
  exact ⟨s, hreach, _, hfile, (fileOp_safe_iff twoBuffers_physical hreach hfile _).2 trivial⟩

/-- A request about the clock that sets nothing. -/
def noDuckinf : Duckinf :=
  ⟨0, 0, 0, 0, 0, 0, 0, 0, 0, 0, 0, 0, 0, 0, 0, 0, 0, 0, 0⟩

/-- The same file's request about the clock goes through `NULL` and does not return. -/
theorem duck_ioctl_null : ∃ s, (files twoDevices id twoBuffers).Reach (fun _ _ => True) s ∧
    ∃ file ∈ s.files,
      (∀ k, (fileOp twoDevices k (s.bus.driver.slots file.unit) file.minor
        (.ioctl NACIOCDUCK ⟨true, some noDuckinf, true⟩)).rc = none) ∧
      ¬Safe twoDevices id s.bus.driver file (.ioctl NACIOCDUCK ⟨true, some noDuckinf, true⟩) := by
  obtain ⟨s, hreach, hfiles⟩ := exists_opened
  obtain ⟨hheld, -⟩ := held_of_reach hreach
  have hduck := (hheld.units 0).duck
  refine ⟨s, hreach, ⟨0, 1⟩, ?_, ?_, ?_⟩
  · rw [hfiles]
    exact List.mem_singleton_self _
  · intro k
    rw [fileOp, nacIoctl, hduck]
    rfl
  · intro hsafe
    exact hheld.ioctl_safe_iff.1 hsafe ⟨rfl, rfl, Option.some_ne_none _⟩

end NacCard.Driver
