import NacCard.Mem.Contig

/-!
# What the contiguous search misses

* `Available` — a run in the table that would do for a card.
* `InReach` — where such a run must lie for a search from `cstart` to come to it.
* `findLoop_complete`, `nacMemFindcontig_iff` — the search finds something exactly when a
  run is in reach.
* `nacMemCalls` — the calls that `nac_mem` makes, with the table and `cstart` of each.
* `nacMem_refusals_iff` — which refusals are right.

The calls are those of the 32-bit build; `PLATFORM64`, with undivided sizes and 64-bit addresses, is
not covered.
-/

namespace NacCard.Mem

open NacCard.Base

variable {psize csize calign : Nat} {T : List Nat}

/-- The entries from `s` to `k - 1` are long enough for `csize` bytes, and the lowest block is
aligned. -/
structure Available (psize csize calign : Nat) (T : List Nat) (s k : Nat) : Prop where
  run : Run psize T s k
  le : k ≤ PTABSIZE
  enough : csize ≤ (k - s) * psize
  aligned : T.getD (k - 1) 0 &&& calign = 0

/-- The run begins at or behind `c`, no place from `c` to its end is empty, and it does not end
in the last place. -/
structure InReach (T : List Nat) (c s k : Nat) : Prop where
  start : c ≤ s
  stretch : Stretch T c (k - 1)
  lt : k < PTABSIZE

/-! ## One call -/

/-- The loop, with `i` at or before the end of a run that it has not passed by. -/
theorem findLoop_complete (hT : Below psize T) {n i c s k : Nat} (hrun : Run psize T c i)
    (hn : i + n = PTABSIZE) (hav : Available psize csize calign T s k) (hk : k < PTABSIZE)
    (hstretch : Stretch T i (k - 1)) (hik : i ≤ k) (hcs : s < i → c ≤ s) :
    (findLoop psize csize calign T n i c).vaddr ≠ 0 := by
  induction n generalizing i c with
  | zero => omega
  | succ n ih =>
      have hci := hrun.lt
      have hsk := hav.run.lt
      -- at the end of the run the loop takes what it has
      have htake : i = k → csize ≤ u32 (((i : Int) - c) * psize) ∧ T.getD (i - 1) 0 &&& calign = 0 := by
        rintro rfl
        have hmul : (i - s) * psize ≤ (i - c) * psize :=
          Nat.mul_le_mul_right psize (Nat.sub_le_sub_left (hcs hsk) i)
        rw [hrun.u32_eq hT]
        exact ⟨hav.enough.trans hmul, hav.aligned⟩
      unfold findLoop
      split_ifs with hfound hend hgap
      · exact hrun.ne_zero (i - 1) (by omega) (by omega)
      all_goals
        have hlt : i < k := lt_of_le_of_ne hik fun heq => hfound (htake heq)
      · exact absurd hend (hstretch i le_rfl (by omega))
      · refine ih (Run.single hend) (by omega) (fun j hj hjk => hstretch j (by omega) hjk) hlt ?_
        intro hsi
        by_contra hne
        -- a run has no gap inside
        have hprev := hav.run.entry (i - 1) (by omega) (by omega)
        have hcur := hav.run.entry i (by omega) hlt
        have hsplit : k - 1 - (i - 1) = (k - 1 - i) + 1 := by omega
        have hbelow := hT (i - 1)
        rw [hsplit, Nat.succ_mul] at hprev
        apply hgap
        have hdiff : (T.getD (i - 1) 0 : Int) - T.getD i 0 = psize := by omega
        rw [hdiff, u32_natCast (by omega)]
      · have hprev := hT (i - 1)
        have hcur := hT i
        have hnext : T.getD (i - 1) 0 = T.getD i 0 + psize := by
          have hdiff := not_not.1 hgap
          unfold u32 at hdiff
          omega
        refine ih (hrun.snoc hend hnext) (by omega) (fun j hj hjk => hstretch j (by omega) hjk) hlt ?_
        intro hsi
        rcases Nat.lt_or_ge s i with hbelow | hge
        · exact hcs hbelow
        · exact hci.le.trans hge

/-- **What a search finds**: something, exactly when a run is in reach. -/
theorem nacMemFindcontig_iff (hT : Below psize T) (hpos : 0 < psize) (hlen : T.length = PTABSIZE)
    {align c : Nat} :
    (nacMemFindcontig psize csize align T c).vaddr ≠ 0 ↔
      ∃ s k, Available psize csize (u32 ((align : Int) - 1)) T s k ∧ InReach T c s k := by
  constructor
  · intro hne
    rcases @nacMemFindcontig_cases psize csize T hT hpos align c hlen with ⟨s, k, hf⟩ | ⟨c', hf⟩
    · exact ⟨s, k, ⟨hf.run, hf.lt.le, hf.enough, hf.aligned⟩, hf.start, hf.stretch, hf.lt⟩
    · rw [hf.eq] at hne
      exact absurd rfl hne
  · rintro ⟨s, k, hav, hreach⟩
    have hsk := hav.run.lt
    have hcs := hreach.start
    have hc : T.getD c 0 ≠ 0 := hreach.stretch c le_rfl (by omega)
    have hlt := lt_length_of_getD hc
    unfold nacMemFindcontig
    rw [if_neg hc]
    exact findLoop_complete hT (Run.single hc) (by omega) hav hreach.lt
      (fun j hj hjk => hreach.stretch j (by omega) hjk) (by omega) (fun _ => hcs)

/-! ## The calls of `nac_mem` -/

/-- A call of `nac_mem_findcontig`, and the table and `cstart` it finds. -/
structure Call where
  size : Nat
  ptable : List Nat
  cstart : Nat
  deriving Repr, DecidableEq

/-- The calls of `reserve`. -/
def reserveCalls (psize align : Nat) : Nat → Nat → List Nat → Nat → List Call
  | 0, _, _, _ => []
  | n + 1, size, T, cstart =>
      let r := nacMemFindcontig psize size align T cstart
      ⟨size, T, cstart⟩ ::
        if r.vaddr = 0 then
          if size / 2 ≤ NAC_MIN_SIZE then [] else reserveCalls psize align n (size / 2) r.ptable r.cstart
        else []

/-- The calls of `nacMem`. -/
def nacMemCalls (psize align size : Nat) : Nat → List Nat → Nat → List Call
  | 0, _, _ => []
  | n + 1, T, cstart =>
      let r := reserve psize align 32 size T cstart
      reserveCalls psize align 32 size T cstart ++
        if r.1.vaddr = 0 then [] else nacMemCalls psize align size n r.2.1 r.2.2

/-- What the call returns and leaves. -/
def Call.result (psize align : Nat) (call : Call) : Search :=
  nacMemFindcontig psize call.size align call.ptable call.cstart

/-- If the call returns 0, nothing is there for it. -/
def Call.RefusedRightly (psize align : Nat) (call : Call) : Prop :=
  (call.result psize align).vaddr = 0 →
    ¬∃ s k, Available psize call.size (u32 ((align : Int) - 1)) call.ptable s k

/-- If a run is there, one is in reach. -/
def Call.RunInReach (psize align : Nat) (call : Call) : Prop :=
  (∃ s k, Available psize call.size (u32 ((align : Int) - 1)) call.ptable s k) →
    ∃ s k, Available psize call.size (u32 ((align : Int) - 1)) call.ptable s k ∧
      InReach call.ptable call.cstart s k

variable {align size : Nat}

theorem reserveCalls_below (hT : Below psize T) (hpos : 0 < psize) (hlen : T.length = PTABSIZE)
    {n s c : Nat} {call : Call} (hcall : call ∈ reserveCalls psize align n s T c) :
    Below psize call.ptable ∧ call.ptable.length = PTABSIZE := by
  induction n generalizing s c with
  | zero => exact (List.not_mem_nil hcall).elim
  | succ n ih =>
      rw [reserveCalls] at hcall
      rcases List.mem_cons.1 hcall with rfl | hcall
      · exact ⟨hT, hlen⟩
      · split_ifs at hcall with hzero hsmall
        · exact (List.not_mem_nil hcall).elim
        · rcases @nacMemFindcontig_cases psize s T hT hpos align c hlen with ⟨c', k, hf⟩ | ⟨c', hf⟩
          · exact absurd hzero hf.vaddr_ne_zero
          · rw [hf.eq] at hcall
            exact ih hcall
        · exact (List.not_mem_nil hcall).elim

theorem nacMemCalls_below (hpsize : psize < 4294967296) (hpos : 0 < psize) {n : Nat} :
    ∀ {T : List Nat} {c : Nat} {call : Call}, Below psize T → T.length = PTABSIZE →
      call ∈ nacMemCalls psize align size n T c →
        Below psize call.ptable ∧ call.ptable.length = PTABSIZE := by
  induction n with
  | zero =>
      intro T c call _ _ hcall
      exact (List.not_mem_nil hcall).elim
  | succ n ih =>
      intro T c call hT hlen hcall
      rw [nacMemCalls] at hcall
      rcases List.mem_append.1 hcall with hcall | hcall
      · exact reserveCalls_below hT hpos hlen hcall
      · split_ifs at hcall with hzero
        · exact (List.not_mem_nil hcall).elim
        · rcases @reserve_cases psize align size T hT hpos hlen 32 size c 0
            (by rw [pow_zero, Nat.div_one]) (.inl rfl) with ⟨-, -, hremains, -⟩ | ⟨hnone, -⟩
          · exact ih (hremains.below hpsize hT) (hremains.length_eq.trans hlen) hcall
          · exact absurd hnone hzero

/-- **Which refusals are right**: of all calls that `nac_mem` makes for its cards, from any table,
those where a run is in reach if there is one at all.  The table is one of the 32-bit build. -/
theorem nacMem_refusals_iff (hpsize : psize < 4294967296) (hpos : 0 < psize) (hT : Below psize T)
    (hlen : T.length = PTABSIZE) {nnacs : Nat} {call : Call}
    (hcall : call ∈ nacMemCalls psize align size nnacs T 0) :
    call.RefusedRightly psize align ↔ call.RunInReach psize align := by
  obtain ⟨hT', hlen'⟩ := nacMemCalls_below hpsize hpos hT hlen hcall
  have hfound := @nacMemFindcontig_iff psize call.size call.ptable hT' hpos hlen' align call.cstart
  constructor
  · intro hright hthere
    apply hfound.1
    intro hzero
    exact hright hzero hthere
  · intro hreach hzero hthere
    exact hfound.2 (hreach hthere) hzero

/-! ## Two cards -/

/-- Four blocks of 16 MB, and below them eight. -/
def fourAndEight : List Nat :=
  padded
    [0xd3000000, 0xd2000000, 0xd1000000, 0xd0000000, 0xc7000000, 0xc6000000, 0xc5000000, 0xc4000000,
      0xc3000000, 0xc2000000, 0xc1000000, 0xc0000000]

theorem padded_below {l : List Nat} (hpsize : psize < 4294967296)
    (hl : ∀ b ∈ l, b + psize < 4294967296) : Below psize (padded l) := by
  intro i
  rw [padded_getD]
  rcases Nat.lt_or_ge i l.length with hlt | hge
  · rw [List.getD_eq_getElem _ _ hlt]
    exact hl _ (List.getElem_mem _)
  · rw [List.getD_eq_default _ _ hge, Nat.zero_add]
    exact hpsize

theorem fourAndEight_below : Below 0x1000000 fourAndEight :=
  padded_below (by decide) (by decide)

/-- The first card's call for 128 MB. -/
theorem refused_first_card :
    (Call.mk 0x8000000 fourAndEight 0).RefusedRightly 0x1000000 0x100000 ↔
      (Call.mk 0x8000000 fourAndEight 0).RunInReach 0x1000000 0x100000 :=
  @nacMem_refusals_iff 0x1000000 fourAndEight 0x100000 0x8000000 (by decide) (by decide)
    fourAndEight_below (by decide +kernel) 2 _ (by decide +kernel)

/-- The eight blocks go to the first card.  For the second, which would do with four after
halving its size, the search looks behind them only. -/
theorem refused_second_card :
    Call.mk 0x4000000 (clearRange 4 12 fourAndEight) 12 ∈
        nacMemCalls 0x1000000 0x100000 0x8000000 2 fourAndEight 0 ∧
      ¬(Call.mk 0x4000000 (clearRange 4 12 fourAndEight) 12).RefusedRightly 0x1000000 0x100000 := by
  refine ⟨by decide +kernel, fun h => h (by decide +kernel) ⟨0, 4, ⟨by decide, ?_, ?_⟩, by decide, by decide,
    by decide +kernel⟩⟩
  · intro j _ hj
    interval_cases j <;> decide +kernel
  · intro j _ hj
    interval_cases j <;> decide +kernel

end NacCard.Mem
