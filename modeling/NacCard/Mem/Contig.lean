import NacCard.Mem.Reserve

/-!
# The contiguous search, from any table

* `Descending` — a page table, with holes where earlier searches have taken blocks.
* `findLoop_run` — the search returns the lowest block of a run that is long enough, and
  clears as many entries as it has divided the size into.
* `Took` — blocks that were consecutive entries and are the only ones cleared.
* `searches`, `searches_mem` — calls one after the other; each region is made of entries
  that were there before.
* `nacMemFindcontig_sound` — what every successful call has found, and that no two of a
  sequence have a block in common.

Addresses have 32 bits; the search with 64-bit addresses (`PLATFORM64`) is not covered.
-/

namespace NacCard.Mem

open NacCard.Base

/-- A table of `PTABSIZE` addresses in descending order; 0 stands for an empty place. -/
structure Descending (T : List Nat) : Prop where
  length_eq : T.length = PTABSIZE
  lt : ∀ i, T.getD i 0 < 4294967296
  lt_of_lt : ∀ i j, i < j → T.getD i 0 ≠ 0 → T.getD j 0 ≠ 0 → T.getD j 0 < T.getD i 0

variable {psize csize calign : Nat} {T : List Nat}

/-- Blocks in descending order, and then nothing. -/
def padded (l : List Nat) : List Nat := l ++ List.replicate (PTABSIZE - l.length) 0

theorem padded_getD (l : List Nat) (i : Nat) : (padded l).getD i 0 = l.getD i 0 := by
  rcases Nat.lt_or_ge i l.length with hlt | hge
  · exact List.getD_append _ _ _ _ hlt
  · rw [padded, List.getD_append_right _ _ _ _ hge, List.getD_eq_default _ _ hge]
    rw [List.getD_eq_getElem?_getD, List.getElem?_replicate]
    split_ifs
    · rfl
    · rfl

theorem padded_descending {l : List Nat} (hsorted : l.Pairwise (· > ·)) (hlen : l.length ≤ PTABSIZE)
    (hlt : ∀ b ∈ l, b < 4294967296) : Descending (padded l) := by
  have hin : ∀ i, (padded l).getD i 0 ≠ 0 → ∃ h : i < l.length, (padded l).getD i 0 = l[i] := by
    intro i hi
    rw [padded_getD] at hi ⊢
    have hil := lt_length_of_getD hi
    exact ⟨hil, List.getD_eq_getElem _ _ hil⟩
  refine ⟨?_, ?_, ?_⟩
  · rw [padded, List.length_append, List.length_replicate]
    omega
  · intro i
    by_cases hi : (padded l).getD i 0 = 0
    · rw [hi]
      decide
    · obtain ⟨hil, heq⟩ := hin i hi
      rw [heq]
      exact hlt _ (List.getElem_mem _)
  · intro i j hij hi hj
    obtain ⟨hil, heq⟩ := hin i hi
    obtain ⟨hjl, heq'⟩ := hin j hj
    rw [heq, heq']
    exact List.pairwise_iff_getElem.1 hsorted i j hil hjl hij

theorem Descending.eq_of_eq (h : Descending T) {i j : Nat} (hi : T.getD i 0 ≠ 0)
    (heq : T.getD i 0 = T.getD j 0) : i = j := by
  rcases Nat.lt_trichotomy i j with hlt | rfl | hgt
  · have hless := h.lt_of_lt i j hlt hi (heq ▸ hi)
    omega
  · rfl
  · have hless := h.lt_of_lt j i hgt (heq ▸ hi) hi
    omega

theorem Descending.remains {T' : List Nat} (h : Descending T) (h' : Remains T T') : Descending T' := by
  have hentry : ∀ i, T'.getD i 0 ≠ 0 → T'.getD i 0 = T.getD i 0 := fun i hi => (h'.getD i).resolve_left hi
  refine ⟨h'.length_eq.trans h.length_eq, ?_, ?_⟩
  · intro i
    rcases h'.getD i with hzero | hsame
    · rw [hzero]
      decide
    · rw [hsame]
      exact h.lt i
  · intro i j hij hi hj
    have hi' := hentry i hi
    have hj' := hentry j hj
    rw [hi', hj']
    exact h.lt_of_lt i j hij (hi' ▸ hi) (hj' ▸ hj)

/-! ## One call -/

/-- **The loop**: what it returns is the end of a run that began at or behind `c`; else the table
is as before. -/
theorem findLoop_run (hT : Descending T) {n i c : Nat} (hrun : Run psize T c i)
    (hn : i + n = PTABSIZE) :
    (findLoop psize csize calign T n i c).vaddr = 0 ∧ (findLoop psize csize calign T n i c).ptable = T ∨
      ∃ c' k, Run psize T c' k ∧ k < PTABSIZE ∧ csize ≤ (k - c') * psize ∧
        T.getD (k - 1) 0 &&& calign = 0 ∧
        findLoop psize csize calign T n i c = ⟨T.getD (k - 1) 0, clearRange (k - csize / psize) k T, k⟩ := by
  induction n generalizing i c with
  | zero => exact .inl ⟨rfl, rfl⟩
  | succ n ih =>
      have hci := hrun.lt
      unfold findLoop
      split_ifs with hfound hend hgap
      · refine .inr ⟨c, i, hrun, by omega, ?_, hfound.2, rfl⟩
        -- the product may wrap, but then it only gets smaller
        have hcast : ((i : Int) - c) * psize = ((i - c) * psize : Nat) := by
          rw [Nat.cast_mul, Nat.cast_sub hci.le]
        have hle := u32_le (Int.natCast_nonneg ((i - c) * psize))
        have henough := hfound.1
        rw [hcast] at henough
        omega
      · exact .inl ⟨rfl, rfl⟩
      · exact ih (Run.single hend) (by omega)
      · have hprev := hrun.ne_zero (i - 1) (by omega) (by omega)
        have hless := hT.lt_of_lt (i - 1) i (by omega) hprev hend
        have hlt := hT.lt (i - 1)
        have hnext : T.getD (i - 1) 0 = T.getD i 0 + psize := by
          have hdiff := not_not.1 hgap
          unfold u32 at hdiff
          omega
        exact ih (hrun.snoc hend hnext) (by omega)

/-- `n` blocks from `v` on were consecutive entries, and just these are gone. -/
structure Took (psize n v : Nat) (T T' : List Nat) (i : Nat) : Prop where
  entry : ∀ j, j < n → T.getD (i + (n - 1 - j)) 0 = v + j * psize
  ne_zero : ∀ j, i ≤ j → j < i + n → T.getD j 0 ≠ 0
  cleared : ∀ j, T'.getD j 0 = if i ≤ j ∧ j < i + n then 0 else T.getD j 0

theorem Took.remains {n v i : Nat} {T' : List Nat} (h : Took psize n v T T' i)
    (hlen : T'.length = T.length) : Remains T T' := by
  refine ⟨hlen, fun j => ?_⟩
  rw [h.cleared]
  split_ifs
  · exact .inl rfl
  · exact .inr rfl

/-- What a call does, on any table in descending order. -/
theorem nacMemFindcontig_took (hT : Descending T) {align c : Nat} :
    (nacMemFindcontig psize csize align T c).vaddr = 0 ∧
        (nacMemFindcontig psize csize align T c).ptable = T ∨
      (nacMemFindcontig psize csize align T c).vaddr ≠ 0 ∧
        (nacMemFindcontig psize csize align T c).vaddr &&& u32 ((align : Int) - 1) = 0 ∧
        (nacMemFindcontig psize csize align T c).ptable.length = T.length ∧
        ∃ i, Took psize (csize / psize) (nacMemFindcontig psize csize align T c).vaddr T
          (nacMemFindcontig psize csize align T c).ptable i := by
  unfold nacMemFindcontig
  split_ifs with hzero
  · exact .inl ⟨rfl, rfl⟩
  · have hc := lt_length_of_getD hzero
    have hlen := hT.length_eq
    rcases @findLoop_run psize csize (u32 ((align : Int) - 1)) T hT (PTABSIZE - (c + 1)) (c + 1) c
      (Run.single hzero) (by omega) with hnone | ⟨c', k, hrun, hk, henough, haligned, heq⟩
    · exact .inl hnone
    · have hlt := hrun.lt
      have hm : csize / psize ≤ k - c' := Nat.div_le_of_le_mul (henough.trans_eq (Nat.mul_comm _ _))
      rw [heq]
      dsimp only
      generalize csize / psize = m at hm ⊢
      refine .inr ⟨hrun.ne_zero (k - 1) (by omega) (by omega), haligned, clearRange_length _ _ T,
        k - m, ?_, ?_, ?_⟩
      · intro j hj
        have hplace : k - m + (m - 1 - j) = k - 1 - j := by omega
        rw [hplace]
        exact hrun.block (by omega)
      · intro j hj hjk
        exact hrun.ne_zero j (by omega) (by omega)
      · intro j
        have hsub : k - (k - m) = m := by omega
        rw [clearRange, clearFrom_getD, hsub]

/-! ## Calls one after the other -/

/-- The regions of calls with the sizes and alignments listed, as address and size. -/
def searches (psize : Nat) : List (Nat × Nat) → List Nat → Nat → List (Nat × Nat)
  | [], _, _ => []
  | (csize, align) :: calls, T, c =>
      let r := nacMemFindcontig psize csize align T c
      if r.vaddr = 0 then searches psize calls r.ptable r.cstart
      else (r.vaddr, csize) :: searches psize calls r.ptable r.cstart

/-- The blocks of a region that was found are entries of the table. -/
theorem searches_mem (hT : Descending T) {calls : List (Nat × Nat)} {c : Nat} {r : Nat × Nat}
    (hr : r ∈ searches psize calls T c) {j : Nat} (hj : j < r.2 / psize) :
    ∃ i, T.getD i 0 ≠ 0 ∧ T.getD i 0 = r.1 + j * psize := by
  induction calls generalizing T c with
  | nil => exact (List.not_mem_nil hr).elim
  | cons call calls ih =>
      obtain ⟨csize, align⟩ := call
      rw [searches] at hr
      rcases @nacMemFindcontig_took psize csize T hT align c with ⟨hzero, hsame⟩ | ⟨hne, -, hlen, i, htook⟩
      · rw [if_pos hzero, hsame] at hr
        exact ih hT hr
      · have hremains := htook.remains hlen
        rw [if_neg hne] at hr
        rcases List.mem_cons.1 hr with rfl | hr
        · exact ⟨_, htook.ne_zero _ (Nat.le_add_right _ _) (by dsimp only at hj; omega), htook.entry j hj⟩
        · obtain ⟨k, hk, heq⟩ := ih (hT.remains hremains) hr
          have hkeep := (hremains.getD k).resolve_left hk
          exact ⟨k, hkeep ▸ hk, hkeep ▸ heq⟩

/-- Addresses `psize` apart that do not meet `w` stay below it. -/
theorem le_of_gaps {v w n : Nat} (hlt : v < w)
    (hgap : ∀ j, j < n → v + j * psize < w → v + j * psize + psize ≤ w)
    (hne : ∀ j, j < n → v + j * psize ≠ w) : v + n * psize ≤ w := by
  induction n with
  | zero =>
      rw [Nat.zero_mul]
      exact hlt.le
  | succ n ih =>
      have hle := ih (fun j hj => hgap j (by omega)) fun j hj => hne j (by omega)
      have hstep := hgap n (Nat.lt_succ_self n) (lt_of_le_of_ne hle (hne n (Nat.lt_succ_self n)))
      rw [Nat.succ_mul, ← Nat.add_assoc]
      exact hstep

/-- The blocks of a table do not overlap. -/
def Spaced (psize : Nat) (T : List Nat) : Prop :=
  ∀ i j, i < j → T.getD i 0 ≠ 0 → T.getD j 0 ≠ 0 → T.getD j 0 + psize ≤ T.getD i 0

/-- Two regions have no block in common, and no byte if blocks do not overlap. -/
def Apart (psize : Nat) (T : List Nat) (r r' : Nat × Nat) : Prop :=
  (∀ j j', j < r.2 / psize → j' < r'.2 / psize → r.1 + j * psize ≠ r'.1 + j' * psize) ∧
    (Spaced psize T → r.1 + r.2 ≤ r'.1 ∨ r'.1 + r'.2 ≤ r.1)

theorem apart_of_blocks {r r' : Nat × Nat} (hT : Descending T)
    (hsize : 0 < r.2 / psize ∧ psize ∣ r.2) (hsize' : 0 < r'.2 / psize ∧ psize ∣ r'.2)
    (hmem : ∀ j, j < r.2 / psize → ∃ i, T.getD i 0 ≠ 0 ∧ T.getD i 0 = r.1 + j * psize)
    (hmem' : ∀ j, j < r'.2 / psize → ∃ i, T.getD i 0 ≠ 0 ∧ T.getD i 0 = r'.1 + j * psize)
    (hne : ∀ j j', j < r.2 / psize → j' < r'.2 / psize → r.1 + j * psize ≠ r'.1 + j' * psize) :
    Apart psize T r r' := by
  refine ⟨hne, fun hspaced => ?_⟩
  have hgap : ∀ a b, (∃ i, T.getD i 0 ≠ 0 ∧ T.getD i 0 = a) → (∃ i, T.getD i 0 ≠ 0 ∧ T.getD i 0 = b) →
      a < b → a + psize ≤ b := by
    rintro a b ⟨i, hi, rfl⟩ ⟨k, hk, rfl⟩ hlt
    rcases Nat.lt_trichotomy i k with hik | rfl | hki
    · have hless := hT.lt_of_lt i k hik hi hk
      omega
    · omega
    · exact hspaced k i hki hk hi
  have hstart := hmem 0 hsize.1
  have hstart' := hmem' 0 hsize'.1
  rw [Nat.zero_mul, Nat.add_zero] at hstart hstart'
  have hwhole := Nat.div_mul_cancel hsize.2
  have hwhole' := Nat.div_mul_cancel hsize'.2
  rcases Nat.lt_trichotomy r.1 r'.1 with hlt | heq | hgt
  · have hle := le_of_gaps hlt (fun j hj => hgap _ _ (hmem j hj) hstart') fun j hj => by
      simpa using hne j 0 hj hsize'.1
    rw [hwhole] at hle
    exact .inl hle
  · exact absurd heq (by simpa using hne 0 0 hsize.1 hsize'.1)
  · have hle := le_of_gaps hgt (fun j hj => hgap _ _ (hmem' j hj) hstart) fun j hj => by
      simpa using (hne 0 j hsize.1 hj).symm
    rw [hwhole'] at hle
    exact .inr hle

theorem searches_size {calls : List (Nat × Nat)} {c : Nat} {r : Nat × Nat}
    (hcalls : ∀ call ∈ calls, 0 < call.1 ∧ psize ∣ call.1) (hr : r ∈ searches psize calls T c) :
    0 < r.2 ∧ psize ∣ r.2 := by
  induction calls generalizing T c with
  | nil => exact (List.not_mem_nil hr).elim
  | cons call calls ih =>
      have hrest := fun call' hcall' => hcalls call' (List.mem_cons_of_mem _ hcall')
      rw [searches] at hr
      split_ifs at hr
      · exact ih hrest hr
      · rcases List.mem_cons.1 hr with rfl | hr
        · exact hcalls call List.mem_cons_self
        · exact ih hrest hr

/-- The regions of a table from which others were cleared keep apart in the whole table. -/
theorem Apart.remains {T' : List Nat} {r r' : Nat × Nat} (h' : Remains T T') (h : Apart psize T' r r') :
    Apart psize T r r' := by
  refine ⟨h.1, fun hspaced => h.2 fun i j hij hi hj => ?_⟩
  have hi' := (h'.getD i).resolve_left hi
  have hj' := (h'.getD j).resolve_left hj
  rw [hi', hj']
  exact hspaced i j hij (hi' ▸ hi) (hj' ▸ hj)

theorem searches_apart (hpos : 0 < psize) (hT : Descending T) {calls : List (Nat × Nat)} {c : Nat}
    (hcalls : ∀ call ∈ calls, 0 < call.1 ∧ psize ∣ call.1) :
    (searches psize calls T c).Pairwise (Apart psize T) := by
  induction calls generalizing T c with
  | nil => exact .nil
  | cons call calls ih =>
      have hrest := fun call' hcall' => hcalls call' (List.mem_cons_of_mem _ hcall')
      have hcall := hcalls call List.mem_cons_self
      have hsome : ∀ s, 0 < s → psize ∣ s → 0 < s / psize := fun s hs hdvd =>
        Nat.div_pos (Nat.le_of_dvd hs hdvd) hpos
      obtain ⟨csize, align⟩ := call
      dsimp only at hcall
      rw [searches]
      rcases @nacMemFindcontig_took psize csize T hT align c with ⟨hzero, hsame⟩ | ⟨hne, -, hlen, i, htook⟩
      · rw [if_pos hzero, hsame]
        exact ih hT hrest
      · have hremains := htook.remains hlen
        have hT' := hT.remains hremains
        rw [if_neg hne]
        refine List.pairwise_cons.2 ⟨fun r hr => ?_, (ih hT' hrest).imp fun h => h.remains hremains⟩
        obtain ⟨hr0, hrdvd⟩ := searches_size hrest hr
        have hmem : ∀ j, j < r.2 / psize → ∃ k, T.getD k 0 ≠ 0 ∧ T.getD k 0 = r.1 + j * psize := by
          intro j hj
          obtain ⟨k, hk, heq⟩ := searches_mem hT' hr hj
          have hkeep := (hremains.getD k).resolve_left hk
          exact ⟨k, hkeep ▸ hk, hkeep ▸ heq⟩
        refine apart_of_blocks hT ⟨hsome _ hcall.1 hcall.2, hcall.2⟩ ⟨hsome _ hr0 hrdvd, hrdvd⟩ ?_ hmem ?_
        · intro j hj
          exact ⟨_, htook.ne_zero _ (Nat.le_add_right _ _) (by dsimp only at hj; omega), htook.entry j hj⟩
        · intro j j' hj hj' heq
          dsimp only at hj
          -- a block that is left and one that was cleared have different places
          obtain ⟨k, hk, hkeq⟩ := searches_mem hT' hr hj'
          have hkeep := (hremains.getD k).resolve_left hk
          have hplace := hT.eq_of_eq (hkeep ▸ hk)
            ((hkeep.symm.trans hkeq).trans (heq.symm.trans (htook.entry j hj).symm))
          rw [htook.cleared, if_pos (by omega)] at hk
          exact hk rfl

/-- **The search is sound.**  A region that is returned is aligned and made of blocks that were
consecutive entries; these are cleared and nothing else; and no two regions that a sequence
of calls returns have a block in common.  The entries are addresses of the 32-bit build. -/
theorem nacMemFindcontig_sound (hpos : 0 < psize) (hT : Descending T) :
    (∀ csize c k, 0 < csize → psize ∣ csize → k < 31 →
      (nacMemFindcontig psize csize (2 ^ k) T c).vaddr ≠ 0 →
        2 ^ k ∣ (nacMemFindcontig psize csize (2 ^ k) T c).vaddr ∧
          ∃ i, Took psize (csize / psize) (nacMemFindcontig psize csize (2 ^ k) T c).vaddr T
            (nacMemFindcontig psize csize (2 ^ k) T c).ptable i) ∧
      ∀ calls c, (∀ call ∈ calls, 0 < call.1 ∧ psize ∣ call.1) →
        (searches psize calls T c).Pairwise (Apart psize T) := by
  refine ⟨?_, fun calls c hcalls => searches_apart hpos hT hcalls⟩
  intro csize c k _ _ hk hne
  rcases @nacMemFindcontig_took psize csize T hT (2 ^ k) c with ⟨hzero, -⟩ | ⟨-, haligned, -, htook⟩
  · exact absurd hzero hne
  · refine ⟨?_, htook⟩
    have hpow : 2 ^ k < 2 ^ 31 := Nat.pow_lt_pow_right (by decide) hk
    have hpow0 : 0 < 2 ^ k := Nat.two_pow_pos k
    have hmask : u32 (((2 ^ k : Nat) : Int) - 1) = 2 ^ k - 1 := by
      unfold u32
      omega
    rw [hmask, Nat.and_two_pow_sub_one_eq_mod] at haligned
    exact Nat.dvd_of_mod_eq_zero haligned

/-- Two blocks out of three. -/
theorem nacMemFindcontig_two_of_three :
    2 ^ 12 ∣ (nacMemFindcontig 4096 8192 (2 ^ 12) (padded [0x13000, 0x12000, 0x11000]) 0).vaddr ∧
      ∃ i, Took 4096 (8192 / 4096)
        (nacMemFindcontig 4096 8192 (2 ^ 12) (padded [0x13000, 0x12000, 0x11000]) 0).vaddr
        (padded [0x13000, 0x12000, 0x11000])
        (nacMemFindcontig 4096 8192 (2 ^ 12) (padded [0x13000, 0x12000, 0x11000]) 0).ptable i :=
  (nacMemFindcontig_sound (by decide) (padded_descending (by decide) (by decide) (by decide))).1
    8192 0 12 (by decide) (by decide) (by decide) (by decide +kernel)

end NacCard.Mem
