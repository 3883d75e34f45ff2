import NacCard.Base.Run
import NacCard.Mem.Ptable

/-!
# `nac_mem_alloc_ptable`, call by call

* `AllocState`, `allocStep`, `allocRun` — the function cut at its calls of
  `__get_free_pages`, with the orders requested so far.
* `stored` — the tables after a list of blocks.
* `AllocInv` — where a run stands; `allocStep_inv` is one step.
* `AllocReach.tables` — the tables at the end are those of `nacMemAllocPtable`.
* `AllocSafe` — the function returns, asks for sensible orders, and stores within its
  tables.
* `allocSafe_iff` — when it does: if some order is granted at all, and not too many of
  the blocks lie high.
-/

namespace NacCard.Mem

open NacCard.Base

/-- Which of its two loops the function is in. -/
inductive AllocPhase where
  /-- `while((page = __get_free_pages(..., order)) == 0)` -/
  | first
  /-- `for( ; i < PTABSIZE ; )` -/
  | filling
  | done
  deriving Repr, DecidableEq

/-- The answers of `__get_free_pages` to come are the elements of `answers`, then 0 for ever. -/
structure AllocState where
  phase : AllocPhase
  order : Int
  answers : List Nat
  tables : Tables
  /-- the orders of the requests, the latest first -/
  requests : List Int
  deriving Repr, DecidableEq

section Model

variable (virtToPhys : Nat → Nat)

/-- One answer of `__get_free_pages`, or the end of the second loop. -/
def allocStep (s : AllocState) : Option AllocState :=
  let page := s.answers.headD 0
  match s.phase with
  | .first =>
      if page = 0 then
        some { s with
          order := s.order - 1
          answers := s.answers.tail
          requests := s.order :: s.requests }
      else
        some { s with
          phase := .filling
          answers := s.answers.tail
          tables := { s.tables with gfporder := s.order }.store virtToPhys page
          requests := s.order :: s.requests }
  | .filling =>
      if s.tables.ptable.length < PTABSIZE then
        if page = 0 then
          some { s with
            phase := .done
            answers := s.answers.tail
            requests := s.order :: s.requests }
        else
          some { s with
            answers := s.answers.tail
            tables := s.tables.store virtToPhys page
            requests := s.order :: s.requests }
      else some { s with phase := .done }
  | .done => none

/-- The start of the function, with nothing stored. -/
def allocStart (gfporder : Int) (answers : List Nat) : AllocState :=
  ⟨.first, gfporder, answers, ⟨gfporder, [], [], []⟩, []⟩

/-- The function, answer by answer. -/
def allocRun (gfporder : Int) (answers : List Nat) : Machine AllocState Unit where
  init s := s = allocStart gfporder answers
  step s _ := allocStep virtToPhys s

/-- Every run, to its end or not. -/
def AllocReach (gfporder : Int) (answers : List Nat) : AllocState → Prop :=
  (allocRun virtToPhys gfporder answers).Reach fun _ _ => True

/-- A block that goes to `nac_mem_ptable`. -/
def low (page : Nat) : Bool := virtToPhys page < 0xffffffff

/-- The tables with the blocks of `l` in them. -/
def stored (order : Int) (l : List Nat) : Tables :=
  ⟨order, l.filter (low virtToPhys), l.filter fun page => !low virtToPhys page, l⟩

/-- It returns; orders are between 0 and the first; a block stored in either table is not 0 and
has a place there, the one behind those stored before it. -/
structure AllocSafe (gfporder : Int) (answers : List Nat) : Prop where
  ends : ∃ s, AllocReach virtToPhys gfporder answers s ∧ s.phase = .done
  orders : ∀ s, AllocReach virtToPhys gfporder answers s → ∀ o ∈ s.requests, 0 ≤ o ∧ o ≤ gfporder
  ptable : ∀ s, AllocReach virtToPhys gfporder answers s → s.tables.ptable.length ≤ PTABSIZE
  htable : ∀ s, AllocReach virtToPhys gfporder answers s → s.tables.htable.length ≤ HTABSIZE
  ne_zero : ∀ s, AllocReach virtToPhys gfporder answers s → ∀ b ∈ s.tables.ptable ++ s.tables.htable, b ≠ 0

/-- After `z` refusals a block is granted, of order `gfporder - z`; and up to the last block that
there is room for in `nac_mem_ptable`, no more than `HTABSIZE` lie high. -/
def AllocGranted (gfporder : Int) (answers : List Nat) (z : Nat) : Prop :=
  (z : Int) ≤ gfporder ∧ answers.getD z 0 ≠ 0 ∧ (∀ i, i < z → answers.getD i 0 = 0) ∧
    ∀ m, (∀ i, i ≤ m → answers.getD (z + i) 0 ≠ 0) →
      ((answers.drop z).take m).countP (low virtToPhys) < PTABSIZE →
        ((answers.drop z).take (m + 1)).countP (fun page => !low virtToPhys page) ≤ HTABSIZE

end Model

/-! ## The steps -/

variable {virtToPhys : Nat → Nat} {gfporder : Int} {answers : List Nat} {s s' : AllocState}

theorem stored_store (order : Int) (l : List Nat) (page : Nat) :
    (stored virtToPhys order l).store virtToPhys page = stored virtToPhys order (l ++ [page]) := by
  unfold Tables.store stored low
  by_cases hlow : virtToPhys page < 0xffffffff
  · simp [hlow, List.filter_append]
  · simp [hlow, List.filter_append]

theorem headD_drop (n : Nat) : (answers.drop n).headD 0 = answers.getD n 0 := by
  rw [List.headD_eq_head?_getD, List.head?_drop, List.getD_eq_getElem?_getD]

/-- Where a run stands: `n` requests have been refused; or, after `z` refusals, the blocks of `l`
have been stored. -/
inductive AllocInv (virtToPhys : Nat → Nat) (gfporder : Int) (answers : List Nat) : AllocState → Prop
  | first (n : Nat) (requests : List Int) (zero : ∀ i, i < n → answers.getD i 0 = 0)
      (orders : ∀ o, o ∈ requests ↔ gfporder - n < o ∧ o ≤ gfporder) :
      AllocInv virtToPhys gfporder answers
        ⟨.first, gfporder - n, answers.drop n, ⟨gfporder, [], [], []⟩, requests⟩
  | stored (z m : Nat) (phase : AllocPhase) (rest : List Nat) (requests : List Int)
      (zero : ∀ i, i < z → answers.getD i 0 = 0) (block : ∀ i, i ≤ m → answers.getD (z + i) 0 ≠ 0)
      (room : ((answers.drop z).take m).countP (low virtToPhys) < PTABSIZE)
      (orders : ∀ o ∈ requests, gfporder - z ≤ o ∧ o ≤ gfporder)
      (going : phase = .filling → rest = answers.drop (z + m + 1)) (begun : phase ≠ .first) :
      AllocInv virtToPhys gfporder answers
        ⟨phase, gfporder - z, rest,
          Mem.stored virtToPhys (gfporder - z) ((answers.drop z).take (m + 1)), requests⟩

theorem allocStart_inv : AllocInv virtToPhys gfporder answers (allocStart gfporder answers) := by
  have h := @AllocInv.first virtToPhys gfporder answers 0 []
    (fun i hi => absurd hi (Nat.not_lt_zero i)) (fun o => by simp)
  simpa [allocStart] using h

/-- The block behind the first `m`. -/
theorem take_succ_drop {z m : Nat} (h : answers.getD (z + m) 0 ≠ 0) :
    (answers.drop z).take (m + 1) = (answers.drop z).take m ++ [answers.getD (z + m) 0] := by
  have hlt : z + m < answers.length := by
    by_contra hge
    exact h (List.getD_eq_default _ _ (not_lt.1 hge))
  rw [List.take_add_one, List.getElem?_drop, List.getElem?_eq_getElem hlt,
    List.getD_eq_getElem _ _ hlt]
  rfl

theorem stored_length (order : Int) (l : List Nat) :
    (stored virtToPhys order l).ptable.length = l.countP (low virtToPhys) ∧
      (stored virtToPhys order l).htable.length = l.countP fun page => !low virtToPhys page :=
  ⟨List.countP_eq_length_filter.symm, List.countP_eq_length_filter.symm⟩

/-- **One step**. -/
theorem allocStep_inv (h : AllocInv virtToPhys gfporder answers s)
    (hstep : allocStep virtToPhys s = some s') : AllocInv virtToPhys gfporder answers s' := by
  cases h with
  | first n requests hzero horders =>
      unfold allocStep at hstep
      dsimp only at hstep
      rw [headD_drop, List.tail_drop] at hstep
      split_ifs at hstep with hpage
      · obtain rfl := Option.some.inj hstep
        have hnext : gfporder - n - 1 = gfporder - (n + 1 : Nat) := by omega
        rw [hnext]
        refine .first (n + 1) _ ?_ ?_
        · intro i hi
          rcases Nat.lt_succ_iff_lt_or_eq.1 hi with hlt | rfl
          · exact hzero i hlt
          · exact hpage
        · intro o
          rw [List.mem_cons, horders]
          omega
      · obtain rfl := Option.some.inj hstep
        have hfirst : Tables.store virtToPhys ⟨gfporder - n, [], [], []⟩ (answers.getD n 0) =
            stored virtToPhys (gfporder - n) ((answers.drop n).take (0 + 1)) := by
          rw [take_succ_drop hpage, List.take_zero]
          exact stored_store _ [] _
        rw [hfirst]
        refine .stored n 0 _ _ _ hzero ?_ (Nat.zero_lt_succ 1023) ?_ (fun _ => rfl) (by decide)
        · intro i hi
          rw [Nat.le_zero.1 hi]
          exact hpage
        · intro o ho
          rw [List.mem_cons, horders] at ho
          omega
  | stored z m phase rest requests hzero hblock hroom horders hgoing hbegun =>
      cases phase with
      | first => exact absurd rfl hbegun
      | done => cases hstep
      | filling =>
          obtain rfl := hgoing rfl
          unfold allocStep at hstep
          dsimp only at hstep
          rw [headD_drop, List.tail_drop, (stored_length _ _).1] at hstep
          have horders' : ∀ o ∈ (gfporder - z) :: requests, gfporder - z ≤ o ∧ o ≤ gfporder := by
            intro o ho
            rcases List.mem_cons.1 ho with rfl | ho
            · omega
            · exact horders o ho
          split_ifs at hstep with hmore hpage
          · obtain rfl := Option.some.inj hstep
            exact .stored z m _ _ _ hzero hblock hroom horders' (fun h => by cases h) (by decide)
          · obtain rfl := Option.some.inj hstep
            rw [Nat.add_assoc z m 1] at hpage ⊢
            rw [stored_store, ← take_succ_drop hpage]
            refine .stored z (m + 1) _ _ _ hzero ?_ hmore horders' (fun _ => rfl) (by decide)
            intro i hi
            rcases Nat.lt_succ_iff_lt_or_eq.1 (Nat.lt_succ_of_le hi) with hlt | rfl
            · exact hblock i (Nat.le_of_lt_succ hlt)
            · exact hpage
          · obtain rfl := Option.some.inj hstep
            exact .stored z m _ _ _ hzero hblock hroom horders (fun h => by cases h) (by decide)

theorem AllocReach.inv (h : AllocReach virtToPhys gfporder answers s) :
    AllocInv virtToPhys gfporder answers s := by
  refine Machine.Reach.invariant ?_ ?_ h
  · rintro s rfl
    exact allocStart_inv
  · intro s a s' hinv _ hstep
    exact allocStep_inv hinv hstep

theorem AllocReach.step (h : AllocReach virtToPhys gfporder answers s)
    (hstep : allocStep virtToPhys s = some s') : AllocReach virtToPhys gfporder answers s' :=
  @Machine.Reach.next _ _ _ _ _ _ () h trivial hstep

/-! ## The tables that are left -/

/-- What the rest of a run makes of the tables. -/
def AllocState.finish (virtToPhys : Nat → Nat) (s : AllocState) : Option Tables :=
  match s.phase with
  | .first =>
      (determineOrder s.answers s.order).map fun first =>
        fillTables virtToPhys first.2.2
          ({ s.tables with gfporder := first.2.1 }.store virtToPhys first.1)
  | .filling => some (fillTables virtToPhys s.answers s.tables)
  | .done => some s.tables

theorem allocStep_finish (hstep : allocStep virtToPhys s = some s') :
    s'.finish virtToPhys = s.finish virtToPhys := by
  obtain ⟨phase, order, rest, tables, requests⟩ := s
  unfold allocStep at hstep
  cases phase with
  | first =>
      cases rest with
      | nil =>
          obtain rfl := Option.some.inj hstep
          rfl
      | cons page rest =>
          dsimp only [List.headD_cons, List.tail_cons] at hstep
          split_ifs at hstep with hpage
          · obtain rfl := Option.some.inj hstep
            simp [AllocState.finish, determineOrder, hpage]
          · obtain rfl := Option.some.inj hstep
            simp [AllocState.finish, determineOrder, hpage]
  | filling =>
      cases rest with
      | nil =>
          dsimp only [List.headD_nil] at hstep
          rw [if_pos rfl] at hstep
          split_ifs at hstep
          · obtain rfl := Option.some.inj hstep
            rfl
          · obtain rfl := Option.some.inj hstep
            rfl
      | cons page rest =>
          dsimp only [List.headD_cons, List.tail_cons] at hstep
          split_ifs at hstep with hroom hpage
          · obtain rfl := Option.some.inj hstep
            simp [AllocState.finish, fillTables, hpage]
          · obtain rfl := Option.some.inj hstep
            simp [AllocState.finish, fillTables, hroom, hpage]
          · obtain rfl := Option.some.inj hstep
            simp [AllocState.finish, fillTables, hroom]
  | done => cases hstep

/-- **A run that ends leaves the tables of `nacMemAllocPtable`.** -/
theorem AllocReach.tables (h : AllocReach virtToPhys gfporder answers s) (hdone : s.phase = .done) :
    nacMemAllocPtable virtToPhys gfporder answers = some s.tables := by
  have hfinish : s.finish virtToPhys = nacMemAllocPtable virtToPhys gfporder answers := by
    refine Machine.Reach.invariant (I := fun s => s.finish virtToPhys = _) ?_ ?_ h
    · rintro s rfl
      rfl
    · intro s a s' hs _ hstep
      exact (allocStep_finish hstep).trans hs
  rw [← hfinish, AllocState.finish, hdone]

/-! ## Where every run is safe -/

theorem AllocGranted.first_le {z n : Nat} (h : AllocGranted virtToPhys gfporder answers z)
    (hzero : ∀ i, i < n → answers.getD i 0 = 0) : n ≤ z := by
  by_contra hlt
  exact h.2.1 (hzero z (not_le.1 hlt))

theorem AllocGranted.unique {z z' : Nat} (h : AllocGranted virtToPhys gfporder answers z)
    (hzero : ∀ i, i < z' → answers.getD i 0 = 0) (hblock : answers.getD z' 0 ≠ 0) : z' = z := by
  refine Nat.le_antisymm (h.first_le hzero) ?_
  by_contra hlt
  exact hblock (h.2.2.1 z' (not_le.1 hlt))

/-- Every run that has not ended goes on, using up an answer, or has no more to use. -/
theorem allocSafe_ends {z : Nat} (h : AllocGranted virtToPhys gfporder answers z) {n : Nat} :
    ∀ {s : AllocState}, s.answers.length < n → AllocReach virtToPhys gfporder answers s →
      ∃ s', AllocReach virtToPhys gfporder answers s' ∧ s'.phase = .done := by
  induction n with
  | zero => exact fun hlt => absurd hlt (Nat.not_lt_zero _)
  | succ n ih =>
      intro s hlt hs
      by_cases hdone : s.phase = .done
      · exact ⟨s, hs, hdone⟩
      · obtain ⟨s', hstep, hless⟩ : ∃ s', allocStep virtToPhys s = some s' ∧
            (s'.phase = .done ∨ s'.answers.length < s.answers.length) := by
          cases hs.inv with
          | first k requests hzero horders =>
              have hk := h.first_le hzero
              have hz : z < answers.length := by
                by_contra hge
                exact h.2.1 (List.getD_eq_default _ _ (not_lt.1 hge))
              unfold allocStep
              dsimp only
              split_ifs
              · exact ⟨_, rfl, .inr (by simp; omega)⟩
              · exact ⟨_, rfl, .inr (by simp; omega)⟩
          | stored z m phase rest requests hzero hblock hroom horders hgoing hbegun =>
              cases phase with
              | first => exact absurd rfl hbegun
              | done => exact absurd rfl hdone
              | filling =>
                  unfold allocStep
                  dsimp only
                  split_ifs with hmore hpage
                  · exact ⟨_, rfl, .inl rfl⟩
                  · refine ⟨_, rfl, .inr ?_⟩
                    cases rest with
                    | nil => exact absurd rfl hpage
                    | cons page rest => exact Nat.lt_succ_self _
                  · exact ⟨_, rfl, .inl rfl⟩
        rcases hless with hend | hless
        · exact ⟨s', hs.step hstep, hend⟩
        · exact ih (by omega) (hs.step hstep)

theorem allocSafe_of_granted {z : Nat} (h : AllocGranted virtToPhys gfporder answers z) :
    AllocSafe virtToPhys gfporder answers := by
  refine ⟨allocSafe_ends h (Nat.lt_succ_self _) (.start rfl), ?orders, ?ptable, ?htable, ?ne_zero⟩
  all_goals
    intro s hs
    cases hs.inv
  case orders.first n requests hzero horders =>
    have hn := h.first_le hzero
    have hz := h.1
    intro o ho
    have ho' := (horders o).1 ho
    omega
  case orders.stored z' m phase rest requests hzero hblock hroom horders hgoing hbegun =>
    obtain rfl := h.unique hzero (hblock 0 (Nat.zero_le m))
    have hz := h.1
    intro o ho
    have ho' := horders o ho
    omega
  case ptable.first => exact Nat.zero_le _
  case ptable.stored z' m phase rest requests hzero hblock hroom horders hgoing hbegun =>
    rw [(stored_length _ _).1, take_succ_drop (hblock m le_rfl), List.countP_append]
    have hone : [answers.getD (z' + m) 0].countP (low virtToPhys) ≤ 1 := List.countP_le_length
    omega
  case htable.first => exact Nat.zero_le _
  case htable.stored z' m phase rest requests hzero hblock hroom horders hgoing hbegun =>
    obtain rfl := h.unique hzero (hblock 0 (Nat.zero_le m))
    rw [(stored_length _ _).2]
    exact h.2.2.2 m hblock hroom
  case ne_zero.first => exact fun b hb => (List.not_mem_nil hb).elim
  case ne_zero.stored z' m phase rest requests hzero hblock hroom horders hgoing hbegun =>
    intro b hb
    have hmem : b ∈ (answers.drop z').take (m + 1) := by
      rcases List.mem_append.1 hb with hb | hb
      · exact (List.mem_filter.1 hb).1
      · exact (List.mem_filter.1 hb).1
    obtain ⟨i, hi, rfl⟩ := List.mem_iff_getElem.1 hmem
    rw [List.length_take] at hi
    have hne := hblock i (by omega)
    rw [List.getElem_take, List.getElem_drop]
    rwa [List.getD_eq_getElem _ _ (by rw [List.length_drop] at hi; omega)] at hne

/-! ## Where one is not -/

theorem allocReach_first {n : Nat} (hzero : ∀ i, i < n → answers.getD i 0 = 0) :
    ∃ requests, AllocReach virtToPhys gfporder answers
      ⟨.first, gfporder - n, answers.drop n, ⟨gfporder, [], [], []⟩, requests⟩ := by
  induction n with
  | zero => exact ⟨[], .start (by simp [allocRun, allocStart])⟩
  | succ n ih =>
      obtain ⟨requests, hreach⟩ := ih fun i hi => hzero i (by omega)
      refine ⟨(gfporder - n) :: requests, hreach.step ?_⟩
      have hnext : gfporder - n - 1 = gfporder - (n + 1 : Nat) := by omega
      unfold allocStep
      dsimp only
      rw [headD_drop, if_pos (hzero n (Nat.lt_succ_self n)), List.tail_drop, hnext]

theorem allocReach_stored {z m : Nat} (hzero : ∀ i, i < z → answers.getD i 0 = 0)
    (hblock : ∀ i, i ≤ m → answers.getD (z + i) 0 ≠ 0)
    (hroom : ((answers.drop z).take m).countP (low virtToPhys) < PTABSIZE) :
    ∃ requests, AllocReach virtToPhys gfporder answers
      ⟨.filling, gfporder - z, answers.drop (z + m + 1),
        stored virtToPhys (gfporder - z) ((answers.drop z).take (m + 1)), requests⟩ := by
  induction m with
  | zero =>
      obtain ⟨requests, hreach⟩ := @allocReach_first virtToPhys gfporder answers _ hzero
      have hpage : answers.getD z 0 ≠ 0 := hblock 0 le_rfl
      refine ⟨(gfporder - z) :: requests, hreach.step ?_⟩
      unfold allocStep
      dsimp only
      rw [headD_drop, if_neg hpage, List.tail_drop, take_succ_drop (hblock 0 le_rfl), List.take_zero]
      exact congrArg some (congrArg (AllocState.mk _ _ _ · _) (stored_store _ [] _))
  | succ m ih =>
      have hfewer : ((answers.drop z).take m).countP (low virtToPhys) ≤
          ((answers.drop z).take (m + 1)).countP (low virtToPhys) :=
        (List.take_sublist_take_left (Nat.le_succ m)).countP_le
      obtain ⟨requests, hreach⟩ := ih (fun i hi => hblock i (by omega)) (hfewer.trans_lt hroom)
      have hpage := hblock (m + 1) le_rfl
      refine ⟨(gfporder - z) :: requests, hreach.step ?_⟩
      unfold allocStep
      dsimp only
      rw [headD_drop, List.tail_drop, (stored_length _ _).1, if_pos hroom, Nat.add_assoc z m 1,
        if_neg hpage, stored_store, ← take_succ_drop hpage]

/-- If no order down to 0 is granted, the next one that is requested is below 0. -/
theorem not_allocSafe_of_refused (hnone : ∀ i : Nat, (i : Int) ≤ gfporder → answers.getD i 0 = 0) :
    ¬AllocSafe virtToPhys gfporder answers := by
  intro h
  obtain ⟨requests, hreach⟩ := @allocReach_first virtToPhys gfporder answers (gfporder + 1).toNat
    fun i hi => hnone i (by omega)
  obtain ⟨s', hstep, hrequests⟩ : ∃ s', allocStep virtToPhys
      ⟨.first, gfporder - (gfporder + 1).toNat, answers.drop (gfporder + 1).toNat,
        ⟨gfporder, [], [], []⟩, requests⟩ = some s' ∧
      gfporder - (gfporder + 1).toNat ∈ s'.requests := by
    unfold allocStep
    dsimp only
    split_ifs
    · exact ⟨_, rfl, List.mem_cons_self⟩
    · exact ⟨_, rfl, List.mem_cons_self⟩
  obtain ⟨hneg, -⟩ := h.orders s' (hreach.step hstep) _ hrequests
  omega

/-- **When `nac_mem_alloc_ptable` is safe**, for every sequence of answers: some order down to 0 is
granted, and not more than `HTABSIZE` blocks lie high before the function has enough low ones. -/
theorem allocSafe_iff (virtToPhys : Nat → Nat) (gfporder : Int) (answers : List Nat) :
    AllocSafe virtToPhys gfporder answers ↔ ∃ z, AllocGranted virtToPhys gfporder answers z := by
  refine ⟨fun h => ?_, fun ⟨z, hz⟩ => allocSafe_of_granted hz⟩
  -- the first refusals, down to order 0
  by_cases hsome : ∃ z, answers.getD z 0 ≠ 0 ∧ (z : Int) ≤ gfporder
  · obtain ⟨⟨hblock, hle⟩, hfirst⟩ := And.intro (Nat.find_spec hsome) fun i => Nat.find_min hsome (m := i)
    generalize Nat.find hsome = z at hblock hle hfirst
    have hzero : ∀ i, i < z → answers.getD i 0 = 0 := by
      intro i hi
      by_contra hne
      exact hfirst i hi ⟨hne, by omega⟩
    refine ⟨z, hle, hblock, hzero, fun m hblocks hroom => ?_⟩
    obtain ⟨requests, hreach⟩ := @allocReach_stored virtToPhys gfporder answers _ _ hzero hblocks hroom
    rw [← (stored_length (gfporder - z) _).2]
    exact h.htable _ hreach
  · refine absurd h (not_allocSafe_of_refused fun i hi => ?_)
    by_contra hne
    exact hsome ⟨i, hne, hi⟩

/-- An allocator that has nothing to give is asked for ever. -/
theorem alloc_asks_for_ever :
    ¬AllocSafe (fun v => v) 12 [] ∧ ∀ s, AllocReach (fun v => v) 12 [] s → s.phase ≠ .done := by
  refine ⟨not_allocSafe_of_refused fun i _ => rfl, fun s hs => ?_⟩
  cases hs.inv with
  | first n requests hzero horders =>
      intro hdone
      cases hdone
  | stored z m phase rest requests hzero hblock hroom horders hgoing hbegun =>
      exact absurd rfl (hblock 0 (Nat.zero_le m))

end NacCard.Mem
