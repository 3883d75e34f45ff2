import NacCard.Mem.Reserve

/-!
# Which sizes the regions have

The sizes tried for a card are `NAC_MEM_SIZE / nnacs` and its halves.  Where the block
size divides the first one, every region is a whole number of blocks:

* for more than one card, because a half of less than a block would be too small to be
  tried (`half_dvd`), or the first size is that of one block;
* for one card, or for blocks of the first size, because once one block has not been
  found there is no aligned block left that a search could get to, and none is found
  for half a block either (`Dead`, `Sealed`).

* `whole_of_dvd` — that; `dvd_of_half` — the block size divides no half if not the
  whole.
-/

namespace NacCard.Mem

open NacCard.Base

theorem psizeOf_pos (order : Int) : 0 < psizeOf order := by
  unfold psizeOf PAGE_SIZE
  rw [Nat.shiftLeft_eq]
  positivity

theorem psizeOf_lt {order : Int} (h : order ≤ 18) : psizeOf order < 4294967296 := by
  unfold psizeOf PAGE_SIZE
  rw [Nat.shiftLeft_eq]
  have hle : 2 ^ order.toNat ≤ 2 ^ 18 := Nat.pow_le_pow_right (by decide) (by omega)
  omega

theorem cardCount_mem (nnacs : Nat) : 0 < cardCount nnacs ∧ cardCount nnacs < 17 := by
  unfold cardCount NNACS
  dsimp only
  split_ifs <;> omega

theorem initialSize_pos (nnacs : Nat) : 0 < initialSize nnacs := by
  obtain ⟨hpos, hlt⟩ := cardCount_mem nnacs
  have hle : cardCount nnacs ≤ NAC_MEM_SIZE := by
    unfold NAC_MEM_SIZE
    omega
  exact Nat.div_pos hle hpos

/-! ## Where nothing can be found -/

/-- If the searches begin again from 0, nothing before `c` is aligned that they can get
to. -/
def Sealed (calign : Nat) (T : List Nat) (c : Nat) : Prop :=
  (∃ z, c ≤ z ∧ z < PTABSIZE ∧ T.getD z 0 = 0) → ∀ p, p < c → Stretch T 0 p → Unaligned calign T p

section Search

variable {psize csize calign align : Nat} {T : List Nat} {c c' k : Nat} {r : Search}

theorem Sealed.stopped (h : Sealed calign T c) (hs : Stopped T c c') : Sealed calign T c' := by
  cases hs with
  | empty _ => exact h
  | restart z hz hlt hzero => exact fun _ p hp => absurd hp (Nat.not_lt_zero p)
  | full c' hc hfull =>
      rintro ⟨z, hz, hlt, hzero⟩
      exact absurd hzero (hfull z (hc.trans hz) (by omega))

theorem Dead.stopped (h : Dead calign T c) (hseal : Sealed calign T c) (hs : Stopped T c c') :
    Dead calign T c' := by
  cases hs with
  | empty _ => exact h
  | restart z hz hlt hzero =>
      intro p _ hp hpt
      rcases Nat.lt_or_ge p c with hbelow | hge
      · exact hseal ⟨z, hz, hlt, hzero⟩ p hbelow hp
      · exact h p hge (fun j _ hj => hp j (Nat.zero_le j) hj) hpt
  | full c' hc hfull =>
      intro p hp _ hpt
      exact h p (hc.trans hp) (fun j hj hjp => hfull j hj (by omega)) hpt

theorem Dead.not_found (h : Dead calign T c) (hf : Found psize csize calign T c r c' k) : False := by
  have hstart := hf.start
  have hrun := hf.run.lt
  have hlt := hf.lt
  exact h (k - 1) (by omega) hf.stretch (by omega) hf.aligned

/-- One block has been found: it is gone, and those before it are not aligned. -/
theorem Found.sealed (hf : Found psize psize calign T c r c' k) (hpos : 0 < psize)
    (hseal : Sealed calign T c) : Sealed calign r.ptable r.cstart := by
  have hstart := hf.start
  have hrun := hf.run.lt
  have hentry : ∀ j, r.ptable.getD j 0 = if j + 1 = k then 0 else T.getD j 0 := by
    intro j
    rw [hf.eq, Nat.div_self hpos]
    dsimp only
    rw [clearRange, clearFrom_getD]
    split_ifs <;> first | rfl | omega
  have hcstart : r.cstart = k := by
    rw [hf.eq]
  rw [hcstart]
  rintro ⟨z, hz, hlt, hzero⟩ p hp hstretch
  have hT : ∀ j, j ≤ p → j + 1 ≠ k ∧ T.getD j 0 ≠ 0 := by
    intro j hj
    have hne := hstretch j (Nat.zero_le j) hj
    rw [hentry] at hne
    split_ifs at hne with hlast
    · exact absurd rfl hne
    · exact ⟨hlast, hne⟩
  obtain ⟨hlast, -⟩ := hT p le_rfl
  rw [Unaligned, hentry, if_neg hlast]
  rcases Nat.lt_or_ge p c with hbelow | hge
  · rw [hentry, if_neg (by omega)] at hzero
    exact hseal ⟨z, by omega, hlt, hzero⟩ p hbelow fun j _ hj => (hT j hj).2
  · exact hf.first le_rfl p hge (by omega)

/-- Nothing is found for a card then, whatever the size. -/
theorem reserve_dead (hT : Below psize T) (hpos : 0 < psize) (hlen : T.length = PTABSIZE)
    {n s : Nat} (hdead : Dead (u32 ((align : Int) - 1)) T c)
    (hseal : Sealed (u32 ((align : Int) - 1)) T c) : (reserve psize align n s T c).1.vaddr = 0 := by
  induction n generalizing s c with
  | zero => rfl
  | succ n ih =>
      unfold reserve
      dsimp only
      rcases @nacMemFindcontig_cases psize s T hT hpos align c hlen with ⟨c', k, hf⟩ | ⟨c', hf⟩
      · exact (hdead.not_found hf).elim
      · rw [hf.eq, if_pos rfl]
        split_ifs
        · rfl
        · exact ih (hdead.stopped hseal hf.stopped) (hseal.stopped hf.stopped)

/-- A card gets a whole number of blocks, when the first size tried is one block doubled
`m` times. -/
theorem reserve_dvd (hT : Below psize T) (hpos : 0 < psize) (hlen : T.length = PTABSIZE)
    {n m : Nat} (hseal : Sealed (u32 ((align : Int) - 1)) T c) :
    (reserve psize align n (psize * 2 ^ m) T c).1.vaddr = 0 ∨
      psize ∣ (reserve psize align n (psize * 2 ^ m) T c).1.size ∧
        (m = 0 → Sealed (u32 ((align : Int) - 1)) (reserve psize align n (psize * 2 ^ m) T c).2.1
          (reserve psize align n (psize * 2 ^ m) T c).2.2) := by
  induction n generalizing m c with
  | zero => exact .inl rfl
  | succ n ih =>
      unfold reserve
      dsimp only
      rcases @nacMemFindcontig_cases psize (psize * 2 ^ m) T hT hpos align c hlen with
        ⟨c', k, hf⟩ | ⟨c', hf⟩
      · rw [if_neg hf.vaddr_ne_zero]
        refine .inr ⟨Nat.dvd_mul_right psize _, ?_⟩
        rintro rfl
        dsimp only
        rw [pow_zero, Nat.mul_one] at hf ⊢
        exact hf.sealed hpos hseal
      · rw [hf.eq, if_pos rfl]
        split_ifs
        · exact .inl rfl
        · have hseal' := hseal.stopped hf.stopped
          cases m with
          | zero =>
              have hdead := hf.dead (by rw [pow_zero, Nat.mul_one])
              exact .inl (reserve_dead hT hpos hlen (hdead.stopped hseal hf.stopped) hseal')
          | succ m =>
              have hhalf : psize * 2 ^ (m + 1) / 2 = psize * 2 ^ m := by
                rw [Nat.pow_succ, ← Nat.mul_assoc, Nat.mul_div_cancel _ (by decide)]
              rw [hhalf]
              rcases ih hseal' with hnone | ⟨hdvd, -⟩
              · exact .inl hnone
              · exact .inr ⟨hdvd, fun h => absurd h (Nat.succ_ne_zero m)⟩

end Search

/-! ## The sizes -/

/-- A block size that divides the first size is that size halved a few times. -/
theorem initialSize_eq {nnacs : Nat} {order : Int} (horder : order ≤ 18)
    (hdvd : psizeOf order ∣ initialSize nnacs) : ∃ m, initialSize nnacs = psizeOf order * 2 ^ m := by
  obtain ⟨hpos, hlt⟩ := cardCount_mem nnacs
  have hall : ∀ n < 17, ∀ o < 19, 0 < n → PAGE_SIZE <<< o ∣ NAC_MEM_SIZE / n →
      ∃ m < 17, NAC_MEM_SIZE / n = PAGE_SIZE <<< o * 2 ^ m := by decide
  obtain ⟨m, -, hm⟩ := hall _ hlt order.toNat (by omega) hpos hdvd
  exact ⟨m, hm⟩

/-- Only the first three sizes can be large enough. -/
theorem halvings_lt {nnacs j : Nat} (h : NAC_MIN_SIZE < initialSize nnacs / 2 ^ j) : j < 3 := by
  by_contra hge
  have hsize : initialSize nnacs ≤ NAC_MEM_SIZE := Nat.div_le_self _ _
  have hpow : 2 ^ 3 ≤ 2 ^ j := Nat.pow_le_pow_right (by decide) (not_lt.1 hge)
  have hle : initialSize nnacs / 2 ^ j ≤ NAC_MEM_SIZE / 2 ^ 3 := Nat.div_le_div hsize hpow (by decide)
  exact absurd (h.trans_le hle) (by decide)

theorem dvd_of_half {nnacs j : Nat} {order : Int} (horder : order ≤ 18)
    (hj : j = 0 ∨ NAC_MIN_SIZE < initialSize nnacs / 2 ^ j)
    (hdvd : psizeOf order ∣ initialSize nnacs / 2 ^ j) : psizeOf order ∣ initialSize nnacs := by
  obtain ⟨hpos, hlt⟩ := cardCount_mem nnacs
  have hall : ∀ n < 17, ∀ o < 19, ∀ j < 3, 0 < n →
      PAGE_SIZE <<< o ∣ NAC_MEM_SIZE / n / 2 ^ j → PAGE_SIZE <<< o ∣ NAC_MEM_SIZE / n := by decide
  have hj3 : j < 3 := by
    rcases hj with rfl | hj
    · decide
    · exact halvings_lt hj
  exact hall _ hlt order.toNat (by omega) j hj3 hpos hdvd

/-- A half of less than a block is not tried, for more than one card. -/
theorem half_dvd {nnacs j m psize : Nat} (hmany : 1 < cardCount nnacs)
    (hm : initialSize nnacs = psize * 2 ^ m) (hm0 : m ≠ 0)
    (hj : j = 0 ∨ NAC_MIN_SIZE < initialSize nnacs / 2 ^ j) : psize ∣ initialSize nnacs / 2 ^ j := by
  have hsize : initialSize nnacs ≤ NAC_MEM_SIZE / 2 := Nat.div_le_div_left hmany (by decide)
  rcases Nat.lt_or_ge m j with hlt | hle
  · rcases hj with rfl | hj
    · exact absurd hlt (Nat.not_lt_zero m)
    · have hpow : 2 ^ 2 ≤ 2 ^ j := Nat.pow_le_pow_right (by decide) (by omega)
      have hsmall : initialSize nnacs / 2 ^ j ≤ NAC_MEM_SIZE / 2 / 2 ^ 2 :=
        Nat.div_le_div hsize hpow (by decide)
      exact absurd (hj.trans_le hsmall) (by decide)
  · rw [hm, Nat.mul_div_assoc _ (Nat.pow_dvd_pow 2 hle)]
    exact Nat.dvd_mul_right psize _

/-- The loop over the cards, for one card or for blocks of the first size. -/
theorem nacMem_dvd {psize align m : Nat} (hpsize : psize < 4294967296) (hpos : 0 < psize) :
    ∀ (n : Nat) (T : List Nat) (c : Nat), n ≤ 1 ∨ m = 0 → Below psize T → T.length = PTABSIZE →
      Sealed (u32 ((align : Int) - 1)) T c →
      ∀ card ∈ (nacMem psize align (psize * 2 ^ m) n T c).1, card.vaddr ≠ 0 → psize ∣ card.size := by
  intro n
  induction n with
  | zero =>
      intro T c _ _ _ _ card hcard _
      exact (List.not_mem_nil hcard).elim
  | succ n ih =>
      intro T c hone hT hlen hseal card hcard hv
      rw [nacMem] at hcard
      dsimp only at hcard
      split_ifs at hcard with hzero
      · rcases List.mem_cons.1 hcard with rfl | hcard
        · exact absurd hzero hv
        · rw [List.eq_of_mem_replicate hcard] at hv
          exact absurd rfl hv
      · obtain ⟨hdvd, hseal'⟩ := (@reserve_dvd psize align T c hT hpos hlen 32 m hseal).resolve_left hzero
        rcases List.mem_cons.1 hcard with rfl | hcard
        · exact hdvd
        · rcases hone with hle | hm
          · obtain rfl : n = 0 := by omega
            exact (List.not_mem_nil hcard).elim
          · have hcases := @reserve_cases psize align (psize * 2 ^ m) T hT hpos hlen 32 _ c 0
              (by rw [pow_zero, Nat.div_one]) (.inl rfl)
            rcases hcases with ⟨-, -, hremains, -⟩ | ⟨hnone, -⟩
            · exact ih _ _ (.inr hm) (hremains.below hpsize hT) (hremains.length_eq.trans hlen)
                (hseal' hm) card hcard hv
            · exact absurd hnone hzero

/-- **Regions of whole blocks**, where the block size divides the first size. -/
theorem whole_of_dvd {nnacs align : Nat} {order : Int} {T : List Nat} {card : Card}
    (horder : order ≤ 18) (hT : Below (psizeOf order) T) (hlen : T.length = PTABSIZE)
    (hdvd : psizeOf order ∣ initialSize nnacs)
    (hcard : card ∈ (nacMem (psizeOf order) align (initialSize nnacs) (cardCount nnacs) T 0).1)
    (hne : card.vaddr ≠ 0) : psizeOf order ∣ card.size := by
  obtain ⟨m, hm⟩ := initialSize_eq horder hdvd
  by_cases hone : cardCount nnacs ≤ 1 ∨ m = 0
  · rw [hm] at hcard
    exact nacMem_dvd (psizeOf_lt horder) (psizeOf_pos order) _ T 0 hone hT hlen
      (fun _ p hp => absurd hp (Nat.not_lt_zero p)) card hcard hne
  · obtain ⟨hmany, hm0⟩ := not_or.1 hone
    obtain ⟨-, hregion⟩ := @nacMem_spec _ align (initialSize nnacs) (psizeOf_lt horder)
      (psizeOf_pos order) (cardCount nnacs) T 0 hT hlen
    obtain ⟨j, hj, hmin⟩ := (hregion card hcard hne).size_eq
    rw [hj] at hmin ⊢
    exact half_dvd (not_le.1 hmany) hm hm0 hmin

end NacCard.Mem
