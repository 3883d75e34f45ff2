import Mathlib

/-!
# Working through a range in pieces

A range of `w` items is cut into pieces of `k`, the last one shorter where `k` does not
divide `w`; each piece is one turn of a loop.

* `chunkCount`, `lastChunk` — how many pieces there are and how long the last one is;
  `chunks_eq` puts them together again, and `chunk_le` says where each ends;
  `getElem?_flatten_replicate` — pieces that are all the same; `getElem?_flatten_map`,
  `flatten_map_piece` — pieces that are all of one length.
* `fill` — overwriting a stretch of an array; `fill_append` joins two stretches.
* `storeAll` — single cells, one after another.
* `bind_of_ok`, `exists_of_bind`, `foldlM_range` — steps that go well, and a `for` loop of them;
  `foldlM_range_of_ok` — what they keep, when the loop has come to its end;
  `mapM_eq_map`, `mapM_eq_none` — a loop that collects what its turns give;
  `fill_loop` and `fill_chunks` — a loop whose turns each fill the next piece, and one
  with a last piece behind it; `chunks_of_ok`, `chunks_returns` — what such a loop does, and that it
  comes to its end.
-/

namespace NacCard.Base

variable {β σ ε : Type}

/-! ## Pieces -/

/-- How many pieces of at most `k` cover `w`. -/
def chunkCount (k w : Nat) : Nat := if w % k = 0 then w / k else w / k + 1

/-- How long the last of them is. -/
def lastChunk (k w : Nat) : Nat := if w % k = 0 then k else w % k

/-- All pieces but the last are full, and the last is not empty. -/
theorem chunks_eq {k w : Nat} (hk : 0 < k) (hw : 0 < w) :
    0 < chunkCount k w ∧ 0 < lastChunk k w ∧ lastChunk k w ≤ k ∧
      (chunkCount k w - 1) * k + lastChunk k w = w := by
  have hdiv := Nat.div_add_mod' w k
  have hmod := Nat.mod_lt w hk
  unfold chunkCount lastChunk
  split_ifs with hzero
  · have hpos : 0 < w / k := by
      apply Nat.pos_of_ne_zero
      intro hnone
      rw [hnone, hzero, Nat.zero_mul] at hdiv
      exact hw.ne hdiv
    refine ⟨hpos, hk, le_rfl, ?_⟩
    have hsplit : w / k * k = (w / k - 1) * k + k := by
      rw [← Nat.succ_mul, Nat.succ_eq_add_one, Nat.sub_add_cancel hpos]
    omega
  · refine ⟨Nat.succ_pos _, Nat.pos_of_ne_zero hzero, hmod.le, ?_⟩
    rw [Nat.add_sub_cancel]
    exact hdiv

/-- A full piece ends where the last one begins, or before. -/
theorem chunk_le {k w i : Nat} (hk : 0 < k) (hw : 0 < w) (hi : i < chunkCount k w - 1) :
    (i + 1) * k + lastChunk k w ≤ w := by
  obtain ⟨-, -, -, hsum⟩ := chunks_eq hk hw
  have hle : (i + 1) * k ≤ (chunkCount k w - 1) * k := Nat.mul_le_mul_right k hi
  exact (Nat.add_le_add_right hle _).trans_eq hsum

theorem chunkCount_le {k w n : Nat} (hk : 0 < k) (h : w ≤ n * k) : chunkCount k w ≤ n := by
  unfold chunkCount
  split_ifs with hzero
  · exact Nat.div_le_of_le_mul (h.trans_eq (Nat.mul_comm n k))
  · refine Nat.succ_le_of_lt ((Nat.div_lt_iff_lt_mul hk).2 (lt_of_le_of_ne h ?_))
    rintro rfl
    exact hzero (Nat.mul_mod_left n k)

/-- The same piece over and over. -/
theorem getElem?_flatten_replicate {α : Type} (piece : List α) {m k : Nat}
    (hk : k < m * piece.length) :
    (List.replicate m piece).flatten[k]? = piece[k % piece.length]? := by
  induction m generalizing k with
  | zero =>
      rw [Nat.zero_mul] at hk
      exact absurd hk (Nat.not_lt_zero k)
  | succ m ih =>
      rw [List.replicate_succ, List.flatten_cons]
      by_cases hfirst : k < piece.length
      · rw [List.getElem?_append_left hfirst, Nat.mod_eq_of_lt hfirst]
      · have hle := not_lt.1 hfirst
        rw [Nat.succ_mul] at hk
        rw [List.getElem?_append_right hle, ih (by omega), ← Nat.mod_eq_sub_mod hle]

section Pieces

variable {α : Type} {k : Nat} {f : Nat → List α}

theorem length_flatten_map (hlen : ∀ i, (f i).length = k) (j : Nat) :
    ((List.range j).map f).flatten.length = j * k := by
  simp [List.length_flatten, Function.comp_def, hlen]

/-- A piece out of all of them. -/
theorem flatten_map_piece (hlen : ∀ i, (f i).length = k) {i j : Nat} (hi : i < j) :
    (((List.range j).map f).flatten.drop (k * i)).take k = f i := by
  obtain ⟨m, rfl⟩ := Nat.exists_eq_add_of_lt hi
  have hsplit : ((List.range (i + m + 1)).map f).flatten =
      ((List.range i).map f).flatten ++
        (f i ++ ((List.range m).map fun j => f (i + 1 + j)).flatten) := by
    rw [Nat.add_right_comm, List.range_add, List.range_succ]
    simp [Function.comp_def]
  rw [hsplit, List.drop_left' (by rw [length_flatten_map hlen, Nat.mul_comm]),
    List.take_left' (hlen i)]

end Pieces

/-! ## Filling an array -/

/-- The array with `f 0, …, f (n - 1)` from index `start` on. -/
def fill (start n : Nat) (f : Nat → β) (cells : Nat → β) : Nat → β :=
  fun a => if start ≤ a ∧ a < start + n then f (a - start) else cells a

theorem fill_zero (start : Nat) (f cells : Nat → β) : fill start 0 f cells = cells := by
  funext a
  rw [fill, if_neg (by omega)]

theorem fill_of_mem {start n a : Nat} {f cells : Nat → β} (h : start ≤ a) (h' : a < start + n) :
    fill start n f cells a = f (a - start) := if_pos ⟨h, h'⟩

theorem fill_of_lt {start n a : Nat} {f cells : Nat → β} (h : a < start) :
    fill start n f cells a = cells a := if_neg fun hmem => absurd hmem.1 h.not_ge

theorem fill_of_le {start n a : Nat} {f cells : Nat → β} (h : start + n ≤ a) :
    fill start n f cells a = cells a := if_neg fun hmem => absurd hmem.2 h.not_gt

/-- A stretch right behind another makes one longer stretch. -/
theorem fill_append (start n m : Nat) (f cells : Nat → β) :
    fill (start + n) m (fun j => f (n + j)) (fill start n f cells) = fill start (n + m) f cells := by
  funext a
  unfold fill
  by_cases h1 : start + n ≤ a ∧ a < start + n + m
  · have harg : n + (a - (start + n)) = a - start := by omega
    rw [if_pos h1, if_pos (by omega)]
    dsimp only
    rw [harg]
  · rw [if_neg h1]
    by_cases h2 : start ≤ a ∧ a < start + n
    · rw [if_pos h2, if_pos (by omega)]
    · rw [if_neg h2, if_neg (by omega)]

theorem fill_snoc (start n : Nat) (f cells : Nat → β) :
    Function.update (fill start n f cells) (start + n) (f n) = fill start (n + 1) f cells := by
  rw [← fill_append]
  funext a
  by_cases ha : a = start + n
  · rw [ha, Function.update_self, fill_of_mem le_rfl (Nat.lt_succ_self _), Nat.sub_self, Nat.add_zero]
  · rw [Function.update_of_ne ha]
    rcases Nat.lt_or_gt_of_ne ha with hlt | hgt
    · exact (fill_of_lt hlt).symm
    · exact (fill_of_le (Nat.succ_le_of_lt hgt)).symm

section Stores

variable {ι : Type} [DecidableEq ι]

/-- The cells after the stores, one after the other. -/
def storeAll (stores : List (ι × β)) (cells : ι → β) : ι → β :=
  stores.foldl (fun cells s => Function.update cells s.1 s.2) cells

theorem storeAll_append (stores stores' : List (ι × β)) (cells : ι → β) :
    storeAll (stores ++ stores') cells = storeAll stores' (storeAll stores cells) :=
  List.foldl_append

/-- What nothing is stored in stays. -/
theorem storeAll_outside {stores : List (ι × β)} {cells : ι → β} {a : ι}
    (h : ∀ s ∈ stores, s.1 ≠ a) : storeAll stores cells a = cells a := by
  induction stores generalizing cells with
  | nil => rfl
  | cons s stores ih =>
      rw [storeAll, List.foldl_cons]
      refine (ih fun d hd => h d (List.mem_cons_of_mem s hd)).trans ?_
      exact Function.update_of_ne (h s (List.mem_cons_self ..)).symm _ _

/-- `n` stores, each in a cell of its own. -/
theorem storeAll_range {p : Nat → ι} (hp : Function.Injective p) (f : Nat → β) (cells : ι → β)
    {n k : Nat} (hk : k < n) :
    storeAll ((List.range n).map fun i => (p i, f i)) cells (p k) = f k := by
  induction n with
  | zero => exact absurd hk (Nat.not_lt_zero k)
  | succ n ih =>
      rw [List.range_succ, List.map_append, storeAll_append]
      rcases (Nat.le_of_lt_succ hk).lt_or_eq with hlt | rfl
      · refine (storeAll_outside fun s hs => ?_).trans (ih hlt)
        rw [List.map_singleton, List.mem_singleton] at hs
        rw [hs]
        exact fun heq => hlt.ne (hp heq).symm
      · exact Function.update_self ..

end Stores

/-! ## Loops that may fail -/

theorem bind_of_ok {α : Type} {x : Except ε σ} {a : σ} (h : x = .ok a) (f : σ → Except ε α) :
    (x >>= f) = f a := by
  rw [h]
  rfl

theorem exists_of_bind {α : Type} {x : Except ε σ} {f : σ → Except ε α} {b : α}
    (h : (x >>= f) = .ok b) : ∃ a, x = .ok a ∧ f a = .ok b := by
  cases x with
  | error e => cases h
  | ok a => exact ⟨a, rfl, h⟩

/-- The rule for `for (i = 0; i < n; i++)` whose turns go well. -/
theorem foldlM_range {f : σ → Nat → Except ε σ} (P : Nat → σ → Prop) {n : Nat}
    (hbody : ∀ i s, i < n → P i s → ∃ s', f s i = .ok s' ∧ P (i + 1) s') {s : σ} (h : P 0 s) :
    ∃ s', (List.range n).foldlM f s = .ok s' ∧ P n s' := by
  induction n with
  | zero => exact ⟨s, rfl, h⟩
  | succ n ih =>
      obtain ⟨s1, hrun, h1⟩ := ih fun i s hi hP => hbody i s (hi.trans (Nat.lt_succ_self n)) hP
      obtain ⟨s2, hlast, h2⟩ := hbody n s1 (Nat.lt_succ_self n) h1
      refine ⟨s2, ?_, h2⟩
      rw [List.range_succ, List.foldlM_append, hrun]
      show List.foldlM f s1 [n] = _
      rw [List.foldlM_cons, hlast]
      rfl

/-- What every turn keeps holds after a loop that has come to its end. -/
theorem foldlM_range_of_ok {f : σ → Nat → Except ε σ} (P : Nat → σ → Prop) {n : Nat}
    (hbody : ∀ i s s', i < n → P i s → f s i = .ok s' → P (i + 1) s') {s s' : σ} (h : P 0 s)
    (hrun : (List.range n).foldlM f s = .ok s') : P n s' := by
  induction n generalizing s' with
  | zero =>
      cases hrun
      exact h
  | succ n ih =>
      rw [List.range_succ, List.foldlM_append] at hrun
      obtain ⟨s1, hrun1, hlast⟩ := exists_of_bind hrun
      obtain ⟨s2, hturn, hnil⟩ := exists_of_bind ((List.foldlM_cons ..).symm.trans hlast)
      cases hnil
      exact hbody n s1 _ (Nat.lt_succ_self n)
        (ih (fun i s s' hi => hbody i s s' (hi.trans (Nat.lt_succ_self n))) hrun1) hturn

/-- A loop whose turn `i` fills the `i`th piece of `k` cells fills them all. -/
theorem fill_loop {body : σ → Nat → Except ε σ} (cells : σ → Nat → β) (Good : σ → Prop)
    {start k n : Nat} {f : Nat → β}
    (hbody : ∀ i s, i < n → Good s → ∃ s', body s i = .ok s' ∧ Good s' ∧
      cells s' = fill (start + i * k) k (fun j => f (i * k + j)) (cells s))
    {s : σ} (h : Good s) :
    ∃ s', (List.range n).foldlM body s = .ok s' ∧ Good s' ∧
      cells s' = fill start (n * k) f (cells s) := by
  refine foldlM_range (fun i s' => Good s' ∧ cells s' = fill start (i * k) f (cells s)) ?_ ⟨h, ?_⟩
  · rintro i s' hi ⟨hgood, hcells⟩
    obtain ⟨s'', hrun, hgood', hcells'⟩ := hbody i s' hi hgood
    refine ⟨s'', hrun, hgood', ?_⟩
    rw [hcells', hcells, fill_append, Nat.succ_mul]
  · rw [Nat.zero_mul, fill_zero]

/-- **Piece after piece**: full pieces in a loop and the last one behind it fill the range. -/
theorem fill_chunks {body : σ → Nat → Except ε σ} {last : σ → Except ε σ} (cells : σ → Nat → β)
    (Good : σ → Prop) {start k w : Nat} {f : Nat → β} (hk : 0 < k) (hw : 0 < w)
    (hbody : ∀ i s, i < chunkCount k w - 1 → Good s → ∃ s', body s i = .ok s' ∧ Good s' ∧
      cells s' = fill (start + i * k) k (fun j => f (i * k + j)) (cells s))
    (hlast : ∀ s, Good s → ∃ s', last s = .ok s' ∧ Good s' ∧
      cells s' = fill (start + (chunkCount k w - 1) * k) (lastChunk k w)
        (fun j => f ((chunkCount k w - 1) * k + j)) (cells s))
    {s : σ} (h : Good s) :
    ∃ s', ((List.range (chunkCount k w - 1)).foldlM body s >>= last) = .ok s' ∧ Good s' ∧
      cells s' = fill start w f (cells s) := by
  obtain ⟨-, -, -, hsum⟩ := chunks_eq hk hw
  obtain ⟨s1, hrun, hgood, hcells⟩ := fill_loop cells Good hbody h
  obtain ⟨s2, hrun', hgood', hcells'⟩ := hlast s1 hgood
  refine ⟨s2, ?_, hgood', ?_⟩
  · rw [hrun]
    exact hrun'
  · rw [hcells', hcells, fill_append, hsum]

/-- **Piece after piece**, for what a run does that has come to its end: `Does a n` are the steps
that do items `a` to `a + n`. -/
theorem chunks_of_ok {body : σ → Nat → Except ε σ} {last : σ → Except ε σ}
    (Does : Nat → Nat → σ → σ → Prop) (hnone : ∀ a s, Does a 0 s s)
    (hjoin : ∀ a n m s s' s'', Does a n s s' → Does (a + n) m s' s'' → Does a (n + m) s s'')
    {start k w : Nat} (hk : 0 < k) (hw : 0 < w)
    (hbody : ∀ i s s', i < chunkCount k w - 1 → body s i = .ok s' → Does (start + i * k) k s s')
    (hlast : ∀ s s', last s = .ok s' →
      Does (start + (chunkCount k w - 1) * k) (lastChunk k w) s s')
    {s s' : σ} (h : ((List.range (chunkCount k w - 1)).foldlM body s >>= last) = .ok s') :
    Does start w s s' := by
  obtain ⟨-, -, -, hsum⟩ := chunks_eq hk hw
  obtain ⟨s1, hloop, hrest⟩ := exists_of_bind h
  have hfull : Does start ((chunkCount k w - 1) * k) s s1 := by
    refine foldlM_range_of_ok (fun i t => Does start (i * k) s t) ?_ ?_ hloop
    · intro i t t' hi ht hturn
      rw [Nat.succ_mul]
      exact hjoin _ _ _ _ _ _ ht (hbody i t t' hi hturn)
    · rw [Nat.zero_mul]
      exact hnone start s
  have hall := hjoin _ _ _ _ _ _ hfull (hlast s1 s' hrest)
  rwa [hsum] at hall

/-- Each item uses up some of what is left. -/
theorem chunks_returns {body : σ → Nat → Except ε σ} {last : σ → Except ε σ}
    (Left : Nat → σ → Prop) {k w : Nat} (hk : 0 < k) (hw : 0 < w)
    (hbody : ∀ i s m, i < chunkCount k w - 1 → Left (m + k) s → ∃ s', body s i = .ok s' ∧ Left m s')
    (hlast : ∀ s m, Left (m + lastChunk k w) s → ∃ s', last s = .ok s' ∧ Left m s')
    {m : Nat} {s : σ} (h : Left (m + w) s) :
    ∃ s', ((List.range (chunkCount k w - 1)).foldlM body s >>= last) = .ok s' ∧ Left m s' := by
  obtain ⟨-, -, -, hsum⟩ := chunks_eq hk hw
  obtain ⟨s1, hloop, hleft⟩ := foldlM_range (f := body) (n := chunkCount k w - 1) (s := s)
    (fun i t => Left (m + lastChunk k w + (chunkCount k w - 1 - i) * k) t)
    (by
      intro i t hi ht
      obtain ⟨j, hj⟩ := Nat.exists_eq_add_of_lt hi
      have hnow : chunkCount k w - 1 - i = j + 1 := by omega
      have hnext : chunkCount k w - 1 - (i + 1) = j := by omega
      rw [hnow, Nat.succ_mul, ← Nat.add_assoc] at ht
      rw [hnext]
      exact hbody i t _ hi ht)
    (by
      rw [Nat.sub_zero, Nat.add_assoc, Nat.add_comm (lastChunk k w), hsum]
      exact h)
  rw [Nat.sub_self, Nat.zero_mul, Nat.add_zero] at hleft
  obtain ⟨s2, hrest, hleft'⟩ := hlast s1 m hleft
  exact ⟨s2, (bind_of_ok hloop last).trans hrest, hleft'⟩

theorem mapM_eq_map {α γ : Type} {g : α → Option γ} {h : α → γ} {l : List α}
    (hg : ∀ a ∈ l, g a = some (h a)) : l.mapM g = some (l.map h) := by
  induction l with
  | nil => rfl
  | cons a l ih =>
      rw [List.mapM_cons, hg a (List.mem_cons_self ..), ih fun b hb => hg b (List.mem_cons_of_mem a hb)]
      rfl

theorem mapM_eq_none {α γ : Type} {g : α → Option γ} {l : List α} (h : ∃ a ∈ l, g a = none) :
    l.mapM g = none := by
  induction l with
  | nil =>
      obtain ⟨a, ha, -⟩ := h
      cases ha
  | cons a l ih =>
      rw [List.mapM_cons]
      cases hga : g a with
      | none => rfl
      | some c =>
          obtain ⟨b, hb, hnone⟩ := h
          rcases List.mem_cons.1 hb with rfl | hmem
          · rw [hnone] at hga
            cases hga
          · rw [ih ⟨b, hmem, hnone⟩]
            rfl

end NacCard.Base
