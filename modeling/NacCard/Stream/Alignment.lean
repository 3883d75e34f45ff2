import NacCard.Stream.Slots

/-!
# Which stream counts can be attached

`mmap` takes whole pages only.  A stream's size is a truncated quotient and its place
in the buffer a multiple of that size, so whether `nac_attach_stream` asks for whole
pages depends on the number of streams; `nac_msu_configure` turns down 3.

* `MappedInPages` — sizes, offsets and every request of an attach are whole pages.
* `nacMsuConfigure_sizes` — the sizes that are configured, for buffers up to 4 GB.
* `page_dvd_share_iff` — a share is in whole pages exactly when nothing is lost in
  the division.
* `mappedInPages_iff` — the counts that can be attached are those that divide.
-/

namespace NacCard.Stream

open NacCard.Base

/-! ## Pages -/

/-- Keeping the low 32 or 64 bits keeps the place in a page. -/
theorem page_dvd_u32 {x : Int} : 4096 ∣ u32 x ↔ (4096 : Int) ∣ x := by
  unfold u32
  omega

theorem page_dvd_i32 {x : Int} : (4096 : Int) ∣ i32 x ↔ (4096 : Int) ∣ x := by
  unfold i32
  split <;> omega

theorem page_dvd_u64 {x : Int} : 4096 ∣ u64 x ↔ (4096 : Int) ∣ x := by
  unfold u64
  omega

/-- A mapping of whole pages. -/
structure PageAligned (m : Mapping) : Prop where
  addr : 4096 ∣ m.addr
  len : 4096 ∣ m.len
  off : (4096 : Int) ∣ m.off

/-- `nac_attach_stream(i, extra 0)` works in whole pages: the size of the stream, its offset in the
buffer, and every mapping it asks for, whatever pages `mmap` answers with. -/
structure MappedInPages (i : Nat) (st : NacState) : Prop where
  size : 4096 ∣ (st.sheep.stream i).size
  off : (4096 : Int) ∣ i32 (i32 (st.sheep.stream i).size * i)
  requests : ∀ env : Env, (∀ k p, env.mmap k = some p → 4096 ∣ p) →
    ∀ m ∈ (nacAttachStream env i 0 st).2.maps, m ∈ st.maps ∨ PageAligned m

/-! ## The requests of an attach -/

/-- All that mapping a ring can ask for. -/
theorem mapRing_mem {env : Env} {bufSize off : Int} {extra : Nat} {st : NacState} {m : Mapping}
    (hm : m ∈ (mapRing env bufSize extra off st).2.maps) :
    m ∈ st.maps ∨ ∃ p, env.mmap st.clock = some p ∧ m ∈ ringMaps bufSize extra off p := by
  rw [mapRing_eq] at hm
  split at hm
  · exact .inl hm
  · rcases List.mem_append.1 hm with h | h
    · exact .inr ⟨_, by assumption, List.mem_of_mem_drop h⟩
    · exact .inl h
  · rcases List.mem_append.1 hm with h | h
    · exact .inr ⟨_, by assumption, List.mem_of_mem_drop h⟩
    · exact .inl h
  · rcases List.mem_append.1 hm with h | h
    · exact .inr ⟨_, by assumption, h⟩
    · exact .inl h

/-- A ring of whole pages, at a page, is mapped by whole pages. -/
theorem ringMaps_pageAligned {bufSize off : Int} {extra p : Nat} {m : Mapping}
    (hsize : (4096 : Int) ∣ bufSize) (hextra : 4096 ∣ extra) (hoff : (4096 : Int) ∣ off)
    (hp : 4096 ∣ p) (hm : m ∈ ringMaps bufSize extra off p) : PageAligned m := by
  have hextraInt : (4096 : Int) ∣ extra := by exact_mod_cast hextra
  have hpInt : (4096 : Int) ∣ p := by exact_mod_cast hp
  simp only [ringMaps, List.mem_cons, List.not_mem_nil, or_false] at hm
  rcases hm with rfl | rfl | rfl
  · exact ⟨page_dvd_u64.2 (dvd_add hpInt hsize), hextra, hoff⟩
  · exact ⟨hp, page_dvd_u64.2 hsize, hoff⟩
  · exact ⟨hp, page_dvd_u32.2 (dvd_add hsize hextraInt), dvd_zero _⟩

theorem attachRing_mem {env : Env} {i : Nat} {bufSize : Int} {extra : Nat} {st : NacState}
    {m : Mapping} (hm : m ∈ (attachRing env i bufSize extra st).2.maps) :
    m ∈ (mapRing env bufSize extra (i32 (bufSize * i)) st).2.maps ∨ m ∈ st.maps := by
  unfold attachRing at hm
  split_ifs at hm with hextra
  · exact .inr hm
  · generalize mapRing env bufSize extra (i32 (bufSize * i)) st = r at hm ⊢
    obtain ⟨_ | p, st2⟩ := r
    · exact .inl hm
    · exact .inl hm

/-- **A stream whose size is in whole pages is attached in whole pages**, and no other. -/
theorem mappedInPages_iff_size {i : Nat} {st : NacState} :
    MappedInPages i st ↔ 4096 ∣ (st.sheep.stream i).size := by
  refine ⟨fun h => h.size, fun hsize => ?_⟩
  have hint : (4096 : Int) ∣ i32 ((st.sheep.stream i).size : Int) :=
    page_dvd_i32.2 (by exact_mod_cast hsize)
  have hoff : (4096 : Int) ∣ i32 (i32 ((st.sheep.stream i).size : Int) * i) :=
    page_dvd_i32.2 (Dvd.dvd.mul_right hint _)
  refine ⟨hsize, hoff, fun env henv m hm => ?_⟩
  by_cases hopen : st.sheep.opened
  · rw [nacAttachStream_opened hopen, ringExtra, if_pos rfl] at hm
    rcases attachRing_mem hm with hm | hm
    · rcases mapRing_mem hm with hm | ⟨p, hp, hm⟩
      · rw [setStream_maps] at hm
        exact .inl hm
      · exact .inr (ringMaps_pageAligned hint (page_dvd_u32.2 hint) hoff (henv _ _ hp) hm)
    · rw [setStream_maps] at hm
      exact .inl hm
  · rw [nacAttachStream, if_pos (by simp [hopen])] at hm
    exact .inl hm

/-! ## The sizes that are configured -/

/-- The first `k` streams have been given their size. -/
def Sized (bufSize : Int) (k : Nat) (st : NacState) : Prop :=
  ∀ i < k, (st.sheep.stream i).size = u32 bufSize

theorem mallocPbm_size {env : Env} {i j : Nat} {p : NacPbmStream} {st : NacState} :
    ((mallocPbm env i p st).2.sheep.stream j).size = (st.sheep.stream j).size := by
  unfold mallocPbm
  by_cases hj : j = i
  · subst hj
    split_ifs <;> simp
  · split_ifs <;> simp [setStream_ne hj]

theorem msuStream_sized {env : Env} {phy i : Nat} {bufSize : Int} {st st' : NacState}
    (h : Sized bufSize i st) (hrun : msuStream env phy bufSize i st = (true, st')) :
    Sized bufSize (i + 1) st' := by
  have hsize (j : Nat) := @mallocPbm_size env i j (rxPbm i) st
  obtain ⟨st1, hm, rfl⟩ := msuStream_ok hrun
  rw [hm] at hsize
  intro j hj
  rw [programRx_sheep]
  by_cases hji : j = i
  · rw [hji, setStream_self]
  · rw [setStream_ne hji, hsize]
    exact h j (by omega)

/-- **Every stream gets the truncated quotient.** -/
theorem nacMsuConfigure_sizes {env : Env} {n phy b : Nat} {st st' : NacState}
    (hinf : st.sheep.nacinf = ⟨phy, b⟩) (h : nacMsuConfigure env n st = .ok (0, st')) :
    badNumStream n = false ∧ Sized (shareOf b n) n st' := by
  obtain ⟨hbad, -, st1, st2, hloop, hm, rfl⟩ := nacMsuConfigure_ok h
  refine ⟨hbad, ?_⟩
  simp only [hinf, Int.toNat_natCast] at hloop hm ⊢
  have hsized : Sized (shareOf b n) n st1 := by
    have hall := runFor_induct (fun k s => Sized (shareOf b n) k s)
      (fun i s s' hs hbody => msuStream_sized hs hbody) n 0 _ _
      (fun i hi => absurd hi (Nat.not_lt_zero i)) hloop
    simpa using hall
  have hrft (j : Nat) := @mallocPbm_size env n j rftPbm st1
  rw [hm] at hrft
  intro i hi
  rw [markConfigured_stream, programRft_sheep, setStream_ne hi.ne, hrft]
  exact hsized i hi

/-! ## The quotient -/

/-- What a factor up to 8 leaves of a multiple of eight pages is in whole pages. -/
theorem page_dvd_of_mul {n q : Nat} (h : 32768 ∣ n * q) (hpos : 0 < n) (hn : n ≤ 8) : 4096 ∣ q := by
  obtain ⟨k, hk⟩ := h
  have hcases : n = 1 ∨ n = 2 ∨ n = 3 ∨ n = 4 ∨ n = 5 ∨ n = 6 ∨ n = 7 ∨ n = 8 := by omega
  rcases hcases with rfl | rfl | rfl | rfl | rfl | rfl | rfl | rfl <;> omega

/-- **Shares of a number of whole flow tables**: what is lost in the division is less than a page,
so that nothing may be lost. -/
theorem page_dvd_share_iff {d n : Nat} (hd : RFT_SIZE ∣ d) (hpos : 0 < n) (hn : n ≤ 8) :
    4096 ∣ d / n ↔ n ∣ d := by
  have hdiv : n * (d / n) + d % n = d := Nat.div_add_mod d n
  have hlt : d % n < n := Nat.mod_lt d hpos
  have hdpage : 4096 ∣ d := Dvd.dvd.trans (by decide) hd
  constructor
  · intro hshare
    have hmod : 4096 ∣ d % n := by
      rw [← Nat.dvd_add_right (Dvd.dvd.mul_left hshare n), hdiv]
      exact hdpage
    exact Nat.dvd_of_mod_eq_zero (Nat.eq_zero_of_dvd_of_lt hmod (by omega))
  · rintro ⟨q, rfl⟩
    rw [Nat.mul_div_cancel_left q hpos]
    exact page_dvd_of_mul (Dvd.dvd.trans (by decide) hd) hpos hn

theorem page_dvd_shareOf_iff {b n : Nat} (hb : b < 4294967296) (hlt : RFT_SIZE < b)
    (hd : RFT_SIZE ∣ b) (hpos : 0 < n) (hn : n ≤ 8) :
    4096 ∣ u32 (shareOf b n) ↔ n ∣ b - RFT_SIZE := by
  have hsub : u32 ((b : Int) - RFT_SIZE) = b - RFT_SIZE := by
    rw [← Nat.cast_sub hlt.le]
    exact u32_natCast (by omega)
  rw [page_dvd_u32, shareOf, page_dvd_i32, hsub, u32_natCast (show n < 4294967296 by omega)]
  rw [← page_dvd_share_iff (Nat.dvd_sub hd dvd_rfl) hpos hn]
  exact Int.natCast_dvd_natCast

/-! ## The counts -/

/-- **The counts that can be attached**: on a card with any number of flow tables more than one, and
after any calls that leave the sizes alone, the streams of an accepted number are attached in whole
pages if and only if that number divides what the flow table leaves of the buffer. -/
theorem mappedInPages_iff {env : Env} {n phy b : Nat} {st st1 st2 : NacState}
    (hinf : st.sheep.nacinf = ⟨phy, b⟩) (hb : b < 4294967296) (hlt : RFT_SIZE < b)
    (hd : RFT_SIZE ∣ b) (hconf : nacMsuConfigure env n st = .ok (0, st1))
    (hsame : SameShares st1 st2) :
    (∀ i < n, MappedInPages i st2) ↔ n ∣ b - RFT_SIZE := by
  obtain ⟨hacc, hsized⟩ := nacMsuConfigure_sizes hinf hconf
  obtain ⟨hpos, hle, -⟩ := accepted_iff.1 hacc
  rw [← page_dvd_shareOf_iff hb hlt hd (by omega) (by omega)]
  have hsize (i : Nat) (hi : i < n) : (st2.sheep.stream i).size = u32 (shareOf b n) :=
    (hsame.size i).trans (hsized i hi)
  constructor
  · intro h
    rw [← hsize 0 (by omega)]
    exact (h 0 (by omega)).size
  · intro h i hi
    rw [mappedInPages_iff_size, hsize i hi]
    exact h

/-- Eight streams on 16 MB, 1 MB each. -/
theorem eight_mappedInPages : ∃ st1,
    nacMsuConfigure grantAll 8 (freshCard 0x10000000 0x1000000) = .ok (0, st1) ∧
      ∀ i < 8, MappedInPages i st1 := by
  obtain ⟨st1, hconf⟩ := @nacMsuConfigure_total grantAll (fun _ => rfl) 8 (by decide)
    (freshCard 0x10000000 0x1000000) rfl
  exact ⟨st1, hconf, (@mappedInPages_iff grantAll 8 0x10000000 0x1000000 _ st1 st1 rfl (by decide)
    (by decide) (by decide) hconf (.refl st1)).2 (by decide)⟩

/-- **Five streams on 16 MB**: the number is accepted, and each stream has 1677721 bytes, 2457 of them
on a page that is not whole. -/
theorem five_not_mappedInPages : ∃ st1,
    nacMsuConfigure grantAll 5 (freshCard 0x10000000 0x1000000) = .ok (0, st1) ∧
      (∀ i < 5, (st1.sheep.stream i).size = 1677721) ∧ ¬∀ i < 5, MappedInPages i st1 := by
  obtain ⟨st1, hconf⟩ := @nacMsuConfigure_total grantAll (fun _ => rfl) 5 (by decide)
    (freshCard 0x10000000 0x1000000) rfl
  have hsize : ∀ i < 5, (st1.sheep.stream i).size = 1677721 := by
    intro i hi
    rw [(nacMsuConfigure_sizes rfl hconf).2 i hi]
    decide
  refine ⟨st1, hconf, hsize, fun h => ?_⟩
  have hpage := (h 0 (by decide)).size
  rw [hsize 0 (by decide)] at hpage
  exact absurd hpage (by decide)

end NacCard.Stream
