import NacCard.Rx.Records

/-!
# Which records `nac_get_next_record` delivers

* `Delivered` — a result is a record of the stream, completely written, inside the
  mapping.
* `VarsOk` — the three variables between two calls: `offset` is the next record,
  the free space has been written, and `processed` bounds how far `offset` is
  beyond the ring, unless the free space is too small for the next record.
* `StepFits` — the steps the code is right about.  The others are a header read
  behind the mapping, which an `offset` left as it was by `EAGAIN` leads to, and a
  second `nac_advance_stream` whose top lies below the record: the free space is
  negative then, and taken for large.
* `nacGetNextRecord_delivers` — under it the results are the records, in order.
* `nacGetNextRecord_early` — without it, a record that is only half there.
-/

namespace NacCard.Rx

open NacCard.Base NacCard.Stream

variable {g : RxRing} {R : Records g} {mindata : Nat}

/-! ## What is promised -/

/-- `d` is record `i`. -/
structure Delivered (g : RxRing) (R : Records g) (i : Nat) (d : Delivery) : Prop where
  rlen : d.rlen = R.rlen i
  bytes : d.bytes = (List.range (R.rlen i)).map fun j => R.data (startOf R.rlen i + j)
  written : startOf R.rlen i + R.rlen i ≤ d.written
  inside : g.buf ≤ d.address ∧ d.address + d.rlen ≤ g.buf + g.size + g.extra

/-- The results are the records in order, and no call has crashed. -/
structure DeliverySafe (g : RxRing) (R : Records g) (s : RecordState) : Prop where
  results : ∀ i d, s.results[i]? = some d → Delivered g R i d
  no_fault : s.pc ≠ .fault

/-- The steps the code gets right. -/
def StepFits (g : RxRing) (R : Records g) (mindata : Nat) (s : RecordState) (a : RecordAct) : Prop :=
  match s.pc with
  | .header next => a = .tick → next + 12 ≤ g.buf + g.size + g.extra
  | .poll (.second _) next r =>
      a = .timeout ∨ a = .tick ∧ g.waits mindata next r = false →
        next ≤ g.topFor next r ∨ startOf R.rlen (s.results.length + 1) ≤ s.engine.written
  | _ => True

instance (s : RecordState) (a : RecordAct) : Decidable (StepFits g R mindata s a) := by
  unfold StepFits
  split <;> infer_instance

/-! ## The invariant -/

/-- The variables, when the next record is at index `p` and `written` bytes have been
written. -/
structure VarsOk (g : RxRing) (v : StreamVars) (p written : Nat) : Prop where
  first : v.isFirstTime = false
  bottom : BottomAt g p (g.buf + v.offset)
  free : (p : Int) + v.freeSpace ≤ written
  free_mem : -70000 ≤ v.freeSpace ∧ v.freeSpace ≤ g.size
  processed : v.processed ≤ g.extra

/-- `processed` bounds how far `next` is beyond the ring, unless there is too little
free space for the next record anyway. -/
def Window (g : RxRing) (v : StreamVars) (next len : Nat) : Prop :=
  next ≤ g.buf + g.size + v.processed ∨ v.freeSpace < len

/-- `rlen` has been read correctly. -/
def CallOk (c : AdvanceCall) (len : Nat) : Prop :=
  match c with
  | .first => True
  | .second rlen => rlen = len

/-- What is known at each place of a call; the next record is at `p` and `len` bytes long. -/
def RecordPcOk (g : RxRing) (s : RecordState) (p len : Nat) : Prop :=
  match s.pc with
  | .idle => s.vars.isFirstTime = true ∨ Window g s.vars (g.buf + s.vars.offset) len
  | .enter c next => BottomAt g p next ∧ CallOk c len
  | .read c next r => Polling g s.engine p next r ∧ CallOk c len
  | .poll c next r => Polling g s.engine p next r ∧ CallOk c len
  | .header next =>
      BottomAt g p next ∧ 16 ≤ s.vars.freeSpace ∧ Window g s.vars next len
  | .fault => False

/-- Before the first call, or after it has set its variables. -/
def Ready (g : RxRing) (s : RecordState) (p : Nat) : Prop :=
  s.vars.isFirstTime = true ∧ s.results = [] ∧ s.pc = .idle ∨ VarsOk g s.vars p s.engine.written

/-- The invariant: where the next record is, what the call knows, and what was delivered. -/
structure RecordInv (g : RxRing) (R : Records g) (s : RecordState) : Prop where
  core : ∃ n b, Core g R.data s.engine (startOf R.rlen s.results.length) n b
  ready : Ready g s (startOf R.rlen s.results.length)
  pc : RecordPcOk g s (startOf R.rlen s.results.length) (R.rlen s.results.length)
  delivered : ∀ i d, s.results[i]? = some d → Delivered g R i d

theorem Records.rlen_lt (R : Records g) (k : Nat) : R.rlen k < 65536 := by
  have hhi := (R.data (startOf R.rlen k + 10)).toNat_lt
  have hlo := (R.data (startOf R.rlen k + 11)).toNat_lt
  have hheader := R.header k
  omega

theorem Lap.pointer {p n b next : Nat} (h : Lap g.size p n b) (hnext : next = g.buf + b) :
    BottomAt g p next ∧ next ≤ g.buf + g.size := by
  have hle := h.le
  have hat := h.bottomAt
  rw [← hnext] at hat
  exact ⟨hat, by omega⟩

/-! ## A record is returned -/

theorem seen_delivered {s : RecordState} {next n b : Nat}
    (hcore : Core g R.data s.engine (startOf R.rlen s.results.length) n b)
    (hat : BottomAt g (startOf R.rlen s.results.length) next)
    (hin : next + R.rlen s.results.length ≤ g.buf + g.size + g.extra)
    (hw : startOf R.rlen s.results.length + R.rlen s.results.length ≤ s.engine.written) :
    Delivered g R s.results.length (g.seen s.engine next (R.rlen s.results.length)) := by
  refine ⟨rfl, ?_, hw, ?_, hin⟩
  · apply List.map_congr_left
    intro j hj
    have hlt := List.mem_range.1 hj
    have hindex : startOf R.rlen s.results.length + (next + j - next)
        = startOf R.rlen s.results.length + j := by omega
    rw [hat.readByte (Nat.le_add_right _ _) (by omega), hindex]
    exact hcore.shows _ (by omega) (by omega)
  · obtain ⟨k, o, rfl, -⟩ := hat
    exact Nat.le_add_right _ _

section Returned

variable {v : StreamVars} {next len : Nat}

theorem returned_offset (hbase : g.buf ≤ next) (hin : next + len ≤ g.buf + g.size + g.extra) :
    g.buf + (v.returned g.buf next len).offset = next + len := by
  have hsize := g.size_lt
  have hextra := g.extra_le
  have hu := u32_of_lt (show 0 ≤ (next : Int) + len - g.buf by omega) (by omega)
  unfold StreamVars.returned
  dsimp only
  omega

theorem returned_freeSpace (hlen : len < 65536) (hmem : -128 ≤ v.freeSpace ∧ v.freeSpace ≤ g.size) :
    (v.returned g.buf next len).freeSpace = v.freeSpace - len := by
  have hsize := g.size_lt
  unfold StreamVars.returned u32 i32
  dsimp only
  split <;> omega

theorem returned_processed (hproc : v.processed + len ≤ g.extra) :
    (v.returned g.buf next len).processed = v.processed + len := by
  have hsize := g.size_lt
  have hextra := g.extra_le
  unfold StreamVars.returned
  dsimp only
  rw [← Nat.cast_add, u32_natCast (by omega)]

end Returned

/-- One more record has been delivered. -/
theorem delivered_append {results : List Delivery} {x : Delivery}
    (h : ∀ i d, results[i]? = some d → Delivered g R i d) (hx : Delivered g R results.length x)
    (i : Nat) (d : Delivery) (hd : (results ++ [x])[i]? = some d) : Delivered g R i d := by
  rw [List.getElem?_append] at hd
  split_ifs at hd with hi
  · exact h i d hd
  · rw [List.getElem?_singleton] at hd
    split_ifs at hd with hi0
    obtain rfl : i = results.length := by omega
    cases hd
    exact hx

/-- **A record is returned**, and the variables are set for the next one. -/
theorem RecordInv.deliver {s : RecordState} {next n b : Nat}
    (hcore : Core g R.data s.engine (startOf R.rlen s.results.length) n b)
    (hdelivered : ∀ i d, s.results[i]? = some d → Delivered g R i d)
    (hfirst : s.vars.isFirstTime = false)
    (hat : BottomAt g (startOf R.rlen s.results.length) next)
    (hnext : next ≤ g.buf + g.size + s.vars.processed)
    (hproc : s.vars.processed + R.rlen s.results.length ≤ g.extra)
    (hw : startOf R.rlen s.results.length + R.rlen s.results.length ≤ s.engine.written)
    (hfree : (startOf R.rlen s.results.length : Int) + s.vars.freeSpace ≤ s.engine.written)
    (hmem : -128 ≤ s.vars.freeSpace ∧ s.vars.freeSpace ≤ g.size) :
    RecordInv g R (g.deliver s next (R.rlen s.results.length)) := by
  have hlen := R.rlen_lt s.results.length
  have hin : next + R.rlen s.results.length ≤ g.buf + g.size + g.extra := by omega
  have hbase : g.buf ≤ next := by
    obtain ⟨k, o, rfl, -⟩ := id hat
    exact Nat.le_add_right _ _
  obtain ⟨hat', n', b', hlap'⟩ := hat.move (Nat.le_add_right next _) hin
  rw [Nat.add_sub_cancel_left] at hat' hlap'
  -- the values of the variables
  have hoffset := @returned_offset g s.vars next (R.rlen s.results.length) hbase hin
  have hnewFree := @returned_freeSpace g s.vars next (R.rlen s.results.length) hlen hmem
  have hnewProc := @returned_processed g s.vars next (R.rlen s.results.length) hproc
  have hlength : (g.deliver s next (R.rlen s.results.length)).results.length
      = s.results.length + 1 := List.length_append
  have hstart : startOf R.rlen (s.results.length + 1)
      = startOf R.rlen s.results.length + R.rlen s.results.length := rfl
  refine ⟨?_, ?_, ?_, delivered_append hdelivered (seen_delivered hcore hat hin hw)⟩
  · rw [hlength, hstart]
    exact ⟨n', b', hcore.pass hlap' (Nat.le_add_right _ _) hw⟩
  · rw [hlength, hstart]
    refine .inr ⟨hfirst, ?_, ?_, ?_, ?_⟩
    · exact hoffset.symm ▸ hat'
    · show _ + (s.vars.returned g.buf next (R.rlen s.results.length)).freeSpace ≤ _
      rw [hnewFree]
      push_cast
      show _ ≤ (s.engine.written : Int)
      omega
    · show _ ≤ (s.vars.returned g.buf next (R.rlen s.results.length)).freeSpace ∧ _
      rw [RxRing.deliver, hnewFree]
      omega
    · exact hnewProc.trans_le hproc
  · refine .inr (.inl ?_)
    show g.buf + (s.vars.returned g.buf next (R.rlen s.results.length)).offset ≤ _
    rw [RxRing.deliver, hoffset, hnewProc]
    omega

/-! ## Every step keeps the invariant -/

/-- What `free_space` is after a call of `nac_advance_stream` that began for `next`. -/
structure Advanced (g : RxRing) (R : Records g) (s : RecordState) (next top : Nat) : Prop where
  pointer : BottomAt g (startOf R.rlen s.results.length) next ∧ next ≤ g.buf + g.size
  free : (s.vars.advanced next top).freeSpace = (top : Int) - next
  free_le : (startOf R.rlen s.results.length : Int) + ((top : Int) - next) ≤ s.engine.written
  free_mem : -128 ≤ (top : Int) - next ∧ (top : Int) - next ≤ g.size

theorem Polling.advanced {s : RecordState} {next r n b : Nat}
    (h : Polling g s.engine (startOf R.rlen s.results.length) next r)
    (hcore : Core g R.data s.engine (startOf R.rlen s.results.length) n b) :
    Advanced g R s next (g.topFor next r) := by
  have hsize := g.size_lt
  have hwle := hcore.written_le
  have hpassed := hcore.passed_le
  have hge := h.top_ge
  obtain ⟨hle, -⟩ := h.top hpassed
  obtain ⟨n', b', x, hlap, hnext, -⟩ := h
  have hfree : (startOf R.rlen s.results.length : Int) + ((g.topFor next r : Int) - next)
      ≤ s.engine.written := by omega
  have hmem : -128 ≤ (g.topFor next r : Int) - next ∧ (g.topFor next r : Int) - next ≤ g.size := by
    omega
  refine ⟨hlap.pointer hnext, ?_, hfree, hmem⟩
  exact i32_of_mem (by omega) (by omega)

/-- The variables after the call; `offset` is as it was. -/
theorem VarsOk.advanced {v : StreamVars} {p written next top : Nat} (h : VarsOk g v p written)
    (hfree : (v.advanced next top).freeSpace = (top : Int) - next)
    (hle : (p : Int) + ((top : Int) - next) ≤ written)
    (hmem : -128 ≤ (top : Int) - next ∧ (top : Int) - next ≤ g.size) :
    VarsOk g (v.advanced next top) p written := by
  refine ⟨h.first, h.bottom, ?_, ?_, Nat.zero_le _⟩ <;> rw [hfree] <;> omega

/-- `nac_advance_stream` returns: the call ends in `EAGAIN`, goes on to the header, or
returns the record. -/
theorem RecordInv.resume {s : RecordState} {c : AdvanceCall} {next r : Nat}
    (h : RecordInv g R s)
    (hvars : VarsOk g s.vars (startOf R.rlen s.results.length) s.engine.written)
    (hpoll : Polling g s.engine (startOf R.rlen s.results.length) next r)
    (hc : CallOk c (R.rlen s.results.length))
    (hfits : c ≠ .first → next ≤ g.topFor next r ∨
      startOf R.rlen (s.results.length + 1) ≤ s.engine.written) :
    RecordInv g R (g.resume s c next (g.topFor next r)) := by
  obtain ⟨n, b, hcore⟩ := h.core
  obtain ⟨⟨hat, hnext⟩, hfree, hle, hmem⟩ := hpoll.advanced hcore
  have hsize := g.size_lt
  have hmin := R.rlen_min s.results.length
  have hmax := R.rlen_max s.results.length
  have hvars' := hvars.advanced hfree hle hmem
  unfold RxRing.resume
  dsimp only
  cases c with
  | first =>
      dsimp only
      split_ifs with hshort
      all_goals
        rw [hfree, nacRecordSize] at hshort
      · refine ⟨⟨n, b, hcore⟩, .inr hvars', .inr (.inr ?_), h.delivered⟩
        rw [hfree]
        dsimp only
        omega
      · refine ⟨⟨n, b, hcore⟩, .inr hvars', ⟨hat, ?_, .inl hnext⟩, h.delivered⟩
        rw [hfree]
        omega
  | second rlen =>
      obtain rfl : rlen = R.rlen s.results.length := hc
      have hstart : startOf R.rlen (s.results.length + 1)
          = startOf R.rlen s.results.length + R.rlen s.results.length := rfl
      dsimp only
      split_ifs with hshort
      all_goals
        rw [hfree] at hshort
      · refine ⟨⟨n, b, hcore⟩, .inr hvars', .inr (.inr ?_), h.delivered⟩
        rw [hfree]
        dsimp only
        have hu := le_u32 (show (g.topFor next r : Int) - next < 4294967296 by omega)
        omega
      · have hw : startOf R.rlen s.results.length + R.rlen s.results.length
            ≤ s.engine.written := by
          rcases hfits (by simp) with habove | hwritten
          · have hu := u32_of_lt (show 0 ≤ (g.topFor next r : Int) - next by omega) (by omega)
            omega
          · exact hwritten
        refine RecordInv.deliver (n := n) (b := b) hcore h.delivered hvars'.first hat hnext ?_ hw ?_ ?_
        · exact (Nat.zero_add _).trans_le hmax
        · exact hvars'.free
        · rw [← hfree] at hmem
          exact hmem

/-- The header is read, inside the mapping. -/
theorem RecordInv.readHeader {s : RecordState} {next : Nat} (h : RecordInv g R s)
    (hvars : VarsOk g s.vars (startOf R.rlen s.results.length) s.engine.written)
    (hat : BottomAt g (startOf R.rlen s.results.length) next) (hfree : 16 ≤ s.vars.freeSpace)
    (hwindow : Window g s.vars next (R.rlen s.results.length))
    (hin : next + 12 ≤ g.buf + g.size + g.extra) : RecordInv g R (g.readHeader s next) := by
  obtain ⟨n, b, hcore⟩ := h.core
  have hsize := g.size_lt
  have hextra := g.extra_le
  have hlt := R.rlen_lt s.results.length
  have hle := hvars.free
  have hmem := hvars.free_mem
  have hproc := hvars.processed
  have hbyte : ∀ j, j < 12 → g.readByte s.engine (next + j)
      = R.data (startOf R.rlen s.results.length + j) := by
    intro j hj
    rw [hat.readByte (Nat.le_add_right _ _) (by omega), Nat.add_sub_cancel_left]
    exact hcore.shows _ (Nat.le_add_right _ _) (by omega)
  have hrlen : g.readRlen s.engine next = R.rlen s.results.length := by
    rw [RxRing.readRlen, hbyte 10 (by decide), hbyte 11 (by decide)]
    exact R.header _
  have hu := u32_of_lt (show 0 ≤ s.vars.freeSpace by omega) (by omega)
  have hp : u32 ((s.vars.processed : Int) + R.rlen s.results.length)
      = s.vars.processed + R.rlen s.results.length := by
    rw [← Nat.cast_add, u32_natCast (by omega)]
  unfold RxRing.readHeader
  rw [if_neg (by omega), hrlen]
  split_ifs with hneeds
  · exact ⟨⟨n, b, hcore⟩, .inr hvars, ⟨hat, rfl⟩, h.delivered⟩
  · rw [RxRing.needsSecond, hp] at hneeds
    simp only [Bool.or_eq_true, decide_eq_true_eq, not_or, not_lt] at hneeds
    obtain ⟨henough, hfit⟩ := hneeds
    have hnext : next ≤ g.buf + g.size + s.vars.processed := by
      rcases hwindow with hnext | hshort
      · exact hnext
      · omega
    exact RecordInv.deliver hcore h.delivered hvars.first hat hnext hfit (by omega) hle
      ⟨by omega, hmem.2⟩

/-- A call begins. -/
theorem RecordInv.beginCall {s : RecordState} (h : RecordInv g R s) (hidle : s.pc = .idle) :
    RecordInv g R (g.beginCall s) := by
  obtain ⟨n, b, hcore⟩ := h.core
  have hextra := g.extra_le
  have hsize := g.size_lt
  have hmin := R.rlen_min s.results.length
  have hmax := R.rlen_max s.results.length
  have hpc := h.pc
  rw [RecordPcOk, hidle] at hpc
  -- the variables after the test of `is_first_time`
  have hready : VarsOk g s.vars.firstTime (startOf R.rlen s.results.length) s.engine.written ∧
      Window g s.vars.firstTime (g.buf + s.vars.firstTime.offset) (R.rlen s.results.length) := by
    rcases h.ready with ⟨hfirst, hresults, -⟩ | hvars
    · rw [StreamVars.firstTime, if_pos hfirst, hresults]
      refine ⟨⟨rfl, ⟨0, 0, rfl, Nat.zero_le _, (Nat.zero_mul g.size).symm, fun _ => rfl⟩, ?_,
        ⟨by decide, ?_⟩, Nat.zero_le _⟩, .inl ?_⟩
      · exact Int.natCast_nonneg _
      · exact Int.natCast_nonneg _
      · exact Nat.le_add_right _ _
    · have hfirst : ¬s.vars.isFirstTime = true := by
        rw [hvars.first]
        decide
      rw [StreamVars.firstTime, if_neg hfirst]
      exact ⟨hvars, hpc.resolve_left hfirst⟩
  obtain ⟨hvars, hwindow⟩ := hready
  unfold RxRing.beginCall
  dsimp only
  split_ifs with hneeds
  · exact ⟨⟨n, b, hcore⟩, .inr hvars, ⟨hvars.bottom, True.intro⟩, h.delivered⟩
  · rw [RxRing.needsFirst, nacRecordSize] at hneeds
    simp only [Bool.or_eq_true, decide_eq_true_eq, not_or, not_lt] at hneeds
    exact ⟨⟨n, b, hcore⟩, .inr hvars, ⟨hvars.bottom, hneeds.1, hwindow⟩, h.delivered⟩

theorem RecordInv.fresh {s : RecordState} (h : g.RecordFresh s) : RecordInv g R s := by
  refine ⟨⟨0, 0, ?_⟩, .inl ⟨h.isFirstTime, h.results, h.pc⟩, ?_, ?_⟩
  · rw [h.results]
    exact .started h.engine
  · rw [RecordPcOk, h.pc]
    exact .inl h.isFirstTime
  · intro i d hd
    rw [h.results] at hd
    cases hd

/-- More has been written. -/
theorem RecordInv.engine {s : RecordState} {e : Engine UInt8} (h : RecordInv g R s)
    (hstep : g.engineStep R.data s.engine = some e) : RecordInv g R { s with engine := e } := by
  obtain ⟨n, b, hcore⟩ := h.core
  obtain ⟨hcore', hw⟩ := hcore.engine hstep
  refine ⟨⟨n, b, hcore'⟩, ?_, ?_, h.delivered⟩
  · rcases h.ready with hfirst | hvars
    · exact .inl hfirst
    · have hfree := hvars.free
      exact .inr ⟨hvars.first, hvars.bottom, by dsimp only; omega, hvars.free_mem, hvars.processed⟩
  · have hpc := h.pc
    unfold RecordPcOk at hpc ⊢
    dsimp only
    cases hs : s.pc with
    | idle =>
        rw [hs] at hpc
        exact hpc
    | enter c next =>
        rw [hs] at hpc
        exact hpc
    | read c next r =>
        rw [hs] at hpc
        exact ⟨hpc.1.mono hw, hpc.2⟩
    | poll c next r =>
        rw [hs] at hpc
        exact ⟨hpc.1.mono hw, hpc.2⟩
    | header next =>
        rw [hs] at hpc
        exact hpc
    | fault =>
        rw [hs] at hpc
        exact hpc

/-- During a call the variables are set. -/
theorem RecordInv.vars {s : RecordState} (h : RecordInv g R s) (hpc : s.pc ≠ .idle) :
    VarsOk g s.vars (startOf R.rlen s.results.length) s.engine.written := by
  rcases h.ready with ⟨-, -, hidle⟩ | hvars
  · exact absurd hidle hpc
  · exact hvars

theorem RecordInv.tick {s s' : RecordState} (h : RecordInv g R s)
    (hok : StepFits g R mindata s .tick) (hstep : g.tick mindata s = some s') :
    RecordInv g R s' := by
  obtain ⟨n, b, hcore⟩ := h.core
  have hpc := h.pc
  unfold RxRing.tick at hstep
  cases hs : s.pc with
  | idle =>
      rw [hs] at hstep
      cases hstep
  | enter c next =>
      rw [hs] at hstep
      cases hstep
      rw [RecordPcOk, hs] at hpc
      have hvars := h.vars (by rw [hs]; simp)
      obtain ⟨n', b', hlap, hnorm⟩ := hpc.1.norm
      have hcore' := hcore.pass hlap le_rfl hcore.passed_le
      have hread := Polling.read hcore'
      rw [← hnorm] at hread
      exact ⟨⟨n', b', hcore'⟩, .inr hvars, ⟨hread, hpc.2⟩, h.delivered⟩
  | read c next r =>
      rw [hs] at hstep
      cases hstep
      rw [RecordPcOk, hs] at hpc
      have hvars := h.vars (by rw [hs]; simp)
      obtain ⟨n', b', x, hlap, hnext, -⟩ := id hpc.1
      have hb := hlap.le
      have hcore' := (hcore.pass hlap le_rfl hcore.passed_le).limit_write
      rw [← bottomAlign_eq (by omega), ← hnext] at hcore'
      exact ⟨⟨n', b', hcore'⟩, .inr hvars, ⟨hpc.1.mono le_rfl, hpc.2⟩, h.delivered⟩
  | poll c next r =>
      rw [hs] at hstep
      dsimp only at hstep
      rw [RecordPcOk, hs] at hpc
      have hvars := h.vars (by rw [hs]; simp)
      split_ifs at hstep with hwait
      · cases hstep
        obtain ⟨n', b', x, hlap, hnext, -⟩ := hpc.1
        have hcore' := hcore.pass hlap le_rfl hcore.passed_le
        have hread := Polling.read hcore'
        rw [← hnext] at hread
        exact ⟨⟨n', b', hcore'⟩, .inr hvars, ⟨hread, hpc.2⟩, h.delivered⟩
      · cases hstep
        refine h.resume hvars hpc.1 hpc.2 ?_
        intro hc
        cases c with
        | first => exact absurd rfl hc
        | second rlen =>
            rw [StepFits, hs] at hok
            exact hok (.inr ⟨rfl, by simpa using hwait⟩)
  | header next =>
      rw [hs] at hstep
      cases hstep
      rw [RecordPcOk, hs] at hpc
      rw [StepFits, hs] at hok
      have hvars := h.vars (by rw [hs]; simp)
      exact h.readHeader hvars hpc.1 hpc.2.1 hpc.2.2 (hok rfl)
  | fault =>
      rw [hs] at hstep
      cases hstep

theorem RecordInv.step {s s' : RecordState} {a : RecordAct} (h : RecordInv g R s)
    (hok : StepFits g R mindata s a) (hstep : g.recordStep R.data mindata s a = some s') :
    RecordInv g R s' := by
  cases a with
  | card =>
      obtain ⟨e, he, rfl⟩ := Option.map_eq_some_iff.1 hstep
      exact h.engine he
  | call =>
      simp only [RxRing.recordStep] at hstep
      split at hstep
      next hidle =>
        cases hstep
        exact h.beginCall hidle
      next => cases hstep
  | tick => exact h.tick hok hstep
  | timeout =>
      simp only [RxRing.recordStep] at hstep
      split at hstep
      next c next r hs =>
        cases hstep
        have hpc := h.pc
        rw [RecordPcOk, hs] at hpc
        refine h.resume (h.vars (by rw [hs]; simp)) hpc.1 hpc.2 ?_
        intro hc
        cases c with
        | first => exact absurd rfl hc
        | second rlen =>
            rw [StepFits, hs] at hok
            exact hok (.inl rfl)
      next => cases hstep

/-- What the invariant promises to the caller. -/
theorem RecordInv.safe {s : RecordState} (h : RecordInv g R s) : DeliverySafe g R s := by
  refine ⟨h.delivered, ?_⟩
  intro hfault
  have hpc := h.pc
  rw [RecordPcOk, hfault] at hpc
  exact hpc

/-! ## A step that does not fit -/

theorem readHeader_fault {s : RecordState} {next : Nat}
    (h : ¬next + 12 ≤ g.buf + g.size + g.extra) : (g.readHeader s next).pc = .fault := by
  unfold RxRing.readHeader
  rw [if_pos (not_le.1 h)]

/-- With a top below it the record is returned, however little of it is there. -/
theorem resume_early {s : RecordState} {next top len : Nat} (hlt : top < next)
    (hge : next ≤ top + 128) (hlen : len < 65536) :
    ∃ v, g.resume s (.second len) next top = g.deliver { s with vars := v } next len := by
  have hfree : (s.vars.advanced next top).freeSpace = (top : Int) - next :=
    i32_of_mem (by omega) (by omega)
  have hlarge : ¬u32 ((top : Int) - next) < len := by
    unfold u32
    omega
  refine ⟨s.vars.advanced next top, ?_⟩
  unfold RxRing.resume
  dsimp only
  rw [if_neg]
  rw [hfree]
  exact hlarge

theorem Polling.resume_breaks {s : RecordState} {len next r : Nat}
    (hpoll : Polling g s.engine (startOf R.rlen s.results.length) next r)
    (hc : CallOk (.second len) (R.rlen s.results.length)) (hlt : g.topFor next r < next)
    (hw : s.engine.written < startOf R.rlen (s.results.length + 1)) :
    ¬DeliverySafe g R (g.resume s (.second len) next (g.topFor next r)) := by
  intro hsafe
  obtain rfl : len = R.rlen s.results.length := hc
  have hge := hpoll.top_ge
  obtain ⟨v, hv⟩ := resume_early (g := g) (s := s) hlt (by omega) (R.rlen_lt s.results.length)
  rw [hv] at hsafe
  have hd := hsafe.results s.results.length
    (g.seen s.engine next (R.rlen s.results.length)) List.getElem?_concat_length
  exact absurd hd.written (not_le.2 hw)

theorem RecordInv.breaks {s s' : RecordState} {a : RecordAct} (h : RecordInv g R s)
    (hstep : g.recordStep R.data mindata s a = some s') (hok : ¬StepFits g R mindata s a) :
    ¬DeliverySafe g R s' := by
  have hpc := h.pc
  unfold StepFits at hok
  cases hs : s.pc with
  | idle => simp [hs] at hok
  | enter c next => simp [hs] at hok
  | read c next r => simp [hs] at hok
  | fault => simp [hs] at hok
  | header next =>
      rw [hs] at hok
      obtain ⟨rfl, hout⟩ := Classical.not_imp.1 hok
      simp only [RxRing.recordStep, RxRing.tick, hs] at hstep
      cases hstep
      exact fun hsafe => hsafe.no_fault (readHeader_fault hout)
  | poll c next r =>
      rw [RecordPcOk, hs] at hpc
      rw [hs] at hok
      cases c with
      | first => exact absurd True.intro hok
      | second len =>
          obtain ⟨hact, hbad⟩ := Classical.not_imp.1 hok
          rw [not_or, not_le, not_le] at hbad
          rcases hact with rfl | ⟨rfl, hwait⟩
          · simp only [RxRing.recordStep, hs] at hstep
            cases hstep
            exact hpc.1.resume_breaks hpc.2 hbad.1 hbad.2
          · simp only [RxRing.recordStep, RxRing.tick, hs, hwait] at hstep
            cases hstep
            exact hpc.1.resume_breaks hpc.2 hbad.1 hbad.2

/-! ## Delivery -/

/-- **The records are delivered** one by one, each when it is complete, in every run
whose steps fit, and the first step that does not fit breaks this: for every stream of
records, every `mindata` and every interleaving of the card with the calls. -/
theorem nacGetNextRecord_delivers {s : RecordState}
    (h : (g.recordReader R mindata).Reach (StepFits g R mindata) s) :
    DeliverySafe g R s ∧
      ∀ a s', (g.recordReader R mindata).step s a = some s' →
        (DeliverySafe g R s' ↔ StepFits g R mindata s a) := by
  have hinv : RecordInv g R s :=
    h.invariant (fun _ hinit => .fresh hinit) fun _ _ _ hinv hok hstep => hinv.step hok hstep
  refine ⟨hinv.safe, ?_⟩
  intro a s' hstep
  constructor
  · intro hsafe
    by_contra hok
    exact hinv.breaks hstep hok hsafe
  · intro hok
    exact (hinv.step hok hstep).safe

/-- A record of 100 bytes, then records of 64. -/
def shortRecords : Records rx4k where
  data k := if k = 11 then 100 else if 100 ≤ k ∧ (k - 100) % 64 = 11 then 64 else 0
  rlen k := if k = 0 then 100 else 64
  rlen_min k := by
    split_ifs <;> decide
  rlen_max k := by
    split_ifs <;> decide
  header k := by
    have hstart : ∀ k, startOf (fun k => if k = 0 then 100 else 64) (k + 1) = 100 + 64 * k := by
      intro k
      induction k with
      | zero => rfl
      | succ k ih =>
          rw [startOf, ih, if_neg (Nat.succ_ne_zero k)]
          omega
    cases k with
    | zero => decide
    | succ k =>
        rw [hstart, if_neg (by omega), if_neg (by omega), if_neg (by omega), if_pos (by omega),
          if_neg (Nat.succ_ne_zero k)]
        decide

/-- Before anything has happened. -/
def recordStart : RecordState := ⟨engine4k 0, ⟨0, 0, 0, true⟩, .idle, []⟩

theorem recordStart_reach (ok : RecordState → RecordAct → Prop) :
    (rx4k.recordReader shortRecords 16).Reach ok recordStart :=
  .start ⟨engine4k_started 0, rfl, rfl, rfl⟩

/-- A call that is not made to wait, with one call of `nac_advance_stream`. -/
def oneAdvance : List RecordAct := [.call, .tick, .tick, .tick, .tick]

/-- When 300 bytes have been written before the second call, two records are delivered. -/
theorem nacGetNextRecord_two_records :
    ∃ s, s.results.map (fun d => (d.rlen, d.written)) = [(100, 116), (64, 300)] ∧
      DeliverySafe rx4k shortRecords s := by
  obtain ⟨s, hreach, hs⟩ := Machine.exists_reach_of_run (recordStart_reach (StepFits rx4k shortRecords 16))
    (List.replicate 116 .card ++ oneAdvance ++ List.replicate 184 .card ++ oneAdvance)
    (fun s => s.results.map fun d => (d.rlen, d.written)) [(100, 116), (64, 300)] (by decide +kernel)
  exact ⟨s, hs, (nacGetNextRecord_delivers hreach).1⟩

/-- When 130 bytes have been written, the second record is returned although only 30
bytes of it are there. -/
theorem nacGetNextRecord_early :
    ∃ s, (rx4k.recordReader shortRecords 16).Reach (fun _ _ => True) s ∧
      ¬DeliverySafe rx4k shortRecords s := by
  obtain ⟨s, hreach, hs⟩ := Machine.exists_reach_of_run (recordStart_reach fun _ _ => True)
    (List.replicate 116 .card ++ oneAdvance ++ List.replicate 14 .card ++ oneAdvance)
    (fun s => s.results.map fun d => (d.rlen, d.written)) [(100, 116), (64, 130)] (by decide +kernel)
  refine ⟨s, hreach, ?_⟩
  intro hsafe
  have hsecond : (s.results.map fun d => (d.rlen, d.written))[1]? = some (64, 130) := by
    rw [hs]
    rfl
  rw [List.getElem?_map] at hsecond
  obtain ⟨d, hd, hlast⟩ := Option.map_eq_some_iff.1 hsecond
  have hcomplete := (hsafe.results 1 d hd).written
  have hwritten : d.written = 130 := congrArg Prod.snd hlast
  have hend : startOf shortRecords.rlen 1 + shortRecords.rlen 1 = 164 := rfl
  omega

end NacCard.Rx
