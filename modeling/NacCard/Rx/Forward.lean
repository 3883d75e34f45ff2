import NacCard.Rx.Reader

/-!
# Forwarding out of one ring

A receive and a transmit stream share a ring: the RX card fills it, the host passes
bytes with `nac_inline_advance_stream` and commits them, the TX card sends what is
committed straight out of the ring.  The function derives the RX limit from the TX
card's record pointer, which goes on while it is being used.

* `forwardStep` — the two cards, the host, and the call cut at its register accesses.
* `TxAt` — how far the RX card may go while the TX card stands where it does.
* `ForwardInv` — four positions in order, and the limit behind the unsent bytes by at
  most a lap; the limit about to be written is as old as the TX position it comes from.
* `nacInlineAdvanceStream_safe` — no unsent byte is overwritten, what is sent is what was
  received, and every address a call returns has been written up to.
-/

namespace NacCard.Rx

open NacCard.Base NacCard.Stream

variable {β : Type}

/-! ## The machine -/

/-- Where the host is: between calls, with the address the last one returned, or in a call. -/
inductive ForwardPc where
  | idle (top : Nat)
  /-- `tx_record_phy_addr` has been read -/
  | sent (t : Nat)
  /-- and `offset` for the first time -/
  | read (t offset : Nat)
  /-- the limit has been written -/
  | poll (offset : Nat)
  deriving Repr, DecidableEq

/-- Both cards, and the host that forwards from the one to the other. -/
structure ForwardState (β : Type) where
  /-- the RX card and the ring -/
  engine : Engine β
  /-- the bytes the TX card has sent -/
  out : List β
  /-- its position in the ring -/
  txRecord : Nat
  /-- bytes the host has committed for sending -/
  committed : Nat
  bottom : Nat
  pc : ForwardPc
  passed : Nat

/-- A step of a card or of the host. -/
inductive ForwardAct where
  /-- a step of the RX card -/
  | card
  /-- a step of the TX card -/
  | tx
  /-- the host commits `m` more bytes -/
  | commit (m : Nat)
  /-- a call of `nac_inline_advance_stream` -/
  | call
  | tick
  | timeout
  | move (p : Nat)
  deriving Repr, DecidableEq

namespace RxRing

variable (g : RxRing)

/-- The TX card's record register, based where the ring is. -/
def txRecordPtr (s : ForwardState β) : Nat := u32 (g.phyaddr + s.txRecord)

/-- `offset` as the wait loop computes it, on pointers. -/
def pointerAddr (reg : Nat) : Nat := u64 ((reg : Int) - g.phyaddr + g.buf)

/-- What is returned for `offset`: lifted where it is behind `bottom`, and capped at the end of
the mapping. -/
def inlineTop (bottom offset : Nat) : Nat :=
  let offset := if offset < bottom then offset + g.size else offset
  if offset > g.buf + g.size + g.extra then g.buf + g.size + g.extra else offset

/-- The TX card sends the byte at its record pointer if that is committed, and goes from the
end of the ring to its start. -/
def txStep (s : ForwardState β) : Option (ForwardState β) :=
  if s.txRecord = g.size then some { s with txRecord := 0 }
  else if s.out.length < s.committed then
    some { s with out := s.out ++ [s.engine.ring s.txRecord], txRecord := s.txRecord + 1 }
  else none

/-- What a step does; a commit is of bytes that have been passed. -/
def forwardStep (data : Nat → β) (mindata : Nat) (s : ForwardState β) :
    ForwardAct → Option (ForwardState β)
  | .card => (g.engineStep data s.engine).map fun e => { s with engine := e }
  | .tx => g.txStep s
  | .commit m =>
      if s.committed + m ≤ s.passed then some { s with committed := s.committed + m } else none
  | .call =>
      match s.pc with
      | .idle _ => some { s with bottom := g.normBottom s.bottom, pc := .sent (g.txRecordPtr s) }
      | _ => none
  | .tick =>
      match s.pc with
      | .sent t => some { s with pc := .read t (g.recordAddr (g.recordPtr s.engine)) }
      | .read t offset =>
          some { s with engine := g.writeLimit (g.recordAddr t) s.engine, pc := .poll offset }
      | .poll offset =>
          if g.available s.bottom offset < mindata then
            some { s with pc := .poll (g.pointerAddr (g.recordPtr s.engine)) }
          else some { s with pc := .idle (g.inlineTop s.bottom offset) }
      | .idle _ => none
  | .timeout =>
      match s.pc with
      | .poll offset => some { s with pc := .idle (g.inlineTop s.bottom offset) }
      | _ => none
  | .move p =>
      match s.pc with
      | .idle top =>
          if s.bottom ≤ p ∧ p ≤ top then
            some { s with bottom := p, passed := s.passed + (p - s.bottom) }
          else none
      | _ => none

/-- Both streams are started and nothing has been received. -/
structure ForwardFresh (s : ForwardState β) : Prop where
  engine : g.Started s.engine
  out : s.out = []
  txRecord : s.txRecord = 0
  committed : s.committed = 0
  bottom : s.bottom = 0
  pc : s.pc = .idle 0
  passed : s.passed = 0

/-- Forwarding from the start of both streams. -/
def forward (data : Nat → β) (mindata : Nat) : Machine (ForwardState β) ForwardAct :=
  ⟨g.ForwardFresh, g.forwardStep data mindata⟩

end RxRing

variable {g : RxRing} {data : Nat → β} {mindata : Nat}

/-! ## The TX card and the limit -/

theorem stopAt_le_add (size n x : Nat) : stopAt size n x ≤ n * size + x + size := by
  have hal := alignDown_le 128 x
  have hstop := stopAt_eq size n x
  omega

theorem stopAt_mono_right (size n : Nat) {x y : Nat} (h : x ≤ y) :
    stopAt size n x ≤ stopAt size n y := by
  have hal := alignDown_mono 128 h
  unfold stopAt
  omega

/-- At the turn the limit moves forward, by a window. -/
theorem stopAt_turn (size n : Nat) : stopAt size n size ≤ stopAt size (n + 1) 0 := by
  have hal := alignDown_le 128 size
  have hstop := stopAt_eq size n size
  have hstop' := stopAt_eq size (n + 1) 0
  rw [Nat.succ_mul] at hstop'
  omega

/-- The TX card stands in some lap, and allows the RX card to go up to index `stop`. -/
def TxAt (g : RxRing) (s : ForwardState β) (stop : Nat) : Prop :=
  s.txRecord ≤ g.size ∧ ∃ n, s.out.length = n * g.size + s.txRecord ∧
    stop = stopAt g.size n s.txRecord

theorem TxAt.le {s : ForwardState β} {stop : Nat} (h : TxAt g s stop) :
    stop ≤ s.out.length + g.size := by
  obtain ⟨-, n, hn, hstop⟩ := h
  calc stop = stopAt g.size n s.txRecord := hstop
    _ ≤ n * g.size + s.txRecord + g.size := stopAt_le_add g.size n s.txRecord
    _ = s.out.length + g.size := by rw [hn]

/-- The card turns, or sends the next byte out of its slot. -/
theorem txStep_cases {s s' : ForwardState β} (h : g.txStep s = some s') :
    s.txRecord = g.size ∧ s' = { s with txRecord := 0 } ∨
      s.txRecord ≠ g.size ∧ s.out.length < s.committed ∧
        s' = { s with out := s.out ++ [s.engine.ring s.txRecord], txRecord := s.txRecord + 1 } := by
  unfold RxRing.txStep at h
  split_ifs at h with hend hready
  · cases h
    exact .inl ⟨hend, rfl⟩
  · cases h
    exact .inr ⟨hend, hready, rfl⟩

/-- **The TX card moves the bound forward.** -/
theorem TxAt.step {s s' : ForwardState β} {stop : Nat} (h : TxAt g s stop)
    (hstep : g.txStep s = some s') : ∃ stop', TxAt g s' stop' ∧ stop ≤ stop' := by
  obtain ⟨hle, n, hn, hstop⟩ := h
  rcases txStep_cases hstep with ⟨hend, rfl⟩ | ⟨hin, -, rfl⟩
  · refine ⟨stopAt g.size (n + 1) 0, ⟨Nat.zero_le _, n + 1, ?_, rfl⟩, ?_⟩
    · show s.out.length = (n + 1) * g.size + 0
      rw [hn, hend, Nat.succ_mul, Nat.add_zero]
    · calc stop = stopAt g.size n g.size := by rw [hstop, hend]
        _ ≤ stopAt g.size (n + 1) 0 := stopAt_turn g.size n
  · refine ⟨stopAt g.size n (s.txRecord + 1), ⟨lt_of_le_of_ne hle hin, n, ?_, rfl⟩, ?_⟩
    · show (s.out ++ [s.engine.ring s.txRecord]).length = n * g.size + (s.txRecord + 1)
      rw [List.length_append, List.length_singleton, hn, Nat.add_assoc]
    · calc stop = stopAt g.size n s.txRecord := hstop
        _ ≤ stopAt g.size n (s.txRecord + 1) := stopAt_mono_right g.size n (Nat.le_succ _)

/-! ## What a reading of the RX record pointer promises -/

theorem pointerAddr_eq {x : Nat} (hx : x ≤ g.size) :
    g.pointerAddr (u32 (g.phyaddr + x)) = g.buf + x := by
  have htop := g.top_lt
  have hlt := g.buf_lt
  have hreg : u32 (g.phyaddr + x) = g.phyaddr + x := by
    rw [← Nat.cast_add, u32_natCast (by omega)]
  rw [RxRing.pointerAddr, hreg]
  unfold u64
  omega

/-- In a call the bottom is index `p`, and `offset` is an address the record pointer had
since it began. -/
def Offered (g : RxRing) (e : Engine β) (p bottom offset : Nat) : Prop :=
  ∃ n b x, Lap g.size p n b ∧ bottom = g.buf + b ∧ x ≤ g.size ∧ offset = g.buf + x ∧
    n * g.size + lift g.size b x ≤ e.written

theorem Offered.mono {e e' : Engine β} {p bottom offset : Nat} (h : Offered g e p bottom offset)
    (hw : e.written ≤ e'.written) : Offered g e' p bottom offset := by
  obtain ⟨n, b, x, hlap, hbottom, hx, hoffset, hle⟩ := h
  exact ⟨n, b, x, hlap, hbottom, hx, hoffset, hle.trans hw⟩

theorem inlineTop_le {b x : Nat} :
    g.inlineTop (g.buf + b) (g.buf + x) ≤ g.buf + lift g.size b x ∧
      g.inlineTop (g.buf + b) (g.buf + x) ≤ g.buf + g.size + g.extra := by
  unfold RxRing.inlineTop lift
  dsimp only
  split_ifs <;> omega

/-- **Everything below the returned address has been written.** -/
theorem Offered.top {e : Engine β} {p bottom offset : Nat} (h : Offered g e p bottom offset)
    (hp : p ≤ e.written) :
    p + (g.inlineTop bottom offset - bottom) ≤ e.written ∧
      g.inlineTop bottom offset ≤ g.buf + g.size + g.extra := by
  obtain ⟨n, b, x, hlap, rfl, hx, rfl, hle⟩ := h
  have heq := hlap.eq
  obtain ⟨htop, hend⟩ := @inlineTop_le g b x
  refine ⟨?_, hend⟩
  omega

/-! ## The invariant -/

/-- The limit is good for where the TX card stands; between the reading of its record pointer
and the limit write, also for where it stood at the reading. -/
def Limited (g : RxRing) (s : ForwardState β) (stop : Nat) : Prop :=
  match s.pc with
  | .sent t | .read t _ =>
      ∃ n x, x ≤ g.size ∧ t = u32 (g.phyaddr + x) ∧ stopAt g.size n x ≤ stop ∧
        StopsBy g s.engine (stopAt g.size n x)
  | .idle _ | .poll _ => StopsBy g s.engine stop

/-- Between calls the host stands as a reader of the ring does. -/
def ForwardState.reader (s : ForwardState β) (top : Nat) : ReaderState β :=
  ⟨s.engine, s.bottom, .idle top, s.passed⟩

/-- What is known at each place of a call. -/
def ForwardPcOk (g : RxRing) (s : ForwardState β) : Prop :=
  match s.pc with
  | .idle top => IdleOk g (s.reader top) top
  | .sent _ => ∃ n b, Lap g.size s.passed n b ∧ s.bottom = g.buf + b
  | .read _ offset | .poll offset => Offered g s.engine s.passed s.bottom offset

/-- The invariant: what is sent was committed, what is committed was passed, what is passed was
written, and the RX card stays within a lap of the TX card. -/
structure ForwardInv (g : RxRing) (data : Nat → β) (s : ForwardState β) : Prop where
  turn : Turn g s.engine
  /-- the limit is at most a lap ahead of the TX card -/
  limit : ∃ stop, TxAt g s stop ∧ Limited g s stop
  committed : s.out.length ≤ s.committed
  passed : s.committed ≤ s.passed
  written : s.passed ≤ s.engine.written
  unsent : Shows g.size s.engine.ring data s.out.length s.engine.written
  wire : s.out = (List.range s.out.length).map data
  pc : ForwardPcOk g s

theorem Limited.stops {s : ForwardState β} {stop : Nat} (h : Limited g s stop) :
    StopsBy g s.engine stop := by
  unfold Limited at h
  split at h
  · obtain ⟨n, x, -, -, hle, hstops⟩ := h
    exact hstops.mono hle
  · obtain ⟨n, x, -, -, hle, hstops⟩ := h
    exact hstops.mono hle
  · exact h
  · exact h

theorem ForwardInv.stops {s : ForwardState β} (h : ForwardInv g data s) :
    ∃ stop, StopsBy g s.engine stop ∧ stop ≤ s.out.length + g.size := by
  obtain ⟨stop, hat, hlimited⟩ := h.limit
  exact ⟨stop, hlimited.stops, hat.le⟩

theorem ForwardInv.fresh {s : ForwardState β} (h : g.ForwardFresh s) : ForwardInv g data s := by
  have hcore : Core g data s.engine 0 0 0 := Core.started h.engine
  refine ⟨hcore.stands, ⟨stopAt g.size 0 0, ⟨?_, 0, ?_, ?_⟩, ?_⟩, ?_, ?_, ?_, ?_, ?_, ?_⟩
  · rw [h.txRecord]
    exact Nat.zero_le _
  · rw [h.out, h.txRecord, Nat.zero_mul]
    rfl
  · rw [h.txRecord]
  · rw [Limited, h.pc]
    exact hcore.stops
  · rw [h.out]
    exact Nat.zero_le _
  · rw [h.committed, h.passed]
  · rw [h.passed]
    exact hcore.passed_le
  · rw [h.out]
    exact hcore.shows
  · rw [h.out]
    rfl
  · rw [ForwardPcOk, h.pc]
    exact .inl ⟨h.bottom, rfl, h.passed⟩

/-! ## Every step keeps it -/

/-- **A step of the RX card.** -/
theorem ForwardInv.card {s : ForwardState β} {e : Engine β} (h : ForwardInv g data s)
    (hstep : g.engineStep data s.engine = some e) : ForwardInv g data { s with engine := e } := by
  have hw := Turn.written_le hstep
  have hpc := h.pc
  obtain ⟨stop, hat, hlimited⟩ := h.limit
  refine ⟨h.turn.engine hstep, ⟨stop, hat, ?_⟩, h.committed, h.passed, h.written.trans hw, ?_,
    h.wire, ?_⟩
  · unfold Limited at hlimited ⊢
    dsimp only
    cases hs : s.pc with
    | idle top =>
        rw [hs] at hlimited
        exact StopsBy.engine hlimited h.turn hstep
    | sent t =>
        rw [hs] at hlimited
        obtain ⟨n, x, hx, ht, hle, hstops⟩ := hlimited
        exact ⟨n, x, hx, ht, hle, hstops.engine h.turn hstep⟩
    | read t offset =>
        rw [hs] at hlimited
        obtain ⟨n, x, hx, ht, hle, hstops⟩ := hlimited
        exact ⟨n, x, hx, ht, hle, hstops.engine h.turn hstep⟩
    | poll offset =>
        rw [hs] at hlimited
        exact StopsBy.engine hlimited h.turn hstep
  · have hroom := (hlimited.stops.engine h.turn hstep).le.trans hat.le
    exact h.turn.shows hstep h.unsent hroom
  · unfold ForwardPcOk at hpc ⊢
    dsimp only
    cases hs : s.pc with
    | idle top =>
        rw [hs] at hpc
        rcases hpc with hnull | ⟨hbottom, hle, htop⟩
        · exact .inl hnull
        · exact .inr ⟨hbottom, hle.trans hw, htop⟩
    | sent t =>
        rw [hs] at hpc
        exact hpc
    | read t offset =>
        rw [hs] at hpc
        exact Offered.mono hpc hw
    | poll offset =>
        rw [hs] at hpc
        exact Offered.mono hpc hw

/-- **A step of the TX card**: the byte it sends is still in its slot. -/
theorem ForwardInv.tx {s s' : ForwardState β} (h : ForwardInv g data s)
    (hstep : g.txStep s = some s') : ForwardInv g data s' := by
  obtain ⟨stop, hat, hlimited⟩ := h.limit
  obtain ⟨stop', hat', hle⟩ := hat.step hstep
  have hcommitted := h.committed
  have hpassed := h.passed
  have hwritten := h.written
  obtain ⟨htx, n, hn, -⟩ := hat
  -- a bound that moved forward is still met
  have hlimited' : Limited g s stop' := by
    unfold Limited at hlimited ⊢
    split at hlimited
    · obtain ⟨m, x, hx, ht, hstop, hstops⟩ := hlimited
      exact ⟨m, x, hx, ht, hstop.trans hle, hstops⟩
    · obtain ⟨m, x, hx, ht, hstop, hstops⟩ := hlimited
      exact ⟨m, x, hx, ht, hstop.trans hle, hstops⟩
    · exact StopsBy.mono hlimited hle
    · exact StopsBy.mono hlimited hle
  rcases txStep_cases hstep with ⟨-, rfl⟩ | ⟨hin, hready, rfl⟩
  · exact ⟨h.turn, ⟨stop', hat', hlimited'⟩, h.committed, h.passed, h.written, h.unsent, h.wire,
      h.pc⟩
  · have hbyte : s.engine.ring s.txRecord = data s.out.length := by
      have hslot : s.out.length % g.size = s.txRecord := by
        rw [hn]
        exact slot_lt (lt_of_le_of_ne htx hin)
      rw [← hslot]
      exact h.unsent _ le_rfl (by omega)
    have hlength : (s.out ++ [s.engine.ring s.txRecord]).length = s.out.length + 1 := by simp
    refine ⟨h.turn, ⟨stop', hat', hlimited'⟩, ?_, h.passed, h.written, ?_, ?_, h.pc⟩
    · dsimp only
      rw [hlength]
      exact hready
    · dsimp only
      rw [hlength]
      exact h.unsent.mono (Nat.le_succ _)
    · dsimp only
      rw [hlength, List.range_succ, List.map_append, ← h.wire, List.map_singleton, hbyte]

/-- A call that ends. -/
theorem ForwardInv.ends {s : ForwardState β} (h : ForwardInv g data s) {offset : Nat}
    (hs : s.pc = .poll offset) :
    ForwardInv g data { s with pc := .idle (g.inlineTop s.bottom offset) } := by
  obtain ⟨stop, hat, hlimited⟩ := h.limit
  have hoffered := h.pc
  rw [ForwardPcOk, hs] at hoffered
  refine ⟨h.turn, ⟨stop, hat, hlimited.stops⟩, h.committed, h.passed, h.written, h.unsent, h.wire,
    .inr ?_⟩
  obtain ⟨hle, htop⟩ := Offered.top hoffered h.written
  obtain ⟨n, b, x, hlap, hbottom, -⟩ := hoffered
  have hat := hlap.bottomAt
  rw [← hbottom] at hat
  exact ⟨hat, hle, htop⟩

/-- The call goes on. -/
theorem ForwardInv.tick {s s' : ForwardState β} (h : ForwardInv g data s)
    (hstep : g.forwardStep data mindata s .tick = some s') : ForwardInv g data s' := by
  obtain ⟨stop, hat, hlimited⟩ := h.limit
  have hpc := h.pc
  have hturn := h.turn
  simp only [RxRing.forwardStep] at hstep
  split at hstep
  next t hs =>
    cases hstep
    rw [ForwardPcOk, hs] at hpc
    rw [Limited, hs] at hlimited
    obtain ⟨n, b, hlap, hbottom⟩ := hpc
    refine ⟨hturn, ⟨stop, hat, hlimited⟩, h.committed, h.passed, h.written, h.unsent, h.wire, ?_⟩
    exact ⟨n, b, s.engine.record, hlap, hbottom, hturn.record_le, recordAddr_eq hturn.record_le,
      hturn.lift_le hlap h.written le_rfl⟩
  next t offset hs =>
    cases hstep
    rw [ForwardPcOk, hs] at hpc
    rw [Limited, hs] at hlimited
    obtain ⟨n, x, hx, rfl, hle, hstops⟩ := hlimited
    have hwrite := hstops.write hx
    rw [← bottomAlign_eq (by omega), ← recordAddr_eq hx] at hwrite
    exact ⟨⟨hturn.record_le, hturn.turn⟩, ⟨stop, hat, hwrite.mono hle⟩, h.committed, h.passed,
      h.written, h.unsent, h.wire, Offered.mono hpc le_rfl⟩
  next offset hs =>
    split_ifs at hstep with hwait
    · cases hstep
      rw [ForwardPcOk, hs] at hpc
      obtain ⟨n, b, x, hlap, hbottom, -⟩ := hpc
      refine ⟨hturn, ⟨stop, hat, hlimited.stops⟩, h.committed, h.passed, h.written, h.unsent,
        h.wire, ?_⟩
      exact ⟨n, b, s.engine.record, hlap, hbottom, hturn.record_le, pointerAddr_eq hturn.record_le,
        hturn.lift_le hlap h.written le_rfl⟩
    · cases hstep
      exact h.ends hs
  next => cases hstep

theorem ForwardInv.step {s s' : ForwardState β} {a : ForwardAct} (h : ForwardInv g data s)
    (hstep : g.forwardStep data mindata s a = some s') : ForwardInv g data s' := by
  obtain ⟨stop, hat, hlimited⟩ := h.limit
  have hpc := h.pc
  cases a with
  | card =>
      obtain ⟨e, he, rfl⟩ := Option.map_eq_some_iff.1 hstep
      exact h.card he
  | tx => exact h.tx hstep
  | commit m =>
      simp only [RxRing.forwardStep] at hstep
      split_ifs at hstep with hfits
      cases hstep
      exact ⟨h.turn, ⟨stop, hat, hlimited⟩, h.committed.trans (Nat.le_add_right _ _), hfits,
        h.written, h.unsent, h.wire, h.pc⟩
  | call =>
      simp only [RxRing.forwardStep] at hstep
      split at hstep
      next top hs =>
        cases hstep
        rw [ForwardPcOk, hs] at hpc
        have hstops := hlimited.stops
        obtain ⟨htx, n, hn, hstop⟩ := id hat
        rw [hstop] at hstops
        exact ⟨h.turn, ⟨stop, hat, n, s.txRecord, htx, rfl, hstop.ge, hstops⟩, h.committed,
          h.passed, h.written, h.unsent, h.wire, IdleOk.norm hpc⟩
      next => cases hstep
  | tick => exact h.tick hstep
  | timeout =>
      simp only [RxRing.forwardStep] at hstep
      split at hstep
      next offset hs =>
        cases hstep
        exact h.ends hs
      next => cases hstep
  | move p =>
      simp only [RxRing.forwardStep] at hstep
      split at hstep
      next top hs =>
        split_ifs at hstep with hmove
        cases hstep
        rw [ForwardPcOk, hs] at hpc
        obtain ⟨hidle, hpassed⟩ := IdleOk.move hpc hmove
        have hw : s.passed + (p - s.bottom) ≤ s.engine.written := by
          rcases hpassed with hsame | ⟨hw, -⟩
          · exact hsame.le.trans h.written
          · exact hw
        refine ⟨h.turn, ⟨stop, hat, ?_⟩, h.committed, h.passed.trans (Nat.le_add_right _ _), hw,
          h.unsent, h.wire, ?_⟩
        · rw [Limited, hs] at hlimited ⊢
          exact hlimited
        · rw [ForwardPcOk]
          dsimp only
          rw [hs]
          exact hidle
      next => cases hstep

/-! ## Forwarding is safe -/

/-- What the host and the wire may rely on. -/
structure ForwardSafe (g : RxRing) (data : Nat → β) (s : ForwardState β) : Prop where
  /-- sent, committed, passed and written are in order, and within a lap -/
  order : s.out.length ≤ s.committed ∧ s.committed ≤ s.passed ∧ s.passed ≤ s.engine.written ∧
    s.engine.written ≤ s.out.length + g.size
  /-- no byte that was written and not sent has been overwritten -/
  unsent : Shows g.size s.engine.ring data s.out.length s.engine.written
  /-- the bytes sent are the bytes received -/
  wire : s.out = (List.range s.out.length).map data
  /-- every byte between `bottom` and the address returned is inside the mapping, has
  been written, and is the one of this lap -/
  fresh : ∀ top, s.pc = .idle top → ∀ q, s.bottom ≤ q → q < top →
    q < g.buf + g.size + g.extra ∧ s.passed + (q - s.bottom) < s.engine.written ∧
      g.readByte s.engine q = data (s.passed + (q - s.bottom))

/-- **Forwarding is safe**, for every ring, every stream of bytes, every `mindata`, and every
interleaving of the two cards with calls, commits and moves of `bottom`. -/
theorem nacInlineAdvanceStream_safe {s : ForwardState β}
    (h : (g.forward data mindata).Reach (fun _ _ => True) s) : ForwardSafe g data s := by
  have hinv : ForwardInv g data s :=
    h.invariant (fun _ hinit => .fresh hinit) fun _ _ _ hinv _ hstep => hinv.step hstep
  obtain ⟨stop, hstops, hle⟩ := hinv.stops
  refine ⟨⟨hinv.committed, hinv.passed, hinv.written, hstops.le.trans hle⟩, hinv.unsent,
    hinv.wire, ?_⟩
  intro top hs q hbottom hlt
  have hpc := hinv.pc
  rw [ForwardPcOk, hs] at hpc
  rcases hpc with ⟨-, htop, -⟩ | ⟨hat, hw, htop⟩
  · omega
  · have hcommitted := hinv.committed
    have hpassed := hinv.passed
    have hindex : s.passed + (q - s.bottom) < s.engine.written := by
      dsimp only [ForwardState.reader] at hw
      omega
    refine ⟨by omega, hindex, ?_⟩
    rw [BottomAt.readByte hat hbottom (by omega)]
    exact hinv.unsent _ (by dsimp only [ForwardState.reader]; omega) hindex

/-- Twenty bytes are received, a call returns them, the host commits twelve and five are
sent. -/
theorem nacInlineAdvanceStream_twenty_bytes : ∃ s : ForwardState Nat,
    (s.pc, s.passed, s.out) = (.idle (rx4k.buf + 20), 20, [0, 1, 2, 3, 4]) ∧
      ForwardSafe rx4k id s := by
  have hstart : (rx4k.forward id 16).Reach (fun _ _ => True) ⟨engine4k 0, [], 0, 0, 0, .idle 0, 0⟩ :=
    .start ⟨engine4k_started 0, rfl, rfl, rfl, rfl, rfl, rfl⟩
  obtain ⟨s, hreach, hs⟩ := Machine.exists_reach_of_run hstart
    (List.replicate 20 .card ++ [.call, .tick, .tick, .tick, .move (rx4k.buf + 20), .commit 12,
      .tx, .tx, .tx, .tx, .tx])
    (fun s => (s.pc, s.passed, s.out)) (.idle (rx4k.buf + 20), 20, [0, 1, 2, 3, 4])
    (by decide +kernel)
  exact ⟨s, hs, nacInlineAdvanceStream_safe hreach⟩

end NacCard.Rx
