import NacCard.Tx.Requests

/-!
# The wait loops end

Both loops compute the free space anew in every turn.  With the card at the limit pointer they
compute the same value for ever: the whole ring, or the ring less the safety window.

* `InLoop`, `Ends`, `Forever` — a wait that goes on, one that is over after one more turn, and one
  that is never over.
* `WaitFits` — the requests that an empty ring can meet, with the reserve the loop asks for.
* `txWaits_end_iff` — on an idle card a wait ends if and only if its request is one of these;
  otherwise it lasts for ever.
-/

namespace NacCard.Tx

open NacCard.Base NacCard.Stream

variable {g : TxRing}

/-! ## Waits -/

/-- What the loop compares `free_space` with. -/
def Pc.need {β : Type} : Pc β → Int
  | .copyWait orig => i32 orig.length
  | .spaceWait n => i32 (i32 n + 2048)
  | _ => 0

/-- The library is in one of its two wait loops. -/
def Pc.Waits {β : Type} : Pc β → Prop
  | .copyWait _ => True
  | .spaceWait _ => True
  | _ => False

theorem Pc.Waits.cases {pc : Pc Unit} (h : pc.Waits) :
    (∃ orig, pc = .copyWait orig) ∨ ∃ n, pc = .spaceWait n := by
  cases pc with
  | copyWait orig => exact .inl ⟨orig, rfl⟩
  | spaceWait n => exact .inr ⟨n, rfl⟩
  | idle => exact h.elim
  | copying orig k => exact h.elim
  | filling n bytes => exact h.elim

/-- The loop condition holds. -/
def InLoop (s : TxState Unit) : Prop := s.pc.Waits ∧ s.freeSpace < s.pc.need

/-- The card has sent everything that is committed. -/
def CardIdle (g : TxRing) (s : TxState Unit) : Prop := g.recordPtr s = s.limitPtr

/-- One more turn, and the loop is left. -/
def Ends (g : TxRing) (s : TxState Unit) : Prop :=
  ∃ s', g.requests.run (fun _ _ => True) s [.tick, .tick] = some s' ∧ ¬s'.pc.Waits

/-- However many turns are made, the loop condition holds. -/
def Forever (g : TxRing) (s : TxState Unit) : Prop :=
  ∀ k, ∃ s', g.requests.run (fun _ _ => True) s (List.replicate k .tick) = some s' ∧ InLoop s'

/-- Requests that an empty ring can meet: the copy loop keeps the safety window free, and the other
2048 bytes; sizes from `SPACE_LIMIT` on count as 4 GB less. -/
def WaitFits (g : TxRing) : Pc Unit → Prop
  | .copyWait orig => orig.length + SAFETY_WINDOW ≤ g.size
  | .spaceWait n => n + 2048 ≤ g.size ∨ SPACE_LIMIT ≤ n ∧ n + 2048 ≤ g.size + 4294967296
  | _ => True

/-! ## One turn -/

section Turn

variable {s : TxState Unit}

/-- **The copy loop on an idle card.** -/
theorem copyRefresh_idle (h : CardIdle g s) :
    (g.copyRefresh s).freeSpace = (g.size : Int) - SAFETY_WINDOW := by
  have hsize := g.size_lt
  have htop : s.limitPtr < 4294967296 := h ▸ u32_lt _
  have hneg : i32 ((s.limitPtr : Int) - u32 (s.limitPtr + SAFETY_WINDOW)) = -(SAFETY_WINDOW : Int) := by
    unfold i32 u32 SAFETY_WINDOW
    split <;> omega
  unfold TxRing.copyRefresh
  dsimp only
  rw [h, hneg, if_pos (by decide), i32_of_mem (by unfold SAFETY_WINDOW; omega) (by unfold SAFETY_WINDOW; omega)]
  omega

/-- **The space loop on an idle card.** -/
theorem spaceRefresh_idle (h : CardIdle g s) (hbottom : s.lastBusBottom = s.limitPtr) :
    (g.spaceRefresh s).freeSpace = g.size := by
  have hsize := g.size_lt
  unfold TxRing.spaceRefresh
  dsimp only
  have hzero : i32 0 = 0 := rfl
  rw [h, hbottom, Int.sub_self, hzero, if_pos le_rfl, Int.zero_add,
    i32_of_mem (by omega) (by omega)]

/-- What a turn finds free in an empty ring. -/
def Pc.idleFree (g : TxRing) : Pc Unit → Int
  | .copyWait _ => (g.size : Int) - SAFETY_WINDOW
  | _ => g.size

/-- The argument checks have passed, and the limit has been read. -/
structure WaitInv (g : TxRing) (s : TxState Unit) : Prop where
  copy : ∀ orig, s.pc = .copyWait orig → orig.length ≤ g.size
  space : ∀ n, s.pc = .spaceWait n → n < 4294967296
  bottom : BottomRead s

/-- **A turn on an idle card.** -/
theorem tick_inLoop (hinv : WaitInv g s) (hidle : CardIdle g s) (hloop : InLoop s) :
    ∃ s', g.requestStep s .tick = some s' ∧ s'.pc = s.pc ∧ CardIdle g s' ∧ WaitInv g s' ∧
      s'.freeSpace = s.pc.idleFree g := by
  obtain ⟨hwaits, hlt⟩ := hloop
  have hbottom := hinv.bottom
  obtain ⟨orig, hpc⟩ | ⟨n, hpc⟩ := hwaits.cases
  · rw [hpc] at hlt ⊢
    refine ⟨g.copyRefresh s, ?_, hpc, hidle, ⟨hinv.copy, hinv.space, ?_⟩, copyRefresh_idle hidle⟩
    · show g.tickStep s = _
      rw [TxRing.tickStep, hpc]
      exact if_pos hlt
    · show BottomRead (g.copyRefresh s)
      rw [BottomRead, TxRing.copyRefresh, hpc]
      trivial
  · rw [hpc] at hlt ⊢
    rw [BottomRead, hpc] at hbottom
    refine ⟨g.spaceRefresh s, ?_, hpc, hidle, ⟨hinv.copy, hinv.space, hinv.bottom⟩,
      spaceRefresh_idle hidle hbottom⟩
    show g.tickStep s = _
    rw [TxRing.tickStep, hpc]
    exact if_pos hlt

/-- Behind the loop. -/
theorem tick_enough (hwaits : s.pc.Waits) (hle : s.pc.need ≤ s.freeSpace) :
    ∃ s', g.requestStep s .tick = some s' ∧ ¬s'.pc.Waits := by
  obtain ⟨orig, hpc⟩ | ⟨n, hpc⟩ := hwaits.cases
  · rw [hpc] at hle
    refine ⟨TxRing.copyTake orig s, ?_, id⟩
    show g.tickStep s = _
    rw [TxRing.tickStep, hpc]
    exact if_neg (not_lt.2 hle)
  · rw [hpc] at hle
    refine ⟨TxRing.spaceTake n s, ?_, id⟩
    show g.tickStep s = _
    rw [TxRing.tickStep, hpc]
    exact if_neg (not_lt.2 hle)

/-- What an empty ring offers is enough for the requests that fit, and for no others. -/
theorem waitFits_iff (hinv : WaitInv g s) (hwaits : s.pc.Waits) :
    WaitFits g s.pc ↔ s.pc.need ≤ s.pc.idleFree g := by
  have hsize := g.size_lt
  obtain ⟨orig, hpc⟩ | ⟨n, hpc⟩ := hwaits.cases
  · have hlen := hinv.copy orig hpc
    have hcast : i32 (orig.length : Int) = orig.length := i32_of_mem (by omega) (by omega)
    rw [hpc, WaitFits, Pc.need, Pc.idleFree, hcast]
    omega
  · have hn := hinv.space n hpc
    rw [hpc, WaitFits, Pc.need]
    show _ ↔ _ ≤ (g.size : Int)
    unfold SPACE_LIMIT i32
    split <;> split <;> omega

/-! ## Waiting -/

theorem run_tick {acts : List Call} {s1 : TxState Unit} (h : g.requestStep s .tick = some s1) :
    g.requests.run (fun _ _ => True) s (.tick :: acts) = g.requests.run (fun _ _ => True) s1 acts := by
  rw [Machine.run, if_pos trivial]
  show (g.requestStep s .tick).bind _ = _
  rw [h]
  rfl

/-- A request that an empty ring can meet. -/
theorem ends_of_fits (hinv : WaitInv g s) (hidle : CardIdle g s) (hloop : InLoop s)
    (hfits : WaitFits g s.pc) : Ends g s := by
  obtain ⟨s1, htick, hpc, -, -, hfree⟩ := tick_inLoop hinv hidle hloop
  have henough : s1.pc.need ≤ s1.freeSpace := by
    rw [hpc, hfree]
    exact (waitFits_iff hinv hloop.1).1 hfits
  obtain ⟨s2, hpast, hnot⟩ := tick_enough (hpc ▸ hloop.1) henough
  refine ⟨s2, ?_, hnot⟩
  rw [run_tick htick, run_tick hpast]
  rfl

/-- One that it cannot. -/
theorem forever_of_not_fits (hinv : WaitInv g s) (hidle : CardIdle g s) (hloop : InLoop s)
    (hfits : ¬WaitFits g s.pc) : Forever g s := by
  intro k
  induction k generalizing s with
  | zero => exact ⟨s, rfl, hloop⟩
  | succ k ih =>
      obtain ⟨s1, htick, hpc, hidle1, hinv1, hfree⟩ := tick_inLoop hinv hidle hloop
      have hless : s1.freeSpace < s1.pc.need := by
        rw [waitFits_iff hinv hloop.1, not_le] at hfits
        rwa [hpc, hfree]
      obtain ⟨s', hrun, hloop'⟩ := ih hinv1 hidle1 ⟨hpc ▸ hloop.1, hless⟩ (hpc ▸ hfits)
      refine ⟨s', ?_, hloop'⟩
      rw [List.replicate_succ, run_tick htick]
      exact hrun

theorem not_ends_of_forever (h : Forever g s) : ¬Ends g s := by
  rintro ⟨s', hrun, hnot⟩
  obtain ⟨s'', hrun', hloop⟩ := h 2
  obtain rfl : s' = s'' := Option.some_inj.1 (hrun.symm.trans hrun')
  exact hnot hloop.1

/-! ## Every reachable state -/

theorem WaitInv.of_not_waits (h : ¬s.pc.Waits) : WaitInv g s := by
  refine ⟨fun orig hpc => ?_, fun n hpc => ?_, ?_⟩
  · rw [hpc] at h
    exact (h trivial).elim
  · rw [hpc] at h
    exact (h trivial).elim
  · unfold BottomRead
    split
    next n hpc =>
      rw [hpc] at h
      exact (h trivial).elim
    next => trivial

theorem WaitInv.copyWait {orig : List Unit} (hpc : s.pc = .copyWait orig)
    (hlen : orig.length ≤ g.size) : WaitInv g s := by
  refine ⟨fun orig' horig => ?_, fun n hn => ?_, ?_⟩
  · cases hpc.symm.trans horig
    exact hlen
  · cases hpc.symm.trans hn
  · rw [BottomRead, hpc]
    trivial

theorem WaitInv.spaceWait {n : Nat} (hpc : s.pc = .spaceWait n) (hn : n < 4294967296)
    (hbottom : s.lastBusBottom = s.limitPtr) : WaitInv g s := by
  refine ⟨fun orig horig => ?_, fun n' hn' => ?_, ?_⟩
  · cases hpc.symm.trans horig
  · cases hpc.symm.trans hn'
    exact hn
  · rwa [BottomRead, hpc]

theorem WaitInv.tick {s' : TxState Unit} (h : WaitInv g s) (hstep : g.tickStep s = some s') :
    WaitInv g s' := by
  have hbottom := h.bottom
  cases tickStep_moves hstep with
  | copyRefresh orig hwait hlt => exact .copyWait hwait (h.copy orig hwait)
  | spaceRefresh n hwait hlt =>
      rw [BottomRead, hwait] at hbottom
      exact .spaceWait hwait (h.space n hwait) hbottom
  | copyTake orig hwait hle => exact .of_not_waits id
  | copyByte orig k b hcopy hb => exact .of_not_waits id
  | copyPublish orig k hcopy hk => exact .of_not_waits id
  | spaceTake n hwait hle => exact .of_not_waits id

theorem WaitInv.step {s' : TxState Unit} {c : Call} (h : WaitInv g s)
    (hstep : g.requestStep s c = some s') : WaitInv g s' := by
  cases c with
  | card =>
      cases cardStep_moves hstep with
      | wrap hne hend => exact ⟨h.copy, h.space, h.bottom⟩
      | send hne hend => exact ⟨h.copy, h.space, h.bottom⟩
  | tick => exact h.tick hstep
  | copy orig =>
      cases userStep_moves (show g.userStep s (.copy orig) = some s' from hstep) with
      | copyRefused _ hidle => exact h
      | copyCall _ hidle hlen => exact .copyWait rfl hlen
  | space size =>
      change g.userStep s (.space size.toNat) = some s' at hstep
      have hmoves := userStep_moves hstep
      have hlt := size.toNat_lt
      generalize size.toNat = n at hmoves hlt
      cases hmoves with
      | spaceRefused hidle => exact h
      | spaceCall _ hidle hn => exact .spaceWait rfl hlt rfl
  | commit size =>
      refine .of_not_waits ?_
      unfold TxRing.requestStep at hstep
      dsimp only at hstep
      split at hstep
      · split_ifs at hstep
        · cases hstep
          exact id
        · cases hstep
          exact id
      · cases hstep

theorem WaitInv.reach (h : g.requests.Reach (fun _ _ => True) s) : WaitInv g s := by
  refine h.invariant (fun s hinit => .of_not_waits ?_) fun _ _ _ hinv _ hstep => hinv.step hstep
  rw [hinit.pc]
  exact id

end Turn

/-- **Waits end**, after any run of calls and once the card has sent everything, if and only if an
empty ring can meet the request; and one that it cannot meet waits for ever. -/
theorem txWaits_end_iff {s : TxState Unit} (h : g.requests.Reach (fun _ _ => True) s)
    (hidle : CardIdle g s) (hloop : InLoop s) :
    (Ends g s ↔ WaitFits g s.pc) ∧ (Forever g s ↔ ¬WaitFits g s.pc) := by
  have hinv := WaitInv.reach h
  refine ⟨⟨fun hends => ?_, ends_of_fits hinv hidle hloop⟩,
    ⟨fun hforever hfits => ?_, forever_of_not_fits hinv hidle hloop⟩⟩
  · by_contra hfits
    exact not_ends_of_forever (forever_of_not_fits hinv hidle hloop hfits) hends
  · exact not_ends_of_forever hforever (ends_of_fits hinv hidle hloop hfits)

/-! ## A ring of 4096 bytes -/

/-- A stream that has just been started. -/
def unit4k : TxState Unit := ⟨0, 0, 0, 0, 0, 0x10000000, fun _ => (), .idle, false, [], [], []⟩

theorem unit4k_reach {ok : TxState Unit → Call → Prop} : ring4k.requests.Reach ok unit4k :=
  .start ⟨rfl, rfl, rfl, by decide, rfl, rfl, rfl, rfl, rfl⟩

/-- A request for 2048 bytes ends. -/
theorem txWaits_end_2048 : ∃ s : TxState Unit, s.pc = .spaceWait 2048 ∧ Ends ring4k s := by
  obtain ⟨s, hreach, hs⟩ := Machine.exists_reach_of_run (@unit4k_reach fun _ _ => True) [.space 2048]
    (fun s => ((s.pc, s.freeSpace), (s.record, s.limitPtr)))
    ((.spaceWait 2048, 0), (0, 0x10000000)) (by decide +kernel)
  simp only [Prod.mk.injEq] at hs
  obtain ⟨⟨hpc, hfree⟩, hrecord, hlimit⟩ := hs
  have hidle : CardIdle ring4k s := by
    rw [CardIdle, TxRing.recordPtr, hrecord, hlimit]
    decide
  have hloop : InLoop s := by
    rw [InLoop, hpc, hfree]
    exact ⟨trivial, by decide⟩
  refine ⟨s, hpc, (txWaits_end_iff hreach hidle hloop).1.2 ?_⟩
  rw [hpc, WaitFits]
  exact .inl (by decide)

/-- **A copy of 4000 bytes** passes the argument checks and waits for ever. -/
theorem txWaits_forever_4000 : ∃ (s : TxState Unit) (orig : List Unit),
    ring4k.requests.Reach (fun _ _ => True) s ∧ s.pc = .copyWait orig ∧ orig.length = 4000 ∧
      CardIdle ring4k s ∧ Forever ring4k s ∧ ¬Ends ring4k s := by
  obtain ⟨orig, hlen⟩ : ∃ orig : List Unit, orig.length = 4000 :=
    ⟨List.replicate 4000 (), List.length_replicate⟩
  have hroom : orig.length ≤ ring4k.size := by
    rw [hlen]
    decide
  have hstep : ring4k.requestStep unit4k (.copy orig) =
      some { unit4k with pc := .copyWait orig, buffers := [orig] } := if_neg (not_lt.2 hroom)
  have hreach : ring4k.requests.Reach (fun _ _ => True)
      { unit4k with pc := .copyWait orig, buffers := [orig] } :=
    @Machine.Reach.next _ _ _ _ _ _ (.copy orig) unit4k_reach trivial hstep
  have hstarted : CardIdle ring4k unit4k := by
    rw [CardIdle]
    decide
  have hidle : CardIdle ring4k { unit4k with pc := .copyWait orig, buffers := [orig] } := hstarted
  have hloop : InLoop { unit4k with pc := .copyWait orig, buffers := [orig] } := by
    refine ⟨trivial, ?_⟩
    show (0 : Int) < i32 orig.length
    rw [hlen]
    decide
  have hforever := forever_of_not_fits (.reach hreach) hidle hloop (by
    rw [WaitFits, hlen]
    decide)
  exact ⟨_, orig, hreach, rfl, hlen, hidle, hforever, not_ends_of_forever hforever⟩

end NacCard.Tx
