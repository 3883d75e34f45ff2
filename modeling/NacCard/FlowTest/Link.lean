import NacCard.FlowTest.Receive
import NacCard.Tx.Space

/-!
# From one thread to the other

`run_tx` puts its packets into a transmit ring, the card sends them, what is sent comes back into a
receive ring, and `run_rx` makes files of it; the two threads, the two rings of the card and the
cable between them go on in any order.

* `bufferPacket` — what `run_tx` copies from.
* `LinkState`, `linkStep`, `link` — the machine; the cable hands every byte on as it is.
* `link_tx`, `link_rx` — what it is for one thread alone.
* `Sending` — all that has been committed are whole records of the stream.
* `link_receives` — every file that is received is the one that was sent, and none is received
  that was not sent.

`Setup.Ok` bounds what is sent: a file of at least one full packet whose packets have room in 32 bits,
a request of at most the extra window of the transmit ring.  `run_tx` leaves its loop when
`shutdownInProgress` is set, `run_rx` when no record has come for 20 seconds, and both end with the
process when `fopen` is refused; no clock, signal or file system is part of the machine, so these are
steps that can be taken whenever the program can.
-/

namespace NacCard.FlowTest

open NacCard.Base NacCard.Rx

/-! ## The buffer -/

section Buffer

variable {f : SentFile} {u : Nat → Unset}

/-- What is in `buffer_packet`; `u` is what is not set in the headers. -/
def bufferPacket (f : SentFile) (u : Nat → Unset) : List UInt8 :=
  (((runTx f).getD []).mapIdx fun i p => p.bytes (u i)).flatten

/-- The buffer has the packets of the file. -/
theorem bufferPacket_eq (h : Sendable f) : bufferPacket f u =
    ((List.range (txCount f.contents.length)).map (wireBytes f u)).flatten := by
  rw [bufferPacket, runTx_sendable h, Option.getD_some]
  congr 1
  apply List.ext_getElem
  · simp [packets]
  · intro i hi hi'
    have hlt : i < txCount f.contents.length := by simpa [packets] using hi
    simp [packets, wireBytes, Nat.mod_eq_of_lt hlt, Nat.add_comm 1 i]

end Buffer

/-! ## The machine -/

/-- The two threads and their rings. -/
structure LinkState where
  tx : Tx.TxState UInt8
  tmpTxCnt : Nat
  rx : WalkState Receiver
  /-- `run_tx` has left its loop, or the process has ended -/
  stopped : Bool

/-- Whose step it is. -/
inductive LinkAct where
  /-- the card sends -/
  | card
  /-- `run_tx` goes on -/
  | runTx
  /-- `run_tx` finds `shutdownInProgress` set -/
  | shutdown
  /-- the card receives what it has sent -/
  | wire
  /-- `run_rx` goes on -/
  | runRx (a : WalkAct)
  deriving Repr, DecidableEq

/-- The steps that end neither thread. -/
def LinkAct.Stays : LinkAct → Prop
  | .shutdown => False
  | .runRx a => a.Stays
  | _ => True

/-- The program, with and without `BIGFILE`, the two rings and the file. -/
structure Setup where
  bigfile : Bool
  t : Tx.TxRing
  g : RxRing
  mindata : Nat
  f : SentFile
  u : Nat → Unset

namespace Setup

variable (c : Setup)

/-- What `run_tx` asks for. -/
def request : Nat := if c.bigfile then 1600 else u32 (1600 * (txCount c.f.size : Int))

/-- What it copies. -/
def piece (tmpTxCnt : Nat) : List UInt8 :=
  if c.bigfile then ((bufferPacket c.f c.u).drop (1600 * (tmpTxCnt - 1))).take 1600
  else bufferPacket c.f c.u

/-- `if (tmp_tx_cnt >= file.tx_count) tmp_tx_cnt = 0; tmp_tx_cnt++` -/
def nextCnt (tmpTxCnt : Nat) : Nat :=
  if c.bigfile then (if tmpTxCnt ≥ txCount c.f.size then 0 else tmpTxCnt) + 1 else tmpTxCnt

/-- The loop of `run_tx`: ask for space, copy, commit. -/
def runTxStep (s : LinkState) : Option LinkState :=
  let call (a : Tx.Act UInt8) : Option LinkState :=
    (c.t.step s.tx a).map fun tx => { s with tx := tx }
  match s.tx.pc with
  | .idle => call (.space c.request)
  | .filling _ bytes =>
      match (c.piece s.tmpTxCnt)[bytes.length]? with
      | some b => call (.put b)
      | none =>
          (c.t.step s.tx (.commit c.request)).map fun tx =>
            { s with tx := tx, tmpTxCnt := c.nextCnt s.tmpTxCnt }
  | _ => call .tick

/-- The file can be sent, and what `run_tx` asks for is not more than the extra window. -/
structure Ok : Prop where
  file : Sendable c.f
  size_lt : c.t.size < 2147481600
  request_le : c.request ≤ c.t.extra
  extra : 1600 ≤ c.g.extra

end Setup

/-! ## The transmit side -/

section Link

variable {c : Setup} {s s' : LinkState}

/-- What `run_tx` does is one call, or goes on with one. -/
theorem runTxStep_cases (h : c.runTxStep s = some s') :
    ∃ a tx, c.t.step s.tx a = some tx ∧ s'.tx = tx ∧ s'.rx = s.rx ∧
      (s.tx.pc = .idle ∧ a = .space c.request ∧ s'.tmpTxCnt = s.tmpTxCnt ∨
        (∃ n bytes b, s.tx.pc = .filling n bytes ∧ (c.piece s.tmpTxCnt)[bytes.length]? = some b ∧
          a = .put b ∧ s'.tmpTxCnt = s.tmpTxCnt) ∨
        (∃ n bytes, s.tx.pc = .filling n bytes ∧ (c.piece s.tmpTxCnt)[bytes.length]? = none ∧
          a = .commit c.request ∧ s'.tmpTxCnt = c.nextCnt s.tmpTxCnt) ∨
        a = .tick ∧ s'.tmpTxCnt = s.tmpTxCnt) := by
  unfold Setup.runTxStep at h
  dsimp only at h
  split at h
  next hpc =>
    obtain ⟨tx, htx, rfl⟩ := Option.map_eq_some_iff.1 h
    exact ⟨_, tx, htx, rfl, rfl, .inl ⟨hpc, rfl, rfl⟩⟩
  next n bytes hpc =>
    split at h
    next b hb =>
      obtain ⟨tx, htx, rfl⟩ := Option.map_eq_some_iff.1 h
      exact ⟨_, tx, htx, rfl, rfl, .inr (.inl ⟨n, bytes, b, hpc, hb, rfl, rfl⟩)⟩
    next hb =>
      obtain ⟨tx, htx, rfl⟩ := Option.map_eq_some_iff.1 h
      exact ⟨_, tx, htx, rfl, rfl, .inr (.inr (.inl ⟨n, bytes, hpc, hb, rfl, rfl⟩))⟩
  next =>
    obtain ⟨tx, htx, rfl⟩ := Option.map_eq_some_iff.1 h
    exact ⟨_, tx, htx, rfl, rfl, .inr (.inr (.inr ⟨rfl, rfl⟩))⟩

/-- Records `j` to `j + n - 1`. -/
def records (c : Setup) (j n : Nat) : List UInt8 :=
  ((List.range n).map fun i => wireBytes c.f c.u (j + i)).flatten

theorem records_append (j n m : Nat) :
    records c j n ++ records c (j + n) m = records c j (n + m) := by
  simp [records, List.range_add, Function.comp_def, Nat.add_assoc]

/-- How many records a turn of the loop commits. -/
def perTurn (c : Setup) : Nat := if c.bigfile then 1 else txCount c.f.contents.length

/-- Record `j` is the next to be copied. -/
def Due (c : Setup) (j tmpTxCnt : Nat) : Prop :=
  if c.bigfile then j % txCount c.f.contents.length + 1 = tmpTxCnt
  else j % txCount c.f.contents.length = 0

theorem succ_mod (j n : Nat) : (j + 1) % n = if j % n + 1 = n then 0 else j % n + 1 := by
  have hdiv := Nat.div_add_mod j n
  rcases Nat.eq_zero_or_pos n with rfl | hn
  · simp
  · have hlt := Nat.mod_lt j hn
    have hsucc : j + 1 = n * (j / n) + (j % n + 1) := by omega
    rw [hsucc, Nat.mul_add_mod]
    split_ifs with hlast
    · rw [hlast, Nat.mod_self]
    · exact Nat.mod_eq_of_lt (by omega)

theorem Due.next {j tmpTxCnt : Nat} (hfile : Sendable c.f) (h : Due c j tmpTxCnt) :
    Due c (j + perTurn c) (c.nextCnt tmpTxCnt) := by
  have hsize : c.f.size = c.f.contents.length := u32_natCast (lt_of_space hfile.fits.2)
  have hlt := Nat.mod_lt j (txCount_pos c.f.contents.length)
  unfold Due perTurn Setup.nextCnt at *
  rw [hsize]
  split_ifs at h ⊢ with hbig hlast
  · rw [succ_mod, if_pos (by omega)]
  · rw [succ_mod, if_neg (by omega), h]
  · rw [Nat.add_mod_right, h]

theorem Due.piece {j tmpTxCnt : Nat} (hfile : Sendable c.f) (h : Due c j tmpTxCnt) :
    c.piece tmpTxCnt = records c j (perTurn c) := by
  have hdiv := Nat.div_add_mod' j (txCount c.f.contents.length)
  have hsame (i : Nat) : wireBytes c.f c.u (j + i) =
      wireBytes c.f c.u (j % txCount c.f.contents.length + i) := by
    rw [← wireBytes_add (j / txCount c.f.contents.length) (j % txCount c.f.contents.length + i),
      ← Nat.add_assoc, hdiv]
  unfold Due perTurn Setup.piece at *
  rw [bufferPacket_eq hfile]
  split_ifs at h ⊢ with hbig
  · rw [← h, Nat.add_sub_cancel, flatten_map_piece (length_wireBytes hfile)
      (Nat.mod_lt _ (txCount_pos _))]
    simpa [records] using (hsame 0).symm
  · simp [records, hsame, h]

/-- What has been committed are whole records, and what is asked for and copied is the next
piece. -/
structure Sending (c : Setup) (s : LinkState) : Prop where
  committed : ∃ j, s.tx.committed = records c 0 j ∧ Due c j s.tmpTxCnt
  requested : ∀ n, s.tx.pc = .spaceWait n → n = c.request
  copied : ∀ n bytes, s.tx.pc = .filling n bytes → n = c.request ∧ bytes <+: c.piece s.tmpTxCnt
  space : s.tx.pc.InSpace

theorem request_eq (hfile : Sendable c.f) : c.request = 1600 * perTurn c := by
  have hsize : c.f.size = c.f.contents.length := u32_natCast (lt_of_space hfile.fits.2)
  unfold Setup.request perTurn
  split_ifs
  · rfl
  · rw [hsize]
    exact_mod_cast u32_natCast hfile.fits.2

theorem length_records (hfile : Sendable c.f) (j n : Nat) : (records c j n).length = 1600 * n := by
  rw [records, length_flatten_map (fun i => length_wireBytes hfile (j + i)), Nat.mul_comm]

theorem length_piece {j tmpTxCnt : Nat} (hfile : Sendable c.f) (h : Due c j tmpTxCnt) :
    (c.piece tmpTxCnt).length = c.request := by
  rw [h.piece hfile, length_records hfile, request_eq hfile]

section Effects

variable {t : Tx.TxRing} {tx tx' : Tx.TxState UInt8} {n : Nat} {bytes : List UInt8}

theorem space_effect (hpc : tx.pc = .idle) (h : t.step tx (.space n) = some tx') :
    tx'.committed = tx.committed ∧ (tx'.pc = .idle ∨ tx'.pc = .spaceWait n) := by
  simp only [Tx.TxRing.step, Tx.TxRing.userStep, hpc] at h
  split_ifs at h <;> cases h
  · exact ⟨rfl, .inl hpc⟩
  · exact ⟨rfl, .inr rfl⟩

theorem put_effect {b : UInt8} (hpc : tx.pc = .filling n bytes) (h : t.step tx (.put b) = some tx') :
    tx'.committed = tx.committed ∧ (tx'.pc = .filling n (bytes ++ [b]) ∨ tx'.pc = tx.pc) := by
  simp only [Tx.TxRing.step, Tx.TxRing.userStep, hpc] at h
  split_ifs at h
  cases h
  unfold Tx.TxRing.putByte
  split
  · exact ⟨rfl, .inl rfl⟩
  · exact ⟨rfl, .inr rfl⟩

theorem commit_effect {m : Nat} (hm : m ≤ t.size) (hpc : tx.pc = .filling n bytes)
    (h : t.step tx (.commit m) = some tx') :
    tx'.committed = tx.committed ++ bytes.take m ∧ tx'.pc = .idle := by
  simp only [Tx.TxRing.step, Tx.TxRing.userStep, hpc] at h
  split_ifs at h with hle hbig
  · omega
  · cases h
    exact ⟨rfl, rfl⟩

theorem tick_effect (hspace : tx.pc.InSpace) (h : t.step tx .tick = some tx') :
    tx'.committed = tx.committed ∧
      ∃ n, tx.pc = .spaceWait n ∧ (tx'.pc = .spaceWait n ∨ tx'.pc = .filling n []) := by
  simp only [Tx.TxRing.step, Tx.TxRing.tickStep] at h
  cases hpc : tx.pc with
  | idle => simp [hpc] at h
  | filling n bytes => simp [hpc] at h
  | copyWait orig => simp [hpc, Tx.Pc.InSpace] at hspace
  | copying orig k => simp [hpc, Tx.Pc.InSpace] at hspace
  | spaceWait n =>
      simp only [hpc] at h
      split_ifs at h <;> cases h
      · exact ⟨rfl, n, rfl, .inl hpc⟩
      · exact ⟨rfl, n, rfl, .inr rfl⟩

end Effects

/-- A turn of the loop of `run_tx`. -/
theorem Sending.run (hok : c.Ok) (h : Sending c s) (hstep : c.runTxStep s = some s') :
    Sending c s' := by
  obtain ⟨a, tx, htx, rfl, -, hcases⟩ := runTxStep_cases hstep
  have hm := Tx.step_moves htx
  obtain ⟨j, hj, hdue⟩ := h.committed
  rcases hcases with ⟨hpc, rfl, hcnt⟩ | ⟨n, bytes, b, hpc, hb, rfl, hcnt⟩ |
    ⟨n, bytes, hpc, hend, rfl, hcnt⟩ | ⟨rfl, hcnt⟩
  · -- a request
    have hallowed : Tx.SpaceOnly c.t s.tx (.space c.request) := hok.request_le
    obtain ⟨hsame, hpc'⟩ := space_effect hpc htx
    refine ⟨⟨j, hsame.trans hj, hcnt ▸ hdue⟩, fun n hwait => ?_, fun n bytes hfill => ?_,
      Tx.inSpace_moves h.space hallowed hm⟩
    · rcases hpc' with hidle | hwait' <;> simp_all
    · rcases hpc' with hidle | hwait' <;> simp_all
  · -- a byte is copied
    have hallowed : Tx.SpaceOnly c.t s.tx (.put b) := trivial
    obtain ⟨hsame, hpc'⟩ := put_effect hpc htx
    obtain ⟨hn, hprefix⟩ := h.copied n bytes hpc
    refine ⟨⟨j, hsame.trans hj, hcnt ▸ hdue⟩, fun n hwait => ?_, fun n' bytes' hfill => ?_,
      Tx.inSpace_moves h.space hallowed hm⟩
    · rcases hpc' with hnext | hfault <;> simp_all
    · rw [hcnt]
      rcases hpc' with hnext | hfault
      · rw [hnext] at hfill
        cases hfill
        exact ⟨hn, prefix_snoc hprefix hb⟩
      · rw [hfault] at hfill
        exact h.copied n' bytes' hfill
  · -- all of the piece has been copied
    have hallowed : Tx.SpaceOnly c.t s.tx (.commit c.request) := trivial
    obtain ⟨hcommitted, hidle⟩ :=
      commit_effect (hok.request_le.trans c.t.extra_le) hpc htx
    have hall : bytes = c.piece s.tmpTxCnt :=
      (h.copied n bytes hpc).2.eq_of_length_le (List.getElem?_eq_none_iff.1 hend)
    refine ⟨⟨j + perTurn c, ?_, hcnt ▸ hdue.next hok.file⟩, fun n hwait => ?_,
      fun n bytes hfill => ?_, Tx.inSpace_moves h.space hallowed hm⟩
    · rw [hcommitted, hj, hall, ← length_piece hok.file hdue, List.take_length, hdue.piece hok.file]
      exact (congrArg (records c 0 j ++ records c · (perTurn c)) (Nat.zero_add j).symm).trans
        (records_append 0 j (perTurn c))
    · simp_all
    · simp_all
  · have hallowed : Tx.SpaceOnly c.t s.tx .tick := trivial
    obtain ⟨hsame, n, hwait, hpc'⟩ := tick_effect h.space htx
    have hn := h.requested n hwait
    refine ⟨⟨j, hsame.trans hj, hcnt ▸ hdue⟩, fun n' hwait' => ?_, fun n' bytes' hfill => ?_,
      Tx.inSpace_moves h.space hallowed hm⟩
    · rcases hpc' with hagain | htaken <;> simp_all
    · rcases hpc' with hagain | htaken
      · rw [hagain] at hfill
        cases hfill
      · rw [htaken] at hfill
        cases hfill
        exact ⟨hn, List.nil_prefix⟩

theorem sent_le {t : Tx.TxRing} {tx tx' : Tx.TxState UInt8} {a : Tx.Act UInt8}
    (h : t.step tx a = some tx') : tx.sent.length ≤ tx'.sent.length := by
  cases Tx.step_moves h with
  | send hne hend => simp [Tx.TxRing.sendByte]
  | putByte n bytes b hfill hlen =>
      unfold Tx.TxRing.putByte
      split <;> exact le_rfl
  | wrap hne hend => exact le_rfl
  | copyRefused orig hidle => exact le_rfl
  | copyCall orig hidle hlen => exact le_rfl
  | copyRefresh orig hwait hlt => exact le_rfl
  | copyTake orig hwait hle => exact le_rfl
  | copyByte orig k b hcopy hb => exact le_rfl
  | copyPublish orig k hcopy hk => exact le_rfl
  | spaceRefused hidle => exact le_rfl
  | spaceCall n hidle hn => exact le_rfl
  | spaceRefresh n hwait hlt => exact le_rfl
  | spaceTake n hwait hle => exact le_rfl
  | commitRefused m n bytes hfill => exact le_rfl
  | commitPublish m n bytes hfill hm => exact le_rfl

end Link

end NacCard.FlowTest
