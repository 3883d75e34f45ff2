import NacCard.Flash.Effects
import NacCard.Flash.Factory

/-!
# What a bank is programmed with

`bank_program` hands its words to the flash in buffers of up to 32, by `block_program` and
`buffer_program`. Here they run on the status words that are read, so that the flash may be busy, or
report an error.

* `Session.bufferProgram`, `Session.blockProgram`, `Session.bankProgram` — the functions.
* `Receiver`, `receive`, `buffersOf` — the buffers that the flash makes of what is written.
* `Hands` — so many words have gone over, in buffers that are whole; `Session.bufferProgram_hands`,
  `Session.blockProgram_hands`, `Session.bankProgram_hands`.
* `Working` — answers with which the functions come to their end: `Session.bankProgram_returns`.
* `bankProgram_covers` — every word goes over once; `bankProgram_stores` — they are what the chip
  stores.
-/

namespace NacCard.Flash

open NacCard.Base

/-! ## The functions -/

namespace Session

/-- `0xE8` is written until the flash has a buffer. -/
def askAgain (startAddr : Nat) : List UInt16 → List (Nat × UInt16) → Except Stop Session
  | [], _ => .error .hang
  | stat :: rest, written =>
      if sr7 stat then .ok ⟨written ++ [(startAddr, 0xe8)], rest⟩
      else askAgain startAddr rest (written ++ [(startAddr, 0xe8)])

/-- The loop in which a buffer is asked for. -/
def askBuffer (s : Session) (startAddr : Nat) : Except Stop Session :=
  if startAddr > 0x7fffff then .error .undefined else askAgain startAddr s.answers s.written

/-- The wait for the end, and the tests of the status. -/
def endProgram (s : Session) (startAddr : Nat) : Except Stop Session :=
  if startAddr > 0x7fffff then .error .undefined
  else do
    let (stat, rest) ← poll (fun stat => !sr7 stat) s.answers
    checkProgram stat { s with answers := rest }

/-- `pdata` is word `p` of an array. -/
def bufferProgram (s : Session) (startAddr : Nat) (n : Int) (pdata : List UInt16) (p : Nat) :
    Except Stop Session :=
  if n < 0 ∨ n > 31 then .error (.exit 1)
  else do
    let s ← s.askBuffer startAddr
    let s := s.write startAddr (UInt16.ofNat n.toNat)
    let s ← (List.range (n.toNat + 1)).foldlM (fun s i => do
      let w ← readWord pdata (p + i)
      .ok (s.write (startAddr + i) (bitSwap w))) s
    let s := s.write startAddr 0xd0
    s.endProgram startAddr

/-- `block_program`: pieces of 32 words, the last one as long as what is left. -/
def blockProgram (s : Session) (bank block wSize : Nat) (pdata : List UInt16) (p : Nat) :
    Except Stop Session :=
  if wSize = 0 then .error (.exit 1)
  else do
    let startAddr := bank * 0x80000 + block * 0x10000
    let needBuffer := chunkCount 32 wSize
    let lastWords := lastChunk 32 wSize
    let s ← (List.range (needBuffer - 1)).foldlM
      (fun s i => s.bufferProgram (startAddr + i * 32) 31 pdata (p + i * 32)) s
    s.bufferProgram (startAddr + (needBuffer - 1) * 32) ((lastWords : Int) - 1) pdata
      (p + (needBuffer - 1) * 32)

/-- The number of blocks is kept in 8 bits. -/
def bankProgram (s : Session) (bank wSize : Nat) (pdata : List UInt16) (p : Nat) :
    Except Stop Session :=
  if wSize = 0 then .error (.exit 1)
  else do
    let needBlock := chunkCount BLOCK_SIZE_W wSize % 256
    let lastWords := lastChunk BLOCK_SIZE_W wSize
    let lastBlock := (needBlock + 255) % 256
    let s ← (List.range (needBlock - 1)).foldlM
      (fun s i => s.blockProgram bank (i % 256) BLOCK_SIZE_W pdata (p + i * BLOCK_SIZE_W)) s
    s.blockProgram bank lastBlock lastWords pdata (p + (needBlock - 1) * BLOCK_SIZE_W)

end Session

/-! ## The flash's side -/

/-- A buffer as the flash has taken it: where it was asked for, how many words were announced, and
the words that came. -/
structure Buffer where
  start : Nat
  announced : Nat
  words : List (Nat × UInt16)
  deriving Repr, DecidableEq

/-- The next write cycle. -/
inductive Expected where
  | command
  /-- one less than the number of words, or `0xE8` once more -/
  | count (start : Nat)
  /-- words, then `0xD0` -/
  | words (b : Buffer)
  deriving Repr, DecidableEq

/-- The buffers that have come whole, and what the flash waits for. -/
structure Receiver where
  buffers : List Buffer
  expected : Expected
  deriving Repr, DecidableEq

/-- None where the cycle is not what is expected. -/
def receive (r : Receiver) (cycle : Nat × UInt16) : Option Receiver :=
  match r.expected with
  | .command => if cycle.2 = 0xe8 then some { r with expected := .count cycle.1 } else none
  | .count start =>
      if cycle.1 ≠ start then none
      else if cycle.2 = 0xe8 then some r
      else some { r with expected := .words ⟨start, cycle.2.toNat + 1, []⟩ }
  | .words b =>
      if b.words.length < b.announced then
        some { r with expected := .words { b with words := b.words ++ [cycle] } }
      else if cycle = (b.start, 0xd0) then some ⟨r.buffers ++ [b], .command⟩
      else none

/-- The buffers in a sequence of write cycles that consists of such. -/
def buffersOf (cycles : List (Nat × UInt16)) : Option (List Buffer) :=
  (cycles.foldlM receive ⟨[], .command⟩).bind fun r =>
    if r.expected = .command then some r.buffers else none

/-- As many words as announced, all in one line of 32 and in one block. -/
structure Buffer.Whole (b : Buffer) : Prop where
  announced : b.words.length = b.announced
  le : b.announced ≤ 32
  line : ∀ w ∈ b.words, w.1 / 32 = b.start / 32
  block : ∀ w ∈ b.words, w.1 / BLOCK_SIZE_W = b.start / BLOCK_SIZE_W

/-! ## What the flash receives -/

section Received

variable {startAddr addr n p : Nat} {data : UInt16} {mem : List UInt16} {s s' : Session}
  {bs : List Buffer} {r r' : Receiver} {expected : Expected} {cycles : List (Nat × UInt16)}

/-- The flash has come to `r` by the write cycles. -/
def Received (cycles : List (Nat × UInt16)) (r : Receiver) : Prop :=
  cycles.foldlM receive ⟨[], .command⟩ = some r

theorem Received.append (h : Received cycles r) {cycle : Nat × UInt16}
    (hr : receive r cycle = some r') : Received (cycles ++ [cycle]) r' := by
  unfold Received
  rw [List.foldlM_append, h]
  show List.foldlM receive r [cycle] = _
  rw [List.foldlM_cons, hr]
  rfl

theorem Received.write (h : Received s.written r) (haddr : addr ≤ 0x7fffff)
    (hr : receive r (addr, data) = some r') : Received (s.write addr data).written r' := by
  rw [Session.write_written haddr]
  exact h.append hr

theorem Received.buffersOf (h : Received cycles ⟨bs, .command⟩) : buffersOf cycles = some bs := by
  unfold NacCard.Flash.buffersOf
  rw [h]
  rfl

/-- A buffer is asked for, or asked for again. -/
theorem receive_ask (h : expected = .command ∨ expected = .count startAddr) :
    receive ⟨bs, expected⟩ (startAddr, 0xe8) = some ⟨bs, .count startAddr⟩ := by
  rcases h with rfl | rfl <;> simp [receive]

/-- The number of words is not taken for another `0xE8`. -/
theorem receive_count (hn : n ≤ 31) :
    receive ⟨bs, .count startAddr⟩ (startAddr, UInt16.ofNat n) =
      some ⟨bs, .words ⟨startAddr, n + 1, []⟩⟩ := by
  have hcount : (UInt16.ofNat n).toNat = n := by
    rw [UInt16.toNat_ofNat']
    omega
  have hask : UInt16.ofNat n ≠ 0xe8 := by
    intro heq
    rw [heq] at hcount
    exact absurd (hcount ▸ hn) (by decide)
  simp [receive, hask, hcount]

theorem receive_word {b : Buffer} (h : b.words.length < b.announced) (cycle : Nat × UInt16) :
    receive ⟨bs, .words b⟩ cycle = some ⟨bs, .words { b with words := b.words ++ [cycle] }⟩ :=
  if_pos h

theorem receive_confirm {b : Buffer} (h : b.words.length = b.announced) :
    receive ⟨bs, .words b⟩ (b.start, 0xd0) = some ⟨bs ++ [b], .command⟩ := by
  simp [receive, h]

theorem Session.askAgain_received {answers : List UInt16}
    (h : Received cycles ⟨bs, expected⟩)
    (hexpected : expected = .command ∨ expected = .count startAddr)
    (hrun : askAgain startAddr answers cycles = .ok s') :
    Received s'.written ⟨bs, .count startAddr⟩ := by
  induction answers generalizing cycles expected with
  | nil => cases hrun
  | cons stat rest ih =>
      have hask := h.append (receive_ask hexpected)
      unfold askAgain at hrun
      split_ifs at hrun with hready
      · cases hrun
        exact hask
      · exact ih hask (.inr rfl) hrun

theorem checkProgram_eq {stat : UInt16} (h : checkProgram stat s = .ok s') : s' = s := by
  unfold checkProgram at h
  split_ifs at h
  cases h
  rfl

/-- Waiting writes nothing. -/
theorem Session.endProgram_written (h : s.endProgram startAddr = .ok s') :
    s'.written = s.written := by
  unfold Session.endProgram at h
  split_ifs at h
  obtain ⟨⟨stat, rest⟩, -, hcheck⟩ := exists_of_bind h
  rw [checkProgram_eq hcheck]

theorem readWord_ok {w : UInt16} (h : readWord mem p = .ok w) : mem.getD p 0 = w := by
  unfold readWord at h
  rw [List.getD_eq_getElem?_getD]
  cases hget : mem[p]? with
  | none =>
      rw [hget] at h
      cases h
  | some v =>
      rw [hget] at h
      cases h
      rfl

/-- Word `p + k` of an array as it goes to the `k`th address from `start` on. -/
def placed (start : Nat) (mem : List UInt16) (p k : Nat) : Nat × UInt16 :=
  (start + k, swapped mem p k)

/-- **One buffer**: it has the words it announces. -/
theorem Session.bufferProgram_received (hn : n ≤ 31) (haddr : startAddr + n ≤ 0x7fffff)
    (hrun : s.bufferProgram startAddr n mem p = .ok s')
    (h : Received s.written ⟨bs, .command⟩) :
    Received s'.written
      ⟨bs ++ [⟨startAddr, n + 1, (List.range (n + 1)).map (placed startAddr mem p)⟩], .command⟩ := by
  have hstart : startAddr ≤ 0x7fffff := by omega
  rw [Session.bufferProgram, if_neg (by omega), Int.toNat_natCast] at hrun
  obtain ⟨s1, hask, hrun⟩ := exists_of_bind hrun
  obtain ⟨s2, hloop, hend⟩ := exists_of_bind hrun
  rw [Session.askBuffer, if_neg hstart.not_gt] at hask
  have hasked := (Session.askAgain_received h (.inl rfl) hask).write hstart (receive_count hn)
  have hwords : Received s2.written
      ⟨bs, .words ⟨startAddr, n + 1, (List.range (n + 1)).map (placed startAddr mem p)⟩⟩ := by
    refine foldlM_range_of_ok (fun i t => Received t.written
      ⟨bs, .words ⟨startAddr, n + 1, (List.range i).map (placed startAddr mem p)⟩⟩) ?_ hasked hloop
    intro i t t' hi ht hturn
    obtain ⟨w, hread, hwrite⟩ := exists_of_bind hturn
    have hword : placed startAddr mem p i = (startAddr + i, bitSwap w) := by
      rw [placed, swapped, readWord_ok hread]
    cases hwrite
    rw [List.range_succ, List.map_append, List.map_singleton, hword]
    exact ht.write (by omega) (receive_word (by simpa using hi) _)
  rw [Session.endProgram_written hend]
  exact hwords.write hstart (receive_confirm (by simp))

end Received

/-! ## Buffers, blocks, banks -/

/-- From `s` to `s'` the flash gets `n` words in whole buffers, from the `a`th on of those at `p`
that go to `start` and behind. -/
def Hands (start : Nat) (mem : List UInt16) (p a n : Nat) (s s' : Session) : Prop :=
  ∀ bs, Received s.written ⟨bs, .command⟩ → ∃ bs', Received s'.written ⟨bs ++ bs', .command⟩ ∧
    bs'.flatMap Buffer.words = (List.range' a n).map (placed start mem p) ∧ ∀ b ∈ bs', b.Whole

section Hands

variable {start a n m p bank block w : Nat} {mem : List UInt16} {s s' s'' : Session}

theorem Hands.none (a : Nat) (s : Session) : Hands start mem p a 0 s s := by
  intro bs h
  exact ⟨[], by rwa [List.append_nil], rfl, by simp⟩

theorem Hands.append (h : Hands start mem p a n s s') (h' : Hands start mem p (a + n) m s' s'') :
    Hands start mem p a (n + m) s s'' := by
  intro bs hbs
  obtain ⟨bs1, hreceived, hwords, hwhole⟩ := h bs hbs
  obtain ⟨bs2, hreceived', hwords', hwhole'⟩ := h' _ hreceived
  refine ⟨bs1 ++ bs2, ?_, ?_, ?_⟩
  · rwa [← List.append_assoc]
  · rw [List.flatMap_append, hwords, hwords', ← List.map_append, List.range'_append_1]
  · intro b hb
    rcases List.mem_append.1 hb with hb | hb
    · exact hwhole b hb
    · exact hwhole' b hb

theorem placed_add (start : Nat) (mem : List UInt16) (p a : Nat) :
    placed (start + a) mem (p + a) = fun k => placed start mem p (a + k) := by
  funext k
  rw [placed, placed, swapped_add, Nat.add_assoc]

/-- A buffer that ends in the line of 32 words where it starts. -/
theorem Buffer.whole_of_line (hn : n ≤ 31) (hline : start % 32 + n < 32) :
    Buffer.Whole ⟨start, n + 1, (List.range (n + 1)).map (placed start mem p)⟩ := by
  have hsame : ∀ w ∈ (List.range (n + 1)).map (placed start mem p), w.1 / 32 = start / 32 := by
    intro w hw
    obtain ⟨k, hk, rfl⟩ := List.mem_map.1 hw
    have hk' := List.mem_range.1 hk
    show (start + k) / 32 = start / 32
    omega
  refine ⟨by simp, Nat.succ_le_succ hn, hsame, ?_⟩
  -- a block is so many lines
  intro w hw
  show w.1 / (32 * 2048) = start / (32 * 2048)
  rw [← Nat.div_div_eq_div_mul, ← Nat.div_div_eq_div_mul, hsame w hw]

theorem Session.bufferProgram_hands (hn : n ≤ 31) (hline : (start + a) % 32 + n < 32)
    (haddr : start + a + n ≤ 0x7fffff)
    (hrun : s.bufferProgram (start + a) n mem (p + a) = .ok s') :
    Hands start mem p a (n + 1) s s' := by
  intro bs hbs
  refine ⟨_, Session.bufferProgram_received hn haddr hrun hbs, ?_, ?_⟩
  · rw [List.flatMap_singleton, placed_add, List.range'_eq_map_range, List.map_map]
    rfl
  · intro b hb
    rw [List.mem_singleton.1 hb]
    exact Buffer.whole_of_line hn hline

/-- **A block**, from its first word on. -/
theorem Session.blockProgram_hands (hw : 0 < w) (hw' : w ≤ BLOCK_SIZE_W) (hbank : bank < 16)
    (hblock : block < 8)
    (hrun : s.blockProgram bank block w mem (p + block * BLOCK_SIZE_W) = .ok s') :
    Hands (bank * 0x80000) mem p (block * BLOCK_SIZE_W) w s s' := by
  obtain ⟨hcount, hlast, hlast', hsum⟩ := chunks_eq (k := 32) (by decide) hw
  unfold BLOCK_SIZE_W at *
  rw [Session.blockProgram, if_neg hw.ne'] at hrun
  refine chunks_of_ok (Hands (bank * 0x80000) mem p) Hands.none (fun _ _ _ _ _ _ => Hands.append)
    (by decide) hw ?_ ?_ hrun
  · intro i t t' hi hturn
    have hend := chunk_le (by decide) hw hi
    rw [Nat.add_assoc, Nat.add_assoc] at hturn
    exact Session.bufferProgram_hands le_rfl (by omega) (by omega) hturn
  · intro t t' hturn
    obtain ⟨n, hn⟩ := Nat.exists_eq_succ_of_ne_zero hlast.ne'
    rw [hn] at hlast' hsum hturn ⊢
    rw [Nat.cast_succ, add_sub_cancel_right, Nat.add_assoc, Nat.add_assoc] at hturn
    exact Session.bufferProgram_hands (Nat.le_of_lt_succ hlast') (by omega) (by omega) hturn

/-- **A bank**, block after block. -/
theorem Session.bankProgram_hands (hw : 0 < w) (hw' : w ≤ BANK_SIZE_W) (hbank : bank < 16)
    (hrun : s.bankProgram bank w mem p = .ok s') : Hands (bank * 0x80000) mem p 0 w s s' := by
  obtain ⟨hcount, hlast, hlast', hsum⟩ := chunks_eq (k := BLOCK_SIZE_W) (by decide) hw
  obtain ⟨hblocks, hneed, hlastBlock⟩ := bank_blocks hw'
  rw [Session.bankProgram, if_neg hw.ne'] at hrun
  dsimp only at hrun
  rw [hneed, hlastBlock hcount] at hrun
  refine chunks_of_ok (Hands (bank * 0x80000) mem p) Hands.none (fun _ _ _ _ _ _ => Hands.append)
    (by decide) hw ?_ ?_ hrun
  · intro i t t' hi hturn
    rw [Nat.mod_eq_of_lt (by omega)] at hturn
    rw [Nat.zero_add]
    exact Session.blockProgram_hands (by decide) le_rfl hbank (by omega) hturn
  · intro t t' hturn
    rw [Nat.zero_add]
    exact Session.blockProgram_hands hlast hlast' hbank (by omega) hturn

end Hands

/-! ## Coming to an end -/

/-- The flash is ready in `k` answers at least, and reports no error with them. -/
def Working (k : Nat) (answers : List UInt16) : Prop :=
  k ≤ answers.countP sr7 ∧
    ∀ stat ∈ answers, sr7 stat → stat &&& 0x8 = 0 ∧ stat &&& 0x10 = 0 ∧ stat &&& 0x2 = 0

section Returns

variable {startAddr k n m p bank block w : Nat} {mem answers : List UInt16} {s : Session}

theorem Working.mono (h : Working k answers) (hle : m ≤ k) : Working m answers :=
  ⟨hle.trans h.1, h.2⟩

/-- An answer while the flash is busy does not matter. -/
theorem Working.busy {stat : UInt16} (hbusy : sr7 stat = false) (h : Working k answers) :
    Working k (stat :: answers) := by
  refine ⟨?_, fun st hst hready => ?_⟩
  · rw [List.countP_cons_of_neg (by simp [hbusy])]
    exact h.1
  · rcases List.mem_cons.1 hst with rfl | hst
    · rw [hbusy] at hready
      cases hready
    · exact h.2 st hst hready

/-- Ready every time. -/
theorem working_replicate (k : Nat) : Working k (List.replicate k 0x80) := by
  refine ⟨?_, fun stat hst _ => ?_⟩
  · rw [List.countP_replicate, if_pos (by decide)]
  · rw [List.eq_of_mem_replicate hst]
    decide

/-- The next wait ends, and uses up one answer of a flash that is ready. -/
theorem Working.poll (h : Working (k + 1) answers) :
    ∃ stat rest, Session.poll (fun stat => !sr7 stat) answers = .ok (stat, rest) ∧
      (∀ s : Session, checkProgram stat s = .ok s) ∧ Working k rest := by
  induction answers with
  | nil => exact absurd h.1 (Nat.not_succ_le_zero k)
  | cons stat rest ih =>
      obtain ⟨hcount, hgood⟩ := h
      have hgood' := fun st hst => hgood st (List.mem_cons_of_mem stat hst)
      rw [List.countP_cons] at hcount
      unfold Session.poll
      cases hready : sr7 stat with
      | false =>
          rw [hready] at hcount
          exact ih ⟨hcount, hgood'⟩
      | true =>
          rw [hready] at hcount
          obtain ⟨h8, h10, h2⟩ := hgood stat (List.mem_cons_self ..) hready
          refine ⟨stat, rest, rfl, fun s => ?_, Nat.le_of_succ_le_succ hcount, hgood'⟩
          rw [checkProgram, if_neg (not_not.2 h8), if_neg (not_not.2 h10), if_neg (not_not.2 h2)]

/-- Asking for a buffer reads the answers as waiting does. -/
theorem Session.askAgain_returns {stat : UInt16} {rest : List UInt16} (startAddr : Nat)
    (cycles : List (Nat × UInt16)) (h : poll (fun stat => !sr7 stat) answers = .ok (stat, rest)) :
    ∃ s', askAgain startAddr answers cycles = .ok s' ∧ s'.answers = rest := by
  induction answers generalizing cycles with
  | nil => cases h
  | cons st answers ih =>
      unfold poll at h
      unfold askAgain
      cases hready : sr7 st with
      | false =>
          rw [hready] at h
          exact ih _ h
      | true =>
          rw [hready] at h
          cases h
          exact ⟨_, rfl, rfl⟩

theorem Session.endProgram_returns (haddr : startAddr ≤ 0x7fffff) (h : Working (k + 1) s.answers) :
    ∃ s', s.endProgram startAddr = .ok s' ∧ Working k s'.answers := by
  obtain ⟨stat, rest, hpoll, hcheck, hleft⟩ := h.poll
  refine ⟨{ s with answers := rest }, ?_, hleft⟩
  rw [Session.endProgram, if_neg haddr.not_gt, bind_of_ok hpoll]
  exact hcheck _

/-- A buffer takes two answers. -/
theorem Session.bufferProgram_returns (hn : n ≤ 31) (haddr : startAddr ≤ 0x7fffff)
    (hmem : p + n < mem.length) (h : Working (k + 2) s.answers) :
    ∃ s', s.bufferProgram startAddr n mem p = .ok s' ∧ Working k s'.answers := by
  obtain ⟨stat, rest, hpoll, -, hleft⟩ := h.poll
  obtain ⟨s1, hask, hrest⟩ := Session.askAgain_returns startAddr s.written hpoll
  rw [← hrest] at hleft
  have hask' : s.askBuffer startAddr = .ok s1 := by rwa [Session.askBuffer, if_neg haddr.not_gt]
  obtain ⟨s2, hloop, hleft'⟩ := foldlM_range
    (f := fun (s : Session) i => do
      let w ← readWord mem (p + i)
      .ok (s.write (startAddr + i) (bitSwap w)))
    (fun _ (t : Session) => Working (k + 1) t.answers)
    (n := n + 1) (s := s1.write startAddr (UInt16.ofNat n))
    (by
      intro i t hi ht
      refine ⟨t.write (startAddr + i) (swapped mem p i), ?_, ?_⟩
      · rw [bind_of_ok (readWord_eq (by omega))]
        rfl
      · rwa [Session.write_answers])
    (by rwa [Session.write_answers])
  obtain ⟨s3, hend, hdone⟩ := @Session.endProgram_returns startAddr k (s2.write startAddr 0xd0) haddr
    (by rwa [Session.write_answers])
  refine ⟨s3, ?_, hdone⟩
  rw [Session.bufferProgram, if_neg (by omega), bind_of_ok hask', Int.toNat_natCast]
  dsimp only
  rw [bind_of_ok hloop]
  exact hend

theorem Session.blockProgram_returns (hw : 0 < w)
    (haddr : bank * 0x80000 + block * 0x10000 + w ≤ 0x800000) (hmem : p + w ≤ mem.length)
    (h : Working (2 * (k + w)) s.answers) :
    ∃ s', s.blockProgram bank block w mem p = .ok s' ∧ Working (2 * k) s'.answers := by
  obtain ⟨hcount, hlast, hlast', hsum⟩ := chunks_eq (k := 32) (by decide) hw
  rw [Session.blockProgram, if_neg hw.ne']
  refine chunks_returns (fun m (t : Session) => Working (2 * m) t.answers) (by decide) hw ?_ ?_ h
  · intro i t m hi ht
    have hend := chunk_le (by decide) hw hi
    exact Session.bufferProgram_returns (n := 31) le_rfl (by omega) (by omega) (ht.mono (by omega))
  · intro t m ht
    obtain ⟨n, hn⟩ := Nat.exists_eq_succ_of_ne_zero hlast.ne'
    rw [hn] at hlast' hsum ht ⊢
    rw [Nat.cast_succ, add_sub_cancel_right]
    exact Session.bufferProgram_returns (Nat.le_of_lt_succ hlast') (by omega) (by omega)
      (ht.mono (by omega))

theorem Session.bankProgram_returns (hw : 0 < w) (hw' : w ≤ BANK_SIZE_W) (hbank : bank < 16)
    (hmem : p + w ≤ mem.length) (h : Working (2 * (k + w)) s.answers) :
    ∃ s', s.bankProgram bank w mem p = .ok s' ∧ Working (2 * k) s'.answers := by
  obtain ⟨hcount, hlast, hlast', hsum⟩ := chunks_eq (k := BLOCK_SIZE_W) (by decide) hw
  obtain ⟨hblocks, hneed, hlastBlock⟩ := bank_blocks hw'
  rw [Session.bankProgram, if_neg hw.ne']
  dsimp only
  rw [hneed, hlastBlock hcount]
  unfold BLOCK_SIZE_W BANK_SIZE_W at *
  refine chunks_returns (fun m (t : Session) => Working (2 * m) t.answers) (by decide) hw ?_ ?_ h
  · intro i t m hi ht
    have hend := chunk_le (by decide) hw hi
    rw [Nat.mod_eq_of_lt (by omega)]
    exact Session.blockProgram_returns (by decide) (by omega) (by omega) ht
  · intro t m ht
    exact Session.blockProgram_returns hlast (by omega) (by omega) ht

end Returns

/-! ## The whole bank -/

section Bank

variable {bank : Nat} {data answers : List UInt16} {s' : Session}

theorem placed_mapIdx (start : Nat) (data : List UInt16) :
    (List.range' 0 data.length).map (placed start data 0) =
      data.mapIdx fun k w => (start + k, bitSwap w) := by
  apply List.ext_getElem
  · simp
  · intro k hk hk'
    have hin : k < data.length := by simpa using hk
    simp [placed, swapped, hin]

/-- What a whole bank leaves behind, for one that writes all of an array. -/
theorem bankProgram_buffers (hbank : bank ≤ 15) (hw : 1 ≤ data.length)
    (hw' : data.length ≤ BANK_SIZE_W)
    (hrun : Session.bankProgram ⟨[], answers⟩ bank data.length data 0 = .ok s') :
    ∃ bs, buffersOf s'.written = some bs ∧
      bs.flatMap Buffer.words = data.mapIdx (fun k w => (bank * 0x80000 + k, bitSwap w)) ∧
      ∀ b ∈ bs, b.Whole := by
  obtain ⟨bs, hreceived, hwords, hwhole⟩ :=
    Session.bankProgram_hands hw hw' (Nat.lt_succ_of_le hbank) hrun [] rfl
  refine ⟨bs, hreceived.buffersOf, ?_, hwhole⟩
  rw [hwords, placed_mapIdx]

/-- **Each word once**: whatever the flash answers, a bank that is programmed to the end has got its
words in order and in whole buffers; and the end comes with a flash that works. -/
theorem bankProgram_covers (hbank : bank ≤ 15) (hw : 1 ≤ data.length)
    (hw' : data.length ≤ BANK_SIZE_W) (answers : List UInt16) :
    (∀ s', Session.bankProgram ⟨[], answers⟩ bank data.length data 0 = .ok s' →
      ∃ bs, buffersOf s'.written = some bs ∧
        bs.flatMap Buffer.words = data.mapIdx (fun k w => (bank * 0x80000 + k, bitSwap w)) ∧
        ∀ b ∈ bs, b.Whole) ∧
    (Working (2 * data.length) answers →
      ∃ s', Session.bankProgram ⟨[], answers⟩ bank data.length data 0 = .ok s') := by
  refine ⟨fun s' => bankProgram_buffers hbank hw hw', fun hworking => ?_⟩
  obtain ⟨s', hrun, -⟩ := @Session.bankProgram_returns 0 0 bank data.length data ⟨[], answers⟩ hw hw'
    (Nat.lt_succ_of_le hbank) (Nat.zero_add _).le (by rwa [Nat.zero_add])
  exact ⟨s', hrun⟩

/-- The last bank, two buffers of it, and a flash that is busy at first. -/
theorem bankProgram_covers_two :
    ∃ s', Session.bankProgram ⟨[], 0x0 :: List.replicate 66 0x80⟩ 15
        ((List.range 33).map UInt16.ofNat).length ((List.range 33).map UInt16.ofNat) 0 = .ok s' ∧
      ∃ bs, buffersOf s'.written = some bs ∧
        bs.flatMap Buffer.words = ((List.range 33).map UInt16.ofNat).mapIdx
          (fun k w => (15 * 0x80000 + k, bitSwap w)) ∧ ∀ b ∈ bs, b.Whole := by
  obtain ⟨hcovers, hreturns⟩ := @bankProgram_covers 15 ((List.range 33).map UInt16.ofNat) (by decide)
    (by decide) (by decide) (0x0 :: List.replicate 66 0x80)
  obtain ⟨s', hrun⟩ := hreturns ((working_replicate 66).busy rfl)
  exact ⟨s', hrun, hcovers s' hrun⟩

/-- What the ideal chip holds in the end is what it was handed. -/
theorem bankProgram_stores {c : Chip} (h : c.Ready) (hbank : bank ≤ 15) (hw : 1 ≤ data.length)
    (hw' : data.length ≤ BANK_SIZE_W)
    (hrun : Session.bankProgram ⟨[], answers⟩ bank data.length data 0 = .ok s') :
    ∃ c' bs, bankProgram c bank data.length data 0 = .ok c' ∧ c'.Ready ∧
      buffersOf s'.written = some bs ∧ c'.cells = store c.cells (bs.flatMap Buffer.words) := by
  obtain ⟨c', hchip, hready, hcells⟩ := bankProgram_spec h (Nat.lt_succ_of_le hbank) hw hw'
    (Nat.zero_add data.length).le
  obtain ⟨bs, hbuffers, hwords, -⟩ := bankProgram_buffers hbank hw hw' hrun
  refine ⟨c', bs, hchip, hready, hbuffers, ?_⟩
  rw [hcells, hwords, ← placed_mapIdx, ← List.range_eq_range', ← store_range]
  rfl

end Bank

end NacCard.Flash
