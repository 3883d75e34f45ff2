import NacCard.Flash.Chip

/-!
# What the commands do to the chip

Every command of the library, sent to an ideal chip that expects one, comes to its end,
leaves the chip expecting a command, and overwrites one stretch of words:

* `bufferProgram_spec`, `blockProgram_spec`, `bankProgram_spec` — the words of the array
  with their bits swapped;
* `blockErase_spec`, `bankErase_spec` — `0xFFFF`;
* `blockUnlock_spec`, `bankUnlock_spec` — nothing;
* `setNum_spec`, `readNum_spec` — a serial number goes into its block, and comes back
  (`joinWords_serial`).
-/

namespace NacCard.Flash

open NacCard.Base

variable {c : Chip} {addr bank block : Nat} {data : UInt16} {mem : List UInt16}

/-! ## Bus cycles -/

theorem flashWrite_of_le (h : addr ≤ 0x7fffff) : flashWrite c addr data = c.write addr data :=
  if_neg h.not_gt

theorem flashRead_of_le (h : addr ≤ 0x7fffff) : flashRead c addr = .ok (c.read addr) :=
  if_neg h.not_gt

theorem Chip.Ready.write (h : c.Ready) : c.write addr data = c.command addr data := by
  unfold Chip.write
  rw [h]

/-- A bank in array mode answers its words. -/
theorem Chip.read_array {start : Nat} (h : bankOf addr = bankOf start) :
    (c.setMode start .array).read addr = c.cells addr := by
  unfold Chip.read
  rw [h, Chip.setMode]
  dsimp only
  rw [Function.update_self]

/-- A bank in identifier mode answers that no block is locked. -/
theorem Chip.read_id {start : Nat} (h : bankOf addr = bankOf start) :
    (c.setMode start .id).read addr = 0 := by
  unfold Chip.read
  rw [h, Chip.setMode]
  dsimp only
  rw [Function.update_self]

/-- The status register of a chip that reports it. -/
theorem pollStatus_eq (h : addr ≤ 0x7fffff) (hmode : c.mode (bankOf addr) = .status) :
    pollStatus c addr = .ok 0x80 := by
  have hread : c.read addr = 0x80 := by rw [Chip.read, hmode]
  rw [pollStatus, flashRead_of_le h, hread]
  rfl

theorem checkProgram_ok : checkProgram 0x80 c = .ok c := rfl

theorem bankOf_block (hblock : block < 8) : bankOf (bank * 0x80000 + block * 0x10000) = bank := by
  unfold bankOf BANK_SIZE_W
  omega

theorem bankOf_start : bankOf (bank * 0x80000) = bank := by
  unfold bankOf BANK_SIZE_W
  omega

/-! ## Commands without an effect on the words -/

theorem setConfigRegister_eq (h : c.Ready) : setConfigRegister c data = c := by
  have hdata := data.toNat_lt
  rw [setConfigRegister, flashWrite_of_le (by omega), flashWrite_of_le (by omega), h.write]
  cases c
  cases h
  rfl

theorem clearStatsRegs_eq (h : c.Ready) : clearStatsRegs c = c := by
  rw [clearStatsRegs, flashWrite_of_le (by decide), h.write]
  rfl

theorem blockUnlock_spec (h : c.Ready) (hbank : bank < 16) (hblock : block < 8) :
    ∃ c', blockUnlock c bank block = .ok c' ∧ c'.Ready ∧ c'.cells = c.cells := by
  refine ⟨c.setMode (bank * 0x80000) .id, ?_, h, rfl⟩
  have hunlocked : (c.setMode (bank * 0x80000) .id).read (bank * 0x80000 + block * 0x10000 + 2) = 0 := by
    apply Chip.read_id
    unfold bankOf BANK_SIZE_W
    omega
  have hmode : ((c.write (bank * 0x80000) 0x60).write (bank * 0x80000 + block * 0x10000) 0xd0).write
      (bank * 0x80000) 0x90 = c.setMode (bank * 0x80000) .id := by
    rw [h.write]
    cases c
    cases h
    rfl
  rw [blockUnlock, flashWrite_of_le (by omega), flashWrite_of_le (by omega),
    flashWrite_of_le (by omega), hmode, flashRead_of_le (by omega), hunlocked]
  rfl

theorem bankUnlock_spec (h : c.Ready) (hbank : bank < 16) :
    ∃ c', bankUnlock c bank = .ok c' ∧ c'.Ready ∧ c'.cells = c.cells := by
  refine foldlM_range (fun _ (c' : Chip) => c'.Ready ∧ c'.cells = c.cells) ?_ ⟨h, rfl⟩
  rintro i s hi ⟨hready, hcells⟩
  obtain ⟨s', hrun, hready', hcells'⟩ := blockUnlock_spec hready hbank hi
  exact ⟨s', hrun, hready', hcells'.trans hcells⟩

/-! ## Erasing -/

theorem blockErase_spec (h : c.Ready) (hbank : bank < 16) (hblock : block < 8) :
    ∃ c', blockErase c bank block = .ok c' ∧ c'.Ready ∧
      c'.cells = fill (bank * 0x80000 + block * 0x10000) 0x10000 (fun _ => 0xffff) c.cells := by
  have hstart : (bank * 0x80000 + block * 0x10000) / BLOCK_SIZE_W * BLOCK_SIZE_W =
      bank * 0x80000 + block * 0x10000 := by
    unfold BLOCK_SIZE_W
    omega
  have hcycles : (c.write (bank * 0x80000) 0x20).write (bank * 0x80000 + block * 0x10000) 0xd0 =
      { c.setMode (bank * 0x80000 + block * 0x10000) .status with
        pending := .none
        cells := fill (bank * 0x80000 + block * 0x10000) 0x10000 (fun _ => 0xffff) c.cells } := by
    rw [h.write]
    show { c.setMode (bank * 0x80000 + block * 0x10000) .status with
      pending := .none
      cells := fill ((bank * 0x80000 + block * 0x10000) / BLOCK_SIZE_W * BLOCK_SIZE_W) 0x10000
        (fun _ => 0xffff) c.cells } = _
    rw [hstart]
  rw [blockErase, flashWrite_of_le (by omega), flashWrite_of_le (by omega), hcycles,
    pollStatus_eq (by omega)]
  · exact ⟨_, rfl, rfl, rfl⟩
  · rw [bankOf_start, Chip.setMode, bankOf_block hblock]
    exact Function.update_self ..

theorem bankErase_spec (h : c.Ready) (hbank : bank < 16) :
    ∃ c', bankErase c bank = .ok c' ∧ c'.Ready ∧
      c'.cells = fill (bank * BANK_SIZE_W) BANK_SIZE_W (fun _ => 0xffff) c.cells :=
  fill_loop (f := fun _ => 0xffff) Chip.cells Chip.Ready
    (fun _ _ hi hready => blockErase_spec hready hbank hi) h

/-! ## Programming -/

theorem wordProgram_spec (h : c.Ready) (haddr : addr ≤ 0x7fffff) :
    ∃ c', wordProgram c addr data = .ok c' ∧ c'.Ready ∧
      c'.cells = Function.update c.cells addr data := by
  have hcycles : (c.write addr 0x40).write addr data =
      { c.setMode addr .status with
        pending := .none
        cells := Function.update c.cells addr data } := by
    rw [h.write]
    rfl
  rw [wordProgram, flashWrite_of_le haddr, flashWrite_of_le haddr, hcycles, pollStatus_eq haddr]
  · exact ⟨_, rfl, rfl, rfl⟩
  · exact Function.update_self ..

/-- Words sent one after the other are a stretch. -/
theorem store_range (cells f : Nat → UInt16) (start n : Nat) :
    store cells ((List.range n).map fun j => (start + j, f j)) = fill start n f cells := by
  induction n with
  | zero => exact (fill_zero start f cells).symm
  | succ n ih =>
      rw [List.range_succ, List.map_append, store, List.foldl_append]
      show Function.update (store cells _) (start + n) (f n) = _
      rw [ih, fill_snoc]

/-- What is programmed for word `p + j` of an array. -/
def swapped (mem : List UInt16) (p j : Nat) : UInt16 := bitSwap (mem.getD (p + j) 0)

theorem swapped_add (mem : List UInt16) (p i : Nat) :
    swapped mem (p + i) = fun j => swapped mem p (i + j) := by
  funext j
  rw [swapped, swapped, Nat.add_assoc]

theorem readWord_eq {p : Nat} (h : p < mem.length) : readWord mem p = .ok (mem.getD p 0) := by
  rw [readWord, List.getElem?_eq_getElem h, List.getD_eq_getElem?_getD, List.getElem?_eq_getElem h,
    Option.getD_some]

theorem bufferProgram_spec {startAddr n p : Nat} (h : c.Ready) (hn : n ≤ 31)
    (haddr : startAddr + n ≤ 0x7fffff) (hmem : p + n < mem.length) :
    ∃ c', bufferProgram c startAddr n mem p = .ok c' ∧ c'.Ready ∧
      c'.cells = fill startAddr (n + 1) (swapped mem p) c.cells := by
  have hcount : (UInt16.ofNat n).toNat = n := by
    rw [UInt16.toNat_ofNat']
    omega
  have hbuffer : c.write startAddr 0xe8 =
      { c.setMode startAddr .status with pending := .count } := by
    rw [h.write]
    rfl
  have hload : ({ c.setMode startAddr .status with pending := .count } : Chip).write startAddr
      (UInt16.ofNat n) = { c.setMode startAddr .status with pending := .load (n + 1) [] } := by
    unfold Chip.write
    dsimp only
    rw [hcount]
  -- the loop that sends the words
  obtain ⟨c1, hloop, hpending, hcells⟩ := foldlM_range
    (f := fun (c : Chip) i => do
      let w ← readWord mem (p + i)
      .ok (flashWrite c (startAddr + i) (bitSwap w)))
    (fun i (c' : Chip) => c'.pending = .load (n + 1 - i)
        ((List.range i).map fun j => (startAddr + j, swapped mem p j)) ∧ c'.cells = c.cells)
    (n := n + 1) (s := { c.setMode startAddr .status with pending := .load (n + 1) [] })
    (by
      rintro i s hi ⟨hpending, hcells⟩
      refine ⟨s.write (startAddr + i) (swapped mem p i), ?_, ?_⟩
      · rw [readWord_eq (by omega)]
        show Except.ok (flashWrite s (startAddr + i) (swapped mem p i)) = _
        rw [flashWrite_of_le (by omega)]
      · obtain ⟨m, hm⟩ : ∃ m, n + 1 - i = m + 1 := ⟨n - i, by omega⟩
        have hm' : n + 1 - (i + 1) = m := by omega
        unfold Chip.write
        rw [hpending, hm, hm', List.range_succ, List.map_append]
        exact ⟨rfl, hcells⟩)
    ⟨rfl, rfl⟩
  have hconfirm : c1.write startAddr 0xd0 =
      { c1.setMode startAddr .status with
        pending := .none
        cells := fill startAddr (n + 1) (swapped mem p) c.cells } := by
    rw [Nat.sub_self] at hpending
    unfold Chip.write
    rw [hpending]
    show ({ c1.setMode startAddr .status with
      pending := .none
      cells := store c1.cells _ } : Chip) = _
    rw [store_range, hcells]
  rw [bufferProgram, if_neg (by omega), flashWrite_of_le (by omega), hbuffer]
  dsimp only
  rw [pollStatus_eq (by omega) (Function.update_self _ _ _), Int.toNat_natCast,
    flashWrite_of_le (by omega), hload]
  dsimp only [bind, Except.bind] at hloop ⊢
  rw [hloop]
  dsimp only
  rw [flashWrite_of_le (by omega), hconfirm, pollStatus_eq (by omega) (Function.update_self _ _ _)]
  exact ⟨_, checkProgram_ok, rfl, rfl⟩

theorem blockProgram_spec {w p : Nat} (h : c.Ready) (hw : 0 < w)
    (haddr : bank * 0x80000 + block * 0x10000 + w ≤ 0x800000) (hmem : p + w ≤ mem.length) :
    ∃ c', blockProgram c bank block w mem p = .ok c' ∧ c'.Ready ∧
      c'.cells = fill (bank * 0x80000 + block * 0x10000) w (swapped mem p) c.cells := by
  obtain ⟨hcount, hlast, hlast', hsum⟩ := chunks_eq (k := 32) (by decide) hw
  rw [blockProgram, if_neg hw.ne']
  refine fill_chunks Chip.cells Chip.Ready (by decide) hw ?_ ?_ h
  · intro i s hi hready
    have hpiece := chunk_le (by decide) hw hi
    have hend : bank * 0x80000 + block * 0x10000 + i * 32 + 31 < 0x800000 := by omega
    have hmem' : p + i * 32 + 31 < mem.length := by omega
    have hturn := bufferProgram_spec hready le_rfl (Nat.le_of_lt_succ hend) hmem'
    rwa [swapped_add] at hturn
  · intro s hready
    obtain ⟨n, hn⟩ := Nat.exists_eq_succ_of_ne_zero hlast.ne'
    rw [hn] at hlast' hsum ⊢
    have hend : bank * 0x80000 + block * 0x10000 + (chunkCount 32 w - 1) * 32 + n < 0x800000 := by
      omega
    have hmem' : p + (chunkCount 32 w - 1) * 32 + n < mem.length := by omega
    have hturn := bufferProgram_spec hready (Nat.le_of_lt_succ hlast') (Nat.le_of_lt_succ hend) hmem'
    rw [swapped_add] at hturn
    rw [Nat.cast_succ, add_sub_cancel_right]
    exact hturn

/-- A bank has so few blocks that their number and the last one's fit in 8 bits. -/
theorem bank_blocks {w : Nat} (h : w ≤ BANK_SIZE_W) :
    chunkCount BLOCK_SIZE_W w ≤ 8 ∧
      chunkCount BLOCK_SIZE_W w % 256 = chunkCount BLOCK_SIZE_W w ∧
      (0 < chunkCount BLOCK_SIZE_W w →
        (chunkCount BLOCK_SIZE_W w + 255) % 256 = chunkCount BLOCK_SIZE_W w - 1) := by
  have hblocks : chunkCount BLOCK_SIZE_W w ≤ 8 := chunkCount_le (by decide) h
  refine ⟨hblocks, ?_, fun hpos => ?_⟩ <;> omega

theorem bankProgram_spec {w p : Nat} (h : c.Ready) (hbank : bank < 16) (hw : 0 < w)
    (hw' : w ≤ BANK_SIZE_W) (hmem : p + w ≤ mem.length) :
    ∃ c', bankProgram c bank w mem p = .ok c' ∧ c'.Ready ∧
      c'.cells = fill (bank * BANK_SIZE_W) w (swapped mem p) c.cells := by
  obtain ⟨hcount, hlast, hlast', hsum⟩ := chunks_eq (k := BLOCK_SIZE_W) (by decide) hw
  obtain ⟨hblocks, hneed, hlastBlock⟩ := bank_blocks hw'
  rw [bankProgram, if_neg hw.ne']
  dsimp only
  rw [hneed, hlastBlock hcount]
  unfold BLOCK_SIZE_W BANK_SIZE_W at *
  refine fill_chunks Chip.cells Chip.Ready (by decide) hw ?_ ?_ h
  · intro i s hi hready
    have hpiece := chunk_le (by decide) hw hi
    have hturn := @blockProgram_spec s bank i mem (64 * 1024) (p + i * (64 * 1024)) hready
      (by decide) (by omega) (by omega)
    rw [swapped_add] at hturn
    rw [Nat.mod_eq_of_lt (by omega)]
    exact hturn
  · intro s hready
    have hturn := @blockProgram_spec s bank (chunkCount (64 * 1024) w - 1) mem (lastChunk (64 * 1024) w)
      (p + (chunkCount (64 * 1024) w - 1) * (64 * 1024)) hready hlast (by omega) (by omega)
    rwa [swapped_add] at hturn

/-! ## Serial numbers -/

/-- The words of a block that holds a serial number. -/
def serial (sn : UInt64) : Nat → UInt16
  | 0 => ((sn &&& 0xffff000000000000) >>> 48).toUInt16
  | 1 => ((sn &&& 0x0000ffff00000000) >>> 32).toUInt16
  | 2 => ((sn &&& 0x00000000ffff0000) >>> 16).toUInt16
  | 3 => (sn &&& 0x000000000000ffff).toUInt16
  | _ => 0xffff

/-- The four words programmed into an erased block. -/
theorem serial_erased (sn : UInt64) (start : Nat) {n : Nat} (hn : 4 ≤ n) (cells : Nat → UInt16) :
    Function.update (Function.update (Function.update (Function.update
      (fill start n (fun _ => 0xffff) cells) start (serial sn 0)) (start + 1) (serial sn 1))
      (start + 2) (serial sn 2)) (start + 3) (serial sn 3) =
    fill start n (serial sn) cells := by
  funext a
  by_cases hword : start ≤ a ∧ a < start + 4
  · rw [fill_of_mem hword.1 (by omega)]
    obtain rfl | rfl | rfl | rfl : a = start ∨ a = start + 1 ∨ a = start + 2 ∨ a = start + 3 := by
      omega
    all_goals simp [Function.update_of_ne, Function.update_self]
  · rw [Function.update_of_ne (by omega), Function.update_of_ne (by omega),
      Function.update_of_ne (by omega), Function.update_of_ne (by omega)]
    by_cases hin : start ≤ a ∧ a < start + n
    · obtain ⟨j, hj⟩ : ∃ j, a - start = j + 4 := ⟨a - start - 4, by omega⟩
      rw [fill_of_mem hin.1 hin.2, fill_of_mem hin.1 hin.2, hj]
      rfl
    · rw [fill, fill, if_neg hin, if_neg hin]

theorem setNum_spec (h : c.Ready) (hblock : block < 8) (sn : UInt64) :
    ∃ c', setNum block c sn = .ok c' ∧ c'.Ready ∧
      c'.cells = fill (14 * BANK_SIZE_W + block * 0x10000) 0x10000 (serial sn) c.cells := by
  obtain ⟨c1, h1, hr1, hc1⟩ := blockUnlock_spec h (by decide : 14 < 16) hblock
  obtain ⟨c2, h2, hr2, hc2⟩ := blockErase_spec hr1 (by decide : 14 < 16) hblock
  have hend : 14 * BANK_SIZE_W + block * 0x10000 + 3 < 0x800000 := by
    unfold BANK_SIZE_W
    omega
  have hbank : 14 * 0x80000 = 14 * BANK_SIZE_W := rfl
  rw [hbank] at hc2
  unfold setNum
  generalize 14 * BANK_SIZE_W + block * 0x10000 = start at hc2 hend ⊢
  obtain ⟨c3, h3, hr3, hc3⟩ := @wordProgram_spec _ start
    ((sn &&& 0xffff000000000000) >>> 48).toUInt16 hr2 (by omega)
  obtain ⟨c4, h4, hr4, hc4⟩ := @wordProgram_spec _ (start + 1)
    ((sn &&& 0x0000ffff00000000) >>> 32).toUInt16 hr3 (by omega)
  obtain ⟨c5, h5, hr5, hc5⟩ := @wordProgram_spec _ (start + 2)
    ((sn &&& 0x00000000ffff0000) >>> 16).toUInt16 hr4 (by omega)
  obtain ⟨c6, h6, hr6, hc6⟩ := @wordProgram_spec _ (start + 3)
    (sn &&& 0x000000000000ffff).toUInt16 hr5 (Nat.le_of_lt_succ hend)
  refine ⟨c6, ?_, hr6, ?_⟩
  · rw [setConfigRegister_eq h, clearStatsRegs_eq h]
    dsimp only
    rw [bind_of_ok h1, bind_of_ok h2, bind_of_ok h3, bind_of_ok h4, bind_of_ok h5, h6]
  · rw [hc6, hc5, hc4, hc3, hc2, hc1]
    exact serial_erased sn start (by decide) _

/-- The number that four words of flash hold. -/
def joinWords (w : Nat → UInt16) : UInt64 :=
  (w 0).toUInt64 <<< 48 ||| (w 1).toUInt64 <<< 32 ||| (w 2).toUInt64 <<< 16 ||| (w 3).toUInt64

theorem readNum_spec (h : c.Ready) (hblock : block < 8) :
    ∃ c', readNum block c =
        .ok (joinWords fun j => c.cells (14 * BANK_SIZE_W + block * 0x10000 + j), c') ∧
      c'.Ready ∧ c'.cells = c.cells := by
  refine ⟨c.setMode (14 * BANK_SIZE_W) .array, ?_, h, rfl⟩
  have hread : ∀ j, j < 4 → flashRead (c.setMode (14 * BANK_SIZE_W) .array)
      (14 * BANK_SIZE_W + block * 0x10000 + j) =
        .ok (c.cells (14 * BANK_SIZE_W + block * 0x10000 + j)) := by
    intro j hj
    have hend : 14 * BANK_SIZE_W + block * 0x10000 + j < 0x800000 := by
      unfold BANK_SIZE_W
      omega
    have hbankOf : bankOf (14 * BANK_SIZE_W + block * 0x10000 + j) = bankOf (14 * BANK_SIZE_W) := by
      unfold bankOf BANK_SIZE_W
      omega
    rw [flashRead_of_le (Nat.le_of_lt_succ hend), Chip.read_array hbankOf]
  have hmode : flashWrite c (14 * BANK_SIZE_W) 0xff = c.setMode (14 * BANK_SIZE_W) .array := by
    rw [flashWrite_of_le (by decide), h.write]
    rfl
  unfold readNum
  rw [setConfigRegister_eq h, clearStatsRegs_eq h]
  dsimp only
  generalize 14 * BANK_SIZE_W + block * 0x10000 = start at hread ⊢
  have hfirst := hread 0 (by decide)
  have hzero : start + 0 = start := Nat.add_zero start
  rw [hzero] at hfirst
  rw [hmode, bind_of_ok hfirst, bind_of_ok (hread 1 (by decide)), bind_of_ok (hread 2 (by decide)),
    bind_of_ok (hread 3 (by decide))]
  rw [joinWords, hzero]

/-- Bit `i` of a word that was cut out of a number and put back. -/
theorem wordBit (sn m s : UInt64) {k i : Nat} (hs : (s.toBitVec % 64).toNat = k) (hi : i < 64)
    (hm : m.toBitVec.getLsbD i = decide (k ≤ i ∧ i < k + 16)) :
    (((sn &&& m) >>> s).toUInt16.toUInt64 <<< s).toBitVec.getLsbD i =
      (decide (k ≤ i ∧ i < k + 16) && sn.toBitVec.getLsbD i) := by
  simp only [UInt64.toBitVec_shiftLeft, UInt64.toBitVec_shiftRight, UInt64.toBitVec_and,
    UInt16.toBitVec_toUInt64, UInt64.toBitVec_toUInt16, BitVec.shiftLeft_eq', BitVec.ushiftRight_eq',
    hs, BitVec.getLsbD_shiftLeft, BitVec.getLsbD_setWidth, BitVec.getLsbD_ushiftRight,
    BitVec.getLsbD_and]
  by_cases h : k ≤ i ∧ i < k + 16
  · have hback : k + (i - k) = i := by omega
    have hin : i - k < 16 := by omega
    have hin' : i - k < 64 := by omega
    simp [hback, hm, h, hi, hin, hin', h.1.not_gt]
  · by_cases hlt : i < k
    · simp [hlt, h]
    · have hout : ¬i - k < 16 := by omega
      simp [hout, h]

/-- Four words are read, and no more. -/
theorem joinWords_congr {w w' : Nat → UInt16} (h : ∀ j < 4, w j = w' j) :
    joinWords w = joinWords w' := by
  rw [joinWords, joinWords, h 0 (by decide), h 1 (by decide), h 2 (by decide), h 3 (by decide)]

/-- **Joining undoes splitting.** -/
theorem joinWords_serial (sn : UInt64) : joinWords (serial sn) = sn := by
  have m0 : ∀ i : Fin 64, (0xffff000000000000 : UInt64).toBitVec.getLsbD i =
      decide (48 ≤ i.val ∧ i.val < 48 + 16) := by decide
  have m1 : ∀ i : Fin 64, (0x0000ffff00000000 : UInt64).toBitVec.getLsbD i =
      decide (32 ≤ i.val ∧ i.val < 32 + 16) := by decide
  have m2 : ∀ i : Fin 64, (0x00000000ffff0000 : UInt64).toBitVec.getLsbD i =
      decide (16 ≤ i.val ∧ i.val < 16 + 16) := by decide
  have m3 : ∀ i : Fin 64, (0x000000000000ffff : UInt64).toBitVec.getLsbD i =
      decide (0 ≤ i.val ∧ i.val < 0 + 16) := by decide
  -- the last word, written as the others
  have hlast : (serial sn 3).toUInt64 =
      ((sn &&& 0x000000000000ffff) >>> 0).toUInt16.toUInt64 <<< 0 := by simp [serial]
  unfold joinWords
  rw [hlast]
  simp only [serial]
  apply UInt64.eq_of_toBitVec_eq
  apply BitVec.eq_of_getLsbD_eq
  intro i hi
  rw [UInt64.toBitVec_or, UInt64.toBitVec_or, UInt64.toBitVec_or, BitVec.getLsbD_or,
    BitVec.getLsbD_or, BitVec.getLsbD_or, wordBit sn _ _ (by decide) hi (m0 ⟨i, hi⟩),
    wordBit sn _ _ (by decide) hi (m1 ⟨i, hi⟩), wordBit sn _ _ (by decide) hi (m2 ⟨i, hi⟩),
    wordBit sn _ _ (by decide) hi (m3 ⟨i, hi⟩)]
  -- every bit is in one of the four words
  have hword : 48 ≤ i ∧ i < 48 + 16 ∨ 32 ≤ i ∧ i < 32 + 16 ∨ 16 ≤ i ∧ i < 16 + 16 ∨
      0 ≤ i ∧ i < 0 + 16 := by omega
  cases sn.toBitVec.getLsbD i with
  | false => simp
  | true => simpa [or_assoc] using hword

end NacCard.Flash
