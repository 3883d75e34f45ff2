import NacCard.Base.Bytes
import NacCard.Flash.Effects

/-!
# In-system programming

`do_isp` writes the image in a file to the flash, the last eight bytes to the logic serial
number, and compares what it reads back with the file.

* `ispPlan`, `ispStart` — the banks and words it works out from the size, and how far it
  goes without them.
* `ispProgram`, `ispReadBack`, `compareFileOrder`, `doIsp` — the run, up to the
  reconfiguration of the card.
* `ispProgram_spec`, `ispReadBack_spec` — what the two halves do on an ideal chip.
* `doIsp_programs` — a file that fits is in the flash afterwards, and the comparison
  succeeds.
* `doIsp_guarded_iff` — the run keeps to its file and to its part of the flash exactly
  when it is refused for its parity or its mapping, or its payload fits.
-/

namespace NacCard.Flash

open NacCard.Base

/-! ## The program -/

/-- What `do_isp` computes from the size of the file. -/
structure Plan where
  fileSizeW : Nat
  needBank : Nat
  lastBank : Nat
  lastWords : Nat
  deriving Repr, DecidableEq

/-- Sizes are 32 bits wide, numbers of banks 8. -/
def ispPlan (fileSize : Nat) : Plan :=
  let fileSizeW := (fileSize + 4294967288) % 4294967296 / 2
  let needBank := chunkCount BANK_SIZE_W fileSizeW % 256
  { fileSizeW := fileSizeW
    needBank := needBank
    lastBank := (needBank + 255) % 256
    lastWords := lastChunk BANK_SIZE_W fileSizeW }

/-- Up to the first command: `none` is the return for an odd size.  No empty file can be
mapped, and no other one if `mmapOk` does not hold. -/
def ispStart (size : Nat) (mmapOk : Bool) : Except Stop (Option Plan) :=
  let fileSize := size % 4294967296
  if fileSize % 2 ≠ 0 then .ok none
  else if fileSize = 0 ∨ mmapOk = false then .error (.exit 1)
  else .ok (some (ispPlan fileSize))

/-- `sn_logic = *(uint64_t *)pw` -/
def readSn (mapped : List UInt8) (pw : Nat) : Except Stop UInt64 :=
  if 2 * pw + 8 ≤ mapped.length then
    .ok (UInt64.ofNat (leNat ((mapped.drop (2 * pw)).take 8)))
  else .error .pastEnd

variable {σ : Type} [Bus σ]

/-- From `/* set configuration register command */` to the serial number. -/
def ispProgram (p : Plan) (mapped : List UInt8) (c : σ) : Except Stop σ := do
  let c := clearStatsRegs (setConfigRegister c 0xbddf)
  let c ← (List.range p.needBank).foldlM bankUnlock c
  let c ← (List.range p.needBank).foldlM bankErase c
  let c ← (List.range (p.needBank - 1)).foldlM
    (fun c i => bankProgram c i BANK_SIZE_W (words mapped) (i * BANK_SIZE_W)) c
  let c ← bankProgram c p.lastBank p.lastWords (words mapped) ((p.needBank - 1) * BANK_SIZE_W)
  let sn ← readSn mapped p.fileSizeW
  let c ← setLogicNum c sn
  let (_, c) ← readLogicNum c
  .ok c

/-- `n` words from `start` on, read in array mode and written to a file. -/
def readOut (c : σ) (start n : Nat) (fp : List UInt8) : Except Stop (List UInt8 × σ) := do
  let c := flashWrite c start 0xff
  let fp ← (List.range n).foldlM (fun fp i => do
    let result ← flashRead c (start + i)
    .ok (fp ++ wordBytes result)) fp
  .ok (fp, c)

/-- The file `read_flash`. -/
def ispReadBack (p : Plan) (c : σ) : Except Stop (List UInt8 × σ) := do
  let (fp, c) ← (List.range (p.needBank - 1)).foldlM
    (fun (fp, c) j => readOut c (j * BANK_SIZE_W) BANK_SIZE_W fp) (([] : List UInt8), c)
  -- the loop ends at `j*BANK_SIZE_W + last_words`, with `j` as the loop before left it
  let (fp, c) ← readOut c (p.lastBank * BANK_SIZE_W)
    ((p.needBank - 1) * BANK_SIZE_W + p.lastWords - p.lastBank * BANK_SIZE_W) fp
  let (sn, c) ← readLogicNum c
  .ok (fp ++ leBytes 8 sn.toNat, c)

/-- The loop of `compare_file_order` over the words of the two files; `pos` is `ftell(fp1)`. -/
def compareWords (fileSize : Int) : Int → List UInt16 → List UInt16 → Int
  | pos, tempt1 :: rest1, tempt2 :: rest2 =>
      let tempt1 := if pos + 2 ≤ fileSize - 8 then bitSwap tempt1 else tempt1
      if tempt1 ≠ tempt2 then -1
      else if pos + 2 < fileSize then compareWords fileSize (pos + 2) rest1 rest2
      else 0
  | _, _, _ => 0

/-- `compare_file_order`: sizes that differ or are odd are refused, words compared one by one. -/
def compareFileOrder (file1 file2 : List UInt8) : Int :=
  if file1.length ≠ file2.length then -1
  else if file1.length % 2 ≠ 0 then -1
  else compareWords file1.length 0 (words file1) (words file2)

/-- How `do_isp` comes to its end, or to its reconfiguration of the card. -/
inductive IspEnd (σ : Type) where
  | rejected
  | compared (result : Int) (c : σ)

/-- `do_isp`: the checks, the programming, and the comparison with what is read back. -/
def doIsp (c : σ) (file : List UInt8) (mmapOk : Bool) : Except Stop (IspEnd σ) := do
  match ← ispStart file.length mmapOk with
  | none => .ok .rejected
  | some p =>
      let c ← ispProgram p (file.take (file.length % 4294967296)) c
      let (readFlash, c) ← ispReadBack p c
      .ok (.compared (compareFileOrder file readFlash) c)

/-! ## Programming -/

theorem ispPlan_eq {w : Nat} (hw : w ≤ 16 * BANK_SIZE_W) :
    ispPlan (2 * w + 8) =
      { fileSizeW := w
        needBank := chunkCount BANK_SIZE_W w
        lastBank := (chunkCount BANK_SIZE_W w + 255) % 256
        lastWords := lastChunk BANK_SIZE_W w } := by
  have hbanks : chunkCount BANK_SIZE_W w ≤ 16 := chunkCount_le (by decide) hw
  have hsize : (2 * w + 8 + 4294967288) % 4294967296 / 2 = w := by
    unfold BANK_SIZE_W at hw
    omega
  rw [ispPlan, hsize, Nat.mod_eq_of_lt (by omega : chunkCount BANK_SIZE_W w < 256)]

/-- The flash after the image and the serial number have been programmed. -/
def ispCells (mem : List UInt16) (w : Nat) (sn : UInt64) (cells : Nat → UInt16) : Nat → UInt16 :=
  fill (14 * BANK_SIZE_W) BLOCK_SIZE_W (serial sn)
    (fill 0 w (swapped mem 0)
      (fill 0 (chunkCount BANK_SIZE_W w * BANK_SIZE_W) (fun _ => 0xffff) cells))

variable {c : Chip} {mapped : List UInt8} {w : Nat}

theorem unlockBanks_spec (h : c.Ready) {n : Nat} (hn : n ≤ 16) :
    ∃ c', (List.range n).foldlM bankUnlock c = .ok c' ∧ c'.Ready ∧ c'.cells = c.cells := by
  refine foldlM_range (fun _ (c' : Chip) => c'.Ready ∧ c'.cells = c.cells) ?_ ⟨h, rfl⟩
  rintro i s hi ⟨hready, hcells⟩
  obtain ⟨s', hrun, hready', hcells'⟩ := bankUnlock_spec hready (hi.trans_le hn)
  exact ⟨s', hrun, hready', hcells'.trans hcells⟩

theorem eraseBanks_spec (h : c.Ready) {n : Nat} (hn : n ≤ 16) :
    ∃ c', (List.range n).foldlM bankErase c = .ok c' ∧ c'.Ready ∧
      c'.cells = fill 0 (n * BANK_SIZE_W) (fun _ => 0xffff) c.cells := by
  refine fill_loop (f := fun _ => 0xffff) Chip.cells Chip.Ready (fun i s hi hready => ?_) h
  rw [Nat.zero_add]
  exact bankErase_spec hready (hi.trans_le hn)

theorem programBanks_spec (h : c.Ready) (hw : 0 < w) (hw' : w ≤ 16 * BANK_SIZE_W) {mem : List UInt16}
    (hmem : w ≤ mem.length) :
    ∃ c', ((List.range (chunkCount BANK_SIZE_W w - 1)).foldlM
        (fun c i => bankProgram c i BANK_SIZE_W mem (i * BANK_SIZE_W)) c >>= fun c =>
          bankProgram c (chunkCount BANK_SIZE_W w - 1) (lastChunk BANK_SIZE_W w) mem
            ((chunkCount BANK_SIZE_W w - 1) * BANK_SIZE_W)) = .ok c' ∧ c'.Ready ∧
      c'.cells = fill 0 w (swapped mem 0) c.cells := by
  have hpos : 0 < BANK_SIZE_W := by decide
  obtain ⟨hcount, hlast, hlast', hsum⟩ := chunks_eq hpos hw
  have hbanks : chunkCount BANK_SIZE_W w ≤ 16 := chunkCount_le hpos hw'
  have hturn : ∀ p, swapped mem p = fun j => swapped mem 0 (p + j) := by
    intro p
    rw [← swapped_add, Nat.zero_add]
  refine fill_chunks Chip.cells Chip.Ready hpos hw ?_ ?_ h
  · intro i s hi hready
    have hle : (i + 1) * BANK_SIZE_W ≤ (chunkCount BANK_SIZE_W w - 1) * BANK_SIZE_W :=
      Nat.mul_le_mul_right _ hi
    rw [Nat.succ_mul] at hle
    rw [Nat.zero_add, ← hturn]
    exact bankProgram_spec hready (by omega) hpos le_rfl (by omega)
  · intro s hready
    rw [Nat.zero_add, ← hturn]
    exact bankProgram_spec hready (by omega) hlast hlast' (by omega)

theorem readSn_eq (h : 2 * w + 8 = mapped.length) :
    readSn mapped w = .ok (UInt64.ofNat (leNat (mapped.drop (2 * w)))) := by
  have htake : (mapped.drop (2 * w)).take 8 = mapped.drop (2 * w) := by
    rw [List.take_of_length_le]
    rw [List.length_drop]
    omega
  rw [readSn, if_pos h.le, htake]

/-- **The image and its serial number are programmed**, into as many banks as they need. -/
theorem ispProgram_spec (h : c.Ready) (hw : 0 < w) (hw' : w ≤ 16 * BANK_SIZE_W)
    (hsize : 2 * w + 8 = mapped.length) :
    ∃ c', ispProgram (ispPlan mapped.length) mapped c = .ok c' ∧ c'.Ready ∧
      c'.cells =
        ispCells (words mapped) w (UInt64.ofNat (leNat (mapped.drop (2 * w)))) c.cells := by
  have hbanks : chunkCount BANK_SIZE_W w ≤ 16 := chunkCount_le (by decide) hw'
  obtain ⟨hcount, -, -, -⟩ := chunks_eq (by decide : 0 < BANK_SIZE_W) hw
  have hlastBank : (chunkCount BANK_SIZE_W w + 255) % 256 = chunkCount BANK_SIZE_W w - 1 := by
    omega
  have hmem : w ≤ (words mapped).length := by
    rw [length_words]
    omega
  obtain ⟨c1, h1, hr1, hc1⟩ := unlockBanks_spec h hbanks
  obtain ⟨c2, h2, hr2, hc2⟩ := eraseBanks_spec hr1 hbanks
  obtain ⟨c3, h3, hr3, hc3⟩ := programBanks_spec hr2 hw hw' hmem
  obtain ⟨c4, h4, hr4, hc4⟩ := setNum_spec hr3 (by decide : 0 < 8)
    (UInt64.ofNat (leNat (mapped.drop (2 * w))))
  obtain ⟨c5, h5, hr5, hc5⟩ := readNum_spec hr4 (by decide : 0 < 8)
  refine ⟨c5, ?_, hr5, ?_⟩
  · rw [← hsize, ispPlan_eq hw', ispProgram, setConfigRegister_eq h, clearStatsRegs_eq h]
    dsimp only
    rw [hlastBank, bind_of_ok h1, bind_of_ok h2, ← bind_assoc, bind_of_ok h3,
      bind_of_ok (readSn_eq hsize), setLogicNum, bind_of_ok h4, readLogicNum, bind_of_ok h5]
  · rw [hc5, hc4, hc3, hc2, hc1, ispCells, Nat.zero_mul, Nat.add_zero]
    rfl

/-! ## Reading back -/

/-- What `read_flash` holds of the first `n` words of flash. -/
def dumped (cells : Nat → UInt16) (n : Nat) : List UInt8 :=
  ((List.range n).map cells).flatMap wordBytes

theorem dumped_succ (cells : Nat → UInt16) (n : Nat) :
    dumped cells (n + 1) = dumped cells n ++ wordBytes (cells n) := by
  simp [dumped, List.range_succ]

theorem words_dumped (cells : Nat → UInt16) (n : Nat) (rest : List UInt8) :
    words (dumped cells n ++ rest) = (List.range n).map cells ++ words rest :=
  words_flatMap _ _

/-- A stretch of one bank goes behind what has been read before it. -/
theorem readOut_spec (h : c.Ready) {bank n : Nat} (hbank : bank < 16) (hn : n ≤ BANK_SIZE_W) :
    ∃ c', readOut c (bank * BANK_SIZE_W) n (dumped c.cells (bank * BANK_SIZE_W)) =
        .ok (dumped c.cells (bank * BANK_SIZE_W + n), c') ∧ c'.Ready ∧ c'.cells = c.cells := by
  have hmode : flashWrite c (bank * BANK_SIZE_W) 0xff = c.setMode (bank * BANK_SIZE_W) .array := by
    have hend : bank * BANK_SIZE_W < 0x800000 := by
      unfold BANK_SIZE_W
      omega
    rw [flashWrite_of_le (Nat.le_of_lt_succ hend), h.write]
    rfl
  have hread : ∀ i, i < n → flashRead (c.setMode (bank * BANK_SIZE_W) .array)
      (bank * BANK_SIZE_W + i) = .ok (c.cells (bank * BANK_SIZE_W + i)) := by
    intro i hi
    have hend : bank * BANK_SIZE_W + i < 0x800000 := by
      unfold BANK_SIZE_W at hn ⊢
      omega
    have hbankOf : bankOf (bank * BANK_SIZE_W + i) = bankOf (bank * BANK_SIZE_W) := by
      unfold bankOf BANK_SIZE_W at *
      omega
    rw [flashRead_of_le (Nat.le_of_lt_succ hend), Chip.read_array hbankOf]
  obtain ⟨fp, hloop, rfl⟩ := foldlM_range
    (f := fun fp i => do
      let result ← flashRead (c.setMode (bank * BANK_SIZE_W) .array) (bank * BANK_SIZE_W + i)
      .ok (fp ++ wordBytes result))
    (fun i fp => fp = dumped c.cells (bank * BANK_SIZE_W + i)) (n := n)
    (s := dumped c.cells (bank * BANK_SIZE_W))
    (by
      rintro i fp hi rfl
      refine ⟨_, by rw [bind_of_ok (hread i hi)], ?_⟩
      rw [← Nat.add_assoc, dumped_succ])
    (by rw [Nat.add_zero])
  refine ⟨c.setMode (bank * BANK_SIZE_W) .array, ?_, h, rfl⟩
  rw [readOut, hmode, bind_of_ok hloop]

/-- **What is read back** is the flash of the image and the logic serial number. -/
theorem ispReadBack_spec (h : c.Ready) (hw : 0 < w) (hw' : w ≤ 16 * BANK_SIZE_W) :
    ∃ c', ispReadBack (ispPlan (2 * w + 8)) c =
        .ok (dumped c.cells w ++
          leBytes 8 (joinWords fun j => c.cells (14 * BANK_SIZE_W + j)).toNat, c') ∧
      c'.Ready ∧ c'.cells = c.cells := by
  have hpos : 0 < BANK_SIZE_W := by decide
  obtain ⟨hcount, hlast, hlast', hsum⟩ := chunks_eq hpos hw
  have hbanks : chunkCount BANK_SIZE_W w ≤ 16 := chunkCount_le hpos hw'
  have hlastBank : (chunkCount BANK_SIZE_W w + 255) % 256 = chunkCount BANK_SIZE_W w - 1 := by
    omega
  obtain ⟨⟨fp1, c1⟩, h1, hfp1, hr1, hc1⟩ := foldlM_range
    (f := fun ((fp, c) : List UInt8 × Chip) j => readOut c (j * BANK_SIZE_W) BANK_SIZE_W fp)
    (fun j x => x.1 = dumped c.cells (j * BANK_SIZE_W) ∧ x.2.Ready ∧ x.2.cells = c.cells)
    (n := chunkCount BANK_SIZE_W w - 1) (s := ([], c))
    (by
      rintro j ⟨fp, c1⟩ hj ⟨hfp, hr1, hc1⟩
      dsimp only at hfp hr1 hc1 ⊢
      obtain ⟨c2, h2, hr2, hc2⟩ := readOut_spec hr1 (by omega : j < 16) le_rfl
      rw [hc1] at h2 hc2
      refine ⟨_, by rw [hfp, h2], ?_, hr2, hc2⟩
      rw [Nat.succ_mul])
    ⟨by rw [Nat.zero_mul]; rfl, h, rfl⟩
  dsimp only at hfp1 hr1 hc1
  obtain ⟨c2, h2, hr2, hc2⟩ :=
    readOut_spec hr1 (by omega : chunkCount BANK_SIZE_W w - 1 < 16) hlast'
  rw [hc1, hsum] at h2
  obtain ⟨c3, h3, hr3, hc3⟩ := readNum_spec hr2 (by decide : 0 < 8)
  refine ⟨c3, ?_, hr3, by rw [hc3, hc2, hc1]⟩
  rw [ispPlan_eq hw', ispReadBack]
  dsimp only
  rw [hlastBank, Nat.add_sub_cancel_left, bind_of_ok h1]
  dsimp only
  rw [hfp1, bind_of_ok h2]
  dsimp only
  rw [readLogicNum, bind_of_ok h3, hc2, hc1, Nat.zero_mul, Nat.add_zero]

/-! ## Comparing -/

/-- The word that has to come after `pos` bytes where the image has `word`. -/
def expectedWord (fileSize pos : Int) (word : UInt16) : UInt16 :=
  if pos + 2 ≤ fileSize - 8 then bitSwap word else word

theorem compareWords_eq_zero {fileSize pos : Int} {l1 l2 : List UInt16}
    (hlen : l1.length = l2.length) (hsize : pos + 2 * l1.length = fileSize) :
    compareWords fileSize pos l1 l2 = 0 ↔
      ∀ k, k < l1.length → expectedWord fileSize (pos + 2 * k) (l1.getD k 0) = l2.getD k 0 := by
  induction l1 generalizing l2 pos with
  | nil => simp [compareWords]
  | cons tempt1 rest1 ih =>
      obtain _ | ⟨tempt2, rest2⟩ := l2
      · simp at hlen
      rw [List.length_cons, Nat.cast_succ] at hsize
      have hrest := @ih (pos + 2) rest2 (Nat.succ_injective hlen) (by omega)
      have hshift : ∀ k : Nat, pos + 2 * ((k + 1 : Nat) : Int) = pos + 2 + 2 * k := by
        intro k
        omega
      rw [List.length_cons, Nat.forall_lt_succ_left]
      simp only [hshift, List.getD_cons_succ, List.getD_cons_zero, ← hrest]
      rw [Nat.cast_zero, mul_zero, add_zero, compareWords, expectedWord]
      by_cases hword : (if pos + 2 ≤ fileSize - 8 then bitSwap tempt1 else tempt1) = tempt2
      · rw [if_neg (not_not.2 hword)]
        by_cases hmore : pos + 2 < fileSize
        · rw [if_pos hmore, and_iff_right hword]
        · -- nothing is left of either file
          have hnil : rest1 = [] := List.eq_nil_of_length_eq_zero (by omega)
          subst hnil
          simp [hmore, hword, compareWords]
      · simp [hword]

/-- An image that reads back swapped, with its last eight bytes as they are. -/
theorem compareFileOrder_swapped {file tail : List UInt8} {cells : Nat → UInt16} {w : Nat}
    (hfile : file.length = 2 * w + 8) (htail : file.drop (2 * w) = tail)
    (hcells : ∀ k, k < w → cells k = bitSwap ((words file).getD k 0)) :
    compareFileOrder file (dumped cells w ++ tail) = 0 := by
  have hlength : (dumped cells w ++ tail).length = file.length := by
    rw [List.length_append, dumped, length_flatMap_wordBytes, List.length_map, List.length_range,
      ← htail, List.length_drop]
    omega
  have hwords : words (dumped cells w ++ tail) = (List.range w).map cells ++ words tail :=
    words_dumped ..
  rw [compareFileOrder, if_neg (by rw [hlength]; simp), if_neg (by omega),
    compareWords_eq_zero (by rw [length_words, length_words, hlength])
      (by rw [length_words]; omega), hwords]
  intro k hk
  rw [length_words] at hk
  by_cases himage : k < w
  · rw [expectedWord, if_pos (by omega), List.getD_append _ _ _ _ (by simpa using himage),
      ← hcells k himage]
    simp [himage]
  · have hsplit : words file = words (file.take (2 * w)) ++ words tail := by
      rw [← words_append _ (by rw [List.length_take]; omega), ← htail, List.take_append_drop]
    rw [expectedWord, if_neg (by omega), hsplit,
      List.getD_append_right _ _ _ _ (by rw [length_words, List.length_take]; omega),
      List.getD_append_right _ _ _ _ (by simpa using not_lt.1 himage), length_words,
      List.length_take, List.length_map, List.length_range]
    congr 1
    omega

/-! ## The flash afterwards -/

variable {mem : List UInt16} {sn : UInt64} {cells : Nat → UInt16} {a : Nat}

theorem ispCells_image (hw : w ≤ 14 * BANK_SIZE_W) (ha : a < w) :
    ispCells mem w sn cells a = bitSwap (mem.getD a 0) := by
  rw [ispCells, fill_of_lt (ha.trans_le hw), fill_of_mem (Nat.zero_le a) (by omega), swapped,
    Nat.sub_zero, Nat.zero_add]

theorem ispCells_serial :
    (joinWords fun j => ispCells mem w sn cells (14 * BANK_SIZE_W + j)) = sn := by
  refine (joinWords_congr fun j hj => ?_).trans (joinWords_serial sn)
  have hblock : j < BLOCK_SIZE_W := hj.trans (by decide)
  rw [ispCells, fill_of_mem (Nat.le_add_right _ _) (Nat.add_lt_add_left hblock _),
    Nat.add_sub_cancel_left]

/-- Neither the banks behind the image nor the blocks behind the logic serial number's. -/
theorem ispCells_frame (hw : 0 < w) (ha : chunkCount BANK_SIZE_W w * BANK_SIZE_W ≤ a)
    (hblock : ¬(14 * BANK_SIZE_W ≤ a ∧ a < 14 * BANK_SIZE_W + BLOCK_SIZE_W)) :
    ispCells mem w sn cells a = cells a := by
  obtain ⟨hcount, -, hlast, hsum⟩ := chunks_eq (by decide : 0 < BANK_SIZE_W) hw
  have himage : w ≤ chunkCount BANK_SIZE_W w * BANK_SIZE_W := by
    obtain ⟨n, hn⟩ := Nat.exists_eq_succ_of_ne_zero hcount.ne'
    rw [hn, Nat.succ_sub_one] at hsum
    rw [hn, Nat.succ_mul]
    omega
  rw [ispCells, fill, if_neg hblock, fill_of_le (by omega), fill_of_le (by omega)]

/-- **A file that fits is programmed.**  Whatever was in the flash: its words are there with
their bits swapped, its last eight bytes are the logic serial number, the hardware number
and the banks it does not need are as they were, and the comparison finds no difference. -/
theorem doIsp_programs (cells : Nat → UInt16) (mode : Nat → ReadMode) (file : List UInt8)
    (heven : file.length % 2 = 0) (hlow : 1 ≤ (file.length - 8) / 2)
    (hhigh : (file.length - 8) / 2 ≤ 14 * BANK_SIZE_W) :
    ∃ c' sn c'', doIsp (Chip.idle cells mode) file true = .ok (.compared 0 c') ∧
      (∀ k, k < (file.length - 8) / 2 → c'.cells k = bitSwap ((words file).getD k 0)) ∧
      readLogicNum c' = .ok (sn, c'') ∧ leBytes 8 sn.toNat = file.drop (file.length - 8) ∧
      (∀ a, 14 * BANK_SIZE_W + 0x10000 ≤ a → a < 14 * BANK_SIZE_W + 0x20000 →
        c'.cells a = cells a) ∧
      ∀ a, (ispPlan file.length).needBank * BANK_SIZE_W ≤ a → a < 14 * BANK_SIZE_W →
        c'.cells a = cells a := by
  obtain ⟨w, hsize⟩ : ∃ w, 2 * w + 8 = file.length := ⟨(file.length - 8) / 2, by omega⟩
  have hwords : (file.length - 8) / 2 = w := by omega
  have hdrop : file.length - 8 = 2 * w := by omega
  have hbanks : chunkCount BANK_SIZE_W w ≤ 14 := chunkCount_le (by decide) (hwords ▸ hhigh)
  rw [hwords] at hlow hhigh ⊢
  have hhigh' : w ≤ 16 * BANK_SIZE_W := hhigh.trans (Nat.mul_le_mul_right _ (by decide))
  have hfit : file.length < 4294967296 := by
    unfold BANK_SIZE_W at hhigh
    omega
  obtain ⟨c1, h1, hr1, hc1⟩ := ispProgram_spec (c := Chip.idle cells mode) rfl hlow
    hhigh' hsize
  obtain ⟨c2, h2, hr2, hc2⟩ := ispReadBack_spec hr1 hlow hhigh'
  obtain ⟨c3, h3, hr3, hc3⟩ := readNum_spec hr2 (by decide : 0 < 8)
  rw [Nat.zero_mul, Nat.add_zero, hc2, hc1, ispCells_serial] at h3
  rw [hc1] at h2
  -- the number that is written back is the end of the file
  have htail : leBytes 8 (UInt64.ofNat (leNat (file.drop (2 * w)))).toNat = file.drop (2 * w) := by
    have hlength : (file.drop (2 * w)).length = 8 := by
      rw [List.length_drop]
      omega
    have hlt := leNat_lt (file.drop (2 * w))
    have hback := leBytes_leNat (file.drop (2 * w))
    rw [hlength] at hlt hback
    rwa [UInt64.toNat_ofNat', Nat.mod_eq_of_lt (hlt.trans_eq (by norm_num))]
  have himage : ∀ k, k < w → c2.cells k = bitSwap ((words file).getD k 0) := by
    intro k hk
    rw [hc2, hc1, ispCells_image hhigh hk]
  have hframe : ∀ a, chunkCount BANK_SIZE_W w * BANK_SIZE_W ≤ a →
      ¬(14 * BANK_SIZE_W ≤ a ∧ a < 14 * BANK_SIZE_W + BLOCK_SIZE_W) → c2.cells a = cells a := by
    intro a ha hblock
    exact (congrFun (hc2.trans hc1) a).trans (ispCells_frame hlow ha hblock)
  refine ⟨c2, _, c3, ?_, himage, h3, hdrop ▸ htail, ?_, ?_⟩
  · have hnonempty : file ≠ [] := by
      rintro rfl
      simp at hsize
    have hstart : ispStart file.length true = .ok (some (ispPlan file.length)) := by
      rw [ispStart, Nat.mod_eq_of_lt hfit, if_neg (by omega),
        if_neg (by simpa using hnonempty)]
    rw [doIsp, bind_of_ok hstart, Nat.mod_eq_of_lt hfit, List.take_length]
    dsimp only
    rw [bind_of_ok h1, ← hsize, bind_of_ok h2, ispCells_serial, htail, ← hc1, ← hc2]
    dsimp only
    rw [compareFileOrder_swapped hsize.symm rfl himage]
  · intro a ha _
    refine hframe a (le_trans ?_ ha) fun hin => ?_
    · exact (Nat.mul_le_mul_right _ hbanks).trans (Nat.le_add_right _ _)
    · exact absurd hin.2 (not_lt.2 ha)
  · intro a ha ha'
    rw [← hsize, ispPlan_eq hhigh'] at ha
    exact hframe a ha fun hin => absurd hin.1 (not_le.2 ha')

/-- Two words and a serial number. -/
theorem doIsp_programs_two_words :
    ∃ c' sn c'', doIsp (Chip.idle (fun _ => 0) fun _ => .status)
        [1, 2, 3, 4, 5, 6, 7, 8, 9, 10, 11, 12] true = .ok (.compared 0 c') ∧
      (∀ k, k < 2 → c'.cells k = bitSwap (([513, 1027] : List UInt16).getD k 0)) ∧
      readLogicNum c' = .ok (sn, c'') ∧ leBytes 8 sn.toNat = [5, 6, 7, 8, 9, 10, 11, 12] := by
  obtain ⟨c', sn, c'', hrun, himage, hread, hsn, -, -⟩ := doIsp_programs (fun _ => 0)
    (fun _ => .status) [1, 2, 3, 4, 5, 6, 7, 8, 9, 10, 11, 12] (by decide) (by decide) (by decide)
  refine ⟨c', sn, c'', hrun, fun k hk => ?_, hread, hsn⟩
  rw [himage k hk]
  obtain rfl | rfl : k = 0 ∨ k = 1 := by omega
  · rfl
  · rfl

/-! ## Files that do not fit -/

/-- A run comes to its commands only with a payload, all of it below bank 14; it reads no word
behind the end of the file, and leaves every bank and block alone that belongs neither to the
image nor to the logic serial number. -/
def Guarded (c : Chip) (file : List UInt8) (mmapOk : Bool) : Prop :=
  ∀ p, ispStart file.length mmapOk = .ok (some p) →
    10 ≤ file.length ∧ (file.length - 8) / 2 ≤ 14 * BANK_SIZE_W ∧
    ispProgram p (file.take (file.length % 4294967296)) c ≠ .error .pastEnd ∧
    ∀ c', ispProgram p (file.take (file.length % 4294967296)) c = .ok c' →
      ∀ a, chunkCount BANK_SIZE_W ((file.length - 8) / 2) * BANK_SIZE_W ≤ a →
        ¬(14 * BANK_SIZE_W ≤ a ∧ a < 14 * BANK_SIZE_W + BLOCK_SIZE_W) → c'.cells a = c.cells a

/-- What comes as far as the commands. -/
theorem ispStart_some {size : Nat} {mmapOk : Bool} {p : Plan} :
    ispStart size mmapOk = .ok (some p) ↔
      size % 2 = 0 ∧ size % 4294967296 ≠ 0 ∧ mmapOk = true ∧ p = ispPlan (size % 4294967296) := by
  have hparity : size % 4294967296 % 2 = size % 2 := by omega
  unfold ispStart
  dsimp only
  rw [hparity]
  by_cases heven : size % 2 = 0
  · rw [if_neg (not_not.2 heven)]
    by_cases hmap : size % 4294967296 = 0 ∨ mmapOk = false
    · rw [if_pos hmap]
      constructor
      · rintro ⟨⟩
      · rintro ⟨-, hsize, hok, -⟩
        exact (hmap.elim hsize (by simp [hok])).elim
    · rw [if_neg hmap]
      rw [not_or, Bool.not_eq_false] at hmap
      simp [heven, hmap.1, hmap.2, eq_comm]
  · rw [if_pos heven]
    simp [heven]

/-- **The run keeps to what it may** exactly when the size is odd, the file cannot be mapped, or
the payload fits.  Only the first is tested. -/
theorem doIsp_guarded_iff (cells : Nat → UInt16) (mode : Nat → ReadMode) (file : List UInt8)
    (mmapOk : Bool) :
    Guarded (Chip.idle cells mode) file mmapOk ↔
      file.length % 2 ≠ 0 ∨ file.length % 4294967296 = 0 ∨ mmapOk = false ∨
        10 ≤ file.length ∧ (file.length - 8) / 2 ≤ 14 * BANK_SIZE_W := by
  constructor
  · intro h
    by_contra hrefused
    simp only [not_or, not_not, Bool.not_eq_false] at hrefused
    obtain ⟨heven, hsize, hok, hfit⟩ := hrefused
    obtain ⟨hlow, hhigh, -⟩ := h _ (ispStart_some.2 ⟨heven, hsize, hok, rfl⟩)
    exact hfit ⟨hlow, hhigh⟩
  · intro hcond p hp
    obtain ⟨heven, hsize, hok, rfl⟩ := ispStart_some.1 hp
    obtain ⟨hlow, hhigh⟩ : 10 ≤ file.length ∧ (file.length - 8) / 2 ≤ 14 * BANK_SIZE_W := by
      rcases hcond with hodd | hnone | hmap | hfit
      · exact absurd heven hodd
      · exact absurd hnone hsize
      · simp [hok] at hmap
      · exact hfit
    have hpos : 0 < (file.length - 8) / 2 := by omega
    have hhalf : 2 * ((file.length - 8) / 2) + 8 = file.length := by omega
    have hlt : file.length < 4294967296 := by
      unfold BANK_SIZE_W at hhigh
      omega
    have hbanks : (file.length - 8) / 2 ≤ 16 * BANK_SIZE_W :=
      hhigh.trans (Nat.mul_le_mul_right _ (by decide))
    obtain ⟨c', hrun, -, hcells⟩ :=
      ispProgram_spec (c := Chip.idle cells mode) rfl hpos hbanks hhalf
    rw [Nat.mod_eq_of_lt hlt, List.take_length, hrun]
    refine ⟨hlow, hhigh, by simp, ?_⟩
    rintro c'' hc'' a ha hblock
    obtain rfl : c' = c'' := by simpa using hc''
    rw [hcells, ispCells_frame hpos ha hblock]

/-- A payload that reaches into bank 14 erases the hardware number there. -/
theorem ispProgram_erases {file : List UInt8} (h : c.Ready) (hlow : 14 * BANK_SIZE_W < w)
    (hhigh : w ≤ 14 * BANK_SIZE_W + BLOCK_SIZE_W) (hsize : 2 * w + 8 = file.length) :
    ∃ c', ispProgram (ispPlan file.length) file c = .ok c' ∧
      ∀ j, j < BLOCK_SIZE_W → c'.cells (14 * BANK_SIZE_W + BLOCK_SIZE_W + j) = 0xffff := by
  have hblock : BLOCK_SIZE_W + BLOCK_SIZE_W ≤ BANK_SIZE_W := by decide
  have hbanks : 14 < chunkCount BANK_SIZE_W w := by
    obtain ⟨-, -, hlast, hsum⟩ := chunks_eq (by decide : 0 < BANK_SIZE_W) (Nat.zero_lt_of_lt hlow)
    by_contra hfew
    have hle : (chunkCount BANK_SIZE_W w - 1) * BANK_SIZE_W ≤ 13 * BANK_SIZE_W :=
      Nat.mul_le_mul_right _ (by omega)
    omega
  obtain ⟨c', hrun, -, hcells⟩ := ispProgram_spec h (Nat.zero_lt_of_lt hlow) (by omega) hsize
  refine ⟨c', hrun, fun j hj => ?_⟩
  have herased : 14 * BANK_SIZE_W + BLOCK_SIZE_W + j < chunkCount BANK_SIZE_W w * BANK_SIZE_W := by
    have hle : 15 * BANK_SIZE_W ≤ chunkCount BANK_SIZE_W w * BANK_SIZE_W :=
      Nat.mul_le_mul_right _ hbanks
    omega
  rw [hcells, ispCells, fill_of_le (Nat.le_add_right _ _), fill_of_le (by omega),
    fill_of_mem (Nat.zero_le _) (by omega)]

/-- One word more than 14 banks hold. -/
theorem isp_erases_hardwareNum :
    ¬Guarded (Chip.idle (fun _ => 0) fun _ => .array) (List.replicate 14680074 0) true ∧
      ∃ p c', ispStart 14680074 true = .ok (some p) ∧
        ispProgram p (List.replicate 14680074 0) (Chip.idle (fun _ => 0) fun _ => .array) = .ok c' ∧
        c'.cells (14 * BANK_SIZE_W + BLOCK_SIZE_W) = 0xffff := by
  have hstart : ispStart 14680074 true = .ok (some (ispPlan 14680074)) :=
    ispStart_some.2 ⟨by decide, by decide, rfl, by decide⟩
  refine ⟨fun h => ?_, ?_⟩
  · obtain ⟨-, hhigh, -⟩ := h _ ((List.length_replicate (n := 14680074)).symm ▸ hstart)
    rw [List.length_replicate] at hhigh
    exact absurd hhigh (by decide)
  · obtain ⟨c', hrun, hlost⟩ := @ispProgram_erases (Chip.idle (fun _ => 0) fun _ => .array) 7340033
      (List.replicate 14680074 0) rfl (by decide) (by decide) List.length_replicate.symm
    rw [List.length_replicate] at hrun
    exact ⟨_, c', hstart, hrun, hlost 0 (by decide)⟩

end NacCard.Flash
