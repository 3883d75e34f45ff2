import NacCard.FlowTest.Transfer

/-!
# Files out of reordered packets

* `packets` — all packets of a file; `flatten_chunks` — their parts are the file.
* `Progress` — what has been written when the next packet is the one with number `v`.
* `Stage` — and the list holds the packets that have arrived and come later.
* `Stage.findNext`, `Stage.arrive` — the search in the list and one arrival keep it.
* `deliver_of_heldBack` — with at most ten packets waiting at every moment, all arrivals
  together make the file.
-/

namespace NacCard.FlowTest

open NacCard.Base

section File

variable (f : SentFile) (buf : List UInt8)

/-! ## The packets of a file -/

/-- The packets of a file of which `buf` is sent. -/
def packets : List Packet := (List.range' 1 (txCount buf.length)).map (f.packet buf.length buf)

/-- What packet `seqnum` has of the file. -/
def chunk (seqnum : Nat) : List UInt8 :=
  (buf.drop ((seqnum - 1) * CHIP)).take (if seqnum < txCount buf.length then CHIP else buf.length % CHIP)

variable {f buf}

theorem mem_packets {p : Packet} :
    p ∈ packets f buf ↔ ∃ k, 1 ≤ k ∧ k ≤ txCount buf.length ∧ f.packet buf.length buf k = p := by
  simp [packets, List.mem_range'_1, and_assoc, Nat.add_comm 1]

theorem packets_nodup : (packets f buf).Nodup := by
  refine List.Nodup.map ?_ List.nodup_range'
  intro i j h
  exact congrArg Packet.seqnum h

/-- Within the file. -/
theorem chunk_end {k : Nat} (h1 : 1 ≤ k) (hk : k ≤ txCount buf.length) :
    (k - 1) * CHIP + (if k < txCount buf.length then CHIP else buf.length % CHIP) ≤ buf.length := by
  have hdiv := Nat.div_add_mod' buf.length CHIP
  rw [txCount] at hk ⊢
  split_ifs with hlt
  · have hle : k * CHIP ≤ buf.length / CHIP * CHIP := Nat.mul_le_mul_right _ (by omega)
    have hsucc : (k - 1) * CHIP + CHIP = k * CHIP := by
      rw [← Nat.succ_mul, Nat.succ_eq_add_one, Nat.sub_add_cancel h1]
    omega
  · have heq : k - 1 = buf.length / CHIP := by omega
    rw [heq]
    exact hdiv.le

theorem length_chunk {k : Nat} (h1 : 1 ≤ k) (hk : k ≤ txCount buf.length) :
    (chunk buf k).length = if k < txCount buf.length then CHIP else buf.length % CHIP := by
  have hend := chunk_end h1 hk
  rw [chunk, List.length_take, List.length_drop]
  omega

/-- What the receiver writes of a packet. -/
theorem packet_data {k : Nat} (h1 : 1 ≤ k) (hk : k ≤ txCount buf.length) :
    (f.packet buf.length buf k).data.take ((f.packet buf.length buf k).wlen - 32) = chunk buf k := by
  rw [SentFile.packet]
  dsimp only
  rw [Nat.add_sub_cancel]
  exact List.take_left' (length_chunk h1 hk)

theorem flatten_full (n : Nat) (hn : n < txCount buf.length) :
    ((List.range' 1 n).map (chunk buf)).flatten = buf.take (n * CHIP) := by
  induction n with
  | zero => simp
  | succ n ih =>
      rw [List.range'_1_concat, List.map_append, List.flatten_append, ih (Nat.lt_of_succ_lt hn),
        Nat.succ_mul, List.take_add]
      simp [chunk, Nat.add_comm 1 n, hn]

/-- **The parts make the file.** -/
theorem flatten_chunks : ((List.range' 1 (txCount buf.length)).map (chunk buf)).flatten = buf := by
  have hdiv := Nat.div_add_mod' buf.length CHIP
  rw [txCount, List.range'_1_concat, List.map_append, List.flatten_append,
    flatten_full _ (Nat.lt_succ_self _)]
  have hlast : chunk buf (1 + buf.length / CHIP)
      = (buf.drop (buf.length / CHIP * CHIP)).take (buf.length % CHIP) := by
    rw [chunk, txCount, Nat.add_sub_cancel_left, if_neg (by omega)]
  rw [List.map_singleton, List.flatten_singleton, hlast, ← List.take_add, hdiv, List.take_length]

end File

/-! ## What has been written -/

section Transfer

variable {f : SentFile} {buf : List UInt8} {rx0 rx rx' : Receiver} {v len : Nat}
  {arrived : List Packet} {p : Packet}

/-- The calls for the file when packet `v` comes next. -/
def written (f : SentFile) (buf : List UInt8) (v : Nat) : List FileOp :=
  if v = 1 then []
  else .fopen f.name :: ((List.range' 1 (v - 1)).map (fun k => .fwrite (chunk buf k)) ++
    if v = txCount buf.length + 1 then [.fclose] else [])

/-- The packets before `v` have been written, in order; `v` is the next one of the file. -/
structure Progress (f : SentFile) (buf : List UInt8) (rx0 : Receiver) (v : Nat) (rx : Receiver) :
    Prop where
  le : 1 ≤ v ∧ v ≤ txCount buf.length + 1
  verify : rx.verifySeq = if v = txCount buf.length + 1 then 1 else v
  ops : rx.ops = rx0.ops ++ written f buf v
  right : rx.rxRightCnt = rx0.rxRightCnt + if v = txCount buf.length + 1 then 1 else 0

theorem one_lt_txCount (hbuf : CHIP ≤ buf.length) : 1 < txCount buf.length :=
  Nat.succ_lt_succ (Nat.div_pos hbuf (by decide))

theorem first_wlen (hbuf : CHIP ≤ buf.length) : (f.packet buf.length buf 1).wlen - 32 = CHIP := by
  rw [SentFile.packet]
  dsimp only
  rw [if_pos (one_lt_txCount hbuf), Nat.add_sub_cancel]

/-- A packet is short if and only if it is the last one. -/
theorem packet_short {k : Nat} (hk : k ≤ txCount buf.length) :
    ((f.packet buf.length buf k).wlen : Int) ≠ (f.packet buf.length buf k).rlen - 16 ↔
      k = txCount buf.length := by
  have hmod : buf.length % CHIP < CHIP := Nat.mod_lt _ (by decide)
  rw [SentFile.packet]
  dsimp only
  unfold CHIP at hmod ⊢
  split_ifs with hlt
  · simp [hlt.ne]
  · constructor
    · intro _
      omega
    · intro _
      omega

theorem range'_pred (hv : 1 < v) : List.range' 1 v = List.range' 1 (v - 1) ++ [v] := by
  obtain ⟨m, rfl⟩ : ∃ m, v = m + 1 := ⟨v - 1, by omega⟩
  rw [List.range'_1_concat, Nat.add_sub_cancel, Nat.add_comm 1 m]

theorem written_succ (hv : 1 < v) :
    written f buf v = .fopen f.name :: ((List.range' 1 (v - 1)).map (fun k => .fwrite (chunk buf k)) ++
      if v = txCount buf.length + 1 then [.fclose] else []) := if_neg hv.ne'

theorem written_last (hv : 1 < v) (hlast : v = txCount buf.length) :
    written f buf (v + 1) = written f buf v ++ [.fwrite (chunk buf v), .fclose] := by
  rw [written_succ (Nat.lt_succ_of_lt hv), written_succ hv, if_pos (by omega), if_neg (by omega),
    Nat.succ_sub_one, range'_pred hv, List.map_append]
  simp

theorem written_middle (hv : 1 < v) (hmore : v < txCount buf.length) :
    written f buf (v + 1) = written f buf v ++ [.fwrite (chunk buf v)] := by
  rw [written_succ (Nat.lt_succ_of_lt hv), written_succ hv, if_neg (by omega), if_neg (by omega),
    Nat.succ_sub_one, range'_pred hv, List.map_append]
  simp

theorem written_first (hmore : 1 < txCount buf.length) :
    written f buf (1 + 1) = [.fopen f.name, .fwrite (chunk buf 1)] := by
  rw [written_succ (Nat.lt_succ_self 1), if_neg (by omega)]
  rfl

/-- One packet more. -/
theorem Progress.take (h : Progress f buf rx0 v rx) (hbuf : CHIP ≤ buf.length)
    (hv : v ≤ txCount buf.length)
    (hlen : v = 1 → (f.packet buf.length buf v).data.take len = chunk buf v) :
    Progress f buf rx0 (v + 1) (rx.take (f.packet buf.length buf v) len) := by
  have hn := one_lt_txCount hbuf
  have hdata := packet_data (f := f) h.le.1 hv
  have hshort := packet_short (f := f) hv
  have hverify := h.verify
  have hright := h.right
  rw [if_neg (by omega)] at hverify hright
  have hle : 1 ≤ v + 1 ∧ v + 1 ≤ txCount buf.length + 1 := ⟨Nat.succ_pos v, Nat.succ_le_succ hv⟩
  rw [Receiver.take]
  rcases Nat.lt_or_ge 1 v with hlt | hge
  · rw [if_neg (by omega)]
    by_cases hlast : v = txCount buf.length
    · rw [if_pos (hshort.2 hlast)]
      refine ⟨hle, ?_, ?_, ?_⟩
      · rw [if_pos (by omega), Receiver.last]
      · rw [written_last hlt hlast, Receiver.last, hdata, h.ops, List.append_assoc]
      · rw [if_pos (by omega), Receiver.last, hright]
    · rw [if_neg (fun hne => hlast (hshort.1 hne))]
      refine ⟨hle, ?_, ?_, ?_⟩
      · rw [if_neg (by omega), Receiver.middle, hverify]
      · rw [written_middle hlt (lt_of_le_of_ne hv hlast), Receiver.middle, hdata, h.ops,
          List.append_assoc]
      · rw [if_neg (by omega)]
        exact hright
  · obtain rfl : v = 1 := Nat.le_antisymm hge h.le.1
    rw [if_pos hverify]
    refine ⟨hle, ?_, ?_, ?_⟩
    · rw [if_neg (by omega), Receiver.first, hverify]
    · rw [written_first hn, Receiver.first, hlen rfl, h.ops, written, if_pos rfl, List.append_nil]
      rfl
    · rw [if_neg (by omega)]
      exact hright

/-! ## What is kept -/

/-- The list keeps `held`. -/
structure Keeps (list : List Node) (held : List Packet) : Prop where
  length : list.length = 10
  perm : (heldIn Node.seqnum Node.pos list).Perm held
  seqnum : ∀ node ∈ list, node.seqnum ≠ 0 → node.seqnum = node.pos.seqnum

theorem Keeps.of_perm {list : List Node} {held held' : List Packet} (h : Keeps list held)
    (hperm : held.Perm held') : Keeps list held' := ⟨h.length, h.perm.trans hperm, h.seqnum⟩

theorem Keeps.clear {held : List Packet} {node : Node} {i : Nat} (h : Keeps rx.list held)
    (hnode : rx.list[i]? = some node) (hused : node.seqnum ≠ 0) {held' : List Packet}
    (hheld : held.Perm (node.pos :: held')) : Keeps (rx.clear i).list held' := by
  obtain ⟨hi, rfl⟩ := List.getElem?_eq_some_iff.1 hnode
  have hset : (rx.clear i).list = rx.list.set i { rx.list[i] with seqnum := 0 } := by
    rw [Receiver.clear, List.modify_eq_set_getElem?, hnode]
    rfl
  rw [hset]
  refine ⟨by rw [List.length_set, h.length], ?_, ?_⟩
  · have hclear := @heldIn_set_clear _ _ Node.seqnum Node.pos rx.list i { rx.list[i] with seqnum := 0 }
      hi hused rfl
    exact (hclear.trans (h.perm.trans hheld)).cons_inv
  · intro node hmem hne
    rcases List.mem_or_eq_of_mem_set hmem with hold | rfl
    · exact h.seqnum node hold hne
    · exact absurd rfl hne

theorem Keeps.store {held : List Packet} (h : Keeps rx.list held) (hroom : held.length < 10)
    (hp : p.seqnum ≠ 0) :
    (rx.list.findIdx fun node => node.seqnum = 0) < rx.list.length ∧
      Keeps (rx.store (rx.list.findIdx fun node => node.seqnum = 0) p).list (p :: held) := by
  have hlt : (heldIn Node.seqnum Node.pos rx.list).length < rx.list.length := by
    rw [h.perm.length_eq, h.length]
    exact hroom
  obtain ⟨free, hmem, hzero⟩ := exists_free hlt
  have hi := List.findIdx_lt_length_of_exists (p := fun node : Node => decide (node.seqnum = 0))
    ⟨free, hmem, decide_eq_true hzero⟩
  have hfound := List.findIdx_getElem (w := hi)
  rw [decide_eq_true_eq] at hfound
  refine ⟨hi, by rw [Receiver.store, List.length_set, h.length], ?_, ?_⟩
  · have hset := @heldIn_set_free _ _ Node.seqnum Node.pos rx.list _ ⟨p.seqnum, p⟩ hi hfound hp
    exact hset.trans (h.perm.cons p)
  · intro node hnode _
    rcases List.mem_or_eq_of_mem_set hnode with hold | rfl
    · exact h.seqnum node hold ‹_›
    · rfl

/-! ## One arrival -/

/-- The packets before `v` have arrived and are written; those from `v` on that have arrived
are kept. -/
structure Stage (f : SentFile) (buf : List UInt8) (rx0 : Receiver) (arrived : List Packet) (v : Nat)
    (rx : Receiver) : Prop where
  progress : Progress f buf rx0 v rx
  keeps : Keeps rx.list (arrived.filter fun p => v ≤ p.seqnum)
  before : ∀ k, 1 ≤ k → k < v → f.packet buf.length buf k ∈ arrived

/-- Nothing that has arrived comes next. -/
def Waits (f : SentFile) (buf : List UInt8) (arrived : List Packet) (v : Nat) : Prop :=
  v ≤ txCount buf.length → f.packet buf.length buf v ∉ arrived

theorem Progress.of_eq (h : Progress f buf rx0 v rx) (hverify : rx'.verifySeq = rx.verifySeq)
    (hops : rx'.ops = rx.ops) (hright : rx'.rxRightCnt = rx.rxRightCnt) : Progress f buf rx0 v rx' :=
  ⟨h.le, hverify.trans h.verify, hops.trans h.ops, hright.trans h.right⟩

@[simp] theorem take_list : (rx.take p len).list = rx.list := by
  unfold Receiver.take
  split_ifs <;> rfl

/-- A packet is known by its number. -/
theorem eq_packet (hp : p ∈ packets f buf) : p = f.packet buf.length buf p.seqnum := by
  obtain ⟨k, -, -, rfl⟩ := mem_packets.1 hp
  rfl

theorem filter_next (hsub : ∀ p ∈ arrived, p ∈ packets f buf) (hnodup : arrived.Nodup)
    (hmem : f.packet buf.length buf v ∈ arrived) :
    (arrived.filter fun p => v ≤ p.seqnum).Perm
      (f.packet buf.length buf v :: arrived.filter fun p => v + 1 ≤ p.seqnum) := by
  have hnew : f.packet buf.length buf v ∉ arrived.filter fun p => v + 1 ≤ p.seqnum := by
    simp [SentFile.packet]
  refine (List.perm_ext_iff_of_nodup (hnodup.filter _) ((hnodup.filter _).cons hnew)).2 ?_
  intro q
  rw [List.mem_cons, List.mem_filter, List.mem_filter, decide_eq_true_eq, decide_eq_true_eq]
  constructor
  · rintro ⟨hq, hle⟩
    rcases hle.eq_or_lt with heq | hlt
    · exact .inl (heq ▸ eq_packet (hsub q hq))
    · exact .inr ⟨hq, hlt⟩
  · rintro (rfl | ⟨hq, hlt⟩)
    · exact ⟨hmem, le_rfl⟩
    · exact ⟨hq, Nat.le_of_succ_le hlt⟩

theorem filter_missing (hsub : ∀ p ∈ arrived, p ∈ packets f buf)
    (hnew : f.packet buf.length buf v ∉ arrived) :
    (arrived.filter fun p => v ≤ p.seqnum) = arrived.filter fun p => v + 1 ≤ p.seqnum := by
  apply List.filter_congr
  intro q hq
  have hne : q.seqnum ≠ v := by
    rintro rfl
    rw [← eq_packet (hsub q hq)] at hnew
    exact hnew hq
  rw [decide_eq_decide]
  omega

/-- The next packet is in the list where it has arrived. -/
theorem Stage.find (h : Stage f buf rx0 arrived v rx) (hsub : ∀ p ∈ arrived, p ∈ packets f buf)
    (hmem : f.packet buf.length buf v ∈ arrived) (hv : v ≤ txCount buf.length) :
    ∃ node, rx.list[rx.list.findIdx fun node => node.seqnum = rx.verifySeq]? = some node ∧
      node.seqnum = v ∧ node.pos = f.packet buf.length buf v := by
  have hverify := h.progress.verify
  rw [if_neg (by omega)] at hverify
  have hheld : f.packet buf.length buf v ∈ heldIn Node.seqnum Node.pos rx.list := by
    rw [h.keeps.perm.mem_iff, List.mem_filter]
    exact ⟨hmem, decide_eq_true le_rfl⟩
  obtain ⟨node, hnode, hused, hpos⟩ := mem_heldIn.1 hheld
  have hseq : node.seqnum = v := by
    rw [h.keeps.seqnum node hnode hused, hpos]
    rfl
  obtain ⟨first, hget, hfirst⟩ := getElem?_findIdx (p := fun node : Node => decide (node.seqnum = rx.verifySeq))
    ⟨node, hnode, decide_eq_true (hseq.trans hverify.symm)⟩
  have hfirst' : first.seqnum = v := (of_decide_eq_true hfirst).trans hverify
  refine ⟨first, hget, hfirst', ?_⟩
  have hused' : first.seqnum ≠ 0 := by
    have h1 := h.progress.le.1
    omega
  have hin := List.mem_of_getElem? hget
  have hmem' : first.pos ∈ heldIn Node.seqnum Node.pos rx.list := mem_heldIn.2 ⟨first, hin, hused', rfl⟩
  rw [h.keeps.perm.mem_iff, List.mem_filter] at hmem'
  rw [eq_packet (hsub _ hmem'.1), ← h.keeps.seqnum first hin hused', hfirst']

theorem findNext_none {n : Nat} (h : ∀ node ∈ rx.list, node.seqnum ≠ rx.verifySeq) :
    findNextpacketinlist (n + 1) rx = some rx := by
  have hnone : rx.list[rx.list.findIdx fun node => node.seqnum = rx.verifySeq]? = none := by
    rw [List.getElem?_eq_none_iff, List.findIdx_eq_length_of_false]
    exact fun node hnode => decide_eq_false (h node hnode)
  rw [findNextpacketinlist, hnone]

theorem Stage.not_expected (h : Stage f buf rx0 arrived v rx)
    (hsub : ∀ p ∈ arrived, p ∈ packets f buf) (hwaits : Waits f buf arrived v) :
    ∀ node ∈ rx.list, node.seqnum ≠ rx.verifySeq := by
  intro node hnode hseq
  have hverify := h.progress.verify
  obtain ⟨h1, hle⟩ := h.progress.le
  have hused : node.seqnum ≠ 0 := by
    rw [hseq, hverify]
    split_ifs <;> omega
  have hmem : node.pos ∈ heldIn Node.seqnum Node.pos rx.list := mem_heldIn.2 ⟨node, hnode, hused, rfl⟩
  rw [h.keeps.perm.mem_iff, List.mem_filter, decide_eq_true_eq] at hmem
  have hpos := eq_packet (hsub _ hmem.1)
  obtain ⟨k, hk1, hk, hkeq⟩ := mem_packets.1 (hsub _ hmem.1)
  have hkseq : node.pos.seqnum = k := by
    rw [← hkeq]
    rfl
  have hv : v ≤ txCount buf.length := by omega
  rw [if_neg (by omega)] at hverify
  have hnum : node.pos.seqnum = v := by
    rw [← h.keeps.seqnum node hnode hused, hseq, hverify]
  rw [hpos, hnum] at hmem
  exact hwaits hv hmem.1

theorem Stage.findNext (hbuf : CHIP ≤ buf.length) (hsub : ∀ p ∈ arrived, p ∈ packets f buf)
    (hnodup : arrived.Nodup) :
    ∀ (n : Nat) {v : Nat} {rx : Receiver}, Stage f buf rx0 arrived v rx →
      (arrived.filter fun p => v ≤ p.seqnum).length < n →
      ∃ v' rx', findNextpacketinlist n rx = some rx' ∧ Stage f buf rx0 arrived v' rx' ∧
        Waits f buf arrived v' := by
  intro n
  induction n with
  | zero => exact fun _ hlt => absurd hlt (Nat.not_lt_zero _)
  | succ n ih =>
      intro v rx h hlt
      by_cases hmem : v ≤ txCount buf.length ∧ f.packet buf.length buf v ∈ arrived
      · obtain ⟨hv, hmem⟩ := hmem
        obtain ⟨node, hget, hseq, hpos⟩ := h.find hsub hmem hv
        have hfilter := filter_next hsub hnodup hmem
        rw [findNextpacketinlist, hget]
        dsimp only
        rw [hpos]
        refine ih (v := v + 1) ⟨?_, ?_, ?_⟩ ?_
        · refine (h.progress.take hbuf hv ?_).of_eq rfl rfl rfl
          rintro rfl
          have hdata := packet_data (f := f) le_rfl hv
          rwa [first_wlen hbuf] at hdata
        · have hused : node.seqnum ≠ 0 := by
            have h1 := h.progress.le.1
            omega
          refine Keeps.clear (?_ : Keeps _ (arrived.filter fun p => v ≤ p.seqnum)) ?_ hused ?_
          · rw [take_list]
            exact h.keeps
          · rw [take_list]
            exact hget
          · rw [hpos]
            exact hfilter
        · intro k hk1 hk
          rcases (Nat.le_of_lt_succ hk).lt_or_eq with hlt | rfl
          · exact h.before k hk1 hlt
          · exact hmem
        · have hlen := hfilter.length_eq
          rw [List.length_cons] at hlen
          omega
      · have hwaits : Waits f buf arrived v := fun hv hin => hmem ⟨hv, hin⟩
        exact ⟨v, rx, findNext_none (h.not_expected hsub hwaits), h, hwaits⟩

theorem Keeps.length_le {list : List Node} {held : List Packet} (h : Keeps list held) :
    held.length ≤ 10 := by
  rw [← h.perm.length_eq, ← h.length, heldIn, List.length_map]
  exact List.length_filter_le _ _

/-- What is kept for a packet that is missing waits for it. -/
theorem kept_le_heldBack (hsub : ∀ p ∈ arrived, p ∈ packets f buf) (h1 : 1 ≤ v)
    (hv : v ≤ txCount buf.length) (hnew : f.packet buf.length buf v ∉ arrived) :
    (arrived.filter fun p => v ≤ p.seqnum).length ≤ heldBack (packets f buf) arrived := by
  rw [heldBack, ← List.countP_eq_length_filter, ← List.countP_eq_length_filter]
  apply List.countP_mono_left
  intro q hq hle
  have hle' : v ≤ q.seqnum := of_decide_eq_true hle
  have hne : v ≠ q.seqnum := by
    rintro rfl
    rw [← eq_packet (hsub q hq)] at hnew
    exact hnew hq
  rw [List.any_eq_true]
  refine ⟨_, mem_packets.2 ⟨v, h1, hv, rfl⟩, ?_⟩
  simpa [SentFile.packet, lt_of_le_of_ne hle' hne] using hnew

/-- The packet whose turn it is. -/
theorem Stage.arrive_next (h : Stage f buf rx0 arrived v rx) (hbuf : CHIP ≤ buf.length)
    (hv : v ≤ txCount buf.length)
    (hsub : ∀ q ∈ arrived ++ [f.packet buf.length buf v], q ∈ packets f buf)
    (hnodup : (arrived ++ [f.packet buf.length buf v]).Nodup)
    (hnew : f.packet buf.length buf v ∉ arrived) :
    ∃ v' rx', runRx rx (f.packet buf.length buf v) = some rx' ∧
      Stage f buf rx0 (arrived ++ [f.packet buf.length buf v]) v' rx' ∧
      Waits f buf (arrived ++ [f.packet buf.length buf v]) v' := by
  have hverify := h.progress.verify
  rw [if_neg (by omega)] at hverify
  have hfilter : (arrived ++ [f.packet buf.length buf v]).filter (fun p => v + 1 ≤ p.seqnum)
      = arrived.filter fun p => v ≤ p.seqnum := by
    rw [List.filter_append, filter_missing (fun q hq => hsub q (List.mem_append_left _ hq)) hnew]
    simp [SentFile.packet]
  have hstage : Stage f buf rx0 (arrived ++ [f.packet buf.length buf v]) (v + 1)
      (((rx.header (f.packet buf.length buf v)).take (f.packet buf.length buf v)
        ((f.packet buf.length buf v).wlen - 32)).count (f.packet buf.length buf v)) := by
    refine ⟨?_, ?_, ?_⟩
    · have hstart : Progress f buf rx0 v (rx.header (f.packet buf.length buf v)) :=
        h.progress.of_eq rfl rfl rfl
      exact (hstart.take hbuf hv fun _ => packet_data h.progress.le.1 hv).of_eq rfl rfl rfl
    · rw [hfilter, Receiver.count]
      dsimp only
      rw [take_list]
      exact h.keeps
    · intro k hk1 hk
      rcases (Nat.le_of_lt_succ hk).lt_or_eq with hlt | rfl
      · exact List.mem_append_left _ (h.before k hk1 hlt)
      · exact List.mem_append_right _ (List.mem_singleton_self _)
  have hnum : (f.packet buf.length buf v).seqnum = (rx.header (f.packet buf.length buf v)).verifySeq :=
    hverify.symm
  rw [runRx]
  dsimp only
  rw [if_pos hnum]
  refine hstage.findNext hbuf hsub hnodup _ ?_
  rw [hfilter]
  exact Nat.lt_succ_of_le (h.keeps.length_le.trans_eq h.keeps.length.symm)

theorem filter_early {k : Nat} (hk : v ≤ k) :
    ((arrived ++ [f.packet buf.length buf k]).filter fun p => v ≤ p.seqnum)
      = (arrived.filter fun p => v ≤ p.seqnum) ++ [f.packet buf.length buf k] := by
  rw [List.filter_append]
  simp [SentFile.packet, hk]

/-- A packet that is too early. -/
theorem Stage.arrive_early {k : Nat} (h : Stage f buf rx0 arrived v rx) (hvk : v < k)
    (hv : v ≤ txCount buf.length)
    (hroom : (arrived.filter fun p => v ≤ p.seqnum).length < 10) :
    ∃ rx', runRx rx (f.packet buf.length buf k) = some rx' ∧
      Stage f buf rx0 (arrived ++ [f.packet buf.length buf k]) v rx' := by
  have hverify := h.progress.verify
  rw [if_neg (by omega)] at hverify
  have hnum : (f.packet buf.length buf k).seqnum ≠ (rx.header (f.packet buf.length buf k)).verifySeq := by
    intro heq
    exact hvk.ne (hverify.symm.trans heq.symm)
  have hstart : Keeps (rx.header (f.packet buf.length buf k)).list (arrived.filter fun p => v ≤ p.seqnum) :=
    h.keeps
  obtain ⟨hfree, hkeeps⟩ := hstart.store (p := f.packet buf.length buf k) hroom (Nat.ne_zero_of_lt hvk)
  rw [runRx]
  dsimp only
  rw [if_neg hnum, if_pos hfree]
  refine ⟨_, rfl, h.progress.of_eq rfl rfl rfl, ?_, ?_⟩
  · apply hkeeps.of_perm
    rw [filter_early hvk.le]
    exact (List.perm_append_singleton _ _).symm
  · exact fun j hj1 hj => List.mem_append_left _ (h.before j hj1 hj)

/-- One packet arrives. -/
theorem Stage.arrive (h : Stage f buf rx0 arrived v rx) (hwaits : Waits f buf arrived v)
    (hbuf : CHIP ≤ buf.length) (hsub : ∀ q ∈ arrived ++ [p], q ∈ packets f buf)
    (hnodup : (arrived ++ [p]).Nodup) (hheld : heldBack (packets f buf) (arrived ++ [p]) ≤ 10) :
    ∃ v' rx', runRx rx p = some rx' ∧ Stage f buf rx0 (arrived ++ [p]) v' rx' ∧
      Waits f buf (arrived ++ [p]) v' := by
  obtain ⟨k, hk1, hk, rfl⟩ := mem_packets.1 (hsub p (List.mem_append_right _ (List.mem_singleton_self p)))
  have hnew : f.packet buf.length buf k ∉ arrived := by
    have hdisjoint := (List.nodup_append'.1 hnodup).2.2
    exact fun hmem => hdisjoint hmem (List.mem_singleton_self _)
  have hvk : v ≤ k := by
    by_contra hlt
    exact hnew (h.before k hk1 (not_le.1 hlt))
  rcases hvk.eq_or_lt with rfl | hlt
  · exact h.arrive_next hbuf hk hsub hnodup hnew
  · have hv : v ≤ txCount buf.length := by omega
    have hmissing : f.packet buf.length buf v ∉ arrived ++ [f.packet buf.length buf k] := by
      intro hmem
      rcases List.mem_append.1 hmem with hold | hlast
      · exact hwaits hv hold
      · exact hlt.ne (congrArg Packet.seqnum (List.mem_singleton.1 hlast))
    have hroom := (kept_le_heldBack hsub h.progress.le.1 hv hmissing).trans hheld
    rw [filter_early hlt.le, List.length_append, List.length_singleton] at hroom
    obtain ⟨rx', hrun, hstage⟩ := h.arrive_early hlt hv (Nat.lt_of_succ_le hroom)
    exact ⟨v, rx', hrun, hstage, fun _ => hmissing⟩

/-! ## All arrivals -/

theorem Ready.keeps (h : Ready rx) : Keeps rx.list [] := by
  refine ⟨h.length, ?_, fun node hnode hused => absurd (h.free node hnode) hused⟩
  have hnone : heldIn Node.seqnum Node.pos rx.list = [] := by
    simpa [heldIn] using h.free
  rw [hnone]

theorem Keeps.ready (h : Keeps rx.list []) (hverify : rx.verifySeq = 1) : Ready rx := by
  refine ⟨hverify, h.length, fun node hnode => ?_⟩
  by_contra hused
  have hmem : node.pos ∈ heldIn Node.seqnum Node.pos rx.list := mem_heldIn.2 ⟨node, hnode, hused, rfl⟩
  rw [h.perm.mem_iff] at hmem
  exact List.not_mem_nil hmem

theorem Stage.start (hready : Ready rx0) : Stage f buf rx0 [] 1 rx0 := by
  have hpos : txCount buf.length ≠ 0 := Nat.succ_ne_zero _
  refine ⟨⟨⟨le_rfl, Nat.succ_pos _⟩, ?_, ?_, ?_⟩, hready.keeps, fun k hk1 hk => absurd hk1 hk.not_ge⟩
  · rw [hready.verify]
    split_ifs <;> rfl
  · rw [written, if_pos rfl, List.append_nil]
  · rw [if_neg (by omega), Nat.add_zero]

theorem deliver_append (rx : Receiver) (arrived : List Packet) (p : Packet) :
    deliver rx (arrived ++ [p]) = (deliver rx arrived).bind fun rx' => runRx rx' p := by
  simp [deliver, List.foldlM_append]

/-- **All arrivals so far**: the packets up to the first that is missing are written, the others
kept. -/
theorem deliver_stage (hready : Ready rx0) (hbuf : CHIP ≤ buf.length) (arrived : List Packet) :
    (∀ q ∈ arrived, q ∈ packets f buf) → arrived.Nodup →
      (∀ k, heldBack (packets f buf) (arrived.take k) ≤ 10) →
      ∃ v rx, deliver rx0 arrived = some rx ∧ Stage f buf rx0 arrived v rx ∧ Waits f buf arrived v := by
  induction arrived using List.reverseRecOn with
  | nil => exact fun _ _ _ => ⟨1, rx0, rfl, .start hready, fun _ => List.not_mem_nil⟩
  | append_singleton arrived p ih =>
      intro hsub hnodup hheld
      have hbefore : ∀ k, heldBack (packets f buf) (arrived.take k) ≤ 10 := by
        intro k
        have hk := hheld (min k arrived.length)
        rwa [List.take_append_of_le_length (Nat.min_le_right _ _), ← List.take_eq_take_min] at hk
      have hnow := hheld (arrived ++ [p]).length
      rw [List.take_length] at hnow
      obtain ⟨v, rx, hrun, hstage, hwaits⟩ := ih (fun q hq => hsub q (List.mem_append_left _ hq))
        (List.nodup_append'.1 hnodup).1 hbefore
      obtain ⟨v', rx', hstep, hstage', hwaits'⟩ := hstage.arrive hwaits hbuf hsub hnodup hnow
      refine ⟨v', rx', ?_, hstage', hwaits'⟩
      rw [deliver_append, hrun]
      exact hstep

/-- Once all have arrived the whole file has been written. -/
theorem deliver_of_heldBack (hready : Ready rx0) (hbuf : CHIP ≤ buf.length) {arrival : List Packet}
    (hperm : arrival.Perm (packets f buf))
    (hheld : ∀ k, heldBack (packets f buf) (arrival.take k) ≤ 10) :
    ∃ rx, deliver rx0 arrival = some rx ∧ rx.rxRightCnt = rx0.rxRightCnt + 1 ∧ Ready rx ∧
      ∃ chunks : List (List UInt8), chunks.flatten = buf ∧
        rx.ops = rx0.ops ++ .fopen f.name :: (chunks.map .fwrite ++ [.fclose]) := by
  obtain ⟨v, rx, hrun, hstage, hwaits⟩ := deliver_stage hready hbuf arrival
    (fun q hq => hperm.mem_iff.1 hq) (hperm.nodup_iff.2 packets_nodup) hheld
  obtain ⟨h1, hle⟩ := hstage.progress.le
  have hn := one_lt_txCount hbuf
  have hend : v = txCount buf.length + 1 := by
    by_contra hne
    have hv : v ≤ txCount buf.length := by omega
    exact hwaits hv (hperm.mem_iff.2 (mem_packets.2 ⟨v, h1, hv, rfl⟩))
  have hverify := hstage.progress.verify
  have hright := hstage.progress.right
  have hops := hstage.progress.ops
  rw [if_pos hend] at hverify hright
  rw [hend, written_succ (Nat.lt_succ_of_lt hn), if_pos rfl, Nat.succ_sub_one] at hops
  refine ⟨rx, hrun, hright, ?_, (List.range' 1 (txCount buf.length)).map (chunk buf), flatten_chunks, ?_⟩
  · refine Keeps.ready (hstage.keeps.of_perm ?_) hverify
    have hnone : (arrival.filter fun p => v ≤ p.seqnum) = [] := by
      rw [List.filter_eq_nil_iff]
      intro q hq hle
      obtain ⟨k, -, hk, rfl⟩ := mem_packets.1 (hperm.mem_iff.1 hq)
      have hvk : v ≤ k := of_decide_eq_true hle
      omega
    rw [hnone]
  · rw [hops, List.map_map]
    rfl

end Transfer

end NacCard.FlowTest
