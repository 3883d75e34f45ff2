import NacCard.Base.Run
import NacCard.Base.Slots

/-!
# Opening and closing a card

`nac_open` obtains two descriptors and a mapping, one after the other, and goes to one label
whenever something is refused; `nac_close` gives all of them back.

* `Sheep`, `Proc` — an entry of the herd, and what the process holds.
* `nacOpen`, `nacClose`, `library` — the two functions, in any order.
* `Balanced`, `Clean` — what is held is what the opened entries name; a call that leaves it so,
  dereferences nothing it must not, and undoes an open that fails.
* `CallFits` — the device is not opened or everything is granted; there is a table to close in.
* `nac_open_close_balanced` — runs of such calls are balanced throughout, and any other call is
  not `Clean`: the label closes nothing, and clears the entry of a table it may not have.
-/

namespace NacCard.Lib

open Function NacCard.Base

/-! ## The herd -/

/-- `NACMINOR_IOM`: the device of the registers. -/
def NACMINOR_IOM : Nat := 2
/-- `NACMINOR_MAX` of the library. -/
def NACMINOR_MAX : Nat := 4

/-- The bytes of `nacname`, the last of them 0. -/
def NACNAME_SIZE : Nat := 32

/-- `NULL`, as the address of a mapping. -/
def NULL : Int := 0
/-- `MAP_FAILED`, what `mmap` returns for none. -/
def MAP_FAILED : Int := -1

/-- `EIO`: the expression does not compile. -/
def EIO : Int := 5
/-- `EBADF`: the descriptor is not open. -/
def EBADF : Int := 9
/-- `ENODEV`: there is no such device. -/
def ENODEV : Int := 19
/-- `EINVAL`: a bad argument. -/
def EINVAL : Int := 22
/-- `ENFILE`: the descriptor is behind the table. -/
def ENFILE : Int := 23

/-- `nacinf_t`, the field that `nac_open` and `nac_close` read. -/
structure Nacinf where
  iomSize : Nat
  deriving Repr, DecidableEq

/-- An entry of the table, as far as it is about descriptors and mappings. -/
structure Sheep where
  nacname : String := ""
  naciom : Int := 0
  iom : Int := NULL
  nacinf : Nacinf := ⟨0⟩
  opened : Bool := false
  deriving Repr, DecidableEq

/-- All zero, as `memset` leaves it, but for `naciom`. -/
def Sheep.initial : Sheep := { naciom := -1 }

/-- The descriptors and mappings are those the library has obtained. -/
structure Proc where
  herd : Option (Nat → Sheep) := none
  fds : List Int := []
  maps : List (Int × Nat) := []
  errno : Int := 0

namespace Proc

/-- The entries; as they will be, before there is a table. -/
def entries (s : Proc) : Nat → Sheep := s.herd.getD fun _ => .initial

/-- A descriptor has been obtained. -/
def obtain (s : Proc) (fd : Int) : Proc := { s with fds := fd :: s.fds }

/-- `errno` is set. -/
def fail (s : Proc) (errno : Int) : Proc := { s with errno := errno }

/-- The table is as the call leaves it. -/
def put (s : Proc) (herd : Nat → Sheep) : Proc := { s with herd := some herd }

/-- A mapping has been obtained. -/
def map (s : Proc) (addr : Int) (len : Nat) : Proc := { s with maps := (addr, len) :: s.maps }

/-- `close`; a descriptor that is not open is `EBADF`. -/
def close (s : Proc) (fd : Int) : Proc :=
  if fd ∈ s.fds then { s with fds := s.fds.erase fd } else s.fail EBADF

/-- `munmap`, of a mapping as it was made. -/
def munmap (s : Proc) (addr : Int) (len : Nat) : Proc :=
  if (addr, len) ∈ s.maps then { s with maps := s.maps.erase (addr, len) } else s.fail EINVAL

section Release

variable {s : Proc} {fd addr : Int} {len : Nat}

theorem close_fds {rest : Multiset Int} (h : (s.fds : Multiset Int) = fd ::ₘ rest) :
    ((s.close fd).fds : Multiset Int) = rest := by
  have hmem : fd ∈ s.fds := by
    rw [← Multiset.mem_coe, h]
    exact Multiset.mem_cons_self fd rest
  rw [close, if_pos hmem]
  have hperm := Multiset.coe_eq_coe.2 (List.perm_cons_erase hmem)
  rw [h, ← Multiset.cons_coe] at hperm
  exact ((Multiset.cons_inj_right fd).1 hperm).symm

theorem munmap_maps {rest : Multiset (Int × Nat)}
    (h : (s.maps : Multiset (Int × Nat)) = (addr, len) ::ₘ rest) :
    ((s.munmap addr len).maps : Multiset (Int × Nat)) = rest := by
  have hmem : (addr, len) ∈ s.maps := by
    rw [← Multiset.mem_coe, h]
    exact Multiset.mem_cons_self (addr, len) rest
  rw [munmap, if_pos hmem]
  have hperm := Multiset.coe_eq_coe.2 (List.perm_cons_erase hmem)
  rw [h, ← Multiset.cons_coe] at hperm
  exact ((Multiset.cons_inj_right (addr, len)).1 hperm).symm

@[simp] theorem close_maps : (s.close fd).maps = s.maps := by
  rw [close]
  split_ifs <;> rfl

@[simp] theorem close_herd : (s.close fd).herd = s.herd := by
  rw [close]
  split_ifs <;> rfl

@[simp] theorem munmap_fds : (s.munmap addr len).fds = s.fds := by
  rw [munmap]
  split_ifs <;> rfl

end Release

end Proc

/-! ## The functions -/

/-- How a call ends: it returns, or it uses a table that is not there, or an entry behind it, or
copies a name that is longer than its field. -/
inductive Outcome where
  | returned (rc : Int) (s : Proc)
  | nullHerd
  | outside (nacfd : Int)
  | overrun (nacfd : Int)

/-- What the system answers in one `nac_open`; an error is the `errno` it sets. -/
structure Answers where
  device : Except Int Nat
  malloc : Except Int Unit := .ok ()
  regcomp : Bool := true
  /-- where the match ends -/
  regexec : String → Option Nat
  companion : String → Except Int Nat
  ioctl : Except Int Nacinf
  mmap : Except Int Nat

/-- `nac_info`: `NULL` for an entry that is not open. -/
def nacInfo (sheep : Sheep) : Option Nacinf := if !sheep.opened then none else some sheep.nacinf

/-- `fmt`, the names of the three devices without the number. -/
def fmt : List String := ["/dev/nac", "/dev/nacmem", "/dev/naciom"]

/-- `nac_clone`: the companion device is opened, by the digit that was matched. -/
def nacClone (o : Answers) (nacname : String) (minor : Nat) : Except Int Nat :=
  if minor ≥ NACMINOR_MAX then .error ENODEV
  else if !o.regcomp then .error ( EIO)
  else
    match o.regexec nacname with
    | none => .error ENODEV
    | some rmEo =>
        o.companion (fmt.getD minor "" ++ (nacname.toList.getD (rmEo - 1) '0').toString)

/-- The label `fail`. -/
def openFail (openMax : Nat) (nacfd : Nat) (s : Proc) : Outcome :=
  if nacfd > 0 then
    match s.herd with
    | none => .nullHerd
    | some herd =>
        if nacfd < openMax then .returned (-1) (s.put (update herd nacfd {}))
        else .outside nacfd
  else .returned (-1) s

/-- The allocation of the table in the first call. -/
def herdAlloc (o : Answers) (s : Proc) : Except Int (Nat → Sheep) :=
  match s.herd with
  | some herd => .ok herd
  | none => o.malloc.map fun _ _ => .initial

/-- `openMax` is `sysconf(_SC_OPEN_MAX)`, and small enough for a table of that size. -/
def nacOpen (openMax : Nat) (s : Proc) (nacname : String) (o : Answers) : Outcome :=
  match o.device with
  | .error errno => .returned (-1) (s.fail errno)
  | .ok nacfd =>
      let s := s.obtain nacfd
      match herdAlloc o s with
      | .error errno => openFail openMax nacfd (s.fail errno)
      | .ok herd =>
          if nacfd ≥ openMax then openFail openMax nacfd ((s.put herd).fail ENFILE)
          else if nacname.utf8ByteSize ≥ NACNAME_SIZE then .overrun nacfd
          else
            let sheep := { herd nacfd with nacname := nacname }
            match nacClone o sheep.nacname NACMINOR_IOM with
            | .error errno =>
                let sheep := { sheep with naciom := -1 }
                openFail openMax nacfd ((s.put (update herd nacfd sheep)).fail errno)
            | .ok naciom =>
                let s := s.obtain naciom
                let sheep := { sheep with naciom := naciom }
                match o.ioctl with
                | .error errno =>
                    openFail openMax nacfd ((s.put (update herd nacfd sheep)).fail errno)
                | .ok nacinf =>
                    let sheep := { sheep with nacinf := nacinf, opened := true }
                    match nacInfo sheep with
                    | none => openFail openMax nacfd ((s.put (update herd nacfd sheep)).fail EBADF)
                    | some info =>
                        match o.mmap with
                        | .error errno =>
                            let sheep := { sheep with iom := MAP_FAILED }
                            openFail openMax nacfd ((s.put (update herd nacfd sheep)).fail errno)
                        | .ok addr =>
                            let sheep := { sheep with iom := addr }
                            .returned nacfd
                              ((s.put (update herd nacfd sheep)).map addr info.iomSize)

/-- `nac_close`: both descriptors and the mapping, and the entry as it was before. -/
def nacClose (openMax : Nat) (s : Proc) (nacfd : Int) : Outcome :=
  match s.herd with
  | none => .nullHerd
  | some herd =>
      if 0 ≤ nacfd ∧ nacfd < openMax then
        let sheep := herd nacfd.toNat
        if !sheep.opened then .returned (-1) (s.fail EBADF)
        else
          let s := s.close sheep.naciom
          let s := if sheep.iom ≠ NULL then s.munmap sheep.iom sheep.nacinf.iomSize else s
          let s := s.put (update herd nacfd.toNat .initial)
          .returned (if nacfd ∈ s.fds then 0 else -1) (s.close nacfd)
      else .outside nacfd

/-! ## Calls in any order -/

/-- A call of `nac_open` or `nac_close`. -/
inductive Call where
  | openCard (nacname : String) (o : Answers)
  | closeCard (nacfd : Int)

/-- How it ends. -/
def call (openMax : Nat) (s : Proc) : Call → Outcome
  | .openCard nacname o => nacOpen openMax s nacname o
  | .closeCard nacfd => nacClose openMax s nacfd

/-- A descriptor, or an address, that is none of these. -/
def New (fds : List Int) : Except Int Nat → Prop
  | .error _ => True
  | .ok fd => (fd : Int) ∉ fds

instance (fds : List Int) : ∀ answer, Decidable (New fds answer)
  | .error _ => .isTrue trivial
  | .ok fd => inferInstanceAs (Decidable ((fd : Int) ∉ fds))

/-- What the system may answer: descriptors that are not in use, and no mapping at 0. -/
def Possible (s : Proc) : Call → Prop
  | .openCard nacname o =>
      match o.device with
      | .error _ => True
      | .ok nacfd => (nacfd : Int) ∉ s.fds ∧
          New (nacfd :: s.fds) (nacClone o nacname NACMINOR_IOM) ∧ New [NULL] o.mmap
  | .closeCard _ => True

instance (s : Proc) : ∀ c, Decidable (Possible s c)
  | .openCard _ ⟨.error _, _, _, _, _, _, _⟩ => .isTrue trivial
  | .openCard _ ⟨.ok _, _, _, _, _, _, _⟩ => inferInstanceAs (Decidable (_ ∧ _))
  | .closeCard _ => .isTrue trivial

/-- The process after a call that has returned. -/
def Outcome.state : Outcome → Option Proc
  | .returned _ s => some s
  | _ => none

/-- A process that opens and closes cards, until a call does not return. -/
def library (openMax : Nat) : Machine Proc Call where
  init s := s = {}
  step s c := if Possible s c then (call openMax s c).state else none

/-! ## The property -/

/-- The descriptors an entry stands for. -/
def Sheep.fds (nacfd : Nat) (sheep : Sheep) : Multiset Int :=
  if sheep.opened then {(nacfd : Int), sheep.naciom} else 0

/-- The mapping an entry stands for. -/
def Sheep.maps (sheep : Sheep) : Multiset (Int × Nat) :=
  if sheep.opened then {(sheep.iom, sheep.nacinf.iomSize)} else 0

namespace Sheep

variable {sheep : Sheep}

theorem fds_opened (h : sheep.opened = true) (nacfd : Nat) :
    sheep.fds nacfd = {(nacfd : Int), sheep.naciom} := if_pos h

theorem fds_closed (h : sheep.opened = false) (nacfd : Nat) : sheep.fds nacfd = 0 := by
  simp [fds, h]

theorem initial_closed : initial.opened = false := rfl

theorem maps_opened (h : sheep.opened = true) :
    sheep.maps = {(sheep.iom, sheep.nacinf.iomSize)} := if_pos h

theorem maps_closed (h : sheep.opened = false) : sheep.maps = 0 := by
  simp [maps, h]

end Sheep

/-- As an entry is when the table is made, the name and what `ioctl` stores apart. -/
def Sheep.Idle (sheep : Sheep) : Prop :=
  sheep.opened = false ∧ sheep.naciom = -1 ∧ sheep.iom = NULL

/-- **What is held is what the opened entries name.** -/
structure Balanced (openMax : Nat) (s : Proc) : Prop where
  fds : (s.fds : Multiset Int) = accounted Sheep.fds s.entries openMax
  maps : (s.maps : Multiset (Int × Nat)) = accounted (fun _ => Sheep.maps) s.entries openMax
  idle : ∀ nacfd < openMax, (s.entries nacfd).opened = false → (s.entries nacfd).Idle

/-- A call that opens nothing has obtained nothing, and its entry is idle. -/
def Undone (s s' : Proc) : Call → Prop
  | .openCard _ o =>
      s'.fds = s.fds ∧ s'.maps = s.maps ∧ ∀ nacfd, o.device = .ok nacfd → (s'.entries nacfd).Idle
  | .closeCard _ => True

/-- **A call that keeps the balance**, and returns. -/
def Clean (openMax : Nat) (s : Proc) (c : Call) : Prop :=
  ∃ rc s', call openMax s c = .returned rc s' ∧ Balanced openMax s' ∧ (rc < 0 → Undone s s' c)

/-- Every step of `nac_open` after the first succeeds. -/
structure Granted (openMax : Nat) (s : Proc) (nacname : String) (o : Answers) (nacfd : Nat) :
    Prop where
  table : (herdAlloc o s).isOk = true
  below : nacfd < openMax
  name : nacname.utf8ByteSize < NACNAME_SIZE
  companion : (nacClone o nacname NACMINOR_IOM).isOk = true
  ioctl : o.ioctl.isOk = true
  mmap : o.mmap.isOk = true

instance (openMax : Nat) (s : Proc) (nacname : String) (o : Answers) (nacfd : Nat) :
    Decidable (Granted openMax s nacname o nacfd) :=
  decidable_of_iff ((herdAlloc o s).isOk = true ∧ nacfd < openMax ∧
      nacname.utf8ByteSize < NACNAME_SIZE ∧ (nacClone o nacname NACMINOR_IOM).isOk = true ∧
      o.ioctl.isOk = true ∧ o.mmap.isOk = true)
    ⟨fun ⟨table, below, name, companion, ioctl, mmap⟩ =>
        ⟨table, below, name, companion, ioctl, mmap⟩,
      fun h => ⟨h.table, h.below, h.name, h.companion, h.ioctl, h.mmap⟩⟩

/-- The device is refused, or all the rest is granted; there is a table, and an entry to close. -/
def CallFits (openMax : Nat) (s : Proc) : Call → Prop
  | .openCard nacname o =>
      match o.device with
      | .error _ => True
      | .ok nacfd => Granted openMax s nacname o nacfd
  | .closeCard nacfd => s.herd.isSome = true ∧ 0 ≤ nacfd ∧ nacfd < openMax

instance (openMax : Nat) (s : Proc) : ∀ c, Decidable (CallFits openMax s c)
  | .openCard _ ⟨.error _, _, _, _, _, _, _⟩ => .isTrue trivial
  | .openCard nacname ⟨.ok nacfd, malloc, regcomp, regexec, companion, ioctl, mmap⟩ =>
      inferInstanceAs (Decidable (Granted openMax s nacname
        ⟨.ok nacfd, malloc, regcomp, regexec, companion, ioctl, mmap⟩ nacfd))
  | .closeCard _ => inferInstanceAs (Decidable (_ ∧ _))

/-! ## What the calls do -/

section Steps

variable {openMax nacfd : Nat} {s s' : Proc} {nacname : String} {o : Answers} {rc : Int}

/-- Both descriptors obtained, the entry filled in, the registers mapped. -/
def Proc.opened (s : Proc) (nacfd : Nat) (nacname : String) (naciom : Nat) (nacinf : Nacinf)
    (addr : Nat) : Proc :=
  (((s.obtain nacfd).obtain naciom).put
    (update s.entries nacfd ⟨nacname, naciom, addr, nacinf, true⟩)).map addr nacinf.iomSize

theorem not_isOk {α : Type} {answer : Except Int α} {errno : Int} (h : answer = .error errno) :
    ¬answer.isOk = true := by
  rw [h]
  exact Bool.false_ne_true

theorem isOk_of_eq {α : Type} {answer : Except Int α} {a : α} (h : answer = .ok a) :
    answer.isOk = true := by
  rw [h]
  rfl

theorem herdAlloc_eq {herd : Nat → Sheep} (h : herdAlloc o s = .ok herd) : herd = s.entries := by
  unfold herdAlloc at h
  unfold Proc.entries
  cases hherd : s.herd with
  | some herd' =>
      rw [hherd] at h
      cases h
      rfl
  | none =>
      rw [hherd] at h
      cases hmalloc : o.malloc with
      | error errno =>
          rw [hmalloc] at h
          cases h
      | ok u =>
          rw [hmalloc] at h
          cases h
          rfl

/-- **All is granted**, or `fail` is reached with the descriptor of the device still open, or the
name is too long. -/
theorem nacOpen_cases (hdevice : o.device = .ok nacfd) :
    (Granted openMax s nacname o nacfd ∧ ∃ naciom nacinf addr,
      nacClone o nacname NACMINOR_IOM = .ok naciom ∧ o.mmap = .ok addr ∧
      nacOpen openMax s nacname o
        = .returned nacfd (s.opened nacfd nacname naciom nacinf addr)) ∨
    ¬Granted openMax s nacname o nacfd ∧ ((∃ t : Proc,
      nacOpen openMax s nacname o = openFail openMax nacfd t ∧ s.fds.length < t.fds.length) ∨
      nacOpen openMax s nacname o = .overrun nacfd) := by
  have hone : s.fds.length < (s.obtain nacfd).fds.length := Nat.lt_succ_self _
  unfold nacOpen
  rw [hdevice]
  dsimp only
  cases htable : herdAlloc o (s.obtain nacfd) with
  | error errno =>
      exact .inr ⟨fun h => not_isOk htable h.table, .inl ⟨_, rfl, hone⟩⟩
  | ok herd =>
      obtain rfl : herd = s.entries := herdAlloc_eq htable
      dsimp only
      split_ifs with hbelow hname
      · exact .inr ⟨fun h => absurd h.below (not_lt.2 hbelow), .inl ⟨_, rfl, hone⟩⟩
      · exact .inr ⟨fun h => absurd h.name (not_lt.2 hname), .inr rfl⟩
      cases hclone : nacClone o nacname NACMINOR_IOM with
      | error errno =>
          exact .inr ⟨fun h => not_isOk hclone h.companion, .inl ⟨_, rfl, hone⟩⟩
      | ok naciom =>
          have htwo : s.fds.length < ((s.obtain nacfd).obtain naciom).fds.length :=
            hone.trans (Nat.lt_succ_self _)
          dsimp only
          cases hioctl : o.ioctl with
          | error errno =>
              exact .inr ⟨fun h => not_isOk hioctl h.ioctl, .inl ⟨_, rfl, htwo⟩⟩
          | ok nacinf =>
              cases hmmap : o.mmap with
              | error errno =>
                  exact .inr ⟨fun h => not_isOk hmmap h.mmap, .inl ⟨_, rfl, htwo⟩⟩
              | ok addr =>
                  have hgranted : Granted openMax s nacname o nacfd :=
                    ⟨isOk_of_eq htable, not_le.1 hbelow, not_le.1 hname, isOk_of_eq hclone,
                      isOk_of_eq hioctl, isOk_of_eq hmmap⟩
                  exact .inl ⟨hgranted, naciom, nacinf, addr, rfl, rfl, rfl⟩

/-- The label gives nothing back. -/
theorem openFail_returned (h : openFail openMax nacfd s = .returned rc s') :
    rc = -1 ∧ s'.fds = s.fds := by
  unfold openFail at h
  by_cases hpos : nacfd > 0
  · rw [if_pos hpos] at h
    cases hherd : s.herd with
    | none =>
        rw [hherd] at h
        cases h
    | some herd =>
        rw [hherd] at h
        dsimp only at h
        split_ifs at h
        cases h
        exact ⟨rfl, rfl⟩
  · rw [if_neg hpos] at h
    cases h
    exact ⟨rfl, rfl⟩

/-! ## The balance -/

theorem Balanced.start : Balanced openMax {} := by
  refine ⟨?_, ?_, fun nacfd _ _ => ⟨rfl, rfl, rfl⟩⟩
  · exact (accounted_eq_zero fun _ _ => rfl).symm
  · exact (accounted_eq_zero fun _ _ => rfl).symm

/-- A new descriptor is not that of an opened entry. -/
theorem Balanced.opened_false (h : Balanced openMax s) (hbelow : nacfd < openMax)
    (hnew : (nacfd : Int) ∉ s.fds) : (s.entries nacfd).opened = false := by
  rw [← Bool.not_eq_true]
  intro hopened
  apply hnew
  rw [← Multiset.mem_coe, h.fds]
  apply mem_accounted hbelow
  simp [Sheep.fds, hopened]

theorem Balanced.open (h : Balanced openMax s) (hbelow : nacfd < openMax)
    (hnew : (nacfd : Int) ∉ s.fds) (naciom : Nat) (nacinf : Nacinf) (addr : Nat) :
    Balanced openMax (s.opened nacfd nacname naciom nacinf addr) := by
  have hclosed := h.opened_false hbelow hnew
  refine ⟨?fds, ?maps, ?idle⟩
  case fds =>
    refine Eq.trans ?_ (accounted_fill hbelow _ (Sheep.fds_closed hclosed nacfd)).symm
    rw [Sheep.fds_opened rfl, ← h.fds]
    show ((naciom :: nacfd :: s.fds : List Int) : Multiset Int) = _
    simp only [← Multiset.cons_coe, Multiset.insert_eq_cons, ← Multiset.singleton_add]
    abel
  case maps =>
    refine Eq.trans ?_ (accounted_fill hbelow _ (Sheep.maps_closed hclosed)).symm
    rw [Sheep.maps_opened rfl, ← h.maps]
    show (((addr, nacinf.iomSize) :: s.maps : List (Int × Nat)) : Multiset (Int × Nat)) = _
    rw [← Multiset.cons_coe, add_comm, Multiset.singleton_add]
  case idle =>
    apply (forall_update_iff s.entries (p := fun i sheep =>
      i < openMax → sheep.opened = false → sheep.Idle)).2
    exact ⟨fun _ hfalse => (nomatch hfalse), fun i _ => h.idle i⟩

/-- Both descriptors closed, the registers unmapped, the entry cleared. -/
def Proc.closed (s : Proc) (nacfd : Nat) : Proc :=
  let sheep := s.entries nacfd
  (((s.close sheep.naciom).munmap sheep.iom sheep.nacinf.iomSize).put
    (update s.entries nacfd .initial)).close nacfd

theorem Proc.closed_entries :
    (s.closed nacfd).entries = update s.entries nacfd .initial := by
  rw [Proc.closed, Proc.entries, Proc.close_herd]
  rfl

theorem Balanced.close (h : Balanced openMax s) (hbelow : nacfd < openMax)
    (hopened : (s.entries nacfd).opened = true) : Balanced openMax (s.closed nacfd) := by
  have hentries : (s.closed nacfd).entries = update s.entries nacfd .initial := Proc.closed_entries
  refine ⟨?fds, ?maps, ?idle⟩
  case fds =>
    have hall := h.fds.trans (accounted_clear hbelow (Sheep.fds_closed Sheep.initial_closed nacfd))
    rw [Sheep.fds_opened hopened, Multiset.insert_eq_cons, add_comm, Multiset.cons_add,
      Multiset.singleton_add, Multiset.cons_swap] at hall
    rw [hentries]
    apply Proc.close_fds
    show ((Proc.munmap _ _ _).fds : Multiset Int) = _
    rw [Proc.munmap_fds]
    exact Proc.close_fds hall
  case maps =>
    have hall := h.maps.trans (accounted_clear hbelow (Sheep.maps_closed Sheep.initial_closed))
    rw [Sheep.maps_opened hopened, add_comm, Multiset.singleton_add] at hall
    rw [hentries, Proc.closed, Proc.close_maps]
    apply Proc.munmap_maps
    rw [Proc.close_maps]
    exact hall
  case idle =>
    rw [hentries]
    apply (forall_update_iff s.entries (p := fun i sheep =>
      i < openMax → sheep.opened = false → sheep.Idle)).2
    exact ⟨fun _ _ => ⟨rfl, rfl, rfl⟩, fun i _ => h.idle i⟩

/-! ## Every call -/

/-- `Balanced`, and `nac_close` unmaps what `nac_open` has mapped. -/
structure Kept (openMax : Nat) (s : Proc) : Prop extends Balanced openMax s where
  mapped : ∀ nacfd < openMax, (s.entries nacfd).opened = true → (s.entries nacfd).iom ≠ NULL

theorem Kept.fail (h : Kept openMax s) (errno : Int) : Kept openMax (s.fail errno) :=
  ⟨⟨h.fds, h.maps, h.idle⟩, h.mapped⟩

theorem nacClose_closed {herd : Nat → Sheep} (hherd : s.herd = some herd) (hbelow : nacfd < openMax)
    (hopened : (s.entries nacfd).opened = false) :
    nacClose openMax s nacfd = .returned (-1) (s.fail EBADF) := by
  have hentries : herd = s.entries := by rw [Proc.entries, hherd, Option.getD_some]
  rw [nacClose, hherd]
  dsimp only
  rw [if_pos ⟨Int.natCast_nonneg _, Int.ofNat_lt.2 hbelow⟩, Int.toNat_natCast, hentries, hopened]
  rfl

theorem nacClose_opened {herd : Nat → Sheep} (hherd : s.herd = some herd) (hbelow : nacfd < openMax)
    (hopened : (s.entries nacfd).opened = true) (hiom : (s.entries nacfd).iom ≠ NULL) :
    ∃ rc, nacClose openMax s nacfd = .returned rc (s.closed nacfd) := by
  have hentries : herd = s.entries := by rw [Proc.entries, hherd, Option.getD_some]
  rw [nacClose, hherd]
  dsimp only
  rw [if_pos ⟨Int.natCast_nonneg _, Int.ofNat_lt.2 hbelow⟩, Int.toNat_natCast, hentries, hopened,
    if_pos hiom]
  exact ⟨_, rfl⟩

/-- Without a table, or behind it, `nac_close` does not return. -/
theorem nacClose_returned {nacfd : Int} (h : nacClose openMax s nacfd = .returned rc s') :
    CallFits openMax s (.closeCard nacfd) := by
  unfold nacClose at h
  cases hherd : s.herd with
  | none =>
      rw [hherd] at h
      cases h
  | some herd =>
      rw [hherd] at h
      dsimp only at h
      by_cases hrange : 0 ≤ nacfd ∧ nacfd < openMax
      · refine ⟨?_, hrange⟩
        rw [hherd]
        rfl
      · rw [if_neg hrange] at h
        cases h

/-- **The step lemma.** -/
theorem Kept.call {c : Call} (h : Kept openMax s) (hpossible : Possible s c)
    (hfits : CallFits openMax s c) :
    ∃ rc s', call openMax s c = .returned rc s' ∧ Kept openMax s' ∧ (rc < 0 → Undone s s' c) := by
  cases c with
  | openCard nacname o =>
      cases hdevice : o.device with
      | error errno =>
          refine ⟨-1, s.fail errno, ?_, h.fail errno, fun _ => ⟨rfl, rfl, ?_⟩⟩
          · rw [Lib.call, nacOpen, hdevice]
          · intro nacfd hnacfd
            cases hdevice.symm.trans hnacfd
      | ok nacfd =>
          rw [CallFits, hdevice] at hfits
          rw [Possible, hdevice] at hpossible
          dsimp only at hfits hpossible
          obtain ⟨hnew, -, hnull⟩ := hpossible
          obtain ⟨-, naciom, nacinf, addr, -, hmmap, hopen⟩ | ⟨hnot, -⟩ :=
            @nacOpen_cases openMax nacfd s nacname o hdevice
          · refine ⟨nacfd, _, hopen, ⟨h.toBalanced.open hfits.below hnew naciom nacinf addr, ?_⟩, ?_⟩
            · rw [hmmap] at hnull
              apply (forall_update_iff s.entries (p := fun i sheep =>
                i < openMax → sheep.opened = true → sheep.iom ≠ NULL)).2
              exact ⟨fun _ _ hzero => hnull (List.mem_singleton.2 hzero), fun i _ => h.mapped i⟩
            · intro hneg
              exact absurd hneg (not_lt.2 (Int.natCast_nonneg nacfd))
          · exact absurd hfits hnot
  | closeCard nacfd =>
      obtain ⟨hsome, hpos, hlt⟩ := hfits
      obtain ⟨herd, hherd⟩ := Option.isSome_iff_exists.1 hsome
      lift nacfd to Nat using hpos
      have hbelow : nacfd < openMax := Int.ofNat_lt.1 hlt
      cases hopened : (s.entries nacfd).opened with
      | false => exact ⟨-1, _, nacClose_closed hherd hbelow hopened, h.fail EBADF, fun _ => trivial⟩
      | true =>
          obtain ⟨rc, hclose⟩ := nacClose_opened hherd hbelow hopened (h.mapped nacfd hbelow hopened)
          refine ⟨rc, _, hclose, ⟨h.toBalanced.close hbelow hopened, ?_⟩, fun _ => trivial⟩
          rw [Proc.closed_entries]
          apply (forall_update_iff s.entries (p := fun i sheep =>
            i < openMax → sheep.opened = true → sheep.iom ≠ NULL)).2
          exact ⟨fun _ hfalse => (nomatch hfalse), fun i _ => h.mapped i⟩

/-- A call that does not fit is not clean. -/
theorem CallFits.of_clean {c : Call} (h : Clean openMax s c) : CallFits openMax s c := by
  obtain ⟨rc, s', hcall, -, hundone⟩ := h
  cases c with
  | openCard nacname o =>
      rw [CallFits]
      cases hdevice : o.device with
      | error errno => trivial
      | ok nacfd =>
          obtain ⟨hgranted, -⟩ | ⟨-, ⟨t, hfail, hmore⟩ | hname⟩ :=
            @nacOpen_cases openMax nacfd s nacname o hdevice
          · exact hgranted
          · obtain ⟨hrc, hfds⟩ := openFail_returned (hfail.symm.trans hcall)
            have hsame := (hundone (by rw [hrc]; decide)).1
            rw [← hfds, hsame] at hmore
            exact absurd hmore (lt_irrefl _)
          · cases hname.symm.trans hcall
  | closeCard nacfd => exact nacClose_returned hcall

end Steps

/-- **Descriptors and mappings balance**, over all runs of calls that fit: what is held is what the
opened entries name, and the next call keeps it so if and only if it fits. -/
theorem nac_open_close_balanced {openMax : Nat} {s : Proc}
    (h : (library openMax).Reach (CallFits openMax) s) :
    Balanced openMax s ∧ ∀ c, Possible s c → (Clean openMax s c ↔ CallFits openMax s c) := by
  have hkept : Kept openMax s := by
    refine h.invariant ?_ fun t c t' ht hfits hstep => ?_
    · rintro _ rfl
      exact ⟨.start, fun _ _ hopened => by cases hopened⟩
    · change (if Possible t c then (call openMax t c).state else none) = some t' at hstep
      split_ifs at hstep with hpossible
      obtain ⟨rc, t'', hcall, hkept, -⟩ := ht.call hpossible hfits
      rw [hcall] at hstep
      cases hstep
      exact hkept
  refine ⟨hkept.toBalanced, fun c hpossible => ⟨CallFits.of_clean, fun hfits => ?_⟩⟩
  obtain ⟨rc, s', hcall, hkept', hundone⟩ := hkept.call hpossible hfits
  exact ⟨rc, s', hcall, hkept'.toBalanced, hundone⟩

/-! ## Two cards -/

/-- Everything is granted. -/
def granted (nacfd naciom addr : Nat) : Answers :=
  { device := .ok nacfd
    regexec := fun _ => some 9
    companion := fun _ => .ok naciom
    ioctl := .ok ⟨0x100000⟩
    mmap := .ok addr }

/-- Both are opened and the first is closed. -/
theorem open_two_close_one : ∃ s : Proc,
    (s.fds, s.maps) = ([6, 5], [(0x40200000, 0x100000)]) ∧ Balanced 16 s := by
  have hstart : (library 16).Reach (CallFits 16) {} := .start rfl
  obtain ⟨s, hreach, hs⟩ := Machine.exists_reach_of_run hstart
    [.openCard "/dev/nac0" (granted 3 4 0x40000000), .openCard "/dev/nac1" (granted 5 6 0x40200000),
      .closeCard 3]
    (fun s => (s.fds, s.maps)) ([6, 5], [(0x40200000, 0x100000)]) (by decide +kernel)
  exact ⟨s, hs, (nac_open_close_balanced hreach).1⟩

/-- An `ioctl` that is refused: no entry is opened, both descriptors stay open, and the entry names
the descriptor 0. Where there is no memory for the table, `fail` clears an entry of it. -/
theorem refused_ioctl_leaks :
    (∃ s : Proc, (library 16).Reach (fun _ _ => True) s ∧
      (s.fds, s.maps, accounted Sheep.fds s.entries 16, (s.entries 3).naciom) = ([4, 3], [], 0, 0) ∧
        ¬Balanced 16 s) ∧
    (Possible {} (.openCard "/dev/nac0" { granted 3 4 0x40000000 with malloc := .error 12 }) ∧
      nacOpen 16 {} "/dev/nac0" { granted 3 4 0x40000000 with malloc := .error 12 }
        = .nullHerd) := by
  have hstart : (library 16).Reach (fun _ _ => True) {} := .start rfl
  obtain ⟨s, hreach, hs⟩ := Machine.exists_reach_of_run hstart
    [.openCard "/dev/nac0" { granted 3 4 0x40000000 with ioctl := .error 25 }]
    (fun s => (s.fds, s.maps, accounted Sheep.fds s.entries 16, (s.entries 3).naciom))
    ([4, 3], [], 0, 0) (by decide +kernel)
  refine ⟨⟨s, hreach, hs, fun hbalanced => ?_⟩, by decide +kernel, rfl⟩
  have hcard := congrArg Multiset.card hbalanced.fds
  rw [Prod.mk.injEq, Prod.mk.injEq, Prod.mk.injEq] at hs
  rw [hs.1, hs.2.2.1] at hcard
  cases hcard

end NacCard.Lib
