import Mathlib

/-!
# Streams in a ring buffer

A stream of bytes of any length is laid out over and over in a ring of `size`
slots: the byte with index `k` goes to slot `k % size`.  A ring is a function on
slot numbers, a byte any type.

* `Holds` — the ring still contains the bytes of a stream from some index on.
* `Holds.push` — appending a byte, as long as it does not catch up with the
  oldest byte that is still wanted; `Holds.mono` and `Holds.of_prefix` — wanting
  fewer bytes.
* `slot_lt`, `slot_wrap` — the slot of a byte whose distance from a lap's start is
  known, before and after the end of the ring.
* `prefix_snoc` — extending a prefix by the byte that comes next.
* `Shows`, `Shows.push`, `Shows.mono` — the same for a stream given as a function
  on indices, of which the bytes `lo ≤ k < hi` are in the ring.
-/

namespace NacCard.Base

variable {β : Type} {size : Nat}

/-! ## Slots -/

/-- Two bytes less than a lap apart lie in different slots. -/
theorem mod_ne_of_lt {i j : Nat} (hij : i < j) (h : j < i + size) : i % size ≠ j % size := by
  intro heq
  have hdvd : size ∣ j - i := (Nat.modEq_iff_dvd' hij.le).1 heq
  have hle := Nat.le_of_dvd (by omega) hdvd
  omega

theorem slot_lt {a o : Nat} (h : o < size) : (a * size + o) % size = o := by
  rw [Nat.mul_comm, Nat.mul_add_mod, Nat.mod_eq_of_lt h]

theorem slot_wrap {a o : Nat} (h1 : size ≤ o) (h2 : o < 2 * size) :
    (a * size + o) % size = o - size := by
  have hsplit : a * size + o = (a + 1) * size + (o - size) := by
    rw [Nat.succ_mul]
    omega
  rw [hsplit]
  exact slot_lt (by omega)

/-! ## What a ring holds -/

/-- The ring contains the bytes of `l` from index `lo` on. -/
def Holds (size : Nat) (ring : Nat → β) (l : List β) (lo : Nat) : Prop :=
  ∀ k, lo ≤ k → k < l.length → l[k]? = some (ring (k % size))

namespace Holds

variable {ring : Nat → β} {l : List β} {lo : Nat}

theorem of_length_le (h : l.length ≤ lo) : Holds size ring l lo := by
  intro k hk hlt
  omega

theorem mono {lo' : Nat} (h : Holds size ring l lo) (hle : lo ≤ lo') : Holds size ring l lo' :=
  fun k hk hlt => h k (hle.trans hk) hlt

theorem of_prefix {l' : List β} (h : Holds size ring l lo) (hp : l' <+: l) :
    Holds size ring l' lo := by
  intro k hk hlt
  rw [← h k hk (hlt.trans_le hp.length_le)]
  exact (List.prefix_iff_getElem?.1 hp k hlt).symm ▸ (List.getElem?_eq_getElem hlt)

/-- **Appending a byte** overwrites nothing that is still wanted, as long as fewer
than `size` bytes are. -/
theorem push (h : Holds size ring l lo) (hroom : l.length < lo + size) (b : β) :
    Holds size (Function.update ring (l.length % size) b) (l ++ [b]) lo := by
  intro k hk hlt
  rw [List.length_append, List.length_singleton] at hlt
  by_cases hlast : k = l.length
  · subst hlast
    rw [List.getElem?_concat_length, Function.update_self]
  · have hkl : k < l.length := by omega
    have hne : k % size ≠ l.length % size := mod_ne_of_lt hkl (by omega)
    rw [List.getElem?_append_left hkl, Function.update_of_ne hne]
    exact h k hk hkl

end Holds

/-- The byte that follows a prefix extends it. -/
theorem prefix_snoc {l' l : List β} {b : β} (h : l' <+: l) (hb : l[l'.length]? = some b) :
    l' ++ [b] <+: l := by
  obtain ⟨t, rfl⟩ := h
  rw [List.getElem?_append_right le_rfl, Nat.sub_self] at hb
  obtain ⟨c, u, rfl⟩ : ∃ c u, t = c :: u := by
    cases t with
    | nil => simp at hb
    | cons c u => exact ⟨c, u, rfl⟩
  rw [List.getElem?_cons_zero] at hb
  cases hb
  exact ⟨u, by simp⟩

/-! ## Streams given as functions -/

/-- The ring contains the bytes `lo ≤ k < hi` of `data`. -/
def Shows (size : Nat) (ring data : Nat → β) (lo hi : Nat) : Prop :=
  ∀ k, lo ≤ k → k < hi → ring (k % size) = data k

namespace Shows

variable {ring data : Nat → β} {lo hi : Nat}

theorem mono {lo' : Nat} (h : Shows size ring data lo hi) (hle : lo ≤ lo') :
    Shows size ring data lo' hi :=
  fun k hk hlt => h k (hle.trans hk) hlt

/-- The next byte overwrites nothing that is still wanted. -/
theorem push (h : Shows size ring data lo hi) (hroom : hi < lo + size) :
    Shows size (Function.update ring (hi % size) (data hi)) data lo (hi + 1) := by
  intro k hk hlt
  by_cases hlast : k = hi
  · rw [hlast, Function.update_self]
  · have hne : k % size ≠ hi % size := mod_ne_of_lt (by omega) (by omega)
    rw [Function.update_of_ne hne]
    exact h k hk (by omega)

end Shows

end NacCard.Base
