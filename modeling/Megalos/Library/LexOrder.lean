import Mathlib.Algebra.Order.Group.Nat
import Mathlib.Order.Monotone.Basic
import Mathlib.Tactic.Ring

/-!
Lexicographic order, as an `Ordering`: lists that start with pieces of one length,
numbers written with a fixed count of digits, and numbers made of a place on one scale
and an offset below that place's size.
-/

namespace LexOrder

section Lists

variable {α β : Type} [Ord α] [Ord β]

theorem compare_append {left right : List α} (alike : left.length = right.length)
    (rest other : List α) :
    compare (left ++ rest) (right ++ other) = (compare left right).then (compare rest other) := by
  induction left generalizing right with
  | nil =>
      rw [List.length_eq_zero_iff.mp alike.symm]
      rfl
  | cons first left ih =>
      cases right with
      | nil => cases alike
      | cons second right =>
          have tail := ih (Nat.succ.inj alike)
          rw [List.cons_append, List.cons_append, List.compare_cons_cons, List.compare_cons_cons,
            tail, Ordering.then_assoc]

theorem compare_map {symbol : α → β} {left right : List α}
    (faithful : ∀ first ∈ left, ∀ second ∈ right,
      compare (symbol first) (symbol second) = compare first second) :
    compare (left.map symbol) (right.map symbol) = compare left right := by
  induction left generalizing right with
  | nil => cases right <;> rfl
  | cons first left ih =>
      cases right with
      | nil => rfl
      | cons second right =>
          have tail := ih fun one member other there =>
            faithful one (List.mem_cons_of_mem first member) other (List.mem_cons_of_mem second there)
          rw [List.map_cons, List.map_cons, List.compare_cons_cons, List.compare_cons_cons, tail,
            faithful first List.mem_cons_self second List.mem_cons_self]

end Lists

section Places

variable {start size : Nat → Nat}

theorem start_le (next : ∀ place, start place + size place ≤ start (place + 1)) {place later : Nat}
    (before : place ≤ later) : start place ≤ start later :=
  monotone_nat_of_le_succ (fun place => le_trans (Nat.le_add_right _ _) (next place)) before

theorem compare_places (next : ∀ place, start place + size place ≤ start (place + 1))
    {place other offset shift : Nat} (within : offset < size place) (inside : shift < size other) :
    compare (start place + offset)
    (start other + shift) = (compare place other).then (compare offset shift) := by
  rcases Nat.lt_trichotomy place other with earlier | rfl | later
  · have ahead : start (place + 1) ≤ start other := start_le next earlier
    have room := next place
    rw [Nat.compare_eq_lt.mpr earlier, Nat.compare_eq_lt.mpr (by omega)]
    rfl
  · rw [Nat.compare_eq_eq.mpr rfl, Ordering.eq_then]
    rcases Nat.lt_trichotomy offset shift with less | rfl | more
    · rw [Nat.compare_eq_lt.mpr less, Nat.compare_eq_lt.mpr (by omega)]
    · rw [Nat.compare_eq_eq.mpr rfl, Nat.compare_eq_eq.mpr rfl]
    · rw [Nat.compare_eq_gt.mpr more, Nat.compare_eq_gt.mpr (by omega)]
  · have ahead : start (other + 1) ≤ start place := start_le next later
    have room := next other
    rw [Nat.compare_eq_gt.mpr later, Nat.compare_eq_gt.mpr (by omega)]
    rfl

theorem compare_radix {base high low high' low' : Nat} (within : low < base)
    (inside : low' < base) :
    compare (high * base + low)
    (high' * base + low') = (compare high high').then (compare low low') := by
  have next : ∀ place, place * base + base ≤ (place + 1) * base :=
    fun place => (Nat.succ_mul place base).ge
  exact @compare_places (fun place => place * base)
    (fun _ => base) next high high' low low' within inside

end Places

section Digits

def digits (base : Nat) : Nat → Nat → List Nat
  | 0, _ => []
  | width + 1, value => value / base ^ width % base :: digits base width value

variable {base : Nat}

@[simp] theorem digits_length (width value : Nat) : (digits base width value).length = width := by
  induction width with
  | zero => rfl
  | succ width ih => rw [digits, List.length_cons, ih]

theorem digits_lt (positive : 0 < base) {width value digit : Nat}
    (member : digit ∈ digits base width value) :
    digit < base := by
  induction width with
  | zero => cases member
  | succ width ih =>
      rcases List.mem_cons.mp member with rfl | later
      · exact Nat.mod_lt _ positive
      · exact ih later

theorem compare_digits (positive : 0 < base) (width value other : Nat) :
    compare (digits base width value) (digits base width other) =
      compare (value % base ^ width) (other % base ^ width) := by
  induction width with
  | zero =>
      rw [Nat.pow_zero, Nat.mod_one, Nat.mod_one]
      rfl
  | succ width ih =>
      have below : ∀ number, number % base ^ width < base ^ width := fun number =>
        Nat.mod_lt number (Nat.pow_pos positive)
      have split : ∀ number, number % base ^ (width + 1) =
          (number / base ^ width % base) * base ^ width + number % base ^ width := by
        intro number
        rw [Nat.mod_pow_succ]
        ring
      rw [digits, digits, List.compare_cons_cons, ih, split value, split other,
        compare_radix (below _) (below _)]

end Digits

end LexOrder
