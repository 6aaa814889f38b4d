import Mathlib.Algebra.Order.Round
import Mathlib.Data.Int.Log
import Mathlib.Data.Rat.Floor
import Mathlib.Tactic.Linarith
import Mathlib.Tactic.NormNum
import Mathlib.Tactic.Positivity
import Mathlib.Tactic.Ring

/-!
Rounding of rationals to the floats of 53 bits, the even one of two as near, and the
order that it keeps.
-/

namespace Binary64

def nearestEven (value : Rat) : Int :=
  let below := ⌊value⌋
  if value - below < 1 / 2 then below
  else if 1 / 2 < value - below then below + 1
  else if below % 2 = 0 then below
  else below + 1

def exponent (value : Rat) : Int := max (Int.log 2 |value| - 52) (-1074)

def nearest (value : Rat) : Rat := nearestEven (value / 2 ^ exponent value) * 2 ^ exponent value

def OnGrid (value : Rat) : Prop :=
  ∃ mantissa place : Int, value = mantissa * 2 ^ place ∧ |mantissa| ≤ 2 ^ 53 ∧ -1074 ≤ place

/-- The least magnitude that rounds beyond every float. -/
@[irreducible] def overflow : Int := 2 ^ 1024 - 2 ^ 970

/-- `float(value)`; `none` is what is too large for a float. -/
def ofInt? (value : Int) : Option Rat :=
  if |value| < overflow then some (nearest value) else none

variable {value lower upper : Rat} {mantissa place : Int}

/-! The nearest integer. -/

theorem nearestEven_bounds (value : Rat) : |(nearestEven value : Rat) - value| ≤ 1 / 2 := by
  have floor := Int.floor_le value
  have ceiling := Int.lt_floor_add_one value
  unfold nearestEven
  dsimp only
  rw [abs_le]
  split
  · constructor <;> linarith
  split
  · push_cast
    constructor <;> linarith
  split
  · constructor <;> linarith
  · push_cast
    constructor <;> linarith

theorem nearestEven_int (value : Int) : nearestEven value = value := by
  simp [nearestEven]

theorem nearestEven_mono (ordered : lower ≤ upper) : nearestEven lower ≤ nearestEven upper := by
  have below : ⌊lower⌋ ≤ ⌊upper⌋ := Int.floor_mono ordered
  have least : ∀ other : Rat, ⌊other⌋ ≤ nearestEven other ∧ nearestEven other ≤ ⌊other⌋ + 1 := by
    intro other
    unfold nearestEven
    dsimp only
    split
    · omega
    split
    · omega
    split <;> omega
  rcases below.lt_or_eq with apart | same
  · exact (least lower).2.trans ((Int.add_one_le_iff.mpr apart).trans (least upper).1)
  · -- in one unit interval the three ranges of the remainder stand in order
    unfold nearestEven
    dsimp only
    rw [← same]
    split
    · split
      · exact le_refl _
      split
      · omega
      split <;> omega
    rename_i notLess
    rw [if_neg (show ¬upper - ⌊lower⌋ < 1 / 2 by linarith)]
    split
    · rename_i more
      rw [if_pos (show 1 / 2 < upper - ⌊lower⌋ by linarith)]
    · split
      · split
        · omega
        · exact le_refl _
      · simp

theorem nearestEven_le {bound : Int} (under : value ≤ bound) : nearestEven value ≤ bound := by
  have ordered := nearestEven_mono under
  rwa [nearestEven_int] at ordered

theorem le_nearestEven {bound : Int} (over_ : (bound : Rat) ≤ value) :
    bound ≤ nearestEven value := by
  have ordered := nearestEven_mono over_
  rwa [nearestEven_int] at ordered

theorem nearestEven_neg (value : Rat) : nearestEven (-value) = -nearestEven value := by
  by_cases whole : ∃ number : Int, value = number
  · obtain ⟨number, rfl⟩ := whole
    rw [← Int.cast_neg, nearestEven_int, nearestEven_int]
  have floorNeg : ⌊-value⌋ = -⌊value⌋ - 1 := by
    rw [Int.floor_neg, Int.ceil_eq_floor_add_one_iff_notMem value |>.mpr ?_]
    · ring
    · rintro ⟨number, same⟩
      exact whole ⟨number, same.symm⟩
  unfold nearestEven
  dsimp only
  rw [floorNeg]
  push_cast
  by_cases less : value - ⌊value⌋ < 1 / 2
  · rw [if_pos less, if_neg (by linarith), if_pos (by linarith)]
    ring
  by_cases more : 1 / 2 < value - ⌊value⌋
  · rw [if_neg less, if_pos more, if_pos (by linarith)]
    ring
  rw [if_neg less, if_neg more, if_neg (by linarith), if_neg (by linarith)]
  split <;> split <;> omega

/-! The grid. -/

theorem two_zpow_pos (power : Int) : (0 : Rat) < 2 ^ power := zpow_pos (by norm_num) power

theorem two_zpow_le {low high : Int} (ordered : low ≤ high) : (2 : Rat) ^ low ≤ 2 ^ high :=
  zpow_le_zpow_right₀ (by norm_num) ordered

theorem abs_lt_of_exponent (value : Rat) : |value| < 2 ^ (exponent value + 53) := by
  have above := Int.lt_zpow_succ_log_self (show 1 < 2 by norm_num) |value|
  have larger : Int.log 2 |value| + 1 ≤ exponent value + 53 := by
    unfold exponent
    omega
  exact above.trans_le (by exact_mod_cast two_zpow_le larger)

theorem exponent_neg (value : Rat) : exponent (-value) = exponent value := by
  simp [exponent]

theorem nearest_neg (value : Rat) : nearest (-value) = -nearest value := by
  rw [nearest, nearest, exponent_neg, neg_div, nearestEven_neg]
  push_cast
  ring

theorem abs_quotient_le (value : Rat) : |value / 2 ^ exponent value| ≤ 2 ^ 53 := by
  rw [abs_div, abs_of_pos (two_zpow_pos _), div_le_iff₀ (two_zpow_pos _)]
  have below := (abs_lt_of_exponent value).le
  rw [zpow_add₀ (by norm_num), mul_comm] at below
  exact_mod_cast below

theorem nearest_onGrid (value : Rat) : OnGrid (nearest value) := by
  refine ⟨_, exponent value, rfl, ?_, le_max_right _ _⟩
  obtain ⟨least, most⟩ := abs_le.mp (abs_quotient_le value)
  rw [abs_le]
  constructor
  · exact le_nearestEven (by push_cast; exact least)
  · exact nearestEven_le (by push_cast; exact most)

theorem OnGrid.nearest_eq (onGrid : OnGrid value) : nearest value = value := by
  obtain ⟨mantissa, place, rfl, small, low⟩ := onGrid
  by_cases none : mantissa = 0
  · simp [none, nearest, nearestEven]
  have size : |(mantissa : Rat) * 2 ^ place| = |mantissa| * 2 ^ place := by
    rw [abs_mul, abs_of_pos (two_zpow_pos place), Int.cast_abs]
  -- the value is a whole number of its own last bits
  obtain ⟨number, whole⟩ : ∃ number : Int,
    (mantissa : Rat) * 2 ^ place = number * 2 ^ exponent (mantissa * 2 ^ place) := by
    rcases le_or_gt (exponent ((mantissa : Rat) * 2 ^ place)) place with fine | coarse
    · obtain ⟨more, apart⟩ := Int.eq_ofNat_of_zero_le (sub_nonneg.mpr fine)
      refine ⟨mantissa * 2 ^ more, ?_⟩
      push_cast
      rw [mul_assoc, ← zpow_natCast, ← zpow_add₀ (by norm_num), ← apart]
      ring_nf
    · have normal : exponent ((mantissa : Rat) * 2 ^ place) =
        Int.log 2 |(mantissa : Rat) * 2 ^ place| - 52 := by
        unfold exponent at coarse ⊢
        omega
      have positive : 0 < |(mantissa : Rat) * 2 ^ place| := by
        rw [size]
        exact mul_pos (by exact_mod_cast abs_pos.mpr none) (two_zpow_pos place)
      have least : (2 : Rat) ^ (place + 53) ≤ |mantissa| * 2 ^ place := by
        rw [← size]
        refine le_trans ?_ (Int.zpow_log_le_self (by norm_num : 1 < 2) positive)
        exact_mod_cast two_zpow_le (by omega)
      rw [add_comm, zpow_add₀ (by norm_num),
        mul_le_mul_iff_of_pos_right (two_zpow_pos place)] at least
      have full : |mantissa| = 2 ^ 53 := le_antisymm small (by exact_mod_cast least)
      have next : exponent ((mantissa : Rat) * 2 ^ place) = place + 1 := by
        have power : ((|mantissa| : Int) : Rat) * 2 ^ place = ((2 : Nat) : Rat) ^ (53 + place) := by
          rw [full, Nat.cast_ofNat, zpow_add₀ (by norm_num)]
          norm_num
        rw [normal, size, power, Int.log_zpow (by norm_num)]
        ring
      rw [next]
      rcases abs_eq (by positivity) |>.mp full with same | same
      · refine ⟨2 ^ 52, ?_⟩
        rw [same, zpow_add₀ (by norm_num)]
        push_cast
        ring
      · refine ⟨-2 ^ 52, ?_⟩
        rw [same, zpow_add₀ (by norm_num)]
        push_cast
        ring
  unfold nearest
  generalize exponent ((mantissa : Rat) * 2 ^ place) = last at whole
  rw [whole, mul_div_assoc, div_self (two_zpow_pos last).ne', mul_one, nearestEven_int]

theorem nearest_nonneg (sign : 0 ≤ value) : 0 ≤ nearest value := by
  have quotient : ((0 : Int) : Rat) ≤ value / 2 ^ exponent value := by
    simpa using div_nonneg sign (two_zpow_pos _).le
  exact mul_nonneg (by exact_mod_cast le_nearestEven quotient) (two_zpow_pos _).le

theorem nearest_mono_pos (sign : 0 < lower) (ordered : lower ≤ upper) :
    nearest lower ≤ nearest upper := by
  have logs : Int.log 2 |lower| ≤ Int.log 2 |upper| := by
    rw [abs_of_pos sign, abs_of_pos (sign.trans_le ordered)]
    exact Int.log_mono_right sign ordered
  rcases (show exponent lower ≤ exponent upper by unfold exponent; omega).lt_or_eq with apart | same
  · -- a power of two stands between the two, and neither is rounded past it
    have normal : exponent upper = Int.log 2 |upper| - 52 := by
      unfold exponent at apart ⊢
      omega
    have between : (2 : Rat) ^ (exponent upper + 52) ≤ upper := by
      have least := Int.zpow_log_le_self (show 1 < 2 by norm_num) (sign.trans_le ordered)
      rw [abs_of_pos (sign.trans_le ordered)] at normal
      rw [normal, sub_add_cancel]
      exact_mod_cast least
    have under : nearest lower ≤ 2 ^ (exponent upper + 52) := by
      have most : (nearestEven (lower / 2 ^ exponent lower) : Rat) ≤ 2 ^ 53 := by
        have quotient : lower / 2 ^ exponent lower ≤ ((2 ^ 53 : Int) : Rat) := by
          push_cast
          exact (abs_le.mp (abs_quotient_le lower)).2
        exact_mod_cast nearestEven_le quotient
      calc nearest lower ≤ 2 ^ 53 * 2 ^ exponent lower :=
            mul_le_mul_of_nonneg_right most (two_zpow_pos _).le
        _ = 2 ^ (exponent lower + 53) := by rw [add_comm, zpow_add₀ (by norm_num)]; norm_num
        _ ≤ 2 ^ (exponent upper + 52) := two_zpow_le (by omega)
    have above : (2 : Rat) ^ (exponent upper + 52) ≤ nearest upper := by
      have quotient : ((2 ^ 52 : Int) : Rat) ≤ upper / 2 ^ exponent upper := by
        rw [le_div_iff₀ (two_zpow_pos _)]
        push_cast
        rw [add_comm, zpow_add₀ (by norm_num)] at between
        exact_mod_cast between
      have least : (2 : Rat) ^ 52 ≤ nearestEven (upper / 2 ^ exponent upper) := by
        exact_mod_cast le_nearestEven quotient
      calc (2 : Rat) ^ (exponent upper + 52) = 2 ^ 52 * 2 ^ exponent upper := by
            rw [add_comm, zpow_add₀ (by norm_num)]; norm_num
        _ ≤ nearest upper := mul_le_mul_of_nonneg_right least (two_zpow_pos _).le
    exact under.trans above
  · unfold nearest
    rw [← same]
    refine mul_le_mul_of_nonneg_right ?_ (two_zpow_pos _).le
    exact_mod_cast nearestEven_mono (div_le_div_of_nonneg_right ordered (two_zpow_pos _).le)

theorem nearest_mono (ordered : lower ≤ upper) : nearest lower ≤ nearest upper := by
  rcases lt_trichotomy lower 0 with below | zero | above
  · rcases lt_or_ge upper 0 with both | apart
    · have mirrored := nearest_mono_pos (neg_pos.mpr both) (neg_le_neg ordered)
      rwa [nearest_neg, nearest_neg, neg_le_neg_iff] at mirrored
    · have negative := nearest_nonneg (neg_nonneg.mpr below.le)
      rw [nearest_neg] at negative
      exact (neg_nonneg.mp negative).trans (nearest_nonneg apart)
  · subst zero
    have none : nearest 0 = 0 := by simp [nearest, nearestEven]
    rw [none]
    exact nearest_nonneg ordered
  · exact nearest_mono_pos above ordered

theorem OnGrid.le_nearest (onGrid : OnGrid lower) (ordered : lower ≤ upper) :
    lower ≤ nearest upper := by
  have rounded := nearest_mono ordered
  rwa [onGrid.nearest_eq] at rounded

theorem OnGrid.nearest_le (onGrid : OnGrid upper) (ordered : lower ≤ upper) :
    nearest lower ≤ upper := by
  have rounded := nearest_mono ordered
  rwa [onGrid.nearest_eq] at rounded

/-- A value in a binade, and nearer than half a last bit to a number of them. -/
theorem nearest_eq (normal : -1074 ≤ place) (least : 2 ^ (place + 52) ≤ |value|)
    (most : |value| < 2 ^ (place + 53)) (near : |value / 2 ^ place - mantissa| < 1 / 2) :
    nearest value = mantissa * 2 ^ place := by
  have positive : 0 < |value| := (two_zpow_pos _).trans_le least
  have last : exponent value = place := by
    have low := (Int.zpow_le_iff_le_log (show 1 < 2 by norm_num) positive).mp (by exact_mod_cast least)
    have high := (Int.lt_zpow_iff_log_lt (show 1 < 2 by norm_num) positive).mp (by exact_mod_cast most)
    unfold exponent
    omega
  have rounded := nearestEven_bounds (value / 2 ^ place)
  have same : nearestEven (value / 2 ^ place) = mantissa := by
    have apart : |((nearestEven (value / 2 ^ place) - mantissa : Int) : Rat)| < 1 := by
      push_cast
      rw [abs_lt] at near ⊢
      rw [abs_le] at rounded
      constructor <;> linarith
    have small : |nearestEven (value / 2 ^ place) - mantissa| < 1 := by exact_mod_cast apart
    rw [Int.abs_lt_one_iff] at small
    omega
  rw [nearest, last, same]

/-! Floats that are numbers, and their differences. -/

structure Number where
  value : Rat
  onGrid : OnGrid value

namespace Number

variable {first second other bound : Number}

def of (value : Rat) : Number := ⟨nearest value, nearest_onGrid value⟩

def minus (first second : Number) : Number := of (first.value - second.value)

theorem minus_mono (ordered : first.value ≤ other.value) :
    (first.minus second).value ≤ (other.minus second).value :=
  nearest_mono (sub_le_sub_right ordered second.value)

theorem minus_anti (ordered : second.value ≤ other.value) :
    (first.minus other).value ≤ (first.minus second).value :=
  nearest_mono (sub_le_sub_left ordered first.value)

theorem le_minus (apart : second.value + bound.value ≤ first.value) :
    bound.value ≤ (first.minus second).value :=
  bound.onGrid.le_nearest (by linarith)

theorem add_lt_of_lt_minus (less : bound.value < (first.minus second).value) :
    bound.value + second.value < first.value := by
  by_contra reaches
  have rounded : (first.minus second).value ≤ bound.value := bound.onGrid.nearest_le (by linarith)
  exact absurd less (not_lt.mpr rounded)

end Number

end Binary64
