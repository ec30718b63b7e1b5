import Mathlib.Algebra.Order.Field.Power
import Mathlib.Data.Rat.Cast.Order
import Mathlib.Order.Compare
import Mathlib.Tactic.FieldSimp
import Mathlib.Tactic.Positivity
import Mathlib.Tactic.Ring
import Lox.Number.Shortest
/-! What it means that a decimal reads back. Every double has an interval of rationals around
it, and the intervals of two doubles have no rational in common: two neighbours have an end in
common, but only one of them has an even mantissa. So a decimal reads back as one double at
most. -/

namespace Lox

/-- The rational that the decimal stands for. -/
def Decimal.value (decimal : Decimal) : ℚ :=
  decimal.digits * 10 ^ decimal.exponent

namespace Magnitude

def value (size : Magnitude) : ℚ :=
  size.mantissa * 2 ^ size.exponent

/-- The lower end of the interval, in quarters of the last place. -/
def lower (size : Magnitude) : Nat :=
  if size.narrowBelow then 4 * size.mantissa - 1 else 4 * size.mantissa - 2

def lowest (size : Magnitude) : ℚ :=
  size.lower * 2 ^ (size.exponent - 2)

def highest (size : Magnitude) : ℚ :=
  (4 * size.mantissa + 2 : Nat) * 2 ^ (size.exponent - 2)

/-- The rational rounds to the magnitude. -/
def Rounds (size : Magnitude) (value : ℚ) : Prop :=
  (size.lowest < value ∨ size.mantissa % 2 = 0 ∧ value = size.lowest) ∧
    (value < size.highest ∨ size.mantissa % 2 = 0 ∧ value = size.highest)

/-- The magnitude of a double, written as doubles are: with as many places as there are. -/
structure Canonical (size : Magnitude) : Prop where
  bounded : size.mantissa < 2 ^ 53
  full : size.exponent = -1074 ∨ -1074 < size.exponent ∧ 2 ^ 52 ≤ size.mantissa
  narrow : size.narrowBelow = true ↔ size.mantissa = 2 ^ 52 ∧ -1074 < size.exponent

end Magnitude

/-! ## Comparing -/

/-- A power that is multiplied out: of an exponent and its opposite only one is above zero. -/
theorem zpow_multiplied_out (base : ℚ) (positive : 0 < base) (exponent : Int) :
    base ^ exponent.toNat = base ^ exponent * base ^ (-exponent).toNat := by
  rw [← zpow_natCast, ← zpow_natCast, ← zpow_add₀ positive.ne']
  congr 1
  omega

namespace Decimal

/-- Multiplying out the powers does not change how a decimal compares. -/
theorem compareBinary_eq (decimal : Decimal) (bound : Nat) (power : Int) :
    decimal.compareBinary bound power = compare decimal.value (bound * 2 ^ power) := by
  have factor : (0 : ℚ) < 10 ^ (-decimal.exponent).toNat * 2 ^ (-power).toNat := by positivity
  have left : ((decimal.digits * Nat.pow 10 decimal.exponent.toNat *
      Nat.pow 2 (-power).toNat : Nat) : ℚ) =
      decimal.value * (10 ^ (-decimal.exponent).toNat * 2 ^ (-power).toNat) := by
    rw [value, Nat.pow_eq, Nat.pow_eq]
    push_cast
    rw [zpow_multiplied_out 10 (by norm_num) decimal.exponent]
    ring
  have right : ((bound * Nat.pow 2 power.toNat * Nat.pow 10 (-decimal.exponent).toNat : Nat) : ℚ) =
      bound * 2 ^ power * (10 ^ (-decimal.exponent).toNat * 2 ^ (-power).toNat) := by
    rw [Nat.pow_eq, Nat.pow_eq]
    push_cast
    rw [zpow_multiplied_out 2 (by norm_num) power]
    ring
  rw [compareBinary, ← cmp_eq_compare, ← cmp_eq_compare,
    ← (Nat.strictMono_cast : StrictMono (Nat.cast : Nat → ℚ)).cmp_map_eq, left, right,
    cmp_mul_pos_right factor]

theorem readsBack_iff (decimal : Decimal) (size : Magnitude) :
    decimal.readsBack size = true ↔ size.Rounds decimal.value := by
  simp only [readsBack, compareBinary_eq, Bool.and_eq_true, Bool.or_eq_true, beq_iff_eq,
    compare_lt_iff_lt, compare_gt_iff_gt, compare_eq_iff_eq]
  rfl

end Decimal

/-! ## The shortest decimal -/

namespace Magnitude

variable {size : Magnitude}

theorem value_quarters (size : Magnitude) :
    size.value = (4 * size.mantissa : Nat) * 2 ^ (size.exponent - 2) := by
  have parts : size.exponent = 2 + (size.exponent - 2) := by omega
  rw [value, parts, zpow_add₀ (by norm_num)]
  push_cast
  ring_nf

/-- Every magnitude rounds to itself; the interval of zero begins with zero. -/
theorem rounds_value (size : Magnitude) : size.Rounds size.value := by
  have unit : (0 : ℚ) < 2 ^ (size.exponent - 2) := by positivity
  rw [Rounds, value_quarters, lowest, highest]
  constructor
  · have least : size.lower < 4 * size.mantissa ∨ size.mantissa = 0 ∧ size.lower = 0 := by
      unfold lower
      split <;> omega
    cases least with
    | inl less => exact .inl (mul_lt_mul_of_pos_right (Nat.cast_lt.mpr less) unit)
    | inr zero => exact .inr ⟨by omega, by rw [zero.1, zero.2]⟩
  · exact .inl (mul_lt_mul_of_pos_right (Nat.cast_lt.mpr (by omega)) unit)

theorem numerator_eq (size : Magnitude) : (size.numerator : ℚ) = size.value * size.denominator := by
  have two := zpow_multiplied_out 2 (by norm_num) size.exponent
  simp only [numerator, denominator, value, Nat.pow_eq, Nat.cast_mul, Nat.cast_pow, Nat.cast_ofNat,
    two, mul_assoc]

end Magnitude

namespace Decimal

theorem exactly_value (size : Magnitude) : (exactly size).value = size.value := by
  have opposite : min size.exponent 0 = -((-size.exponent).toNat : Int) := by omega
  have ten : (10 : ℚ) ^ (-size.exponent).toNat =
      2 ^ (-size.exponent).toNat * 5 ^ (-size.exponent).toNat := by
    rw [← mul_pow]
    norm_num
  rw [value, exactly, opposite, zpow_neg, zpow_natCast]
  simp only [Nat.pow_eq, Nat.cast_mul, Nat.cast_pow, Nat.cast_ofNat, size.numerator_eq,
    Magnitude.denominator, ten]
  field_simp

theorem dropZeros_value (count : Nat) (decimal : Decimal) :
    (dropZeros count decimal).value = decimal.value := by
  induction count generalizing decimal with
  | zero => rfl
  | succ count induction =>
      rw [dropZeros]
      split
      · rename_i trailing
        have tenfold : decimal.digits = decimal.digits / 10 * 10 := by omega
        have digits : (decimal.digits : ℚ) = (decimal.digits / 10 : Nat) * 10 := by
          exact_mod_cast tenfold
        rw [induction, value, value, digits, zpow_add_one₀ (by norm_num)]
        ring
      · rfl

theorem onGrid?_readsBack {tie : Tie} {size : Magnitude} {unit : Int} {decimal : Decimal}
    (found : onGrid? tie size unit = some decimal) : decimal.readsBack size = true := by
  unfold onGrid? at found
  grind

theorem shortest_rounds (tie : Tie) (size : Magnitude) :
    size.Rounds (shortest tie size).value := by
  unfold shortest
  split
  · rename_i zero
    have nothing : size.value = 0 := by simp [Magnitude.value, zero]
    have rounds := size.rounds_value
    rw [nothing] at rounds
    simpa [value] using rounds
  · dsimp only
    split
    · rename_i decimal found
      rw [dropZeros_value, ← readsBack_iff]
      rcases List.exists_of_findSome?_eq_some found with ⟨_, _, found⟩
      exact onGrid?_readsBack found
    · rw [exactly_value]
      exact size.rounds_value

end Decimal

/-! ## Whole numbers -/

namespace Magnitude

variable {size : Magnitude}

/-- Where places are lacking, a whole number is counted in quarters of the last place. -/
theorem natCast_quarters (number : Nat) {exponent : Int} (negative : exponent < 0) :
    (number : ℚ) = (4 * (number * 2 ^ (-exponent).toNat) : Nat) * 2 ^ (exponent - 2) := by
  have opposite : exponent = -((-exponent).toNat : Int) := by omega
  have counted := value_quarters ⟨number * 2 ^ (-exponent).toNat, exponent, false⟩
  rw [← counted, value]
  generalize (-exponent).toNat = places at opposite
  rw [opposite, zpow_neg, zpow_natCast]
  push_cast
  field_simp

/-- The interval of a magnitude that is not whole has no whole number in it. -/
theorem Rounds.isWhole {number : Nat} (rounds : size.Rounds number) : size.isWhole = true := by
  by_cases negative : size.exponent < 0
  · have unit : (0 : ℚ) < 2 ^ (size.exponent - 2) := by positivity
    have above : size.lowest ≤ number := by
      cases rounds.1 with
      | inl less => exact less.le
      | inr same => exact same.2.ge
    have below : number ≤ size.highest := by
      cases rounds.2 with
      | inl less => exact less.le
      | inr same => exact same.2.le
    rw [natCast_quarters number negative, lowest, mul_le_mul_iff_left₀ unit, Nat.cast_le] at above
    rw [natCast_quarters number negative, highest, mul_le_mul_iff_left₀ unit, Nat.cast_le] at below
    have mantissa : size.mantissa = number * 2 ^ (-size.exponent).toNat := by
      unfold lower at above
      split at above <;> omega
    have places : size.exponent.toNat = 0 := by omega
    simp [Magnitude.isWhole, numerator, denominator, mantissa, places]
  · have places : (-size.exponent).toNat = 0 := by omega
    simp [Magnitude.isWhole, denominator, places, Nat.mod_one]

/-- A decimal that reads back as a magnitude that is not whole has places behind the point. -/
theorem Rounds.exponent_neg {decimal : Decimal} (rounds : size.Rounds decimal.value)
    (fractional : size.isWhole = false) : decimal.exponent < 0 := by
  by_contra whole
  have number : decimal.value = (decimal.digits * 10 ^ decimal.exponent.toNat : Nat) := by
    have exponent : decimal.exponent = (decimal.exponent.toNat : Int) := by omega
    rw [Decimal.value, exponent]
    push_cast
    rw [zpow_natCast, Int.toNat_natCast]
  rw [number] at rounds
  rw [rounds.isWhole] at fractional
  cases fractional

end Magnitude

/-! ## One magnitude only -/

namespace Magnitude

variable {size other : Magnitude}

/-- The doubles in their order, told from the fields. -/
def Below (size other : Magnitude) : Prop :=
  size.exponent < other.exponent ∨
    size.exponent = other.exponent ∧ size.mantissa < other.mantissa

/-- The ends of two intervals, in quarters of the last place of the lower one. -/
theorem ends_apart (canonical : size.Canonical) (canonical' : other.Canonical)
    (below : size.Below other) :
    4 * size.mantissa + 2 < other.lower * 2 ^ (other.exponent - size.exponent).toNat ∨
      4 * size.mantissa + 2 = other.lower * 2 ^ (other.exponent - size.exponent).toNat ∧
        ¬ (size.mantissa % 2 = 0 ∧ other.mantissa % 2 = 0) := by
  have bounded := canonical.bounded
  have full := canonical.full
  have full' := canonical'.full
  have narrow := canonical'.narrow
  unfold lower
  cases below with
  | inl less =>
      have further : 2 ≤ 2 ^ (other.exponent - size.exponent).toNat :=
        Nat.le_self_pow (by omega) 2
      have scaled := Nat.mul_le_mul_left other.lower further
      unfold lower at scaled
      split at scaled <;> grind
  | inr same =>
      have once : (other.exponent - size.exponent).toNat = 0 := by omega
      rw [once]
      split <;> omega

theorem lowest_scaled (least : size.exponent ≤ other.exponent) :
    other.lowest = (other.lower * 2 ^ (other.exponent - size.exponent).toNat : Nat) *
      2 ^ (size.exponent - 2) := by
  have parts : other.exponent - 2 =
      ((other.exponent - size.exponent).toNat : Int) + (size.exponent - 2) := by omega
  rw [lowest, parts, zpow_add₀ (by norm_num), zpow_natCast]
  push_cast
  ring

/-- The interval of the lower magnitude ends where the other one begins, or in front of it. -/
theorem intervals_apart (canonical : size.Canonical) (canonical' : other.Canonical)
    (below : size.Below other) :
    size.highest < other.lowest ∨ size.highest = other.lowest ∧
      ¬ (size.mantissa % 2 = 0 ∧ other.mantissa % 2 = 0) := by
  have least : size.exponent ≤ other.exponent := by
    cases below with
    | inl less => exact less.le
    | inr same => exact same.1.le
  have unit : (0 : ℚ) < 2 ^ (size.exponent - 2) := by positivity
  rw [lowest_scaled least, highest]
  cases ends_apart canonical canonical' below with
  | inl less => exact .inl (mul_lt_mul_of_pos_right (Nat.cast_lt.mpr less) unit)
  | inr same => exact .inr ⟨by rw [same.1], same.2⟩

theorem Rounds.not_both {value : ℚ} (canonical : size.Canonical) (canonical' : other.Canonical)
    (below : size.Below other) (rounds : size.Rounds value) : ¬ other.Rounds value := by
  intro rounds'
  have upper : value < size.highest ∨ size.mantissa % 2 = 0 ∧ value = size.highest := rounds.2
  have lower : other.lowest < value ∨ other.mantissa % 2 = 0 ∧ value = other.lowest := rounds'.1
  have apart := intervals_apart canonical canonical' below
  grind

/-- A rational rounds to one magnitude at most. -/
theorem Rounds.unique {value : ℚ} (canonical : size.Canonical) (canonical' : other.Canonical)
    (rounds : size.Rounds value) (rounds' : other.Rounds value) :
    size.mantissa = other.mantissa ∧ size.exponent = other.exponent := by
  by_contra different
  have ordered : size.Below other ∨ other.Below size := by
    unfold Below
    omega
  cases ordered with
  | inl below => exact rounds.not_both canonical canonical' below rounds'
  | inr below => exact rounds'.not_both canonical' canonical below rounds

end Magnitude

end Lox
