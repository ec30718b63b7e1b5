import Lox.Proofs.Number.Rounding
import Lox.Number.Magnitude
/-! The fields of a double. A double that is finite is determined by its sign and its magnitude,
and the magnitude is written canonically. -/

namespace Lox

namespace Exact

/-- The magnitude that the two fields of a finite double tell. -/
def sizeOf (field fraction : Nat) : Magnitude :=
  if field = 0 then
    ⟨fraction, -1074, false⟩
  else
    ⟨2 ^ 52 + fraction, (field : Int) - 1075, fraction == 0 && field > 1⟩

theorem canonical_sizeOf {field fraction : Nat} (bounded : fraction < 2 ^ 52) :
    (sizeOf field fraction).Canonical := by
  unfold sizeOf
  split
  · exact ⟨by simp; omega, by simp, by simp⟩
  · constructor
    · simp
      omega
    · simp
      omega
    · simp
      omega

theorem sizeOf_injective {field fraction field' fraction' : Nat} (bounded : fraction < 2 ^ 52)
    (bounded' : fraction' < 2 ^ 52)
    (mantissa : (sizeOf field fraction).mantissa = (sizeOf field' fraction').mantissa)
    (exponent : (sizeOf field fraction).exponent = (sizeOf field' fraction').exponent) :
    field = field' ∧ fraction = fraction' := by
  unfold sizeOf at mantissa exponent
  by_cases zero : field = 0 <;> by_cases zero' : field' = 0 <;>
    simp only [zero, zero', if_true, if_false] at mantissa exponent <;> omega

theorem ofBits_eq (bits : UInt64) : ofBits bits =
    if bits.toNat / 2 ^ 52 % 2 ^ 11 = 2047 then
      if bits.toNat % 2 ^ 52 = 0 then
        .infinite (decide (2 ^ 63 ≤ bits.toNat))
      else
        .notANumber
    else
      .finite (decide (2 ^ 63 ≤ bits.toNat))
        (sizeOf (bits.toNat / 2 ^ 52 % 2 ^ 11) (bits.toNat % 2 ^ 52)) := by
  have bound := bits.toNat_lt
  have negative : (bits >>> 63 == 1) = decide (2 ^ 63 ≤ bits.toNat) := by
    rw [Bool.eq_iff_iff, beq_iff_eq, ← UInt64.toNat_inj, UInt64.toNat_shiftRight,
      Nat.shiftRight_eq_div_pow, decide_eq_true_iff]
    change bits.toNat / 2 ^ 63 = 1 ↔ _
    omega
  have field : ((bits >>> 52) &&& 0x7FF).toNat = bits.toNat / 2 ^ 52 % 2 ^ 11 := by
    rw [UInt64.toNat_and, UInt64.toNat_shiftRight, Nat.shiftRight_eq_div_pow]
    exact Nat.and_two_pow_sub_one_eq_mod _ 11
  have fraction : (bits &&& 0xFFFFFFFFFFFFF).toNat = bits.toNat % 2 ^ 52 := by
    rw [UInt64.toNat_and]
    exact Nat.and_two_pow_sub_one_eq_mod _ 52
  unfold ofBits sizeOf
  simp only [negative, field, fraction]
  split
  · rfl
  · split <;> rfl

/-- The word of a double without a sign is its two fields. -/
theorem ofBits_eq_finite {bits : UInt64} {size : Magnitude}
    (finite : ofBits bits = .finite false size) :
    ∃ field fraction, fraction < 2 ^ 52 ∧ bits.toNat = field * 2 ^ 52 + fraction ∧
      size = sizeOf field fraction := by
  have bound := bits.toNat_lt
  rw [ofBits_eq] at finite
  split at finite
  · split at finite <;> cases finite
  · injection finite with unsigned size
    rw [decide_eq_false_iff_not] at unsigned
    exact ⟨_, _, Nat.mod_lt _ (by omega), by omega, size.symm⟩

/-- Words up to the one of infinity have no sign and stand for a number. -/
theorem exists_ofBits_eq_finite {bits : UInt64} (bounded : bits.toNat < 2047 * 2 ^ 52) :
    ∃ size, ofBits bits = .finite false size := by
  rw [ofBits_eq, if_neg (by omega), decide_eq_false (by omega)]
  exact ⟨_, rfl⟩

theorem ofFloat_canonical {value : Float} {size : Magnitude}
    (finite : ofFloat value = .finite false size) : size.Canonical := by
  rcases ofBits_eq_finite finite with ⟨field, fraction, bounded, _, size⟩
  rw [size]
  exact canonical_sizeOf bounded

/-- A double without a sign is determined by its magnitude. -/
theorem eq_of_ofFloat {value other : Float} {size size' : Magnitude}
    (finite : ofFloat value = .finite false size) (finite' : ofFloat other = .finite false size')
    (mantissa : size.mantissa = size'.mantissa) (exponent : size.exponent = size'.exponent) :
    value = other := by
  rcases ofBits_eq_finite finite with ⟨field, fraction, bounded, bits, size⟩
  rcases ofBits_eq_finite finite' with ⟨field', fraction', bounded', bits', size'⟩
  rw [size, size'] at mantissa exponent
  have same := sizeOf_injective bounded bounded' mantissa exponent
  rw [same.1, same.2, ← bits', UInt64.toNat_inj] at bits
  cases value with
  | ofModel model =>
      cases other with
      | ofModel model' =>
          cases model
          cases model'
          cases bits
          rfl

end Exact

end Lox
