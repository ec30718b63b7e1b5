import Mathlib.Data.List.Basic
import Lox.Proofs.Number.Unsigned
import Lox.Number.Text
/-! What the printed form shows of a number literal: digits, a point, and digits. Read as a
decimal they read back as the number, so no two numbers look alike. -/

namespace Lox

namespace Decimal

/-- The decimal that two rows of digits write, a point between them. -/
def ofDigits (whole fraction : List Char) : Decimal :=
  ⟨Nat.ofDigitChars 10 (whole ++ fraction) 0, -(fraction.length : Int)⟩

/-- The text is the decimal with a point and digits on both sides of it. -/
def Writes (decimal : Decimal) (text : List Char) : Prop :=
  ∃ whole fraction, Digits whole ∧ Digits fraction ∧ text = whole ++ '.' :: fraction ∧
    ofDigits whole fraction = decimal

theorem Writes.unique {decimal other : Decimal} {text : List Char} (writes : decimal.Writes text)
    (writes' : other.Writes text) : decimal = other := by
  rcases writes with ⟨whole, fraction, digits, digits', text, same⟩
  rcases writes' with ⟨whole', fraction', _, _, text', same'⟩
  have noPoint : '.' ∉ whole := fun member => absurd (digits.2 _ member) (by decide)
  have noPoint' : '.' ∉ fraction := fun member => absurd (digits'.2 _ member) (by decide)
  rw [text, List.append_cons_inj_of_notMem noPoint noPoint'] at text'
  rw [← same, ← same', text'.1, text'.2.2]

/-! ## Digits -/

theorem digits_toDigits (number : Nat) : Digits (Nat.toDigits 10 number) := by
  refine ⟨Nat.toDigits_ne_nil, ?_⟩
  intro character member
  have digit := Nat.isDigit_of_mem_toDigits (by decide) (by decide) member
  simpa [isDigit, Char.isDigit, Char.le_def] using digit

/-- A point between the digits. -/
theorem writes_inside {row : List Char} (digits : Digits row) {point : Nat} (front : 0 < point)
    (back : point < row.length) :
    (⟨Nat.ofDigitChars 10 row 0, (point : Int) - row.length⟩ : Decimal).Writes
      (row.take point ++ '.' :: row.drop point) := by
  have whole : 0 < (row.take point).length := by rw [List.length_take]; omega
  have fraction : 0 < (row.drop point).length := by rw [List.length_drop]; omega
  refine ⟨row.take point, row.drop point, ⟨List.ne_nil_of_length_pos whole, ?_⟩,
    ⟨List.ne_nil_of_length_pos fraction, ?_⟩, rfl, ?_⟩
  · exact fun character member => digits.2 character (List.mem_of_mem_take member)
  · exact fun character member => digits.2 character (List.mem_of_mem_drop member)
  · rw [ofDigits, List.take_append_drop, List.length_drop]
    congr 1
    omega

/-- A point in front of the digits, with zeros in between. -/
theorem writes_outside {row : List Char} (digits : Digits row) (count : Nat) :
    (⟨Nat.ofDigitChars 10 row 0, -((count + row.length : Nat) : Int)⟩ : Decimal).Writes
      ('0' :: '.' :: (List.replicate count '0' ++ row)) := by
  refine ⟨['0'], List.replicate count '0' ++ row, ⟨by simp, by simp [isDigit]⟩,
    ⟨by simp [digits.1], ?_⟩, rfl, ?_⟩
  · intro character member
    rw [List.mem_append, List.mem_replicate] at member
    cases member with
    | inl zero => rw [zero.2]; rfl
    | inr member => exact digits.2 character member
  · rw [ofDigits, Nat.ofDigitChars_append, Nat.ofDigitChars_append,
      Nat.ofDigitChars_replicate_zero, List.length_append, List.length_replicate]
    simp [Nat.ofDigitChars_cons]

/-- All digits are written, and zeros in front of them where the places are more. -/
theorem positional_writes {decimal : Decimal} (fractional : decimal.exponent < 0) :
    decimal.Writes decimal.positional.toList := by
  have digits := digits_toDigits decimal.digits
  have number : Nat.ofDigitChars 10 (Nat.toDigits 10 decimal.digits) 0 = decimal.digits :=
    Nat.ofDigitChars_ten_toDigits
  unfold positional
  simp only [← String.length_toList, Nat.toList_repr, if_neg (show ¬ 0 ≤ decimal.exponent by omega)]
  generalize written : Nat.toDigits 10 decimal.digits = row at digits number
  split
  · generalize place : ((row.length : Int) + decimal.exponent).toNat = point
    have writes := writes_inside digits (show 0 < point by omega) (show point < row.length by omega)
    rw [number, show (point : Int) - row.length = decimal.exponent by omega] at writes
    simpa using writes
  · generalize place : (-((row.length : Int) + decimal.exponent)).toNat = count
    have writes := writes_outside digits count
    rw [number, show -((count + row.length : Nat) : Int) = decimal.exponent by omega] at writes
    simpa [zeros, written] using writes

/-- A whole number with a zero behind the point. -/
theorem whole_writes (number : Nat) :
    (⟨10 * number, -1⟩ : Decimal).Writes (Nat.repr number ++ ".0").toList := by
  refine ⟨Nat.toDigits 10 number, ['0'], digits_toDigits number, ⟨by simp, by simp [isDigit]⟩,
    by simp, ?_⟩
  simp [ofDigits, Nat.ofDigitChars_append, Nat.ofDigitChars_cons]

theorem whole_value {size : Magnitude} (whole : size.isWhole = true) :
    (⟨10 * size.whole, -1⟩ : Decimal).value = size.value := by
  have positive : (size.denominator : ℚ) ≠ 0 := by simp [Magnitude.denominator]
  have divides : size.numerator = size.whole * size.denominator := by
    rw [Magnitude.whole, Nat.div_mul_cancel (Nat.dvd_of_mod_eq_zero (beq_iff_eq.mp whole))]
  have scaled := size.numerator_eq
  rw [divides, Nat.cast_mul, mul_left_inj' positive] at scaled
  rw [← scaled, value]
  push_cast
  ring

end Decimal

namespace Number

/-- The text of a literal writes a decimal that reads back as the number. -/
theorem literalText_writes {value : Float} {size : Magnitude}
    (finite : Exact.ofFloat value = .finite false size) :
    ∃ decimal : Decimal, decimal.Writes (literalText value).toList ∧
      size.Rounds decimal.value := by
  unfold literalText wholeText
  rw [finite]
  dsimp only
  cases whole : size.isWhole with
  | true =>
      refine ⟨⟨10 * size.whole, -1⟩, Decimal.whole_writes size.whole, ?_⟩
      rw [Decimal.whole_value whole]
      exact size.rounds_value
  | false =>
      have rounds := Decimal.shortest_rounds .up size
      refine ⟨_, ?_, rounds⟩
      have text : plainText value = (Decimal.shortest .up size).positional := by
        rw [plainText, finite]
        exact String.empty_append
      rw [if_neg (by simp), text]
      exact Decimal.positional_writes (rounds.exponent_neg whole)

theorem literalText_decimal {value : Float} (plain : Plain value) :
    ∃ whole fraction, Digits whole ∧ Digits fraction ∧
      (literalText value).toList = whole ++ '.' :: fraction := by
  rcases plain with ⟨_, finite⟩
  rcases literalText_writes finite with
    ⟨_, ⟨whole, fraction, digits, digits', text, _⟩, _⟩
  exact ⟨whole, fraction, digits, digits', text⟩

/-- Numbers that look alike are the same. -/
theorem literalText_inj {value other : Float} (plain : Plain value) (plain' : Plain other)
    (same : literalText value = literalText other) : value = other := by
  rcases plain with ⟨size, finite⟩
  rcases plain' with ⟨size', finite'⟩
  rcases literalText_writes finite with ⟨decimal, writes, rounds⟩
  rcases literalText_writes finite' with ⟨decimal', writes', rounds'⟩
  rw [same] at writes
  rw [writes.unique writes'] at rounds
  have sizes := rounds.unique (Exact.ofFloat_canonical finite) (Exact.ofFloat_canonical finite')
    rounds'
  exact Exact.eq_of_ofFloat finite finite' sizes.1 sizes.2

end Number

end Lox
