import Lox.Proofs.Number.Fields
import Lox.Proofs.Source.Lexemes
/-! Literals have no sign. What a decimal literal stands for is computed from natural numbers
without a sign, by a division or a multiplication that is rounded, so it is zero, a finite
number or infinity, and no other double. -/

namespace Lox

open Float.Model
open Float.Model.UnpackedFloat (packComponents unpackSign unpackExponent unpackMantissa)

/-- The number stands for itself and has no sign. -/
def Unsigned : UnpackedFloat → Prop
  | .zero sign | .infinity sign | .finite sign _ _ _ => sign = .positive
  | .notANumber => False

namespace Unsigned

theorem of_dite {condition : Prop} [Decidable condition] {first : condition → UnpackedFloat}
    {second : ¬ condition → UnpackedFloat} (unsigned : ∀ holds, Unsigned (first holds))
    (unsigned' : ∀ fails, Unsigned (second fails)) : Unsigned (dite condition first second) := by
  by_cases holds : condition
  · rw [dif_pos holds]
    exact unsigned holds
  · rw [dif_neg holds]
    exact unsigned' holds

theorem of_ite {condition : Prop} [Decidable condition] {first second : UnpackedFloat}
    (unsigned : Unsigned first) (unsigned' : Unsigned second) :
    Unsigned (if condition then first else second) := by
  by_cases holds : condition
  · rw [if_pos holds]
    exact unsigned
  · rw [if_neg holds]
    exact unsigned'

/-! ## Words -/

theorem toNat_packComponents (exponent : BitVec 11) (mantissa : BitVec 52) :
    (packComponents Format.binary64 .positive exponent mantissa).toNat =
      exponent.toNat * 2 ^ 52 + mantissa.toNat := by
  have bound := mantissa.isLt
  unfold packComponents
  rw [BitVec.toNat_append, BitVec.toNat_append]
  change (0 <<< 11 ||| exponent.toNat) <<< 52 ||| mantissa.toNat = _
  rw [Nat.zero_shiftLeft, Nat.zero_or, ← Nat.shiftLeft_add_eq_or_of_lt bound, Nat.shiftLeft_eq]

/-- The fields of a finite number are below those of infinity. -/
theorem pack_finite_le (mantissa : Nat) (exponent : Int) (positive : 0 < mantissa) :
    (UnpackedFloat.pack Format.binary64 (.finite .positive mantissa exponent positive)).toNat ≤
      2047 * 2 ^ 52 := by
  have low : mantissa % 2 ^ 52 < 2 ^ 52 := Nat.mod_lt _ (by decide)
  unfold UnpackedFloat.pack
  dsimp only
  split
  · decide
  · rename_i bounded
    split
    · rw [toNat_packComponents, BitVec.toNat_ofNat, BitVec.toNat_ofNat]
      have high := Nat.mod_le (exponent + Format.binary64.exponentBias + 52 : Int).toNat (2 ^ 11)
      change ¬ 2 ^ 11 ≤ _ + 1 at bounded
      omega
    · rw [toNat_packComponents, BitVec.toNat_ofNat]
      change 0 * 2 ^ 52 + _ ≤ _
      omega

/-- The word of a number without a sign is not above the one of infinity. -/
theorem pack_le {number : UnpackedFloat} (unsigned : Unsigned number) :
    (UnpackedFloat.pack Format.binary64 number).toNat ≤ 2047 * 2 ^ 52 := by
  cases number with
  | notANumber => cases unsigned
  | zero sign | infinity sign =>
      cases unsigned
      decide
  | finite sign mantissa exponent positive =>
      cases unsigned
      exact pack_finite_le mantissa exponent positive

theorem of_word {word : BitVec 64} (bounded : word.toNat ≤ 2047 * 2 ^ 52) :
    Unsigned (UnpackedFloat.unpack Format.binary64 word) := by
  have sign : @unpackSign Format.binary64 word = 0#1 := by
    apply BitVec.eq_of_toNat_eq
    change word.toNat >>> 63 % 2 ^ 1 = 0
    rw [Nat.shiftRight_eq_div_pow]
    omega
  have mantissa : (@unpackExponent Format.binary64 word).toNat = 2047 →
      (@unpackMantissa Format.binary64 word).toNat = 0 := by
    change word.toNat >>> 52 % 2 ^ 11 = 2047 → word.toNat >>> 0 % 2 ^ 52 = 0
    rw [Nat.shiftRight_eq_div_pow, Nat.shiftRight_zero]
    omega
  unfold UnpackedFloat.unpack
  rw [sign]
  dsimp only
  by_cases last : @unpackExponent Format.binary64 word = -1#_
  · rw [if_pos last, if_pos (BitVec.eq_of_toNat_eq (mantissa (by rw [last]; rfl)))]
    rfl
  · rw [if_neg last]
    exact of_ite (of_dite (fun _ => rfl) (fun _ => rfl)) rfl

/-- Only infinity itself has the last one of these words. -/
theorem isInf_of_word {word : BitVec 64} (last : word.toNat = 2047 * 2 ^ 52) :
    (UnpackedFloat.unpack Format.binary64 word).isInf = true := by
  have same : word = 0x7FF0000000000000#64 := BitVec.eq_of_toNat_eq last
  rw [same]
  decide

/-! ## Operations -/

/-- Rounding keeps the sign. -/
theorem roundWithAccuracy (mantissa : Nat) (exponent : Int)
    (accuracy : UnpackedFloat.Accuracy) :
    Unsigned (UnpackedFloat.roundWithAccuracy Format.binary64 .positive mantissa exponent
      accuracy) :=
  of_dite (fun _ => rfl) (fun _ => rfl)

theorem ofNat (number : Nat) : Unsigned (UnpackedFloat.ofNat Format.binary64 number) := by
  unfold UnpackedFloat.ofNat UnpackedFloat.ofInt UnpackedFloat.normalize
  split
  · rename_i negative
    rw [Int.compare_eq_lt] at negative
    omega
  · rfl
  · exact roundWithAccuracy _ _ _

/-- The number can be divided by. -/
def isPositive : UnpackedFloat → Bool
  | .finite .positive _ _ _ => true
  | _ => false

theorem div {number divisor : UnpackedFloat} (unsigned : Unsigned number)
    (positive : isPositive divisor = true) :
    Unsigned (UnpackedFloat.div Format.binary64 number divisor) := by
  cases divisor with
  | finite sign =>
      cases sign with
      | positive =>
          cases number with
          | notANumber => cases unsigned
          | zero sign | infinity sign =>
              cases unsigned
              rfl
          | finite sign =>
              cases unsigned
              exact roundWithAccuracy _ _ _
      | negative => cases positive
  | notANumber | zero _ | infinity _ => cases positive

/-- Every way of computing the double ends without a sign. -/
theorem ofScientific (mantissa : Nat) (exponent : Int) :
    Unsigned (UnpackedFloat.ofScientific Format.binary64 mantissa exponent) := by
  apply of_dite
  · exact fun _ => rfl
  · intro _
    apply of_ite
    · rfl
    · apply of_ite
      · rfl
      · exact of_ite (roundWithAccuracy _ _ _) (roundWithAccuracy _ _ _)

theorem powerOfTen (place : Nat) (bounded : place < Float.exactlyRepresentablePowersOfTen.size) :
    isPositive Float.exactlyRepresentablePowersOfTen[place].toModel.unpack = true := by
  have all : Float.exactlyRepresentablePowersOfTen.toList.all
      (fun power => isPositive power.toModel.unpack) = true := by decide +kernel
  exact List.all_eq_true.mp all _ (Array.getElem_mem_toList bounded)

end Unsigned

/-- The word of a decimal literal. -/
theorem decimal_word_le (whole fraction : List Char) :
    (decimal whole fraction).toBits.toNat ≤ 2047 * 2 ^ 52 := by
  unfold decimal Float.ofScientific
  split
  · rename_i bounds
    have power := Unsigned.powerOfTen fraction.length
      (by simp [Float.exactlyRepresentablePowersOfTen]; omega)
    have number := Unsigned.of_word (Unsigned.pack_le (Unsigned.ofNat
      (Nat.ofDigitChars 10 (whole ++ fraction) 0).toUInt64.toNat))
    exact Unsigned.pack_le (Unsigned.div number power)
  · exact Unsigned.pack_le (Unsigned.ofScientific _ _)

namespace Number

/-- A number that a literal can have: it is finite and has no sign. -/
def Plain (value : Float) : Prop :=
  ∃ size, Exact.ofFloat value = .finite false size

theorem plain_decimal {whole fraction : List Char}
    (bounded : (decimal whole fraction).isInf = false) : Plain (decimal whole fraction) := by
  have word := decimal_word_le whole fraction
  apply Exact.exists_ofBits_eq_finite
  apply Nat.lt_of_le_of_ne word
  intro last
  have infinite : (decimal whole fraction).isInf = true := Unsigned.isInf_of_word last
  rw [infinite] at bounded
  cases bounded

end Number

end Lox
