import Lox.Source.InPlace
/-! The bytes of a text. An unaccented character is one byte, which stands for nothing else;
of any other character no byte is an unaccented one. So a run of such characters is a run of
their bytes, and a text is cut between characters where the bytes of a part of it end. -/

namespace Lox

def encoded (text : List Char) : List UInt8 :=
  text.flatMap String.utf8EncodeChar

@[simp] theorem encoded_nil : encoded [] = [] := rfl

@[simp] theorem encoded_cons (character : Char) (rest : List Char) :
    encoded (character :: rest) = String.utf8EncodeChar character ++ encoded rest :=
  List.flatMap_cons

@[simp] theorem encoded_append (left right : List Char) :
    encoded (left ++ right) = encoded left ++ encoded right :=
  List.flatMap_append

theorem utf8Encode_data (text : List Char) : text.utf8Encode.data.toList = encoded text :=
  List.toList_data_toByteArray

theorem size_utf8Encode (text : List Char) : text.utf8Encode.size = (encoded text).length := by
  rw [← utf8Encode_data, Array.length_toList, ByteArray.size_data]

theorem utf8ByteSize_ofList (text : List Char) :
    (String.ofList text).utf8ByteSize = (encoded text).length := by
  rw [← String.size_toByteArray, String.toByteArray_ofList, size_utf8Encode]

theorem length_le_encoded (text : List Char) : text.length ≤ (encoded text).length := by
  induction text with
  | nil => exact Nat.le_refl _
  | cons character rest induction =>
      have positive := character.utf8Size_pos
      rw [encoded_cons, List.length_append, String.length_utf8EncodeChar, List.length_cons]
      omega

/-! ## Characters of one byte -/

/-- The kind has unaccented characters only. -/
def Unaccented (kind : Char → Bool) : Prop :=
  ∀ character, kind character = true → character.toNat < 128

theorem unaccented_eq {expected : Char} (small : expected.toNat < 128) :
    Unaccented fun character => character = expected := by
  intro character same
  rw [of_decide_eq_true same]
  exact small

theorem unaccented_quote : Unaccented isQuote :=
  unaccented_eq (by decide)

theorem unaccented_lineEnd : Unaccented isLineEnd :=
  unaccented_eq (by decide)

theorem unaccented_digit : Unaccented isDigit := by
  intro character digit
  have bounds : 48 ≤ character.toNat ∧ character.toNat ≤ 57 := by
    simpa [isDigit, Char.le_def, UInt32.le_iff_toNat_le] using digit
  omega

theorem unaccented_letter : Unaccented isLetter := by
  intro character letter
  have bounds : (97 ≤ character.toNat ∧ character.toNat ≤ 122 ∨
      65 ≤ character.toNat ∧ character.toNat ≤ 90) ∨ character = '_' := by
    simpa [isLetter, Char.le_def, UInt32.le_iff_toNat_le] using letter
  rcases bounds with (_ | _) | rfl
  · omega
  · omega
  · decide

theorem unaccented_wordCharacter : Unaccented isWordCharacter := by
  intro character word
  rw [isWordCharacter, Bool.or_eq_true] at word
  exact word.elim (unaccented_letter character) (unaccented_digit character)

theorem toNat_ofUInt8 (byte : UInt8) : (Char.ofUInt8 byte).toNat = byte.toNat :=
  UInt8.toNat_toUInt32 byte

theorem utf8EncodeChar_unaccented {character : Char} (unaccented : character.toNat < 128) :
    ∃ byte, String.utf8EncodeChar character = [byte] ∧ Char.ofUInt8 byte = character := by
  have small : character.val.toNat ≤ 0x7f := by
    have := character.toNat_val
    omega
  refine ⟨UInt8.ofNat character.val.toNat, ?_, ?_⟩
  · unfold String.utf8EncodeChar
    exact if_pos small
  · apply Char.ext
    apply UInt32.toNat_inj.mp
    refine (toNat_ofUInt8 _).trans ?_
    rw [UInt8.toNat_ofNat']
    omega

theorem utf8EncodeChar_accented {character : Char} (accented : 128 ≤ character.toNat) :
    ∀ byte ∈ String.utf8EncodeChar character, 128 ≤ byte.toNat := by
  have large : ¬ character.val.toNat ≤ 0x7f := by
    have := character.toNat_val
    omega
  intro byte member
  unfold String.utf8EncodeChar at member
  simp only [if_neg large] at member
  have bound := character.toNat_val
  split at member
  · simp only [List.mem_cons, List.not_mem_nil, or_false] at member
    rcases member with rfl | rfl <;> simp only [UInt8.toNat_ofNat'] <;> omega
  · split at member
    · simp only [List.mem_cons, List.not_mem_nil, or_false] at member
      rcases member with rfl | rfl | rfl <;> simp only [UInt8.toNat_ofNat'] <;> omega
    · simp only [List.mem_cons, List.not_mem_nil, or_false] at member
      rcases member with rfl | rfl | rfl | rfl <;> simp only [UInt8.toNat_ofNat'] <;> omega

/-- A character of the kind is one byte of the kind; no byte of any other character is. -/
theorem utf8EncodeChar_kind {kind : Char → Bool} (unaccented : Unaccented kind)
    (character : Char) :
    kind character = true ∧ (∃ byte, String.utf8EncodeChar character = [byte] ∧
        isByteOf kind byte = true) ∨
      kind character = false ∧ ∀ byte ∈ String.utf8EncodeChar character,
        isByteOf kind byte = false := by
  by_cases small : character.toNat < 128
  · rcases utf8EncodeChar_unaccented small with ⟨byte, alone, same⟩
    have shared : isByteOf kind byte = kind character := congrArg kind same
    rw [alone]
    cases holds : kind character with
    | true => exact .inl ⟨rfl, byte, rfl, shared.trans holds⟩
    | false =>
        refine .inr ⟨rfl, fun other member => ?_⟩
        rw [List.mem_singleton.mp member, shared, holds]
  · have other (found : Char) (large : 128 ≤ found.toNat) : kind found = false := by
      rw [Bool.eq_false_iff]
      intro holds
      have := unaccented found holds
      omega
    refine .inr ⟨other character (by omega), fun byte member => other _ ?_⟩
    rw [toNat_ofUInt8]
    exact utf8EncodeChar_accented (by omega) byte member

section

variable {kind : Char → Bool} (unaccented : Unaccented kind) (text : List Char)

include unaccented

theorem takeWhile_encoded :
    (encoded text).takeWhile (isByteOf kind) = encoded (text.takeWhile kind) := by
  induction text with
  | nil => rfl
  | cons character rest induction =>
      rw [encoded_cons]
      rcases utf8EncodeChar_kind unaccented character with ⟨holds, byte, alone, is⟩ | ⟨fails, none⟩
      · rw [List.takeWhile_cons_of_pos holds, encoded_cons, alone, List.singleton_append,
          List.takeWhile_cons_of_pos is, induction, List.singleton_append]
      · rw [List.takeWhile_cons_of_neg (by simp [fails])]
        cases bytes : String.utf8EncodeChar character with
        | nil => exact absurd bytes (by simp)
        | cons byte others =>
            have : isByteOf kind byte = false := none byte (bytes ▸ List.mem_cons_self)
            rw [List.cons_append, List.takeWhile_cons_of_neg (by simp [this])]
            rfl

theorem takeWhile_not_encoded :
    (encoded text).takeWhile (!isByteOf kind ·) = encoded (text.takeWhile (!kind ·)) := by
  induction text with
  | nil => rfl
  | cons character rest induction =>
      rw [encoded_cons]
      rcases utf8EncodeChar_kind unaccented character with ⟨holds, byte, alone, is⟩ | ⟨fails, none⟩
      · rw [List.takeWhile_cons_of_neg (by simp [holds]), alone, List.singleton_append,
          List.takeWhile_cons_of_neg (by simp [is])]
        rfl
      · have outside : ∀ byte ∈ String.utf8EncodeChar character, (!isByteOf kind byte) = true := by
          intro byte member
          rw [none byte member]
          rfl
        rw [List.takeWhile_cons_of_pos (by simp [fails]), List.takeWhile_append_of_pos outside,
          induction, encoded_cons]

theorem countP_encoded : (encoded text).countP (isByteOf kind) = text.countP kind := by
  induction text with
  | nil => rfl
  | cons character rest induction =>
      rw [encoded_cons, List.countP_append, induction]
      rcases utf8EncodeChar_kind unaccented character with ⟨holds, byte, alone, is⟩ | ⟨fails, none⟩
      · rw [alone, List.countP_cons_of_pos holds, List.countP_singleton, is]
        exact Nat.add_comm _ _
      · rw [List.countP_cons_of_neg (by simp [fails])]
        have outside : (String.utf8EncodeChar character).countP (isByteOf kind) = 0 := by
          rw [List.countP_eq_zero]
          intro byte member
          simp [none byte member]
        rw [outside, Nat.zero_add]

theorem isByteOf_headD (zero : kind '\x00' = false) :
    isByteOf kind ((encoded text).headD 0) = text.head?.any kind := by
  cases text with
  | nil => exact zero
  | cons character rest =>
      rw [encoded_cons]
      rcases utf8EncodeChar_kind unaccented character with ⟨holds, byte, alone, is⟩ | ⟨fails, none⟩
      · rw [alone]
        simp [holds, is]
      · cases bytes : String.utf8EncodeChar character with
        | nil => exact absurd bytes (by simp)
        | cons byte others =>
            simp [fails, none byte (bytes ▸ List.mem_cons_self)]

end

end Lox
