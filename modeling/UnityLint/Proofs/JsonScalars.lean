import UnityLint.Json.Printer
import UnityLint.Json.Reader

/-! # Strings and numbers of JSON

The reader takes a quoted string back to the string, whatever characters it has, and the digits of a
number below `2 ^ 64` back to the number. What follows them is left for the rest of the reading. -/

namespace UnityLint

namespace Json

/-! ## Strings -/

theorem isHighHalf_toNat (char : Char) : isHighHalf char.toNat = false := by
  have valid : char.toNat < 0xd800 ∨ 0xdfff < char.toNat ∧ char.toNat < 0x110000 := char.valid
  simp only [isHighHalf, Bool.and_eq_false_iff, decide_eq_false_iff_not]
  omega

theorem isLowHalf_toNat (char : Char) : isLowHalf char.toNat = false := by
  have valid : char.toNat < 0xd800 ∨ 0xdfff < char.toNat ∧ char.toNat < 0x110000 := char.valid
  simp only [isLowHalf, Bool.and_eq_false_iff, decide_eq_false_iff_not]
  omega

theorem joinUnits_map_toNat (text : List Char) : joinUnits (text.map Char.toNat) = some text := by
  induction text with
  | nil => rfl
  | cons char rest induction =>
      have high := isHighHalf_toNat char
      have low := isLowHalf_toNat char
      cases rest with
      | nil => simp [joinUnits, high, low]
      | cons next others =>
          rw [List.map_cons, List.map_cons, joinUnits, high, low, ← List.map_cons, induction]
          simp

theorem unitsText_map_toNat (text : String) : unitsText (text.toList.map Char.toNat) = some text := by
  rw [unitsText, joinUnits_map_toNat, Option.map_some, String.ofList_toList]

theorem hexFrom_hexDigit : ∀ value < 0x20,
    Text.hexFrom 0 ['0', '0', hexDigit (value / 16), hexDigit (value % 16)] = some value := by
  decide

theorem stringUnits_plain {char : Char} (quote : char ≠ '"') (backslash : char ≠ '\\')
    (visible : ¬char.toNat < 0x20) (rest : List Char) :
    stringUnits (char :: rest) =
      (stringUnits rest).map fun (units, after) => (char.toNat :: units, after) := by
  rw [stringUnits.eq_def]
  split
  case h_1 empty => cases empty
  case h_2 escape => exact absurd (List.cons.inj escape).1 backslash
  case h_3 escape => exact absurd (List.cons.inj escape).1 backslash
  case h_4 same =>
    cases same
    rw [if_neg quote, if_neg (not_or.mpr ⟨backslash, visible⟩)]

/-- The form of a character gives its code unit, be it a letter after a backslash, four hexadecimal
digits or the character itself. -/
theorem stringUnits_escapeChar (char : Char) (rest : List Char) :
    stringUnits (escapeChar char ++ rest) =
      (stringUnits rest).map fun (units, after) => (char.toNat :: units, after) := by
  rw [escapeChar]
  split
  case isTrue => subst char; rfl
  rename_i quote
  split
  case isTrue => subst char; rfl
  rename_i backslash
  -- The five characters with a letter of their own.
  iterate 5
    split
    case isTrue => subst char; rfl
  split
  case isTrue control =>
    have unit := hexFrom_hexDigit char.toNat control
    simp only [List.cons_append, List.nil_append, stringUnits, unit, Option.bind_some]
  case isFalse visible => exact stringUnits_plain quote backslash visible rest

theorem stringUnits_quoted (text rest : List Char) :
    stringUnits (text.flatMap escapeChar ++ '"' :: rest) = some (text.map Char.toNat, rest) := by
  induction text with
  | nil => rfl
  | cons char others induction =>
      rw [List.flatMap_cons, List.append_assoc, stringUnits_escapeChar, induction]
      rfl

end Json

/-! ## Numbers -/

theorem Text.isDigit_of_mem_toDigits {value : Nat} {char : Char}
    (member : char ∈ Nat.toDigits 10 value) : char.isDigit :=
  Nat.isDigit_of_mem_toDigits (by decide) (by decide) member

theorem Text.decimalFrom_eq_ofDigitChars {digits : List Char} (all : ∀ char ∈ digits, char.isDigit)
    (value : Nat) : decimalFrom value digits = some (Nat.ofDigitChars 10 digits value) := by
  induction digits generalizing value with
  | nil => rw [decimalFrom, Nat.ofDigitChars_nil]
  | cons char rest induction =>
      have own : digitValue? char = some (char.toNat - '0'.toNat) :=
        if_pos (all char List.mem_cons_self)
      rw [decimalFrom, own, Option.bind_some,
        induction fun other member => all other (List.mem_cons_of_mem _ member),
        Nat.ofDigitChars_cons]

theorem Text.head?_toDigits_ne {value : Nat} (positive : 0 < value) :
    (Nat.toDigits 10 value).head? ≠ some '0' := by
  induction value using Nat.strongRecOn with
  | ind value induction =>
      rw [Nat.toDigits_eq_if (by decide)]
      split
      · simpa using Nat.ne_of_gt positive
      · have shorter := induction (value / 10) (by omega) (by omega)
        rw [List.head?_append]
        cases first : (Nat.toDigits 10 (value / 10)).head? with
        | none => exact absurd (List.head?_eq_none_iff.mp first) Nat.toDigits_ne_nil
        | some char => rwa [first] at shorter

theorem Text.word?_toDigits {value : Nat} (small : value < UInt64.size) :
    word? (Nat.toDigits 10 value) = some value := by
  have digits : ∀ char ∈ Nat.toDigits 10 value, char.isDigit := fun _ => isDigit_of_mem_toDigits
  have read := decimalFrom_eq_ofDigitChars digits 0
  rw [Nat.ofDigitChars_ten_toDigits] at read
  have filled : (Nat.toDigits 10 value).isEmpty = false :=
    List.isEmpty_eq_false_iff.mpr Nat.toDigits_ne_nil
  rw [word?]
  · rw [filled, read]
    simp [small]
  · intro rest signed
    rw [signed] at digits
    exact absurd (digits '+' List.mem_cons_self) (by decide)

namespace Json

def EndsNumber (text : List Char) : Prop :=
  ∀ char ∈ text.head?, char.isDigit = false ∧ char ≠ '.' ∧ char ≠ 'e' ∧ char ≠ 'E'

section EndsNumber

variable {rest : List Char} (ends : EndsNumber rest)

include ends

theorem EndsNumber.takeWhile_append {digits : List Char} (all : ∀ char ∈ digits, char.isDigit) :
    (digits ++ rest).takeWhile Char.isDigit = digits := by
  rw [List.takeWhile_append_of_pos all]
  cases rest with
  | nil => exact List.append_nil digits
  | cons char others => simp [(ends char rfl).1]

theorem EndsNumber.dropWhile_append {digits : List Char} (all : ∀ char ∈ digits, char.isDigit) :
    (digits ++ rest).dropWhile Char.isDigit = rest := by
  rw [List.dropWhile_append_of_pos all]
  cases rest with
  | nil => rfl
  | cons char others => simp [(ends char rfl).1]

theorem EndsNumber.dropFraction? : Json.dropFraction? rest = some rest := by
  rw [dropFraction?.eq_def]
  split
  · exact absurd rfl (ends '.' rfl).2.1
  · rfl

theorem EndsNumber.dropExponent? : Json.dropExponent? rest = some rest := by
  rw [dropExponent?.eq_def]
  split
  · exact absurd rfl (ends 'e' rfl).2.2.1
  · exact absurd rfl (ends 'E' rfl).2.2.2
  · rfl

theorem unsigned?_toDigits {value : Nat} (small : value < UInt64.size) :
    unsigned? (Nat.toDigits 10 value ++ rest) = some (some value, rest) := by
  have digits : ∀ char ∈ Nat.toDigits 10 value, char.isDigit := fun _ => Text.isDigit_of_mem_toDigits
  have canonical : ¬(Nat.toDigits 10 value = [] ∨
      1 < (Nat.toDigits 10 value).length ∧ (Nat.toDigits 10 value).head? = some '0') := by
    rintro (empty | ⟨long, zero⟩)
    · exact Nat.toDigits_ne_nil empty
    · cases value with
      | zero => simp at long
      | succ value => exact Text.head?_toDigits_ne (Nat.succ_pos value) zero
  rw [unsigned?]
  simp only [ends.takeWhile_append digits, ends.dropWhile_append digits, if_neg canonical,
    ends.dropFraction?, ends.dropExponent?, Option.bind_some, Option.map_some, if_true,
    Text.word?_toDigits small]

end EndsNumber

end Json

end UnityLint
