import Mathlib.Data.List.DropRight
import UnityLint.Proofs.JsonScalars

/-! # Texts of JSON values

A value can be written in many layouts, with blanks between its parts. The reader gives the value back
from every one of them (`Layout.read?_eq`), and the printer writes one of them
(`Printable.layout_text`). -/

namespace UnityLint.Json

/-! ## Blanks -/

def Blank (text : List Char) : Prop :=
  ∀ char ∈ text, isSpace char

theorem blank_nil : Blank [] :=
  fun _ member => nomatch member

theorem skipSpace_append {blank : List Char} (spaces : Blank blank) (text : List Char) :
    skipSpace (blank ++ text) = skipSpace text :=
  List.dropWhile_append_of_pos spaces

theorem skipSpace_cons {char : Char} (visible : isSpace char = false) (rest : List Char) :
    skipSpace (char :: rest) = char :: rest :=
  List.dropWhile_cons_of_neg (Bool.eq_false_iff.mp visible)

theorem skipSpace_append_cons {blank : List Char} (spaces : Blank blank) {char : Char}
    (visible : isSpace char = false) (rest : List Char) :
    skipSpace (blank ++ char :: rest) = char :: rest := by
  rw [skipSpace_append spaces, skipSpace_cons visible]

theorem skipSpace_skipSpace (text : List Char) : skipSpace (skipSpace text) = skipSpace text :=
  List.dropWhile_idempotent ..

theorem Blank.endsNumber {blank : List Char} (spaces : Blank blank) {rest : List Char}
    (ends : EndsNumber rest) : EndsNumber (blank ++ rest) := by
  cases blank with
  | nil => exact ends
  | cons char others =>
      intro first leading
      cases leading
      have space := spaces char List.mem_cons_self
      simp only [isSpace, decide_eq_true_eq] at space
      rcases space with rfl | rfl | rfl | rfl <;> decide

theorem Blank.endsNumber_cons {blank : List Char} (spaces : Blank blank) {char : Char}
    (closing : char ∈ [',', ']', '\x7d']) (rest : List Char) : EndsNumber (blank ++ char :: rest) := by
  apply spaces.endsNumber
  intro first leading
  cases leading
  simp only [List.mem_cons, List.not_mem_nil, or_false] at closing
  rcases closing with rfl | rfl | rfl <;> decide

/-! ## One step of the reader -/

section Steps

variable {fuel : Nat} {blank text rest : List Char}

theorem valueWithin_append (spaces : Blank blank) (text : List Char) :
    valueWithin fuel (blank ++ text) = valueWithin fuel text := by
  cases fuel with
  | zero => rfl
  | succ fuel => rw [valueWithin, valueWithin, skipSpace_append spaces]

theorem itemsWithin_skipSpace (text : List Char) :
    itemsWithin fuel (skipSpace text) = itemsWithin fuel text := by
  rcases fuel with _ | _ | fuel
  · rfl
  · rfl
  · rw [itemsWithin, itemsWithin, valueWithin, valueWithin, skipSpace_skipSpace]

theorem fieldsWithin_skipSpace (text : List Char) :
    fieldsWithin fuel (skipSpace text) = fieldsWithin fuel text := by
  cases fuel with
  | zero => rfl
  | succ fuel => rw [fieldsWithin, fieldsWithin, skipSpace_skipSpace]

theorem quote_append (text : String) (rest : List Char) :
    quote text ++ rest = '"' :: (text.toList.flatMap escapeChar ++ '"' :: rest) := by
  simp [quote]

theorem valueWithin_quote (text : String) (rest : List Char) :
    valueWithin (fuel + 1) (quote text ++ rest) = some (ofString text, rest) := by
  have opened (inner : List Char) : valueWithin (fuel + 1) ('"' :: inner) =
      (stringUnits inner).map fun read => (.string (unitsText read.1), read.2) := rfl
  simp only [quote_append, opened, stringUnits_quoted, Option.map_some, unitsText_map_toNat]
  rfl

theorem ne_of_isDigit {first char : Char} (digit : first.isDigit) (different : char.isDigit = false) :
    first ≠ char := by
  rintro rfl
  rw [digit] at different
  cases different

theorem isSpace_of_isDigit {char : Char} (digit : char.isDigit) : isSpace char = false := by
  have other (blank : Char) (different : blank.isDigit = false) : char ≠ blank :=
    ne_of_isDigit digit different
  simp [isSpace, other ' ' rfl, other '\n' rfl, other '\t' rfl, other '\r' rfl]

theorem valueWithin_digit {first : Char} (digit : first.isDigit) :
    valueWithin (fuel + 1) (first :: text) =
      (unsigned? (first :: text)).map fun (value, after) => (.number value, after) := by
  rw [valueWithin, skipSpace_cons (isSpace_of_isDigit digit)]
  split
  case h_7 =>
    rw [number?]
    intro rest signed
    exact ne_of_isDigit digit rfl (List.cons.inj signed).1
  all_goals
    rename_i begun
    exact absurd (List.cons.inj begun).1 (ne_of_isDigit digit rfl)

theorem exists_toDigits_eq_cons (value : Nat) :
    ∃ first others, Nat.toDigits 10 value = first :: others ∧ first.isDigit := by
  have digits : ∀ char ∈ Nat.toDigits 10 value, char.isDigit := fun _ => Text.isDigit_of_mem_toDigits
  cases written : Nat.toDigits 10 value with
  | nil => exact absurd written Nat.toDigits_ne_nil
  | cons first others =>
      rw [written] at digits
      exact ⟨first, others, rfl, digits first List.mem_cons_self⟩

theorem valueWithin_toDigits {value : Nat} (small : value < UInt64.size) (ends : EndsNumber rest) :
    valueWithin (fuel + 1) (Nat.toDigits 10 value ++ rest) = some (ofNat value, rest) := by
  have read := unsigned?_toDigits ends small
  obtain ⟨first, others, written, digit⟩ := exists_toDigits_eq_cons value
  rw [written, List.cons_append] at read ⊢
  rw [valueWithin_digit digit, read]
  rfl

theorem valueWithin_bracket (text : List Char) : valueWithin (fuel + 1) ('[' :: text) =
    match skipSpace text with
    | ']' :: rest => some (.array [], rest)
    | rest => (itemsWithin fuel rest).map fun (items, rest) => (.array items, rest) :=
  rfl

theorem valueWithin_emptyArray (spaces : Blank blank) (rest : List Char) :
    valueWithin (fuel + 1) ('[' :: (blank ++ ']' :: rest)) = some (.array [], rest) := by
  rw [valueWithin_bracket, skipSpace_append_cons spaces (by decide)]
  rfl

theorem valueWithin_array {items : List Json} (opens : ∀ tail, skipSpace text ≠ ']' :: tail)
    (inner : itemsWithin fuel text = some (items, rest)) :
    valueWithin (fuel + 1) ('[' :: text) = some (.array items, rest) := by
  rw [valueWithin_bracket]
  split
  case h_1 tail closed => exact absurd closed (opens tail)
  case h_2 => rw [itemsWithin_skipSpace, inner, Option.map_some]

theorem valueWithin_brace (text : List Char) : valueWithin (fuel + 1) ('\x7b' :: text) =
    match skipSpace text with
    | '\x7d' :: rest => some (.object [], rest)
    | rest => (fieldsWithin fuel rest).map fun (fields, rest) => (.object fields, rest) :=
  rfl

theorem valueWithin_emptyObject (spaces : Blank blank) (rest : List Char) :
    valueWithin (fuel + 1) ('\x7b' :: (blank ++ '\x7d' :: rest)) = some (.object [], rest) := by
  rw [valueWithin_brace, skipSpace_append_cons spaces (by decide)]
  rfl

theorem valueWithin_object {fields : List (Option String × Json)}
    (opens : ∀ tail, skipSpace text ≠ '\x7d' :: tail)
    (inner : fieldsWithin fuel text = some (fields, rest)) :
    valueWithin (fuel + 1) ('\x7b' :: text) = some (.object fields, rest) := by
  rw [valueWithin_brace]
  split
  case h_1 tail closed => exact absurd closed (opens tail)
  case h_2 => rw [fieldsWithin_skipSpace, inner, Option.map_some]

theorem itemsWithin_last {item : Json} (spaces : Blank blank)
    (first : valueWithin fuel text = some (item, blank ++ ']' :: rest)) :
    itemsWithin (fuel + 1) text = some ([item], rest) := by
  have closed := skipSpace_append_cons spaces (show isSpace ']' = false by decide) rest
  simp only [itemsWithin, first, Option.bind_some, closed]

theorem itemsWithin_next {item : Json} {items : List Json} {more : List Char} (spaces : Blank blank)
    (first : valueWithin fuel text = some (item, blank ++ ',' :: more))
    (others : itemsWithin fuel more = some (items, rest)) :
    itemsWithin (fuel + 1) text = some (item :: items, rest) := by
  have divided := skipSpace_append_cons spaces (show isSpace ',' = false by decide) more
  simp only [itemsWithin, first, Option.bind_some, divided, others, Option.map_some]

section Fields

variable {key : String} {value : Json} {before middle : List Char} (lead : Blank before)
  (colon : Blank middle) (spaces : Blank blank)

include lead colon spaces

theorem fieldsWithin_last (first : valueWithin fuel text = some (value, blank ++ '\x7d' :: rest)) :
    fieldsWithin (fuel + 1) (before ++ (quote key ++ (middle ++ ':' :: text))) =
      some ([(some key, value)], rest) := by
  have opened := skipSpace_append_cons lead (show isSpace '"' = false by decide)
  have named := skipSpace_append_cons colon (show isSpace ':' = false by decide) text
  have closed := skipSpace_append_cons spaces (show isSpace '\x7d' = false by decide) rest
  simp only [fieldsWithin, quote_append, opened, stringUnits_quoted, Option.bind_some, named, first,
    closed, unitsText_map_toNat]

theorem fieldsWithin_next {fields : List (Option String × Json)} {more : List Char}
    (first : valueWithin fuel text = some (value, blank ++ ',' :: more))
    (others : fieldsWithin fuel more = some (fields, rest)) :
    fieldsWithin (fuel + 1) (before ++ (quote key ++ (middle ++ ':' :: text))) =
      some ((some key, value) :: fields, rest) := by
  have opened := skipSpace_append_cons lead (show isSpace '"' = false by decide)
  have named := skipSpace_append_cons colon (show isSpace ':' = false by decide) text
  have divided := skipSpace_append_cons spaces (show isSpace ',' = false by decide) more
  simp only [fieldsWithin, quote_append, opened, stringUnits_quoted, Option.bind_some, named, first,
    divided, others, Option.map_some, unitsText_map_toNat]

end Fields

end Steps

/-! ## Layouts -/

mutual

/-- The text writes the value. Blanks may stand around every part; strings and numbers are written in
one form. -/
inductive Spelled : Json → List Char → Prop
  | null : Spelled .null "null".toList
  | boolean (value : Bool) : Spelled (.boolean value) (toString value).toList
  | number {value : Nat} (small : value < UInt64.size) :
      Spelled (ofNat value) (Nat.toDigits 10 value)
  | string (text : String) : Spelled (ofString text) (quote text)
  | emptyArray {blank : List Char} (spaces : Blank blank) :
      Spelled (.array []) ('[' :: (blank ++ [']']))
  | array {items : List Json} {text : List Char} (inner : SpelledItems items text) :
      Spelled (.array items) ('[' :: text)
  | emptyObject {blank : List Char} (spaces : Blank blank) :
      Spelled (.object []) ('\x7b' :: (blank ++ ['\x7d']))
  | object {fields : List (Option String × Json)} {text : List Char}
      (inner : SpelledFields fields text) : Spelled (.object fields) ('\x7b' :: text)

inductive SpelledItems : List Json → List Char → Prop
  | last {item : Json} {before text after : List Char} (lead : Blank before)
      (spelled : Spelled item text) (trail : Blank after) :
      SpelledItems [item] (before ++ (text ++ (after ++ [']'])))
  | next {item : Json} {items : List Json} {before text after rest : List Char}
      (lead : Blank before) (spelled : Spelled item text) (trail : Blank after)
      (others : SpelledItems items rest) :
      SpelledItems (item :: items) (before ++ (text ++ (after ++ ',' :: rest)))

inductive SpelledFields : List (Option String × Json) → List Char → Prop
  | last (key : String) {value : Json} {before middle between text after : List Char}
      (lead : Blank before) (colon : Blank middle) (gap : Blank between)
      (spelled : Spelled value text) (trail : Blank after) :
      SpelledFields [(some key, value)]
        (before ++ (quote key ++ (middle ++ ':' :: (between ++ (text ++ (after ++ ['\x7d']))))))
  | next (key : String) {value : Json} {fields : List (Option String × Json)}
      {before middle between text after rest : List Char}
      (lead : Blank before) (colon : Blank middle) (gap : Blank between)
      (spelled : Spelled value text) (trail : Blank after) (others : SpelledFields fields rest) :
      SpelledFields ((some key, value) :: fields)
        (before ++ (quote key ++ (middle ++ ':' :: (between ++ (text ++ (after ++ ',' :: rest))))))

end

theorem Spelled.exists_eq_cons {value : Json} {text : List Char} (spelled : Spelled value text) :
    ∃ first others, text = first :: others ∧ isSpace first = false ∧ first ≠ ']' := by
  cases spelled with
  | @number value small =>
      obtain ⟨first, others, written, digit⟩ := exists_toDigits_eq_cons value
      exact ⟨first, others, written, isSpace_of_isDigit digit, ne_of_isDigit digit rfl⟩
  | string text => exact ⟨'"', _, rfl, by decide, by decide⟩
  | boolean value => cases value <;> exact ⟨_, _, rfl, by decide, by decide⟩
  | _ => exact ⟨_, _, rfl, by decide, by decide⟩

theorem SpelledItems.skipSpace_ne {items : List Json} {text : List Char}
    (spelled : SpelledItems items text) (rest tail : List Char) :
    skipSpace (text ++ rest) ≠ ']' :: tail := by
  have begun : ∃ before item value others, Blank before ∧ Spelled item value ∧
      text = before ++ (value ++ others) := by
    cases spelled with
    | last lead first trail => exact ⟨_, _, _, _, lead, first, rfl⟩
    | next lead first trail others => exact ⟨_, _, _, _, lead, first, rfl⟩
  obtain ⟨before, item, value, others, lead, first, rfl⟩ := begun
  obtain ⟨char, inner, rfl, visible, opens⟩ := first.exists_eq_cons
  simp only [List.append_assoc, List.cons_append]
  rw [skipSpace_append_cons lead visible]
  intro closed
  exact opens (List.cons.inj closed).1

theorem SpelledFields.skipSpace_ne {fields : List (Option String × Json)} {text : List Char}
    (spelled : SpelledFields fields text) (rest tail : List Char) :
    skipSpace (text ++ rest) ≠ '\x7d' :: tail := by
  have begun : ∃ before key others, Blank before ∧ text = before ++ (quote key ++ others) := by
    cases spelled with
    | last key lead => exact ⟨_, key, _, lead, rfl⟩
    | next key lead => exact ⟨_, key, _, lead, rfl⟩
  obtain ⟨before, key, others, lead, rfl⟩ := begun
  simp only [List.append_assoc, quote_append, List.cons_append]
  rw [skipSpace_append_cons lead (by decide)]
  intro closed
  exact absurd (List.cons.inj closed).1 (by decide)

/-! ## The reader accepts every layout

The recursion is on the layout. Two units of fuel for each character are enough for a value, one more for
the inside of an array or object. -/

mutual

theorem Spelled.valueWithin_eq {value : Json} {text : List Char} : Spelled value text →
    ∀ (fuel : Nat) (rest : List Char), EndsNumber rest → 2 * text.length ≤ fuel →
      valueWithin fuel (text ++ rest) = some (value, rest)
  | spelled, 0, rest, ends, enough => by
      obtain ⟨first, others, rfl, _⟩ := spelled.exists_eq_cons
      simp at enough
  | .null, fuel + 1, rest, ends, enough => rfl
  | .boolean true, fuel + 1, rest, ends, enough => rfl
  | .boolean false, fuel + 1, rest, ends, enough => rfl
  | .number small, fuel + 1, rest, ends, enough => valueWithin_toDigits small ends
  | .string text, fuel + 1, rest, ends, enough => valueWithin_quote text rest
  | .emptyArray spaces, fuel + 1, rest, ends, enough => by
      simpa using valueWithin_emptyArray spaces rest
  | .array inner, fuel + 1, rest, ends, enough => by
      rw [List.length_cons] at enough
      apply valueWithin_array (inner.skipSpace_ne rest)
      exact inner.itemsWithin_eq fuel rest (by omega)
  | .emptyObject spaces, fuel + 1, rest, ends, enough => by
      simpa using valueWithin_emptyObject spaces rest
  | .object inner, fuel + 1, rest, ends, enough => by
      rw [List.length_cons] at enough
      apply valueWithin_object (inner.skipSpace_ne rest)
      exact inner.fieldsWithin_eq fuel rest (by omega)

theorem SpelledItems.itemsWithin_eq {items : List Json} {text : List Char} :
    SpelledItems items text → ∀ (fuel : Nat) (rest : List Char), 2 * text.length < fuel →
      itemsWithin fuel (text ++ rest) = some (items, rest)
  | .last lead spelled trail, fuel + 1, rest, enough => by
      simp only [List.length_append] at enough
      simp only [List.append_assoc, List.singleton_append]
      apply itemsWithin_last trail
      rw [valueWithin_append lead]
      exact spelled.valueWithin_eq fuel _ (trail.endsNumber_cons (by decide) rest) (by omega)
  | .next lead spelled trail others, fuel + 1, rest, enough => by
      simp only [List.length_append, List.length_cons] at enough
      simp only [List.append_assoc, List.cons_append]
      apply itemsWithin_next trail
      · rw [valueWithin_append lead]
        exact spelled.valueWithin_eq fuel _ (trail.endsNumber_cons (by decide) _) (by omega)
      · exact others.itemsWithin_eq fuel rest (by omega)

theorem SpelledFields.fieldsWithin_eq {fields : List (Option String × Json)} {text : List Char} :
    SpelledFields fields text → ∀ (fuel : Nat) (rest : List Char), 2 * text.length < fuel →
      fieldsWithin fuel (text ++ rest) = some (fields, rest)
  | .last key lead colon gap spelled trail, fuel + 1, rest, enough => by
      simp only [List.length_append, List.length_cons] at enough
      simp only [List.append_assoc, List.cons_append, List.nil_append]
      apply fieldsWithin_last lead colon trail
      rw [valueWithin_append gap]
      exact spelled.valueWithin_eq fuel _ (trail.endsNumber_cons (by decide) rest) (by omega)
  | .next key lead colon gap spelled trail others, fuel + 1, rest, enough => by
      simp only [List.length_append, List.length_cons] at enough
      simp only [List.append_assoc, List.cons_append]
      apply fieldsWithin_next lead colon trail
      · rw [valueWithin_append gap]
        exact spelled.valueWithin_eq fuel _ (trail.endsNumber_cons (by decide) _) (by omega)
      · exact others.fieldsWithin_eq fuel rest (by omega)

end

def Layout (value : Json) (text : String) : Prop :=
  ∃ before inner after, Blank before ∧ Spelled value inner ∧ Blank after ∧
    text.toList = before ++ (inner ++ after)

theorem Layout.read?_eq {value : Json} {text : String} (layout : value.Layout text) :
    read? text.toList = some value := by
  obtain ⟨before, inner, after, lead, spelled, trail, written⟩ := layout
  have ends : EndsNumber after := by
    rw [← List.append_nil after]
    exact trail.endsNumber fun _ leading => nomatch leading
  have enough : 2 * inner.length ≤ 2 * (before ++ (inner ++ after)).length + 2 := by
    simp only [List.length_append]
    omega
  have remaining : skipSpace after = [] := List.dropWhile_eq_nil_iff.mpr trail
  rw [written, read?, valueWithin_append lead, spelled.valueWithin_eq _ after ends enough]
  exact if_pos remaining

theorem Layout.append_blank {value : Json} {text : String} (layout : value.Layout text)
    {blank : String} (spaces : Blank blank.toList) : value.Layout (text ++ blank) := by
  obtain ⟨before, inner, after, lead, spelled, trail, written⟩ := layout
  refine ⟨before, inner, after ++ blank.toList, lead, spelled, ?_, ?_⟩
  · intro char member
    exact (List.mem_append.mp member).elim (trail char) (spaces char)
  · rw [String.toList_append, written, List.append_assoc, List.append_assoc]

/-! ## The printer -/

/-- The value has a text: no number, string or key of it is left open. -/
inductive Printable : Json → Prop
  | null : Printable .null
  | boolean (value : Bool) : Printable (.boolean value)
  | number {value : Nat} (small : value < UInt64.size) : Printable (ofNat value)
  | string (text : String) : Printable (ofString text)
  | array {items : List Json} (all : ∀ item ∈ items, Printable item) : Printable (.array items)
  | object {fields : List (Option String × Json)} (named : ∀ field ∈ fields, field.1.isSome)
      (all : ∀ field ∈ fields, Printable field.2) : Printable (.object fields)

theorem blank_newLine (level : Nat) : Blank (newLine level) := by
  intro char member
  rcases List.mem_cons.mp member with rfl | blank
  · decide
  · rw [(List.mem_replicate.mp blank).2]
    decide

theorem spelledItems_render {level : Nat} {after : List Char} (trail : Blank after) {item : Json}
    {items : List Json} (all : ∀ inner ∈ item :: items, Spelled inner (render level inner)) :
    SpelledItems (item :: items)
      (newLine level ++ (render level item ++ (renderItems level items ++ (after ++ [']'])))) := by
  have first := all item List.mem_cons_self
  induction items generalizing item with
  | nil => exact .last (blank_newLine level) first trail
  | cons next items induction =>
      have others := fun inner member => all inner (List.mem_cons_of_mem item member)
      have rest := induction others (others next List.mem_cons_self)
      have spelled := SpelledItems.next (blank_newLine level) first blank_nil rest
      simpa [renderItems] using spelled

theorem spelledFields_render {level : Nat} {after : List Char} (trail : Blank after) (key : String)
    {value : Json} {fields : List (Option String × Json)} (first : Spelled value (render level value))
    (named : ∀ field ∈ fields, field.1.isSome)
    (all : ∀ field ∈ fields, Spelled field.2 (render level field.2)) :
    SpelledFields ((some key, value) :: fields)
      (newLine level ++ (quote key ++ (':' :: ' ' :: (render level value ++
        (renderFields level fields ++ (after ++ ['\x7d'])))))) := by
  have space : Blank [' '] := by simp [Blank, isSpace]
  induction fields generalizing key value with
  | nil => exact .last key (blank_newLine level) blank_nil space first trail
  | cons next fields induction =>
      rw [List.forall_mem_cons] at named all
      obtain ⟨_ | other, value⟩ := next
      · cases named.1
      · have rest := induction other all.1 named.2 all.2
        have spelled := SpelledFields.next key (blank_newLine level) blank_nil space first blank_nil rest
        simpa [renderFields] using spelled

/-- A value is printed in one of its layouts, at every level. -/
theorem Printable.spelled_render {value : Json} (printable : Printable value) (level : Nat) :
    Spelled value (render level value) := by
  induction printable generalizing level with
  | null => exact .null
  | boolean value => cases value <;> exact .boolean _
  | @number value small =>
      have written : render level (ofNat value) = Nat.toDigits 10 value := by
        simp [render, ofNat, Nat.toList_repr]
      rw [written]
      exact .number small
  | string text => exact .string text
  | @array items all induction =>
      cases items with
      | nil => exact .emptyArray blank_nil
      | cons item items =>
          have inner := spelledItems_render (blank_newLine level)
            fun inner member => induction inner member (level + 1)
          simpa [render] using Spelled.array inner
  | @object fields named all induction =>
      obtain _ | ⟨⟨_ | key, value⟩, fields⟩ := fields
      · exact .emptyObject blank_nil
      · cases named _ List.mem_cons_self
      · rw [List.forall_mem_cons] at named induction
        have inner := spelledFields_render (blank_newLine level) key (induction.1 (level + 1))
          named.2 fun field member => induction.2 field member (level + 1)
        simpa [render] using Spelled.object inner

theorem Printable.layout_text {value : Json} (printable : Printable value) :
    value.Layout value.text := by
  refine ⟨[], render 0 value, [], blank_nil, printable.spelled_render 0, blank_nil, ?_⟩
  rw [text, String.toList_ofList, List.nil_append, List.append_nil]

end UnityLint.Json
