import Mathlib.Algebra.Group.Nat.Defs
import Mathlib.Data.List.Forall2
import UnityLint.CommandLine.Output
import UnityLint.Proofs.JsonText

/-! # Results read back

A result that was written as JSON is read back as it was. Fields at their default may be written or left
out, and the text may have any layout. -/

namespace UnityLint

open Json (ofNat ofString)

namespace Json

def HasKey (key : String) : Json → Prop
  | .object fields => ∃ value, (some key, value) ∈ fields
  | _ => False

/-- The fields that a value with a default is written as: one, or none if it is the default. -/
inductive Written (key : String) (value : Json) (atDefault : Prop) :
    List (Option String × Json) → Prop
  | kept : Written key value atDefault [(some key, value)]
  | dropped (default : atDefault) : Written key value atDefault []

theorem text?_ofString (text : String) : text? (ofString text) = some text :=
  rfl

theorem nat?_ofNat (value : Nat) : nat? (ofNat value) = some value :=
  rfl

theorem list?_of_forall₂ {α : Type} {item? : Json → Option α} {values : List α} {items : List Json}
    (each : List.Forall₂ (fun value item => item? item = some value) values items) :
    list? item? (.array items) = some values := by
  rw [list?]
  induction each with
  | nil => rfl
  | cons first others induction => simp [List.mapM_cons, first, induction]

theorem list?_map_ofString (texts : List String) :
    list? text? (.array (texts.map ofString)) = some texts := by
  apply list?_of_forall₂
  rw [List.forall₂_map_right_iff, List.forall₂_same]
  exact fun text _ => text?_ofString text

def ofSuggestion : Option String → Json
  | none => .null
  | some help => .object [(some "message", ofString help)]

end Json

/-! ## Forms of a result -/

inductive Diagnostic.WrittenAs (diagnostic : Diagnostic) : Json → Prop
  | object {arguments suggestion : List (Option String × Json)}
      (optional : Json.Written "args" (.array (diagnostic.arguments.map ofString))
        (diagnostic.arguments = []) arguments)
      (help : Json.Written "suggestion" (Json.ofSuggestion diagnostic.suggestion)
        (diagnostic.suggestion = none) suggestion) :
      WrittenAs diagnostic (.object ([
        (some "code", ofString diagnostic.code),
        (some "rule", ofString diagnostic.rule),
        (some "severity", ofString diagnostic.severity.name),
        (some "location", diagnostic.location.toJson),
        (some "message", ofString diagnostic.message)] ++ arguments ++ suggestion))

inductive LintResult.WrittenAs (result : LintResult) : Json → Prop
  | object {items : List Json} {skipped : List (Option String × Json)}
      (each : List.Forall₂ Diagnostic.WrittenAs result.diagnostics items)
      (optional : Json.Written "files_skipped" (ofNat result.filesSkipped)
        (result.filesSkipped = 0) skipped) :
      WrittenAs result (.object ([
        (some "diagnostics", .array items),
        (some "files_checked", ofNat result.filesChecked)] ++ skipped))

theorem Diagnostic.writtenAs_toJson (diagnostic : Diagnostic) :
    diagnostic.WrittenAs diagnostic.toJson := by
  refine .object ?_ ?_
  · split
    case isTrue empty => exact .dropped empty
    case isFalse => exact .kept
  · cases diagnostic.suggestion with
    | none => exact .dropped rfl
    | some help => exact .kept

theorem LintResult.writtenAs_toJson (result : LintResult) : result.WrittenAs result.toJson := by
  refine .object ?_ .kept
  rw [List.forall₂_map_right_iff, List.forall₂_same]
  exact fun diagnostic _ => diagnostic.writtenAs_toJson

/-! ## Reading a form -/

theorem Severity.ofJson?_name (severity : Severity) :
    Severity.ofJson? (ofString severity.name) = some severity := by
  cases severity <;> rfl

theorem Location.ofJson?_toJson (location : Location) :
    Location.ofJson? location.toJson = some location := by
  rfl

theorem suggestionOfJson?_ofSuggestion (suggestion : Option String) :
    suggestionOfJson? (Json.ofSuggestion suggestion) = some suggestion := by
  cases suggestion <;> rfl

theorem Diagnostic.WrittenAs.record_eq {diagnostic : Diagnostic} {json : Json}
    (written : diagnostic.WrittenAs json) : ∃ arguments suggestion : Option Json,
      Json.record ["code", "rule", "severity", "location", "message", "args", "suggestion"] json =
        some [some (ofString diagnostic.code), some (ofString diagnostic.rule),
          some (ofString diagnostic.severity.name), some diagnostic.location.toJson,
          some (ofString diagnostic.message), arguments, suggestion] ∧
      arguments.elim (some []) (Json.list? Json.text?) = some diagnostic.arguments ∧
      suggestion.elim (some none) suggestionOfJson? = some diagnostic.suggestion := by
  have listed := Json.list?_map_ofString diagnostic.arguments
  have helped := suggestionOfJson?_ofSuggestion diagnostic.suggestion
  obtain ⟨optional, help⟩ := written
  cases optional with
  | kept =>
      cases help with
      | kept => exact ⟨some _, some _, rfl, listed, helped⟩
      | dropped absent => exact ⟨some _, none, rfl, listed, congrArg some absent.symm⟩
  | dropped empty =>
      cases help with
      | kept => exact ⟨none, some _, rfl, congrArg some empty.symm, helped⟩
      | dropped absent =>
          exact ⟨none, none, rfl, congrArg some empty.symm, congrArg some absent.symm⟩

theorem Diagnostic.WrittenAs.ofJson?_eq {diagnostic : Diagnostic} {json : Json}
    (written : diagnostic.WrittenAs json) : Diagnostic.ofJson? json = some diagnostic := by
  obtain ⟨arguments, suggestion, found, listed, helped⟩ := written.record_eq
  simp [Diagnostic.ofJson?, found, listed, helped, Severity.ofJson?_name, Location.ofJson?_toJson,
    Json.text?_ofString]

theorem LintResult.WrittenAs.record_eq {result : LintResult} {json : Json}
    (written : result.WrittenAs json) : ∃ (diagnostics : Json) (skipped : Option Json),
      Json.record ["diagnostics", "files_checked", "files_skipped"] json =
        some [some diagnostics, some (ofNat result.filesChecked), skipped] ∧
      Json.list? Diagnostic.ofJson? diagnostics = some result.diagnostics ∧
      skipped.elim (some 0) Json.nat? = some result.filesSkipped := by
  obtain ⟨each, optional⟩ := written
  have listed := Json.list?_of_forall₂ (each.imp fun _ _ form => form.ofJson?_eq)
  cases optional with
  | kept => exact ⟨_, some _, rfl, listed, Json.nat?_ofNat result.filesSkipped⟩
  | dropped zero => exact ⟨_, none, rfl, listed, congrArg some zero.symm⟩

theorem LintResult.WrittenAs.ofJson?_eq {result : LintResult} {json : Json}
    (written : result.WrittenAs json) : LintResult.ofJson? json = some result := by
  obtain ⟨diagnostics, skipped, found, listed, counted⟩ := written.record_eq
  simp [LintResult.ofJson?, found, listed, counted, Json.nat?_ofNat]

/-! ## Printing a form -/

structure Location.Fits (location : Location) : Prop where
  line : location.line < 2 ^ 64
  column : location.column < 2 ^ 64
  offset : location.offset < 2 ^ 64
  length : location.length < 2 ^ 64

structure LintResult.Fits (result : LintResult) : Prop where
  locations : ∀ diagnostic ∈ result.diagnostics, diagnostic.location.Fits
  checked : result.filesChecked < 2 ^ 64
  skipped : result.filesSkipped < 2 ^ 64

theorem Json.printable_object {fields : List (Option String × Json)}
    (each : ∀ field ∈ fields, field.1.isSome ∧ field.2.Printable) : (Json.object fields).Printable :=
  .object (fun field member => (each field member).1) fun field member => (each field member).2

theorem Json.Written.printable {key : String} {value : Json} {atDefault : Prop}
    {fields : List (Option String × Json)} (written : Json.Written key value atDefault fields)
    (printable : value.Printable) : ∀ field ∈ fields, field.1.isSome ∧ field.2.Printable := by
  cases written with
  | kept => simpa using printable
  | dropped => simp

theorem Json.printable_ofSuggestion (suggestion : Option String) :
    (Json.ofSuggestion suggestion).Printable := by
  cases suggestion with
  | none => exact .null
  | some help => exact Json.printable_object (by simpa using .string help)

theorem Location.Fits.printable {location : Location} (fits : location.Fits) :
    location.toJson.Printable := by
  apply Json.printable_object
  simp only [List.forall_mem_cons]
  exact ⟨⟨rfl, .string _⟩, ⟨rfl, .number fits.line⟩, ⟨rfl, .number fits.column⟩,
    ⟨rfl, .number fits.offset⟩, ⟨rfl, .number fits.length⟩, List.forall_mem_nil _⟩

theorem Diagnostic.WrittenAs.printable {diagnostic : Diagnostic} {json : Json}
    (written : diagnostic.WrittenAs json) (fits : diagnostic.location.Fits) : json.Printable := by
  obtain ⟨optional, help⟩ := written
  have listed : (Json.array (diagnostic.arguments.map ofString)).Printable := by
    refine .array ?_
    rw [List.forall_mem_map]
    exact fun argument _ => .string argument
  apply Json.printable_object
  simp only [List.forall_mem_append, List.forall_mem_cons]
  refine ⟨⟨⟨⟨rfl, .string _⟩, ⟨rfl, .string _⟩, ⟨rfl, .string _⟩, ⟨rfl, fits.printable⟩,
    ⟨rfl, .string _⟩, List.forall_mem_nil _⟩, ?_⟩, ?_⟩
  · exact optional.printable listed
  · exact help.printable (Json.printable_ofSuggestion _)

theorem Diagnostic.printable_of_forall₂ {diagnostics : List Diagnostic} {items : List Json}
    (each : List.Forall₂ WrittenAs diagnostics items)
    (fit : ∀ diagnostic ∈ diagnostics, diagnostic.location.Fits) : ∀ item ∈ items, item.Printable := by
  induction each with
  | nil => exact List.forall_mem_nil _
  | cons first others induction =>
      rw [List.forall_mem_cons] at fit ⊢
      exact ⟨first.printable fit.1, induction fit.2⟩

theorem LintResult.WrittenAs.printable {result : LintResult} {json : Json}
    (written : result.WrittenAs json) (fits : result.Fits) : json.Printable := by
  obtain ⟨each, optional⟩ := written
  apply Json.printable_object
  simp only [List.forall_mem_append, List.forall_mem_cons]
  refine ⟨⟨⟨rfl, .array ?_⟩, ⟨rfl, .number fits.checked⟩, List.forall_mem_nil _⟩, ?_⟩
  · exact Diagnostic.printable_of_forall₂ each fits.locations
  · exact optional.printable (.number fits.skipped)

theorem Diagnostic.hasKey_toJson (diagnostic : Diagnostic) :
    (diagnostic.toJson.HasKey "args" ↔ diagnostic.arguments ≠ []) ∧
      (diagnostic.toJson.HasKey "suggestion" ↔ diagnostic.suggestion ≠ none) := by
  cases helped : diagnostic.suggestion <;> by_cases empty : diagnostic.arguments = [] <;>
    simp [Diagnostic.toJson, Json.HasKey, helped, empty]

theorem LintResult.WrittenAs.read?_eq {result : LintResult} {json : Json}
    (written : result.WrittenAs json) {text : String} (layout : json.Layout text) :
    LintResult.read? text = some result := by
  rw [LintResult.read?, layout.read?_eq, Option.bind_some, written.ofJson?_eq]

/-- What the program prints for a result is read back as that result, although empty arguments and
missing suggestions are not written. So is every other form of the result, in which fields at their
default are written or left out, and every layout of it. -/
theorem storedResult_readBack (result : LintResult) (fits : result.Fits) :
    (∀ environment root, ∃ text, result.format .json environment root = .ok text ∧
      result.toJson.Layout text ∧ LintResult.read? text = some result) ∧
    (∀ diagnostic ∈ result.diagnostics,
      (diagnostic.toJson.HasKey "args" ↔ diagnostic.arguments ≠ []) ∧
      (diagnostic.toJson.HasKey "suggestion" ↔ diagnostic.suggestion ≠ none)) ∧
    result.WrittenAs result.toJson ∧
    ∀ json, result.WrittenAs json →
      LintResult.ofJson? json = some result ∧
      LintResult.read? json.text = some result ∧
      ∀ text, json.Layout text → LintResult.read? text = some result := by
  have own := result.writtenAs_toJson
  refine ⟨?_, fun diagnostic _ => diagnostic.hasKey_toJson, own, ?_⟩
  · intro environment root
    -- The text is followed by one end of line.
    have printed : result.toJson.Layout (result.toJson.text ++ "\n") :=
      (own.printable fits).layout_text.append_blank (Json.blank_newLine 0)
    exact ⟨_, rfl, printed, own.read?_eq printed⟩
  · intro json written
    have printed := (written.printable fits).layout_text
    exact ⟨written.ofJson?_eq, written.read?_eq printed, fun text => written.read?_eq⟩

/-- One diagnostic has arguments, a suggestion and a name with quotes, line ends and characters beyond
the first plane; the other has neither. The count of skipped files is left out. -/
theorem mixedResult_readBack :
    let first : Diagnostic := {
      code := "SR0001", rule := "", severity := .warning, message := "tab\t and \x01",
      location := { file := "Ünï/\"a\\b\"😀\n.cs", line := 2 ^ 64 - 1, column := 0 }
      arguments := ["Start", ""], suggestion := some "" }
    let second : Diagnostic := {
      code := "SR0004", rule := "r", severity := .error, message := "m"
      location := { file := "b.cs", line := 1, column := 2, offset := 3, length := 4 } }
    let result : LintResult := { diagnostics := [first, second], filesChecked := 2 }
    result.Fits ∧ LintResult.read? result.toJson.text = some result ∧
      LintResult.read? (Json.object [
        (some "diagnostics", .array [first.toJson, second.toJson]),
        (some "files_checked", ofNat 2)]).text = some result := by
  intro first second result
  have fits : result.Fits :=
    { locations := by
        rw [List.forall_mem_cons, List.forall_mem_singleton]
        exact ⟨⟨by decide, by decide, by decide, by decide⟩, ⟨by decide, by decide, by decide, by decide⟩⟩
      checked := by decide
      skipped := by decide }
  have dropped : result.WrittenAs _ :=
    .object (.cons first.writtenAs_toJson (.cons second.writtenAs_toJson .nil)) (.dropped rfl)
  have readBack := (storedResult_readBack result fits).2.2
  exact ⟨fits, (readBack.2 _ readBack.1).2.1, (readBack.2 _ dropped).2.1⟩

-- Without blanks, and with the fields in another order.
example : LintResult.read? "\x7b\"files_checked\":2,\"diagnostics\":[]\x7d" =
    some { filesChecked := 2 } := by
  cbv

end UnityLint
