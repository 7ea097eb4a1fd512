import UnityLint.Json.Printer
import UnityLint.Json.Reader
import UnityLint.LintResult

/-! # Results as JSON

Empty arguments and a missing suggestion are not written. Reading them back takes missing fields with a
default as that default. -/

namespace UnityLint

open Json (ofNat ofString)

/-! ## Writing -/

def Location.toJson (location : Location) : Json :=
  .object [
    (some "file", ofString location.file),
    (some "line", ofNat location.line),
    (some "column", ofNat location.column),
    (some "offset", ofNat location.offset),
    (some "length", ofNat location.length)]

def Diagnostic.toJson (diagnostic : Diagnostic) : Json :=
  let always : List (Option String × Json) := [
    (some "code", ofString diagnostic.code),
    (some "rule", ofString diagnostic.rule),
    (some "severity", ofString diagnostic.severity.name),
    (some "location", diagnostic.location.toJson),
    (some "message", ofString diagnostic.message)]
  let arguments : List (Option String × Json) :=
    if diagnostic.arguments = [] then []
    else [(some "args", .array (diagnostic.arguments.map ofString))]
  let suggestion : List (Option String × Json) :=
    match diagnostic.suggestion with
    | none => []
    | some help => [(some "suggestion", .object [(some "message", ofString help)])]
  .object (always ++ arguments ++ suggestion)

def LintResult.toJson (result : LintResult) : Json :=
  .object [
    (some "diagnostics", .array (result.diagnostics.map Diagnostic.toJson)),
    (some "files_checked", ofNat result.filesChecked),
    (some "files_skipped", ofNat result.filesSkipped)]

/-! ## Reading -/

def Severity.ofName? (name : String) : Option Severity :=
  [Severity.info, .warning, .error].find? (·.name = name)

/-- A severity is its name, or an object that maps its name to null. -/
def Severity.ofJson? : Json → Option Severity
  | .string name => name.bind ofName?
  | .object [(name, .null)] => name.bind ofName?
  | _ => none

def Location.ofJson? (json : Json) : Option Location :=
  match Json.record ["file", "line", "column", "offset", "length"] json with
  | some [some file, some line, some column, some offset, some length] => do
      let file ← file.text?
      let line ← line.nat?
      let column ← column.nat?
      let offset ← offset.nat?
      let length ← length.nat?
      some { file, line, column, offset, length }
  | _ => none

def suggestionOfJson? : Json → Option (Option String)
  | .null => some none
  | json =>
      match Json.record ["message"] json with
      | some [some message] => message.text?.map some
      | _ => none

def Diagnostic.ofJson? (json : Json) : Option Diagnostic :=
  match Json.record ["code", "rule", "severity", "location", "message", "args", "suggestion"]
      json with
  | some [some code, some rule, some severity, some location, some message, arguments,
      suggestion] => do
      let code ← code.text?
      let rule ← rule.text?
      let severity ← Severity.ofJson? severity
      let location ← Location.ofJson? location
      let message ← message.text?
      let arguments ← arguments.elim (some []) (Json.list? Json.text?)
      let suggestion ← suggestion.elim (some none) suggestionOfJson?
      some { code, rule, severity, location, message, arguments, suggestion }
  | _ => none

def LintResult.ofJson? (json : Json) : Option LintResult :=
  match Json.record ["diagnostics", "files_checked", "files_skipped"] json with
  | some [some diagnostics, some checked, skipped] => do
      let diagnostics ← Json.list? Diagnostic.ofJson? diagnostics
      let filesChecked ← checked.nat?
      let filesSkipped ← skipped.elim (some 0) Json.nat?
      some { diagnostics, filesChecked, filesSkipped }
  | _ => none

def LintResult.read? (text : String) : Option LintResult :=
  (Json.read? text.toList).bind ofJson?

end UnityLint
