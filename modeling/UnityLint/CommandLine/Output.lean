import UnityLint.CommandLine.Request
import UnityLint.Environment
import UnityLint.LintResult.Json
import UnityLint.Report.Drawing

/-! # Printed results -/

namespace UnityLint

structure Failure where
  message : String
  causes : List String := []
deriving DecidableEq, Repr

namespace Failure

def indentRest (width : Nat) (text : String) : String :=
  String.ofList (List.intercalate ('\n' :: List.replicate width ' ')
    (Text.pieces (· = '\n') text.toList))

def causeLines (causes : List String) : List String :=
  match causes with
  | [cause] => ["    " ++ indentRest 4 cause]
  | causes => causes.zipIdx.map fun (cause, index) =>
      "    " ++ toString index ++ ": " ++ indentRest 7 cause

def text (failure : Failure) : String :=
  "Error: " ++ failure.message ++
    (if failure.causes = [] then ""
      else "\n\nCaused by:\n" ++ String.intercalate "\n" (causeLines failure.causes))

end Failure

namespace LintResult

/-! ## Text -/

inductive Colour where
  | red
  | green
  | yellow
  | blue

def Colour.start : Colour → String
  | .red => "\x1b[31m"
  | .green => "\x1b[32m"
  | .yellow => "\x1b[33m"
  | .blue => "\x1b[34m"

def Colour.paint (colour : Colour) (text : String) : String :=
  colour.start ++ text ++ "\x1b[0m"

def severityColour : Severity → Colour
  | .error => .red
  | .warning => .yellow
  | .info => .blue

def summaryColour (result : LintResult) : Colour :=
  if 0 < result.count .error then .red
  else if 0 < result.count .warning then .yellow
  else .green

def summary (result : LintResult) : String :=
  "Found " ++ toString (result.count .error) ++ " error(s), " ++
    toString (result.count .warning) ++ " warning(s), " ++
    toString (result.count .info) ++ " info(s) in " ++ toString result.filesChecked ++ " file(s)"

def plainText (result : LintResult) : String :=
  String.join (result.diagnostics.map fun diagnostic =>
      diagnostic.paragraphWith
        ((severityColour diagnostic.severity).paint diagnostic.severity.name) ++ "\n") ++
    result.summaryColour.paint result.summary ++ "\n"

/-! ## Other forms -/

def compactText (result : LintResult) : String :=
  String.join (result.diagnostics.map fun diagnostic => diagnostic.line ++ "\n")

def richParagraph (environment : Environment) (root : String) (diagnostic : Diagnostic) :
    Except Failure String :=
  let file := Path.join root diagnostic.location.file
  match environment.readText file with
  | .error error => .error { message := "Failed to read " ++ file, causes := [error.message] }
  | .ok source => .ok ((Report.ofDiagnostic diagnostic source).draw ++ "\n")

def richText (result : LintResult) (environment : Environment) (root : String) :
    Except Failure String :=
  (result.diagnostics.mapM (richParagraph environment root)).map String.join

def format (result : LintResult) (format : OutputFormat) (environment : Environment)
    (root : String) : Except Failure String :=
  match format with
  | .text => .ok result.plainText
  | .json => .ok (result.toJson.text ++ "\n")
  | .compact => .ok result.compactText
  | .rich => result.richText environment root

end LintResult

end UnityLint
