import UnityLint.Diagnostic.Basic

/-! # Results of an analysis -/

namespace UnityLint

structure LintResult where
  diagnostics : List Diagnostic := []
  filesChecked : Nat := 0
  filesSkipped : Nat := 0
deriving DecidableEq, Repr

namespace LintResult

def empty : LintResult := {}

def reaches (result : LintResult) (threshold : Severity) : Bool :=
  result.diagnostics.any fun diagnostic => diagnostic.severity.reaches threshold

def count (result : LintResult) (severity : Severity) : Nat :=
  result.diagnostics.countP fun diagnostic => diagnostic.severity = severity

def sort (result : LintResult) : LintResult :=
  { result with
    diagnostics := result.diagnostics.mergeSort fun left right => (left.order right).isLE }

end LintResult

end UnityLint
