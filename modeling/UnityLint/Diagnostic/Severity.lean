import UnityLint.Text.Basic

/-! # Severities -/

namespace UnityLint

inductive Severity where
  | info
  | warning
  | error
deriving DecidableEq, Repr

namespace Severity

def rank : Severity → Nat
  | .info => 0
  | .warning => 1
  | .error => 2

def reaches (severity threshold : Severity) : Bool :=
  threshold.rank ≤ severity.rank

def name : Severity → String
  | .info => "info"
  | .warning => "warning"
  | .error => "error"

structure Unknown where
  text : String
deriving DecidableEq, Repr

def Unknown.message (unknown : Unknown) : String :=
  "unknown severity '" ++ unknown.text ++ "'"

def parse (text : String) : Except Unknown Severity :=
  let lower := String.ofList (Text.toLower text.toList)
  if lower = "info" then .ok .info
  else if lower = "warning" ∨ lower = "warn" then .ok .warning
  else if lower = "error" then .ok .error
  else .error ⟨lower⟩

theorem parse_name (severity : Severity) : parse severity.name = .ok severity := by
  cases severity <;> rfl

end Severity

end UnityLint
