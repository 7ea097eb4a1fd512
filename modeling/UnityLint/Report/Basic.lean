import UnityLint.Diagnostic.Basic

/-! # Diagnostics beside their source -/

namespace UnityLint

/-- A diagnostic prepared for display over the text of its file; the labelled bytes lie inside the
text. -/
structure Report where
  message : String
  help : Option String
  label : String
  offset : Nat
  length : Nat
  name : String
  source : String
deriving DecidableEq, Repr

namespace Report

def ofDiagnostic (diagnostic : Diagnostic) (source : String) : Report :=
  let offset := min diagnostic.location.offset source.utf8ByteSize
  { message := "[" ++ diagnostic.code ++ "] " ++ diagnostic.message
    help := diagnostic.suggestion
    label := diagnostic.rule
    offset := offset
    length := min diagnostic.location.length (source.utf8ByteSize - offset)
    name := diagnostic.location.file
    source := source }

end Report

end UnityLint
