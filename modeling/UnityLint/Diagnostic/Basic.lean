import UnityLint.Diagnostic.Severity
import UnityLint.Diagnostic.Template
import UnityLint.Path
import UnityLint.Syntax.Tree

/-! # Diagnostics -/

namespace UnityLint

/-- A place in a source file. Lines and columns count from one, `offset` and `length` are bytes. -/
structure Location where
  file : String
  line : Nat
  column : Nat
  offset : Nat := 0
  length : Nat := 0
deriving DecidableEq, Repr

namespace Location

def order (left right : Location) : Ordering :=
  (Path.order left.file right.file).then <|
    (compare left.line right.line).then <|
      (compare left.column right.column).then <|
        (compare left.offset right.offset).then (compare left.length right.length)

def text (location : Location) : String :=
  location.file ++ ":" ++ toString location.line ++ ":" ++ toString location.column

end Location

def Tree.location (tree : Tree) (id : NodeId) : Location :=
  let span := tree.span id
  { file := tree.path, line := span.line, column := span.column,
    offset := span.start, length := span.length }

structure Descriptor where
  id : String
  name : String
  title : String
  template : String
  category : String
  severity : Severity
  enabled : Bool
  description : String
  help : String
deriving DecidableEq, Repr

def Descriptor.message (descriptor : Descriptor) (arguments : List String) : String :=
  Template.format descriptor.template arguments

structure Diagnostic where
  code : String
  rule : String
  severity : Severity
  location : Location
  message : String
  arguments : List String := []
  suggestion : Option String := none
deriving DecidableEq, Repr

namespace Diagnostic

def ofDescriptor (descriptor : Descriptor) (location : Location) (arguments : List String) :
    Diagnostic where
  code := descriptor.id
  rule := descriptor.name
  severity := descriptor.severity
  location := location
  message := descriptor.message arguments
  arguments := arguments
  suggestion := if descriptor.help = "" then none else some descriptor.help

def line (diagnostic : Diagnostic) : String :=
  diagnostic.location.text ++ ": " ++ diagnostic.severity.name ++
    " [" ++ diagnostic.code ++ "] " ++ diagnostic.message

def paragraphWith (severity : String) (diagnostic : Diagnostic) : String :=
  diagnostic.code ++ " " ++ diagnostic.rule ++ " at " ++ diagnostic.location.text ++ "\n" ++
    "  " ++ severity ++ ": " ++ diagnostic.message ++ "\n" ++
    (match diagnostic.suggestion with
      | some help => "  = help: " ++ help ++ "\n"
      | none => "")

def paragraph (diagnostic : Diagnostic) : String :=
  diagnostic.paragraphWith diagnostic.severity.name

def order (left right : Diagnostic) : Ordering :=
  (Path.order left.location.file right.location.file).then <|
    (compare left.location.line right.location.line).then <|
      (compare left.location.column right.location.column).then <|
        Order.compareText left.code right.code

end Diagnostic

end UnityLint
