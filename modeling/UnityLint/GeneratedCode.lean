import UnityLint.Path

/-! # Generated code

A C# file counts as generated by the end of its name, or by a marker in the comments before its
code. -/

namespace UnityLint.GeneratedCode

def nameEndings : List String :=
  [".g.cs", ".g.i.cs", ".designer.cs", ".generated.cs"]

def markers : List String :=
  ["<auto-generated", "<autogenerated"]

def endsAsGenerated (path : String) : Bool :=
  (Path.fileName? path).any fun name =>
    nameEndings.any fun ending => ending.toList.isSuffixOf (Text.toLower name.toList)

def isMarked (comment : List Char) : Bool :=
  markers.any fun marker => Text.occurs marker.toList (Text.toLower comment)

def closesBlock (text : List Char) : Bool :=
  Text.occurs ['*', '/'] text

/-- Looks for a marker line by line, up to the first line that is neither blank nor a comment; `inBlock`
says whether a block comment is open. -/
def headerMarked : (inBlock : Bool) → List (List Char) → Bool
  | _, [] => false
  | true, line :: rest =>
      isMarked (Text.trim line) || headerMarked (!closesBlock (Text.trim line)) rest
  | false, line :: rest =>
      match Text.trim line with
      | '/' :: '/' :: comment => isMarked comment || headerMarked false rest
      | '/' :: '*' :: comment => isMarked comment || headerMarked (!closesBlock comment) rest
      | [] => headerMarked false rest
      | _ => false

def isByteOrderMark (char : Char) : Bool :=
  char.toNat = 0xFEFF

def opensWithMarker (source : String) : Bool :=
  headerMarked false
    (Text.pieces (· = '\n') (source.toList.dropWhile isByteOrderMark))

example : opensWithMarker "/*\n <AutoGenerated />\n*/\nclass A" = true := by decide
example : opensWithMarker "using A;\n// <auto-generated/>" = false := by decide

def isGenerated (path source : String) : Bool :=
  endsAsGenerated path || opensWithMarker source

end UnityLint.GeneratedCode
