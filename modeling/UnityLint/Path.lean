import UnityLint.Order
import UnityLint.Text.Basic

/-! # Paths

A path is kept as it was written; its meaning is its list of components, and paths are compared by
their components. -/

namespace UnityLint.Path

inductive Component where
  | root
  /-- `.`, which counts only at the start of a relative path. -/
  | here
  | up
  | name (text : String)
deriving DecidableEq, Repr

namespace Component

def rank : Component → Nat
  | .root => 0
  | .here => 1
  | .up => 2
  | .name _ => 3

def order : Component → Component → Ordering
  | .name left, .name right => Order.compareText left right
  | left, right => compare left.rank right.rank

def name? : Component → Option String
  | .name text => some text
  | _ => none

end Component

/-- What a piece between separators stands for; an empty piece and `.` stand for nothing. -/
def component? (piece : List Char) : Option Component :=
  if piece = [] ∨ piece = ['.'] then none
  else if piece = ['.', '.'] then some .up
  else some (.name (String.ofList piece))

def isSeparator (char : Char) : Bool :=
  char = '/'

def components (path : String) : List Component :=
  match Text.pieces isSeparator path.toList with
  | [] => []
  | first :: rest =>
      let start : List Component :=
        if first = [] then (if rest = [] then [] else [.root])
        else if first = ['.'] then [.here]
        else (component? first).toList
      start ++ rest.filterMap component?

example : components "/a//./b/" = [.root, .name "a", .name "b"] := by decide
example : components "./.." = [.here, .up] := by decide

def order (left right : String) : Ordering :=
  Order.compareLists Component.order (components left) (components right)

def isAbsolute (path : String) : Bool :=
  path.toList.head? = some '/'

def fileName? (path : String) : Option String :=
  (components path).getLast?.bind Component.name?

/-- The text after the last dot of the file name, unless the name starts with its only dot. -/
def extension? (path : String) : Option String :=
  (fileName? path).bind fun name =>
    match Text.cutLast '.' name.toList with
    | some (before, after) => if before = [] then none else some (String.ofList after)
    | none => none

example : extension? "a/b.g.cs" = some "cs" := by decide
example : extension? ".cs" = none := by decide

/-- Continues one path by another; an absolute path stands by itself. -/
def join (base path : String) : String :=
  if isAbsolute path then path
  else if base.toList.getLast?.all (· = '/') then base ++ path
  else base ++ "/" ++ path

example : join "/a" "b" = "/a/b" := by decide
example : join "a/" "b" = "a/b" := by decide

def dropBlankEnd (pieces : List (List Char)) : List (List Char) :=
  (pieces.reverse.dropWhile fun piece => (component? piece).isNone).reverse

/-- The path without its last component; neither the root nor the empty path has a parent. -/
def parent? (path : String) : Option String :=
  match Text.pieces isSeparator path.toList with
  | [] => none
  | first :: rest =>
      match dropBlankEnd rest with
      | [] => if first = [] then none else some ""
      | piece :: pieces =>
          match dropBlankEnd (piece :: pieces).dropLast with
          | [] => some (if first = [] then "/" else String.ofList first)
          | kept => some (String.ofList (List.intercalate ['/'] (first :: kept)))

example : parent? "/a/./b//" = some "/a" := by decide
example : parent? "/a" = some "/" := by decide
example : parent? "./a" = some "." := by decide

def ancestorsWithin : Nat → String → List String
  | 0, path => [path]
  | count + 1, path =>
      path :: match parent? path with
        | some above => ancestorsWithin count above
        | none => []

def ancestors (path : String) : List String :=
  ancestorsWithin ((components path).length + 1) path

example : ancestors "/a/b" = ["/a/b", "/a", "/"] := by decide
example : ancestors "a/b" = ["a/b", "a", ""] := by decide

def piecesAfter : Nat → List (List Char) → List (List Char)
  | 0, pieces => pieces.dropWhile fun piece => (component? piece).isNone
  | _ + 1, [] => []
  | count + 1, piece :: rest =>
      piecesAfter (if (component? piece).isSome then count else count + 1) rest

/-- The path after its first `count` components. It is kept as written, apart from pieces at its ends that
stand for nothing. -/
def after (count : Nat) (path : String) : String :=
  match Text.pieces isSeparator path.toList with
  | [] => ""
  | first :: rest =>
      match count with
      | 0 =>
          if first = [] ∧ rest ≠ [] ∧ dropBlankEnd rest = [] then "/"
          else String.ofList (List.intercalate ['/'] (first :: dropBlankEnd rest))
      | count + 1 =>
          String.ofList (List.intercalate ['/'] (dropBlankEnd (piecesAfter count rest)))

example : after 2 "/a//b/./c/." = "b/./c" := by decide

def relativeTo? (base path : String) : Option String :=
  if (components base).isPrefixOf (components path) then some (after (components base).length path)
  else none

example : relativeTo? "/a/." "/a/b//c.cs" = some "b//c.cs" := by decide
example : relativeTo? "/a/b" "/a/bc" = none := by decide

end UnityLint.Path
