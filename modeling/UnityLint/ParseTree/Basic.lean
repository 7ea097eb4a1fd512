import UnityLint.Syntax.Node
import UnityLint.Text.Basic

/-! # Parse trees

The tree that a parser of C# makes of a file: rows with a kind, the field that a row fills in its
parent, and the bytes it covers. Rows that are not named are punctuation and keywords. -/

namespace UnityLint

inductive Field where
  | name
  | condition
  | body
  | function
  | expression
  | operator
  | left
  | right
  | pattern
deriving DecidableEq, Repr

structure Extent where
  start : Nat
  stop : Nat
  row : Nat
  column : Nat
deriving DecidableEq, Repr

def Extent.span (extent : Extent) : Span where
  start := extent.start
  stop := extent.stop
  line := extent.row + 1
  column := extent.column + 1

inductive ParseTree where
  | row (kind : String) (named : Bool) (field : Option Field) (extent : Extent)
      (children : List ParseTree)
deriving Repr

namespace ParseTree

def kind : ParseTree → String
  | .row kind _ _ _ _ => kind

def named : ParseTree → Bool
  | .row _ named _ _ _ => named

def field : ParseTree → Option Field
  | .row _ _ field _ _ => field

def extent : ParseTree → Extent
  | .row _ _ _ extent _ => extent

def children : ParseTree → List ParseTree
  | .row _ _ _ _ children => children

def span (tree : ParseTree) : Span :=
  tree.extent.span

def namedChildren (tree : ParseTree) : List ParseTree :=
  tree.children.filter named

def fills (field : Field) (tree : ParseTree) : Bool :=
  tree.field = some field

def child? (tree : ParseTree) (field : Field) : Option ParseTree :=
  tree.children.find? (fills field)

def childOfKind? (tree : ParseTree) (kind : String) : Option ParseTree :=
  tree.namedChildren.find? (·.kind = kind)

def childrenOfKind (tree : ParseTree) (kind : String) : List ParseTree :=
  tree.namedChildren.filter (·.kind = kind)

def text (source : List Char) (tree : ParseTree) : List Char :=
  Text.slice source tree.extent.start tree.extent.stop

def textOf? (source : List Char) (tree : ParseTree) (field : Field) : Option String :=
  (tree.child? field).map fun child => String.ofList (child.text source)

mutual

/-- A row and the named rows below it, each before what is below it. Below a row that is not named
nothing is visited. -/
def namedRows : ParseTree → List ParseTree
  | .row kind named field extent children =>
      .row kind named field extent children :: namedRowsOfAll children

def namedRowsOfAll : List ParseTree → List ParseTree
  | [] => []
  | child :: rest =>
      if child.named then child.namedRows ++ namedRowsOfAll rest else namedRowsOfAll rest

end

/-! ## Parse trees from lists of rows -/

structure FlatRow where
  kind : String
  named : Bool
  field : Option Field
  extent : Extent
  parent : Option Nat

/-- Attaches rows, taken from the last to the first, to their parents; `pending` holds
the children found so far, by position of the parent. -/
def assemble : List (Nat × FlatRow) → List (Nat × List ParseTree) → Option ParseTree
  | [], _ => none
  | (position, flat) :: rest, pending =>
      let children := (pending.lookup position).getD []
      let tree := row flat.kind flat.named flat.field flat.extent children
      match flat.parent with
      | none => some tree
      | some parent =>
          let siblings := (pending.lookup parent).getD []
          assemble rest ((parent, tree :: siblings) ::
            pending.filter fun entry => entry.1 ≠ parent ∧ entry.1 ≠ position)

def ofRows? (rows : List FlatRow) : Option ParseTree :=
  assemble ((List.range rows.length).zip rows).reverse []

end ParseTree

end UnityLint
