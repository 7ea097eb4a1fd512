import UnityLint.FileTree
import UnityLint.Json.Reader
import UnityLint.ParseTree.Basic

/-! # Stored parse trees

The parse tree of a source file stands in a file beside it, as a JSON list of its rows. A row is the list
of its kind, 1 if it is named, its field, start, stop, row, column and the position of its parent. -/

namespace UnityLint

def Field.label : Field → String
  | .name => "name"
  | .condition => "condition"
  | .body => "body"
  | .function => "function"
  | .expression => "expression"
  | .operator => "operator"
  | .left => "left"
  | .right => "right"
  | .pattern => "pattern"

def Field.ofName? (name : String) : Option Field :=
  [Field.name, .condition, .body, .function, .expression, .operator, .left, .right, .pattern].find?
    fun field => field.label = name

namespace ParseTree

def orNull {α : Type} (read? : Json → Option α) : Json → Option (Option α)
  | .null => some none
  | json => (read? json).map some

def FlatRow.ofJson? : Json → Option FlatRow
  | .array [kind, named, field, start, stop, line, column, parent] => do
      let kind ← kind.text?
      let named ← named.nat?
      let field ← orNull Json.text? field
      let start ← start.nat?
      let stop ← stop.nat?
      let line ← line.nat?
      let column ← column.nat?
      let parent ← orNull Json.nat? parent
      some {
        kind, named := named = 1, field := field.bind Field.ofName?,
        extent := { start, stop, row := line, column }, parent }
  | _ => none

def ofJson? (json : Json) : Option ParseTree :=
  (json.list? FlatRow.ofJson?).bind ofRows?

def storedName (name : String) : String :=
  name ++ ".tree.json"

def storedFor? (beside : List (String × FileTree)) (name : String) (content : ByteArray) :
    Option (String × ParseTree) := do
  let source ← String.fromUTF8? content
  let .file stored ← beside.lookup (storedName name) | none
  let text ← String.fromUTF8? stored
  let json ← Json.read? text.toList
  let tree ← ofJson? json
  some (source, tree)

mutual

def stored : FileTree → List (String × ParseTree)
  | .directory entries => storedAmong entries entries
  | _ => []

def storedAmong (beside : List (String × FileTree)) :
    List (String × FileTree) → List (String × ParseTree)
  | [] => []
  | (name, .file content) :: rest =>
      (storedFor? beside name content).toList ++ storedAmong beside rest
  | (_, entry) :: rest => stored entry ++ storedAmong beside rest

end

end ParseTree

end UnityLint
