import UnityLint.Declaration.Basic
import UnityLint.Syntax.Tree

/-! # Outlines

The abstract syntax of a file as a tree of constructs, before its nodes are numbered. Each node lists
its parts in the order in which they are numbered; the first parts play the roles that the construct
has, such as the condition of an `if`, and the others are further children. -/

namespace UnityLint

inductive Form where
  | compilationUnit
  | typeDeclaration (info : TypeInfo)
  | methodDeclaration (name : String) (info : MethodInfo)
  | ifStatement
  /-- The receiver comes first, then the tail if there is one. -/
  | conditionalAccess
  | invocation
  | identifier (name : String)
  | genericName (name : String)
  | memberAccess
  | memberBinding
  /-- The subject comes first, then the constant if the pattern has one. -/
  | isPattern (pattern : Pattern Unit)
  | comparison (op : ComparisonOp)
  | literal (kind : LiteralKind)
  | other (label : String) (directive : Option UsingDirective)
deriving DecidableEq, Repr

inductive Outline where
  | node (form : Form) (span : Span) (parts : List Outline)
deriving Repr

namespace Outline

def form : Outline → Form
  | .node form _ _ => form

def span : Outline → Span
  | .node _ span _ => span

def parts : Outline → List Outline
  | .node _ _ parts => parts

end Outline

/-- The node of a construct over the numbers of its parts, and the parts without a role. A construct
whose parts do not fill its roles is kept without them. -/
def Form.build : Form → List NodeId → Node × List NodeId
  | .compilationUnit, ids => (.compilationUnit, ids)
  | .typeDeclaration info, ids => (.typeDeclaration info.name, ids)
  | .methodDeclaration name _, ids => (.methodDeclaration name, ids)
  | .ifStatement, condition :: rest => (.ifStatement condition, rest)
  | .conditionalAccess, [receiver] => (.conditionalAccess receiver none, [])
  | .conditionalAccess, receiver :: tail :: rest => (.conditionalAccess receiver (some tail), rest)
  | .invocation, callee :: rest => (.invocation callee, rest)
  | .identifier name, ids => (.identifier name, ids)
  | .genericName name, ids => (.genericName name, ids)
  | .memberAccess, receiver :: member :: rest => (.memberAccess receiver member, rest)
  | .memberBinding, member :: rest => (.memberBinding member, rest)
  | .isPattern pattern, subject :: rest =>
      match pattern.constant?, rest with
      | some _, value :: rest => (.isPattern subject (pattern.map fun _ => value), rest)
      | some _, [] => (.isPattern subject .other, [])
      | none, rest => (.isPattern subject (pattern.map fun _ => subject), rest)
  | .comparison op, left :: right :: rest => (.comparison op left right, rest)
  | .literal kind, ids => (.literal kind, ids)
  | .other label _, ids => (.other label, ids)
  | _, ids => (.other "", ids)

theorem Form.references_build (form : Form) (ids : List NodeId) :
    (form.build ids).1.references ++ (form.build ids).2 = ids := by
  unfold Form.build
  split
  all_goals first | rfl | skip
  rename_i pattern subject rest
  split
  · rename_i value rest found
    simp [Node.references, Pattern.constant?_map, found]
  · rfl
  · rename_i missing
    simp [Node.references, Pattern.constant?_map, missing]

end UnityLint
