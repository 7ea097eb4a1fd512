/-! # Syntax nodes

The constructs that rules look at. A node refers to the nodes below it by number; a construct that no
rule inspects is kept as `other`, so that walks towards the root still pass through it. -/

namespace UnityLint

/-- The number of a node in its tree. A number need not belong to a node. -/
abbrev NodeId := Nat

structure Span where
  start : Nat := 0
  stop : Nat := 0
  line : Nat := 0
  column : Nat := 0
deriving DecidableEq, Repr, Inhabited

/-- The length in bytes; a range that ends before it starts is empty. -/
def Span.length (span : Span) : Nat :=
  span.stop - span.start

inductive ComparisonOp where
  | equal
  | notEqual
deriving DecidableEq, Repr

inductive LiteralKind where
  | null
  | other
deriving DecidableEq, Repr

/-- The right-hand side of an `is` test; `α` stands for what a constant refers to. -/
inductive Pattern (α : Type) where
  | constant (value : α)
  | negated (pattern : Pattern α)
  | other
deriving DecidableEq, Repr

namespace Pattern

variable {α β : Type}

def map (transform : α → β) : Pattern α → Pattern β
  | .constant value => .constant (transform value)
  | .negated pattern => .negated (pattern.map transform)
  | .other => .other

def constant? : Pattern α → Option α
  | .constant value => some value
  | .negated pattern => pattern.constant?
  | .other => none

theorem constant?_map (transform : α → β) (pattern : Pattern α) :
    (pattern.map transform).constant? = pattern.constant?.map transform := by
  induction pattern with
  | constant value => rfl
  | negated pattern induction => exact induction
  | other => rfl

end Pattern

inductive Node where
  | compilationUnit
  | typeDeclaration (name : String)
  | methodDeclaration (name : String)
  | ifStatement (condition : NodeId)
  /-- `receiver?.tail`; the tail is evaluated when the receiver is not null. -/
  | conditionalAccess (receiver : NodeId) (tail : Option NodeId)
  | invocation (callee : NodeId)
  | identifier (name : String)
  | genericName (name : String)
  | memberAccess (receiver member : NodeId)
  /-- `.member` at the start of the tail of a conditional access. -/
  | memberBinding (member : NodeId)
  | isPattern (subject : NodeId) (pattern : Pattern NodeId)
  | comparison (op : ComparisonOp) (left right : NodeId)
  | literal (kind : LiteralKind)
  | other (label : String)
deriving DecidableEq, Repr

inductive NodeKind where
  | compilationUnit
  | typeDeclaration
  | methodDeclaration
  | ifStatement
  | conditionalAccess
  | invocation
  | identifier
  | genericName
  | memberAccess
  | memberBinding
  | isPattern
  | comparison
  | literal
  | other
deriving DecidableEq, Repr

namespace Node

def kind : Node → NodeKind
  | .compilationUnit => .compilationUnit
  | .typeDeclaration _ => .typeDeclaration
  | .methodDeclaration _ => .methodDeclaration
  | .ifStatement _ => .ifStatement
  | .conditionalAccess _ _ => .conditionalAccess
  | .invocation _ => .invocation
  | .identifier _ => .identifier
  | .genericName _ => .genericName
  | .memberAccess _ _ => .memberAccess
  | .memberBinding _ => .memberBinding
  | .isPattern _ _ => .isPattern
  | .comparison _ _ _ => .comparison
  | .literal _ => .literal
  | .other _ => .other

def references : Node → List NodeId
  | .ifStatement condition => [condition]
  | .conditionalAccess receiver tail => receiver :: tail.toList
  | .invocation callee => [callee]
  | .memberAccess receiver member => [receiver, member]
  | .memberBinding member => [member]
  | .isPattern subject pattern => subject :: pattern.constant?.toList
  | .comparison _ left right => [left, right]
  | _ => []

def simpleName? : Node → Option String
  | .identifier name => some name
  | .genericName name => some name
  | _ => none

end Node

end UnityLint
