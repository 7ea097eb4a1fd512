import UnityLint.Syntax.Tree

/-! # Questions about a tree

Every answer may be absent; whoever asks takes that for "does not match". -/

namespace UnityLint

namespace Forest

def simpleName? (forest : Forest) (id : NodeId) : Option String :=
  (forest.node? id).bind Node.simpleName?

/-- The method that a call names: `Name(…)`, `Name<T>(…)`, `receiver.Name(…)` or
`receiver?.Name(…)`. -/
def methodName? (forest : Forest) (call : NodeId) : Option String :=
  match forest.node? call with
  | some (.invocation callee) =>
      match forest.node? callee with
      | some (.identifier name) => some name
      | some (.genericName name) => some name
      | some (.memberAccess _ member) => forest.simpleName? member
      | some (.memberBinding member) => forest.simpleName? member
      | _ => none
  | _ => none

def enclosing? (forest : Forest) (kind : NodeKind) (id : NodeId) : Option NodeId :=
  (forest.ancestors id).find? fun ancestor => forest.kind? ancestor = some kind

def enclosingMethod? (forest : Forest) (id : NodeId) : Option NodeId :=
  forest.enclosing? .methodDeclaration id

def enclosingType? (forest : Forest) (id : NodeId) : Option NodeId :=
  forest.enclosing? .typeDeclaration id

def enclosingMethodName? (forest : Forest) (id : NodeId) : Option String :=
  match (forest.enclosingMethod? id).bind forest.node? with
  | some (.methodDeclaration name) => some name
  | _ => none

def dottedNameWithin (forest : Forest) : Nat → NodeId → Option String
  | 0, _ => none
  | depth + 1, id =>
      match forest.node? id with
      | some (.identifier name) => some name
      | some (.genericName name) => some name
      | some (.memberAccess receiver member) => do
          let head ← forest.dottedNameWithin depth receiver
          let last ← forest.simpleName? member
          some (head ++ "." ++ last)
      | _ => none

/-- The dotted text of a chain of member accesses over names. A chain that visits more nodes than
there are runs in a circle and has no text. -/
def dottedName? (forest : Forest) (id : NodeId) : Option String :=
  forest.dottedNameWithin (forest.size + 1) id

def isNullLiteral (forest : Forest) (id : NodeId) : Bool :=
  forest.node? id = some (.literal .null)

end Forest

def isWatched (name : String) (watched : List String) : Bool :=
  watched.any fun start => start.toList.isPrefixOf name.toList

example : isWatched "GetComponentInChildren" ["GetComponent"] := by decide

end UnityLint
