import UnityLint.Declaration.Lookup
import UnityLint.Syntax.Query

/-! # Symbols from the declarations of a file -/

namespace UnityLint

namespace Declarations

def typeAround? (declarations : Declarations) (tree : Tree) (id : NodeId) : Option TypeInfo :=
  (tree.enclosingType? id).bind declarations.types.find?

def methodAround? (declarations : Declarations) (tree : Tree) (id : NodeId) : Option MethodInfo :=
  (tree.enclosingMethod? id).bind declarations.methods.find?

def memberAround? (declarations : Declarations) (tree : Tree) (id : NodeId) (name : String) :
    Option Symbol :=
  (declarations.typeAround? tree id).bind (declarations.member? · name)

def bareSymbol? (declarations : Declarations) (tree : Tree) (id : NodeId) (name : String) :
    Option Symbol :=
  match declarations.methodAround? tree id with
  | some method =>
      if name ∈ method.parameters then some { name, kind := .parameter }
      else if name ∈ method.locals then some { name, kind := .local }
      else declarations.memberAround? tree id name
  | none => declarations.memberAround? tree id name

def isThis (tree : Tree) (id : NodeId) : Bool :=
  tree.node? id = some (.other "this_expression") ∨ tree.node? id = some (.other "this")

/-- What the identifier `name` at node `id` refers to. After a dot it is a member of `this`, or it is
not known. -/
def identifierSymbol? (declarations : Declarations) (tree : Tree) (id : NodeId) (name : String) :
    Option Symbol :=
  match (tree.parent? id).bind tree.node? with
  | some (.memberAccess receiver member) =>
      if member = id then
        if isThis tree receiver then declarations.memberAround? tree id name else none
      else
        declarations.bareSymbol? tree id name
  | some (.memberBinding _) => none
  | _ => declarations.bareSymbol? tree id name

def isVariable (declarations : Declarations) (tree : Tree) (id : NodeId) : Bool :=
  match tree.node? id with
  | some (.identifier name) => (declarations.identifierSymbol? tree id name).isSome
  | _ => false

/-- The method an unqualified call refers to. A local function of the method around it comes first. -/
def bareCallSymbol? (declarations : Declarations) (tree : Tree) (call : NodeId) (name : String) :
    Option Symbol :=
  (declarations.typeAround? tree call).bind fun info =>
    if (declarations.methodAround? tree call).any (name ∈ ·.localFunctions) then
      some (info.symbol name .method)
    else
      declarations.method? info name

/-- The method a call refers to. A qualified call needs a type before the dot; a variable of the same
name hides the type. -/
def callSymbol? (declarations : Declarations) (tree : Tree) (call callee : NodeId) :
    Option Symbol :=
  match tree.node? callee with
  | some (.identifier name) => declarations.bareCallSymbol? tree call name
  | some (.genericName name) => declarations.bareCallSymbol? tree call name
  | some (.memberAccess receiver member) =>
      (tree.simpleName? member).bind fun name =>
        if declarations.isVariable tree receiver then
          none
        else
          match (tree.dottedName? receiver).bind declarations.lookup with
          | some (.declared info) => declarations.method? info name
          | some (.builtIn type) => type.method? name
          | none => none
  | _ => none

def resolve (declarations : Declarations) (tree : Tree) (id : NodeId) : Option Symbol :=
  match tree.node? id with
  | some (.typeDeclaration _) => (declarations.types.find? id).map declarations.typeSymbol
  | some (.invocation callee) => declarations.callSymbol? tree id callee
  | some (.identifier name) => declarations.identifierSymbol? tree id name
  | _ => none

def resolver (declarations : Declarations) : Resolver where
  resolve := declarations.resolve

end Declarations

end UnityLint
