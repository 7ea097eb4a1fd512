import UnityLint.EngineType
import UnityLint.Table

/-! # The declarations of a file -/

namespace UnityLint

/-- A field or a property. Attributes are simple names, without namespace and arguments. -/
structure Member where
  name : String
  kind : SymbolKind
  attributes : List String := []
deriving DecidableEq, Repr

structure TypeInfo where
  name : String
  namespaceName : Option String := none
  base : Option String := none
  members : List Member := []
  methods : List String := []
deriving DecidableEq, Repr

def TypeInfo.typeName (info : TypeInfo) : TypeName :=
  ⟨info.name, info.namespaceName⟩

structure MethodInfo where
  parameters : List String := []
  locals : List String := []
  localFunctions : List String := []
deriving DecidableEq, Repr

inductive UsingDirective where
  | namespaceImport (name : String)
  | nameAlias (newName target : String)
deriving DecidableEq, Repr

structure Declarations where
  usings : List String := []
  /-- The latest alias comes first. -/
  aliases : List (String × String) := []
  types : Table TypeInfo := []
  methods : Table MethodInfo := []
deriving DecidableEq, Repr

namespace Declarations

def addUsing (declarations : Declarations) : UsingDirective → Declarations
  | .namespaceImport name => { declarations with usings := declarations.usings ++ [name] }
  | .nameAlias newName target =>
      { declarations with aliases := (newName, target) :: declarations.aliases }

def addType (declarations : Declarations) (id : NodeId) (info : TypeInfo) : Declarations :=
  { declarations with types := declarations.types.insert id info }

def addMethod (declarations : Declarations) (id : NodeId) (info : MethodInfo) : Declarations :=
  { declarations with methods := declarations.methods.insert id info }

end Declarations

end UnityLint
