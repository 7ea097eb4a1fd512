import UnityLint.Syntax.Tree

/-! # Symbols

What a name refers to. Types are compared by name and namespace, because the types that matter are
declared outside the analysed code. -/

namespace UnityLint

structure TypeName where
  name : String
  namespaceName : Option String
deriving DecidableEq, Repr

namespace TypeName

def matches? (type : TypeName) (name space : String) : Bool :=
  type.name = name ∧ type.namespaceName = some space

def text (type : TypeName) : String :=
  match type.namespaceName with
  | some space => space ++ "." ++ type.name
  | none => type.name

end TypeName

inductive SymbolKind where
  | field
  | property
  | method
  | type
  | local
  | parameter
deriving DecidableEq, Repr

structure Symbol where
  name : String
  kind : SymbolKind
  container : Option TypeName := none
  namespaceName : Option String := none
  /-- The base types of a type, nearest first, as far as they are known. -/
  bases : List TypeName := []
  attributes : List String := []
deriving DecidableEq, Repr

namespace Symbol

def typeName (symbol : Symbol) : TypeName :=
  ⟨symbol.name, symbol.namespaceName⟩

def derivesFrom (symbol : Symbol) (name space : String) : Bool :=
  symbol.typeName.matches? name space || symbol.bases.any (·.matches? name space)

def isMember (symbol : Symbol) : Bool :=
  symbol.kind = .field ∨ symbol.kind = .property

end Symbol

def attributeMatches (written name ending : String) : Bool :=
  written = name ∨ written = name ++ ending

structure Resolver where
  resolve : Tree → NodeId → Option Symbol
  attributes : Symbol → List String := Symbol.attributes

namespace Resolver

def blank : Resolver where
  resolve _ _ := none

def ofBindings (bindings : List (NodeId × Symbol)) : Resolver where
  resolve _ id := bindings.lookup id

end Resolver

end UnityLint
