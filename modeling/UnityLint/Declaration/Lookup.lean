import UnityLint.Declaration.Basic
import UnityLint.Text.Basic

/-! # Types by name and members by inheritance

A type is known if the file declares it or if it belongs to the game engine. Walks along base types
stop after a fixed number of declared types, so that circular declarations do no harm. -/

namespace UnityLint

def bareTypeName (written : String) : String :=
  let trimmed := Text.trim written.toList
  let bare := (Text.dropStart? "global::".toList trimmed).getD trimmed
  String.ofList (Text.trim (Text.upTo (· = '<') bare))

example : bareTypeName " global::A.B<C> " = "A.B" := by decide

inductive TypeRef where
  | declared (info : TypeInfo)
  | builtIn (type : EngineType)
deriving DecidableEq, Repr

namespace Declarations

def typeNamed? (declarations : Declarations) (name : String) : Option TypeInfo :=
  declarations.types.values.find? (·.name = name)

def lookupDotted (declarations : Declarations) (dotted : String) : Option TypeRef :=
  match Text.cutLast '.' dotted.toList with
  | none => (declarations.typeNamed? dotted).map .declared
  | some (space, name) =>
      if String.ofList space = engineNamespace then
        (EngineType.ofName? (String.ofList name)).map .builtIn
      else
        (declarations.types.values.find? fun info =>
          info.name = String.ofList name ∧ info.namespaceName = some (String.ofList space)).map
          .declared

/-- The type a name refers to, as written: through an alias, by its dotted name, as a declared type,
or as a type of the engine if the engine's namespace is imported. -/
def lookup (declarations : Declarations) (written : String) : Option TypeRef :=
  let name := bareTypeName written
  match declarations.aliases.lookup name with
  | some target => declarations.lookupDotted (bareTypeName target)
  | none =>
      if '.' ∈ name.toList then
        declarations.lookupDotted name
      else
        match declarations.typeNamed? name with
        | some info => some (.declared info)
        | none =>
            if engineNamespace ∈ declarations.usings then
              (EngineType.ofName? name).map .builtIn
            else
              none

def baseLimit : Nat := 32

def basesWithin (declarations : Declarations) : Nat → Option String → List TypeName
  | 0, _ => []
  | _ + 1, none => []
  | depth + 1, some written =>
      match declarations.lookup written with
      | some (.declared info) => info.typeName :: declarations.basesWithin depth info.base
      | some (.builtIn type) => type.typeName :: type.ancestors.map EngineType.typeName
      | none =>
          [⟨String.ofList (Text.afterLast (· = '.') (bareTypeName written).toList), none⟩]

def bases (declarations : Declarations) (info : TypeInfo) : List TypeName :=
  declarations.basesWithin baseLimit info.base

end Declarations

def TypeInfo.symbol (info : TypeInfo) (name : String) (kind : SymbolKind)
    (attributes : List String := []) : Symbol :=
  { name, kind, container := some info.typeName, namespaceName := info.namespaceName, attributes }

namespace Declarations

def methodWithin (declarations : Declarations) (name : String) : Nat → TypeInfo → Option Symbol
  | 0, _ => none
  | depth + 1, info =>
      if name ∈ info.methods then
        some (info.symbol name .method)
      else
        match info.base.bind declarations.lookup with
        | some (.declared base) => declarations.methodWithin name depth base
        | some (.builtIn type) => type.method? name
        | none => none

def method? (declarations : Declarations) (info : TypeInfo) (name : String) : Option Symbol :=
  declarations.methodWithin name baseLimit info

def memberWithin (declarations : Declarations) (name : String) : Nat → TypeInfo → Option Symbol
  | 0, _ => none
  | depth + 1, info =>
      match info.members.find? (·.name = name) with
      | some member => some (info.symbol name member.kind member.attributes)
      | none =>
          match info.base.bind declarations.lookup with
          | some (.declared base) => declarations.memberWithin name depth base
          | _ => none

def member? (declarations : Declarations) (info : TypeInfo) (name : String) : Option Symbol :=
  declarations.memberWithin name baseLimit info

def typeSymbol (declarations : Declarations) (info : TypeInfo) : Symbol :=
  { name := info.name, kind := .type, namespaceName := info.namespaceName,
    bases := declarations.bases info }

end Declarations

end UnityLint
