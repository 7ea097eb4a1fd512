import UnityLint.Diagnostic.Basic
import UnityLint.Scope
import UnityLint.Symbol
import UnityLint.Syntax.Query

/-! # Rules -/

namespace UnityLint

structure Site where
  tree : Tree
  node : NodeId
  resolver : Resolver
  scope : ScopeFilter

namespace Site

def inScope (site : Site) : Bool :=
  site.scope.includes site.tree.path

def resolve (site : Site) (id : NodeId) : Option Symbol :=
  site.resolver.resolve site.tree id

def report (site : Site) (descriptor : Descriptor) (arguments : List String) : Diagnostic :=
  .ofDescriptor descriptor (site.tree.location site.node) arguments

end Site

structure Rule where
  name : String
  code : String
  description : String := ""
  descriptors : List Descriptor
  interests : List NodeKind
  check : Site → List Diagnostic

def engineNamespace : String := "UnityEngine"

/-- The beginnings of the names of methods that fetch components. -/
def acquisitionMethods : List String :=
  ["GetComponent", "GetComponents", "GetComponentInChildren", "GetComponentsInChildren",
    "GetComponentInParent", "GetComponentsInParent"]

end UnityLint
