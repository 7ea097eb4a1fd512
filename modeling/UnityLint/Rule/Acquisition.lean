import UnityLint.Rule.Basic
import UnityLint.Rule.Catalogue

/-! # Components are fetched in `Awake` and `Start` only -/

namespace UnityLint.Acquisition

def initializers : List String := ["Awake", "Start"]

def behaviour : String := "MonoBehaviour"

def declaresBehaviour (site : Site) (id : NodeId) : Bool :=
  (site.resolve id).any fun symbol =>
    symbol.kind = .type ∧ symbol.derivesFrom behaviour engineNamespace

def misplaced? (site : Site) : Option (String × String) := do
  guard site.inScope
  let called ← site.tree.methodName? site.node
  guard (isWatched called acquisitionMethods)
  let around ← site.tree.enclosingMethodName? site.node
  guard (around ∉ initializers)
  let type ← site.tree.enclosingType? site.node
  guard (declaresBehaviour site type)
  some (called, around)

def rule : Rule where
  name := Catalogue.acquisitionOutsideStart.name
  code := Catalogue.acquisitionOutsideStart.id
  description := "Restricts GetComponent-family calls to Awake and Start"
  descriptors := [Catalogue.acquisitionOutsideStart]
  interests := [.invocation]
  check site :=
    match misplaced? site with
    | some (called, around) => [site.report Catalogue.acquisitionOutsideStart [called, around]]
    | none => []

end UnityLint.Acquisition
