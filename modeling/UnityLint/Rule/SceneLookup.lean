import UnityLint.Rule.Basic
import UnityLint.Rule.Catalogue

/-! # The scene is not searched on every frame -/

namespace UnityLint.SceneLookup

/-- The beginnings of the names of methods that search the scene. -/
def lookupMethods : List String :=
  ["FindObjectOfType", "FindObjectsOfType", "FindAnyObjectByType", "FindObjectsByType",
    "FindFirstObjectByType", "Find", "FindWithTag", "FindGameObjectWithTag",
    "FindGameObjectsWithTag"]

def owners : List String := ["Object", "GameObject"]

def frameMethods : List String := ["Update", "FixedUpdate", "LateUpdate", "OnGUI"]

def owner? (tree : Tree) (call : NodeId) : Option String :=
  match tree.node? call with
  | some (.invocation callee) =>
      match tree.node? callee with
      | some (.memberAccess receiver _) =>
          match tree.node? receiver with
          | some (.identifier name) => some name
          | _ => none
      | _ => none
  | _ => none

def lookup? (site : Site) : Option String := do
  guard site.inScope
  let called ← site.tree.methodName? site.node
  guard (isWatched called lookupMethods)
  guard ((owner? site.tree site.node).all (· ∈ owners))
  let around ← site.tree.enclosingMethodName? site.node
  guard (around ∈ frameMethods)
  let target ← site.resolve site.node
  let container ← target.container
  guard (container.namespaceName = some engineNamespace)
  some (container.name ++ "." ++ called)

def rule : Rule where
  name := Catalogue.sceneLookup.name
  code := Catalogue.sceneLookup.id
  description := "Forbids scene-wide Find lookups in Update, FixedUpdate, LateUpdate and OnGUI"
  descriptors := [Catalogue.sceneLookup]
  interests := [.invocation]
  check site :=
    match lookup? site with
    | some qualified => [site.report Catalogue.sceneLookup [qualified]]
    | none => []

end UnityLint.SceneLookup
