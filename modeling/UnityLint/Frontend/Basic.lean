import UnityLint.Path
import UnityLint.Symbol

/-! # Frontends

A frontend turns the source files of one language into syntax trees whose names can be resolved. -/

namespace UnityLint

structure ParsedFile where
  tree : Tree
  resolver : Resolver

inductive FrontendError where
  | grammar (language message : String)
  | unparsable (path message : String)
deriving DecidableEq, Repr

def FrontendError.message : FrontendError → String
  | .grammar language message => "Failed to load " ++ language ++ " grammar: " ++ message
  | .unparsable path message => "Parse error in " ++ path ++ ": " ++ message

structure Frontend where
  language : String
  extensions : List String
  isGenerated : String → String → Bool := fun _ _ => false
  parse : String → String → Except FrontendError ParsedFile

def Frontend.handles (frontend : Frontend) (path : String) : Bool :=
  (Path.extension? path).any fun found =>
    frontend.extensions.any fun known =>
      Text.toLower known.toList = Text.toLower found.toList

end UnityLint
