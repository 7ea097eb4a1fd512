import UnityLint.Outline.Basic

/-! # Numbering an outline

The nodes of an outline are numbered from the leaves up, parts before the whole, while the
declarations are noted under the numbers of the nodes that make them. -/

namespace UnityLint

structure Lowered where
  forest : Forest := .empty
  declarations : Declarations := {}

namespace Lowered

def empty : Lowered := {}

def enter (lowered : Lowered) : Form → Lowered
  | .other _ (some directive) =>
      { lowered with declarations := lowered.declarations.addUsing directive }
  | _ => lowered

def declare (declarations : Declarations) (id : NodeId) : Form → Declarations
  | .typeDeclaration info => declarations.addType id info
  | .methodDeclaration _ info => declarations.addMethod id info
  | _ => declarations

def leave (lowered : Lowered) (form : Form) (span : Span) (ids : List NodeId) : Lowered where
  forest :=
    let built := form.build ids
    lowered.forest.push built.1 span built.2
  declarations := declare lowered.declarations lowered.forest.size form

end Lowered

namespace Outline

mutual

def number : Outline → Lowered → NodeId × Lowered
  | .node form span parts, lowered =>
      let numbered := numberAll parts (lowered.enter form)
      (numbered.2.forest.size, numbered.2.leave form span numbered.1)

def numberAll : List Outline → Lowered → List NodeId × Lowered
  | [], lowered => ([], lowered)
  | outline :: rest, lowered =>
      let first := outline.number lowered
      let others := numberAll rest first.2
      (first.1 :: others.1, others.2)

end

end Outline

end UnityLint
