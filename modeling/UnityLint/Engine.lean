import UnityLint.Rule.Basic

/-! # The engine

Hands every node to the rules that are interested in its kind. The rules are found through an index
that is kept up to date as they are registered. -/

namespace UnityLint

abbrev Subscriptions := List (NodeKind × List Nat)

def Subscriptions.add (position : Nat) (kind : NodeKind) : Subscriptions → Subscriptions
  | [] => [(kind, [position])]
  | (key, positions) :: rest =>
      if key = kind then
        (key, if position ∈ positions then positions else positions ++ [position]) :: rest
      else
        (key, positions) :: Subscriptions.add position kind rest

structure Engine where
  scope : ScopeFilter := .standard
  rules : Array Rule := #[]
  subscriptions : Subscriptions := []

namespace Engine

def register (engine : Engine) (rule : Rule) : Engine :=
  { engine with
    rules := engine.rules.push rule
    subscriptions := rule.interests.foldl
      (fun subscriptions kind => subscriptions.add engine.rules.size kind)
      engine.subscriptions }

def registerAll (engine : Engine) (rules : List Rule) : Engine :=
  rules.foldl register engine

def ofRules (scope : ScopeFilter) (rules : List Rule) : Engine :=
  registerAll { scope } rules

/-- The descriptors of all rules by id; of several with one id the first registered stays. -/
def descriptors (engine : Engine) : List Descriptor :=
  Order.dropRepeatsBy Descriptor.id <|
    Order.sort (fun left right => (Order.compareText left.id right.id).isLE)
      (engine.rules.toList.flatMap Rule.descriptors)

def dispatch (engine : Engine) (tree : Tree) (resolver : Resolver) (id : NodeId) :
    List Diagnostic :=
  match tree.kind? id with
  | none => []
  | some kind =>
      let site : Site := { tree, node := id, resolver, scope := engine.scope }
      ((engine.subscriptions.lookup kind).getD []).flatMap fun position =>
        match engine.rules[position]? with
        | some rule => rule.check site
        | none => []

def analyze (engine : Engine) (tree : Tree) (resolver : Resolver) : List Diagnostic :=
  tree.ids.flatMap (engine.dispatch tree resolver)

end Engine

end UnityLint
