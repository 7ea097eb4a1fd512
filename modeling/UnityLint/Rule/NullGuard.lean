import UnityLint.Rule.Basic
import UnityLint.Rule.Catalogue

/-! # Values that are never null are not tested for null -/

namespace UnityLint

inductive NullGuard where
  | comparison (guarded : NodeId) (op : ComparisonOp)
  | pattern (guarded : NodeId) (negated : Bool)
  | conditionalAccess (guarded : NodeId)
deriving DecidableEq, Repr

namespace NullGuard

def guarded : NullGuard → NodeId
  | .comparison guarded _ => guarded
  | .pattern guarded _ => guarded
  | .conditionalAccess guarded => guarded

/-- A condition that compares with exactly one null, or tests for the null constant or its negation. -/
def ofCondition? (tree : Tree) (condition : NodeId) : Option NullGuard :=
  match tree.node? condition with
  | some (.comparison op left right) =>
      match tree.isNullLiteral left, tree.isNullLiteral right with
      | true, false => some (.comparison right op)
      | false, true => some (.comparison left op)
      | _, _ => none
  | some (.isPattern subject (.constant value)) =>
      if tree.isNullLiteral value then some (.pattern subject false) else none
  | some (.isPattern subject (.negated (.constant value))) =>
      if tree.isNullLiteral value then some (.pattern subject true) else none
  | _ => none

/-- The null guard at a node. Of a chain `a?.B()?.C()` the outer access guards the inner tail. -/
def at? (tree : Tree) (id : NodeId) : Option NullGuard :=
  match tree.node? id with
  | some (.ifStatement condition) => ofCondition? tree condition
  | some (.conditionalAccess receiver _) =>
      match tree.node? receiver with
      | some (.conditionalAccess _ (some tail)) => some (.conditionalAccess tail)
      | some _ => some (.conditionalAccess receiver)
      | none => none
  | _ => none

def injectingAttributes : List String := ["Inject", "SerializeField"]

def attributeEnding : String := "Attribute"

def isInjected (site : Site) (id : NodeId) : Bool :=
  (site.resolve id).any fun symbol =>
    symbol.isMember && (site.resolver.attributes symbol).any fun written =>
      injectingAttributes.any (attributeMatches written · attributeEnding)

def offence? (site : Site) (guarded : NodeId) : Option Descriptor :=
  match site.tree.node? guarded with
  | some (.invocation _) =>
      if (site.tree.methodName? guarded).any (isWatched · acquisitionMethods) then
        some Catalogue.guardedAcquisition
      else
        none
  | some (.identifier _) =>
      if isInjected site guarded then some Catalogue.guardedInjection else none
  | _ => none

def rule : Rule where
  name := "null-guard"
  code := Catalogue.guardedAcquisition.id
  description := "Forbids null checks on acquired components and injected or serialized members"
  descriptors := [Catalogue.guardedAcquisition, Catalogue.guardedInjection]
  interests := [.ifStatement, .conditionalAccess]
  check site :=
    if site.inScope then
      match (at? site.tree site.node).bind fun found => offence? site found.guarded with
      | some descriptor => [site.report descriptor []]
      | none => []
    else
      []

end NullGuard

end UnityLint
