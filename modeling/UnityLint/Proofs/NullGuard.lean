import UnityLint.Rule.NullGuard

/-! # Null guards

What the rule on null guards reports, and how a guard refers to what it guards. -/

namespace UnityLint

def NodeKind.tests (kind : NodeKind) : Bool :=
  kind ∈ [.ifStatement, .comparison, .isPattern, .conditionalAccess]

def Forest.Tests (forest : Forest) (id child : NodeId) : Prop :=
  ∃ node, forest.node? id = some node ∧ node.kind.tests ∧ child ∈ node.references

namespace NullGuard

theorem tests_of_ofCondition? {tree : Tree} {condition : NodeId} {found : NullGuard}
    (guard : ofCondition? tree condition = some found) : tree.Tests condition found.guarded := by
  rw [ofCondition?] at guard
  split at guard
  · rename_i op left right node
    refine ⟨_, node, rfl, ?_⟩
    split at guard <;> cases guard <;> simp [Node.references, guarded]
  · rename_i subject value node
    refine ⟨_, node, rfl, ?_⟩
    split at guard <;> cases guard
    simp [Node.references, guarded]
  · rename_i subject value node
    refine ⟨_, node, rfl, ?_⟩
    split at guard <;> cases guard
    simp [Node.references, guarded]
  · cases guard

theorem tests_of_at? {tree : Tree} {id : NodeId} {found : NullGuard}
    (guard : at? tree id = some found) :
    ∃ middle, (middle = id ∨ tree.Tests id middle) ∧ tree.Tests middle found.guarded := by
  rw [at?] at guard
  split at guard
  · rename_i condition node
    exact ⟨condition, .inr ⟨_, node, rfl, List.mem_cons_self⟩, tests_of_ofCondition? guard⟩
  · rename_i receiver tail node
    have outer : tree.Tests id receiver := ⟨_, node, rfl, List.mem_cons_self⟩
    split at guard
    · rename_i inner innerTail innerNode
      cases guard
      exact ⟨receiver, .inr outer, _, innerNode, rfl, by simp [Node.references, guarded]⟩
    · cases guard
      exact ⟨id, .inl rfl, outer⟩
    · cases guard
  · cases guard

/-! ## Reports -/

section Reports

variable {site : Site}

theorem mem_check {diagnostic : Diagnostic} :
    diagnostic ∈ rule.check site ↔
      site.inScope ∧ ∃ found descriptor, at? site.tree site.node = some found ∧
        offence? site found.guarded = some descriptor ∧
          diagnostic = site.report descriptor [] := by
  dsimp only [rule]
  cases site.inScope with
  | false => simp
  | true =>
      cases at? site.tree site.node with
      | none => simp
      | some found =>
          rw [Option.bind_some]
          cases offends : offence? site found.guarded <;> simp [offends]

theorem offence?_eq_some_iff {guarded : NodeId} {descriptor : Descriptor} :
    offence? site guarded = some descriptor ↔
      descriptor = Catalogue.guardedAcquisition ∧ site.tree.kind? guarded = some .invocation ∧
          (site.tree.methodName? guarded).any (isWatched · acquisitionMethods) ∨
        descriptor = Catalogue.guardedInjection ∧
          (∃ name, site.tree.node? guarded = some (.identifier name)) ∧
            isInjected site guarded := by
  rw [offence?, Forest.kind?]
  cases site.tree.node? guarded with
  | none => simp
  | some node =>
      cases node with
      | invocation callee =>
          cases (site.tree.methodName? guarded).any (isWatched · acquisitionMethods) with
          | false => simp
          | true => simpa [Node.kind] using eq_comm
      | identifier name =>
          cases isInjected site guarded with
          | false => simp [Node.kind]
          | true => simpa [Node.kind] using eq_comm
      | _ => simp [Node.kind]

theorem injected_of_report {diagnostic : Diagnostic} (reported : diagnostic ∈ rule.check site)
    (code : diagnostic.code = "SR0004") :
    ∃ found name, at? site.tree site.node = some found ∧
      site.tree.node? found.guarded = some (.identifier name) ∧ isInjected site found.guarded := by
  rcases mem_check.mp reported with ⟨_, found, descriptor, guard, offence, rfl⟩
  rcases offence?_eq_some_iff.mp offence with ⟨rfl, _⟩ | ⟨_, ⟨name, named⟩, injected⟩
  · have other : "SR0003" = "SR0004" := code
    exact absurd other (by decide)
  · exact ⟨found, name, guard, named, injected⟩

end Reports

end NullGuard

end UnityLint
