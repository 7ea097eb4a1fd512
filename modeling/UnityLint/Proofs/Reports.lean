import Mathlib.Data.Option.Basic
import UnityLint.Proofs.NullGuard
import UnityLint.Rule.Preset

/-! # Reports of the rules

When the rules report something about a node, and by which descriptor. -/

namespace UnityLint

namespace Acquisition

theorem misplaced?_eq_some_iff {site : Site} {called around : String} :
    misplaced? site = some (called, around) ↔
      site.inScope ∧ site.tree.methodName? site.node = some called ∧
        isWatched called acquisitionMethods ∧
        site.tree.enclosingMethodName? site.node = some around ∧ around ∉ initializers ∧
        ∃ type, site.tree.enclosingType? site.node = some type ∧ declaresBehaviour site type := by
  simp only [misplaced?, Option.bind_eq_bind, Option.bind_eq_some_iff, Option.guard_eq_some',
    Option.some.injEq, Prod.mk.injEq, exists_const]
  constructor
  · rintro ⟨inScope, _, named, watched, _, enclosing, late, type, outer, behaves, rfl, rfl⟩
    exact ⟨inScope, named, watched, enclosing, late, type, outer, behaves⟩
  · rintro ⟨inScope, named, watched, enclosing, late, type, outer, behaves⟩
    exact ⟨inScope, called, named, watched, around, enclosing, late, type, outer, behaves, rfl, rfl⟩

theorem report_of_check {site : Site} {diagnostic : Diagnostic}
    (reported : diagnostic ∈ rule.check site) :
    ∃ called around, misplaced? site = some (called, around) ∧
      diagnostic = site.report Catalogue.acquisitionOutsideStart [called, around] := by
  dsimp only [rule] at reported
  split at reported
  · rename_i called around found
    exact ⟨called, around, found, List.mem_singleton.mp reported⟩
  · cases reported

end Acquisition

namespace SceneLookup

theorem owner?_eq_some {tree : Tree} {call callee receiver member : NodeId} {name : String}
    (invoked : tree.node? call = some (.invocation callee))
    (accessed : tree.node? callee = some (.memberAccess receiver member))
    (named : tree.node? receiver = some (.identifier name)) : owner? tree call = some name := by
  simp only [owner?, invoked, accessed, named]

theorem lookup?_eq_some_iff {site : Site} {qualified : String} :
    lookup? site = some qualified ↔
      site.inScope ∧ ∃ called, site.tree.methodName? site.node = some called ∧
        isWatched called lookupMethods ∧
        (owner? site.tree site.node).all (· ∈ owners) ∧
        ∃ around, site.tree.enclosingMethodName? site.node = some around ∧
          around ∈ frameMethods ∧
        ∃ target container, site.resolve site.node = some target ∧
          target.container = some container ∧ container.namespaceName = some engineNamespace ∧
          container.name ++ "." ++ called = qualified := by
  simp only [lookup?, Option.bind_eq_bind, Option.bind_eq_some_iff, Option.guard_eq_some',
    Option.some.injEq, exists_const, exists_and_left]

theorem report_of_check {site : Site} {diagnostic : Diagnostic}
    (reported : diagnostic ∈ rule.check site) :
    ∃ qualified, lookup? site = some qualified ∧
      diagnostic = site.report Catalogue.sceneLookup [qualified] := by
  dsimp only [rule] at reported
  split at reported
  · rename_i qualified found
    exact ⟨qualified, found, List.mem_singleton.mp reported⟩
  · cases reported

end SceneLookup

namespace Preset

theorem exists_descriptor_of_mem_check {rule : Rule} (builtIn : rule ∈ Preset.all.rules)
    {site : Site} {diagnostic : Diagnostic} (reported : diagnostic ∈ rule.check site) :
    ∃ descriptor ∈ rule.descriptors, ∃ arguments,
      diagnostic = site.report descriptor arguments := by
  simp only [Preset.rules, List.mem_cons, List.not_mem_nil, or_false] at builtIn
  rcases builtIn with rfl | rfl | rfl
  · rcases Acquisition.report_of_check reported with ⟨called, around, _, equal⟩
    exact ⟨_, List.mem_cons_self, _, equal⟩
  · rcases SceneLookup.report_of_check reported with ⟨qualified, _, equal⟩
    exact ⟨_, List.mem_cons_self, _, equal⟩
  · rcases NullGuard.mem_check.mp reported with ⟨_, found, descriptor, _, offence, equal⟩
    refine ⟨descriptor, ?_, _, equal⟩
    rcases NullGuard.offence?_eq_some_iff.mp offence with ⟨rfl, _⟩ | ⟨rfl, _⟩
    · exact List.mem_cons_self
    · exact List.mem_cons_of_mem _ List.mem_cons_self

theorem codes_of_interests : ∀ rule ∈ Preset.all.rules, ∀ kind ∈ rule.interests,
    ∀ descriptor ∈ rule.descriptors,
      kind = .invocation ∧ descriptor.id ∈ ["SR0001", "SR0002"] ∨
        (kind = .ifStatement ∨ kind = .conditionalAccess) ∧
          descriptor.id ∈ ["SR0003", "SR0004"] := by
  decide

end Preset

end UnityLint
