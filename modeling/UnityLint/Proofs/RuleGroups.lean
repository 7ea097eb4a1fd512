import Mathlib.Data.List.Perm.Basic
import UnityLint.Proofs.Dispatch
import UnityLint.Proofs.Reports

/-! # Groups of rules

Rules do not see each other: an engine with two groups of rules reports what two engines report, one
with each group. Which group a report of a preset comes from can be told by its code. -/

namespace UnityLint

namespace Engine

variable (scope : ScopeFilter) (tree : Tree) (resolver : Resolver)

theorem dispatch_ofRules_append (first second : List Rule) (id : NodeId) :
    (ofRules scope (first ++ second)).dispatch tree resolver id =
      (ofRules scope first).dispatch tree resolver id ++
        (ofRules scope second).dispatch tree resolver id := by
  simp only [dispatch_ofRules_eq, List.filter_append, List.flatMap_append]

/-- At each node the reports of the first group come first; over all nodes the two are interleaved. -/
theorem perm_analyze_ofRules_append (first second : List Rule) :
    ((ofRules scope (first ++ second)).analyze tree resolver).Perm
      ((ofRules scope first).analyze tree resolver ++
        (ofRules scope second).analyze tree resolver) := by
  have nodewise : (ofRules scope (first ++ second)).dispatch tree resolver = fun id =>
      (ofRules scope first).dispatch tree resolver id ++
        (ofRules scope second).dispatch tree resolver id := by
    funext id
    exact dispatch_ofRules_append scope tree resolver first second id
  rw [analyze, nodewise]
  exact (List.flatMap_append_perm ..).symm

/-! ## Choosing among the reports -/

variable {chosen : Diagnostic → Bool} {keeps : Rule → Bool}

theorem filter_check {rule : Rule} {site : Site}
    (uniform : ∀ diagnostic ∈ rule.check site, chosen diagnostic = keeps rule) :
    (rule.check site).filter chosen = if keeps rule then rule.check site else [] := by
  cases kept : keeps rule with
  | false =>
      rw [if_neg Bool.false_ne_true, List.filter_eq_nil_iff]
      intro diagnostic reported
      rw [uniform diagnostic reported, kept]
      exact Bool.false_ne_true
  | true =>
      rw [if_pos rfl, List.filter_eq_self]
      intro diagnostic reported
      rw [uniform diagnostic reported, kept]

theorem filter_flatMap_check {rules : List Rule} {site : Site}
    (uniform : ∀ rule ∈ rules, ∀ diagnostic ∈ rule.check site, chosen diagnostic = keeps rule) :
    (rules.flatMap (·.check site)).filter chosen =
      (rules.filter keeps).flatMap (·.check site) := by
  induction rules with
  | nil => rfl
  | cons rule rest induction =>
      have own := filter_check (uniform rule List.mem_cons_self)
      have others := induction fun other listed => uniform other (List.mem_cons_of_mem _ listed)
      rw [List.flatMap_cons, List.filter_append, own, others, List.filter_cons]
      split <;> rfl

theorem filter_analyze_ofRules {rules : List Rule}
    (uniform : ∀ rule ∈ rules, ∀ site, ∀ diagnostic ∈ rule.check site,
      chosen diagnostic = keeps rule) :
    ((ofRules scope rules).analyze tree resolver).filter chosen =
      (ofRules scope (rules.filter keeps)).analyze tree resolver := by
  rw [analyze, List.filter_flatMap, analyze]
  congr 1
  funext id
  rw [dispatch_ofRules_eq, dispatch_ofRules_eq, List.filter_comm]
  apply filter_flatMap_check
  intro rule handed
  exact uniform rule (List.mem_of_mem_filter handed) _

end Engine

/-! ## Presets -/

def Rule.emits (codes : List String) (rule : Rule) : Bool :=
  rule.descriptors.any (·.id ∈ codes)

theorem Preset.filter_code_analyze (scope : ScopeFilter) (tree : Tree) (resolver : Resolver)
    {codes : List String}
    (whole : ∀ rule ∈ Preset.all.rules, rule.emits codes →
      ∀ descriptor ∈ rule.descriptors, descriptor.id ∈ codes) :
    ((Engine.ofRules scope Preset.all.rules).analyze tree resolver).filter (·.code ∈ codes) =
      (Engine.ofRules scope (Preset.all.rules.filter (Rule.emits codes))).analyze tree
        resolver := by
  apply Engine.filter_analyze_ofRules
  intro rule builtIn site diagnostic reported
  rcases exists_descriptor_of_mem_check builtIn reported with ⟨descriptor, own, arguments, rfl⟩
  rw [Bool.eq_iff_iff, decide_eq_true_eq]
  constructor
  · intro listed
    exact List.any_eq_true.mpr ⟨descriptor, own, decide_eq_true listed⟩
  · intro emits
    exact whole rule builtIn emits descriptor own

/-- The reports of two groups of rules together are those of the one and of the other. The reports of
all built-in rules with the codes of a preset are the reports of that preset, in the same order. -/
theorem analyze_append_and_filter_presets (scope : ScopeFilter) (tree : Tree)
    (resolver : Resolver) (first second : List Rule) :
    let run (rules : List Rule) := (Engine.ofRules scope rules).analyze tree resolver
    (run (first ++ second)).Perm (run first ++ run second) ∧
      (run Preset.all.rules).filter (·.code ∈ ["SR0001", "SR0002"]) =
        run Preset.performance.rules ∧
      (run Preset.all.rules).filter (·.code ∈ ["SR0003", "SR0004"]) =
        run Preset.failFast.rules := by
  refine ⟨Engine.perm_analyze_ofRules_append scope tree resolver first second, ?_, ?_⟩
  · exact Preset.filter_code_analyze scope tree resolver (by decide)
  · exact Preset.filter_code_analyze scope tree resolver (by decide)

end UnityLint
