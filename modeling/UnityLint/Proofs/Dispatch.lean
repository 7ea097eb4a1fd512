import Mathlib.Data.List.Induction
import Mathlib.Data.List.Nodup
import UnityLint.Engine

/-! # Dispatch

The index of an engine finds, for each kind of node, the rules that are interested in it, each once and
in the order in which they were registered. -/

namespace UnityLint

namespace Subscriptions

def positions (subscriptions : Subscriptions) (kind : NodeKind) : List Nat :=
  (subscriptions.lookup kind).getD []

theorem positions_cons (key kind : NodeKind) (known : List Nat) (rest : Subscriptions) :
    positions ((key, known) :: rest) kind = if kind = key then known else positions rest kind := by
  rw [positions, List.lookup_cons]
  by_cases same : kind = key
  · simp [same]
  · simp [same, positions, beq_false_of_ne same]

theorem positions_add (subscriptions : Subscriptions) (position : Nat) (noted kind : NodeKind) :
    (subscriptions.add position noted).positions kind =
      if kind = noted ∧ position ∉ subscriptions.positions kind then
        subscriptions.positions kind ++ [position]
      else
        subscriptions.positions kind := by
  induction subscriptions with
  | nil =>
      rw [add, positions_cons]
      by_cases same : kind = noted <;> simp [same, positions]
  | cons entry rest induction =>
      rcases entry with ⟨key, known⟩
      rw [add]
      by_cases sameKey : key = noted
      · rw [if_pos sameKey, positions_cons, positions_cons]
        by_cases same : kind = key
        · by_cases listed : position ∈ known <;> simp [same, sameKey, listed]
        · have other : kind ≠ noted := fun equal => same (equal.trans sameKey.symm)
          simp [same, other]
      · rw [if_neg sameKey, positions_cons, positions_cons]
        by_cases same : kind = key
        · simp [same, sameKey]
        · simpa [same] using induction

theorem positions_foldl_add (interests : List NodeKind) (subscriptions : Subscriptions)
    (position : Nat) (kind : NodeKind) (fresh : position ∉ subscriptions.positions kind) :
    (interests.foldl (fun noted interest => noted.add position interest) subscriptions).positions
        kind =
      if kind ∈ interests then subscriptions.positions kind ++ [position]
      else subscriptions.positions kind := by
  -- The position may be noted already, for an interest that was listed before.
  have general (noted : Subscriptions)
      (earlier : noted.positions kind = subscriptions.positions kind ∨
        noted.positions kind = subscriptions.positions kind ++ [position]) :
      (interests.foldl (fun noted interest => noted.add position interest) noted).positions kind =
        if kind ∈ interests then subscriptions.positions kind ++ [position]
        else noted.positions kind := by
    induction interests generalizing noted with
    | nil => simp
    | cons interest rest induction =>
        rw [List.foldl_cons]
        have added := positions_add noted position interest kind
        by_cases same : kind = interest
        · have complete : (noted.add position interest).positions kind =
              subscriptions.positions kind ++ [position] := by
            rw [added]
            rcases earlier with equal | equal
            · rw [if_pos ⟨same, equal ▸ fresh⟩, equal]
            · rw [if_neg (by simp [equal]), equal]
          have listed : kind ∈ interest :: rest := same ▸ List.mem_cons_self
          rw [induction _ (.inr complete), complete, if_pos listed, ite_self]
        · rw [if_neg fun both => same both.1] at added
          rw [induction _ (added ▸ earlier), added]
          simp [same]
  exact general subscriptions (.inl rfl)

end Subscriptions

namespace Engine

def interested (engine : Engine) (kind : NodeKind) : List Rule :=
  (engine.subscriptions.positions kind).filterMap fun position => engine.rules[position]?

theorem dispatch_eq {engine : Engine} {tree : Tree} {resolver : Resolver} {id : NodeId}
    {kind : NodeKind} (found : tree.kind? id = some kind) :
    engine.dispatch tree resolver id =
      (engine.interested kind).flatMap fun rule =>
        rule.check { tree, node := id, resolver, scope := engine.scope } := by
  simp only [dispatch, found, interested, Subscriptions.positions]
  induction (engine.subscriptions.lookup kind).getD [] with
  | nil => rfl
  | cons position rest induction =>
      rw [List.flatMap_cons, induction, List.filterMap_cons]
      cases engine.rules[position]? with
      | none => rfl
      | some rule => rfl

theorem filterMap_findIdxs {α : Type} (test : α → Bool) (values : List α) :
    (values.findIdxs test).filterMap (values[·]?) = values.filter test := by
  -- Members are taken off at the end, where the positions of the others stay as they are.
  induction values using List.reverseRecOn with
  | nil => rfl
  | append_singleton values value induction =>
      have older : ∀ position ∈ values.findIdxs test,
          (values ++ [value])[position]? = values[position]? := by
        intro position member
        exact List.getElem?_append_left (List.lt_add_of_mem_findIdxs _ member)
      rw [List.findIdxs_append, List.filterMap_append, List.filterMap_congr older, induction,
        List.filter_append, List.findIdxs_singleton, Nat.zero_add]
      by_cases passes : test value <;> simp [passes]

/-- The engine has the rules `rules`, in the order in which they were registered, and its index lists
for each kind the positions of those that are interested in it. -/
structure Indexes (engine : Engine) (rules : List Rule) : Prop where
  kept : engine.rules.toList = rules
  positions : ∀ kind,
    engine.subscriptions.positions kind = rules.findIdxs (kind ∈ ·.interests)

theorem indexes_empty (scope : ScopeFilter) : Indexes { scope } [] :=
  ⟨rfl, fun _ => rfl⟩

section Indexes

variable {engine : Engine} {rules : List Rule} (indexes : engine.Indexes rules)

include indexes

theorem Indexes.getElem?_rules (position : Nat) : engine.rules[position]? = rules[position]? := by
  rw [← indexes.kept, Array.getElem?_toList]

theorem Indexes.register (rule : Rule) : (engine.register rule).Indexes (rules ++ [rule]) where
  kept := by
    rw [← indexes.kept]
    exact Array.toList_push
  positions kind := by
    have size : engine.rules.size = rules.length := by
      rw [← indexes.kept, Array.length_toList]
    have fresh : engine.rules.size ∉ engine.subscriptions.positions kind := by
      rw [indexes.positions, size]
      intro member
      exact Nat.lt_irrefl _ (List.lt_add_of_mem_findIdxs _ member)
    have noted : (engine.register rule).subscriptions.positions kind = _ :=
      Subscriptions.positions_foldl_add rule.interests _ _ kind fresh
    rw [noted, List.findIdxs_append, List.findIdxs_singleton, indexes.positions, size, Nat.zero_add]
    by_cases listens : kind ∈ rule.interests <;> simp [listens]

theorem Indexes.registerAll (others : List Rule) :
    (engine.registerAll others).Indexes (rules ++ others) := by
  induction others generalizing engine rules with
  | nil => simpa [Engine.registerAll] using indexes
  | cons rule rest induction =>
      have later := induction (indexes.register rule)
      rw [List.append_assoc, List.singleton_append] at later
      exact later

theorem Indexes.interested_eq (kind : NodeKind) :
    engine.interested kind = rules.filter (kind ∈ ·.interests) := by
  rw [interested, indexes.positions, ← filterMap_findIdxs]
  simp only [indexes.getElem?_rules]

end Indexes

theorem scope_registerAll (rules : List Rule) (engine : Engine) :
    (engine.registerAll rules).scope = engine.scope := by
  induction rules generalizing engine with
  | nil => rfl
  | cons rule rest induction => exact induction (engine.register rule)

theorem dispatch_ofRules (scope : ScopeFilter) (rules : List Rule) {tree : Tree}
    (resolver : Resolver) {id : NodeId} {kind : NodeKind} (found : tree.kind? id = some kind) :
    (ofRules scope rules).dispatch tree resolver id =
      (rules.filter (kind ∈ ·.interests)).flatMap fun rule =>
        rule.check { tree, node := id, resolver, scope } := by
  have indexes := (indexes_empty scope).registerAll rules
  rw [dispatch_eq found, ofRules, indexes.interested_eq, scope_registerAll, List.nil_append]

theorem dispatch_ofRules_eq (scope : ScopeFilter) (rules : List Rule) (tree : Tree)
    (resolver : Resolver) (id : NodeId) :
    (ofRules scope rules).dispatch tree resolver id =
      (rules.filter fun rule => (tree.kind? id).any (· ∈ rule.interests)).flatMap fun rule =>
        rule.check { tree, node := id, resolver, scope } := by
  cases kind : tree.kind? id with
  | none => simp [dispatch, kind]
  | some found => exact dispatch_ofRules scope rules resolver kind

theorem exists_interested_of_mem_dispatch {scope : ScopeFilter} {rules : List Rule} {tree : Tree}
    {resolver : Resolver} {id : NodeId} {diagnostic : Diagnostic}
    (reported : diagnostic ∈ (ofRules scope rules).dispatch tree resolver id) :
    ∃ kind, tree.kind? id = some kind ∧ ∃ rule ∈ rules, kind ∈ rule.interests ∧
      diagnostic ∈ rule.check { tree, node := id, resolver, scope } := by
  cases kind : tree.kind? id with
  | none =>
      rw [dispatch, kind] at reported
      cases reported
  | some found =>
      rw [dispatch_ofRules scope rules resolver kind] at reported
      rcases List.mem_flatMap.mp reported with ⟨rule, member, checked⟩
      rcases List.mem_filter.mp member with ⟨listed, interested⟩
      exact ⟨found, rfl, rule, listed, of_decide_eq_true interested, checked⟩

theorem exists_rule_of_mem_dispatch {scope : ScopeFilter} {rules : List Rule} {tree : Tree}
    {resolver : Resolver} {id : NodeId} {diagnostic : Diagnostic}
    (reported : diagnostic ∈ (ofRules scope rules).dispatch tree resolver id) :
    ∃ rule ∈ rules, diagnostic ∈ rule.check { tree, node := id, resolver, scope } := by
  rcases exists_interested_of_mem_dispatch reported with ⟨_, _, rule, listed, _, checked⟩
  exact ⟨rule, listed, checked⟩

/-! ## Deliveries -/

def receivers (engine : Engine) (tree : Tree) (id : NodeId) : List Nat :=
  ((tree.kind? id).map engine.subscriptions.positions).getD []

def deliveries (engine : Engine) (tree : Tree) : List (Nat × NodeId) :=
  tree.ids.flatMap fun id => (engine.receivers tree id).map fun position => (position, id)

theorem analyze_eq_flatMap_deliveries (engine : Engine) (tree : Tree) (resolver : Resolver) :
    engine.analyze tree resolver =
      (engine.deliveries tree).flatMap fun delivery =>
        (engine.rules[delivery.1]?).elim [] fun rule =>
          rule.check { tree, node := delivery.2, resolver, scope := engine.scope } := by
  rw [analyze, deliveries, List.flatMap_assoc]
  congr 1
  funext id
  rw [dispatch, receivers, List.flatMap_map]
  cases tree.kind? id with
  | none => rfl
  | some kind =>
      simp only [Option.map_some, Option.getD_some, Subscriptions.positions]
      congr 1
      funext position
      cases engine.rules[position]? <;> rfl

section Indexes

variable {engine : Engine} {rules : List Rule} (indexes : engine.Indexes rules)

include indexes

theorem Indexes.mem_receivers {tree : Tree} {id : NodeId} {position : Nat} :
    position ∈ engine.receivers tree id ↔
      (rules[position]?).any fun rule => (tree.kind? id).any (· ∈ rule.interests) := by
  rw [receivers]
  cases tree.kind? id with
  | none => simp
  | some kind =>
      rw [Option.map_some, Option.getD_some, indexes.positions,
        List.mem_findIdxs_iff_exists_getElem_pos]
      simp [Option.any_eq_true, List.getElem?_eq_some_iff]

theorem Indexes.nodup_deliveries (tree : Tree) : (engine.deliveries tree).Nodup := by
  refine List.nodup_flatMap.mpr ⟨?_, ?_⟩
  · intro id _
    have distinct : (engine.receivers tree id).Nodup := by
      rw [receivers]
      cases tree.kind? id with
      | none => exact .nil
      | some kind =>
          rw [Option.map_some, Option.getD_some, indexes.positions]
          exact List.nodup_findIdxs
    exact distinct.map fun left right equal => (Prod.mk.inj equal).1
  · refine List.nodup_range.imp ?_
    intro left right different
    apply List.disjoint_left.mpr
    intro delivery inLeft inRight
    rcases List.mem_map.mp inLeft with ⟨_, _, rfl⟩
    rcases List.mem_map.mp inRight with ⟨_, _, equal⟩
    exact different (Prod.mk.inj equal).2.symm

theorem Indexes.mem_deliveries {tree : Tree} {id : NodeId} {position : Nat} :
    (position, id) ∈ engine.deliveries tree ↔
      (rules[position]?).any fun rule => (tree.kind? id).any (· ∈ rule.interests) := by
  rw [← indexes.mem_receivers, deliveries, List.mem_flatMap]
  constructor
  · rintro ⟨other, _, member⟩
    rcases List.mem_map.mp member with ⟨_, received, equal⟩
    cases equal
    exact received
  · intro received
    refine ⟨id, ?_, List.mem_map_of_mem received⟩
    rw [receivers] at received
    cases kind : tree.kind? id with
    | none => simp [kind] at received
    | some found => exact List.mem_range.mpr (Forest.lt_size_of_kind? kind)

end Indexes

/-- However rules are registered, one by one or several at once, an analysis is what a search through
all rules finds at each node. Each rule is handed each node of a kind that it is interested in exactly
once, and no other node. -/
theorem analyze_foldl_registerAll (scope : ScopeFilter) (batches : List (List Rule)) (tree : Tree)
    (resolver : Resolver) :
    let engine : Engine := batches.foldl registerAll { scope }
    let rules := batches.flatten
    engine.analyze tree resolver =
        (tree.ids.flatMap fun id =>
          (rules.filter fun rule => (tree.kind? id).any (· ∈ rule.interests)).flatMap fun rule =>
            rule.check { tree, node := id, resolver, scope }) ∧
      engine.analyze tree resolver =
        ((engine.deliveries tree).flatMap fun delivery =>
          (rules[delivery.1]?).elim [] fun rule =>
            rule.check { tree, node := delivery.2, resolver, scope }) ∧
      ∀ position id, (engine.deliveries tree).count (position, id) =
        if (rules[position]?).any fun rule => (tree.kind? id).any (· ∈ rule.interests) then 1
        else 0 := by
  have joined : batches.foldl registerAll { scope } = ofRules scope batches.flatten :=
    List.foldl_flatten.symm
  have indexes : (ofRules scope batches.flatten).Indexes batches.flatten :=
    (indexes_empty scope).registerAll batches.flatten
  have sameScope : (ofRules scope batches.flatten).scope = scope := scope_registerAll ..
  dsimp only
  rw [joined]
  refine ⟨?_, ?_, ?_⟩
  · rw [analyze]
    apply List.flatMap_congr
    intro id _
    cases kind : tree.kind? id with
    | none => simp [dispatch, kind]
    | some found => rw [dispatch_ofRules scope _ resolver kind]; rfl
  · rw [analyze_eq_flatMap_deliveries, sameScope]
    simp only [indexes.getElem?_rules]
  · intro position id
    rw [(indexes.nodup_deliveries tree).count]
    simp only [indexes.mem_deliveries]

end Engine

end UnityLint
