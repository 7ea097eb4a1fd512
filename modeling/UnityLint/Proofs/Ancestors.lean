import Mathlib.Logic.Relation
import UnityLint.Syntax.Query

/-! # Ancestors

The walk from a node towards the root visits exactly the nodes above it, and a search on the way stops
at the nearest node of a kind. -/

namespace UnityLint.Forest

variable {forest : Forest} {id parent above : NodeId} {kind : NodeKind}

def Above (forest : Forest) (id above : NodeId) : Prop :=
  Relation.TransGen (fun child parent => forest.parent? child = some parent) id above

theorem not_above_of_parent?_eq_none (topmost : forest.parent? id = none) :
    ¬forest.Above id above := by
  intro reached
  rcases Relation.TransGen.head'_iff.mp reached with ⟨parent, link, _⟩
  rw [topmost] at link
  cases link

theorem above_iff_of_parent?_eq_some (link : forest.parent? id = some parent) :
    forest.Above id above ↔ above = parent ∨ forest.Above parent above := by
  constructor
  · intro reached
    rcases Relation.TransGen.head'_iff.mp reached with ⟨next, first, others⟩
    cases link.symm.trans first
    exact (Relation.reflTransGen_iff_eq_or_transGen.mp others)
  · rintro (rfl | reached)
    · exact .single link
    · exact .head link reached

theorem Above.lt (reached : forest.Above id above) : id < above := by
  induction reached with
  | single link => exact (forest.parent?_bounds link).1
  | tail _ link induction => exact Nat.lt_trans induction (forest.parent?_bounds link).1

theorem mem_ancestors : above ∈ forest.ancestors id ↔ forest.Above id above := by
  induction id using ancestors.induct forest with
  | case1 id topmost =>
      simp [ancestors_of_parent?_eq_none topmost, not_above_of_parent?_eq_none topmost]
  | case2 id parent link induction =>
      rw [ancestors_of_parent?_eq_some link, List.mem_cons, induction,
        above_iff_of_parent?_eq_some link]

/-! ## The nearest node of a kind -/

structure Nearest (forest : Forest) (kind : NodeKind) (id above : NodeId) : Prop where
  reached : forest.Above id above
  matching : forest.kind? above = some kind
  first : ∀ between, forest.Above id between → forest.Above between above →
    forest.kind? between ≠ some kind

theorem nearest_iff_of_kind? (link : forest.parent? id = some parent)
    (matching : forest.kind? parent = some kind) :
    forest.Nearest kind id above ↔ above = parent := by
  constructor
  · intro nearest
    rcases (above_iff_of_parent?_eq_some link).mp nearest.reached with equal | beyond
    · exact equal
    · exact absurd matching (nearest.first parent (.single link) beyond)
  · rintro rfl
    refine ⟨.single link, matching, ?_⟩
    intro between outside inside
    rcases (above_iff_of_parent?_eq_some link).mp outside with rfl | beyond
    · exact absurd inside.lt (Nat.lt_irrefl _)
    · exact absurd (Nat.lt_trans beyond.lt inside.lt) (Nat.lt_irrefl _)

theorem nearest_iff_of_kind?_ne (link : forest.parent? id = some parent)
    (other : forest.kind? parent ≠ some kind) :
    forest.Nearest kind id above ↔ forest.Nearest kind parent above := by
  constructor
  · intro nearest
    rcases (above_iff_of_parent?_eq_some link).mp nearest.reached with rfl | beyond
    · exact absurd nearest.matching other
    · exact ⟨beyond, nearest.matching, fun between outside => nearest.first between (.head link outside)⟩
  · intro nearest
    refine ⟨.head link nearest.reached, nearest.matching, ?_⟩
    intro between outside inside
    rcases (above_iff_of_parent?_eq_some link).mp outside with rfl | beyond
    · exact other
    · exact nearest.first between beyond inside

theorem enclosing?_eq_some_iff : forest.enclosing? kind id = some above ↔
    forest.Nearest kind id above := by
  induction id using ancestors.induct forest with
  | case1 id topmost =>
      rw [enclosing?, ancestors_of_parent?_eq_none topmost]
      exact ⟨nofun, fun nearest => absurd nearest.reached (not_above_of_parent?_eq_none topmost)⟩
  | case2 id parent link induction =>
      rw [enclosing?, ancestors_of_parent?_eq_some link, List.find?_cons]
      by_cases matching : forest.kind? parent = some kind
      · rw [nearest_iff_of_kind? link matching, decide_eq_true matching, Option.some.injEq, eq_comm]
      · rw [nearest_iff_of_kind?_ne link matching, ← induction, decide_eq_false matching, enclosing?]

theorem enclosingMethodName?_eq_some_iff {name : String} :
    forest.enclosingMethodName? id = some name ↔
      ∃ method, forest.Nearest .methodDeclaration id method ∧
        forest.node? method = some (.methodDeclaration name) := by
  simp only [← enclosing?_eq_some_iff]
  rw [enclosingMethodName?, enclosingMethod?]
  cases forest.enclosing? .methodDeclaration id with
  | none => simp
  | some method =>
      simp only [Option.bind_some, Option.some.injEq, exists_eq_left']
      split
      · rename_i named
        rw [named, Option.some.injEq, Option.some.injEq, Node.methodDeclaration.injEq]
      · rename_i other
        exact ⟨nofun, fun named => absurd named (other name)⟩

end UnityLint.Forest
