import UnityLint.Order
import UnityLint.Syntax.Node

/-! # Syntax trees

A forest grows from the leaves up: a new node adopts the nodes that it refers to and any further
nodes handed to it. Parents therefore always have larger numbers than their children, and every walk
towards the root ends. A tree is a forest with the path of its file and a root. -/

namespace UnityLint

structure Entry where
  node : Node
  span : Span
  parent : Option NodeId := none
  children : List NodeId := []
deriving DecidableEq, Repr

def adopt (id : NodeId) (children : List NodeId) (entries : Array Entry) : Array Entry :=
  children.foldl
    (fun entries child => entries.modify child fun entry => { entry with parent := some id })
    entries

theorem size_adopt (id : NodeId) (children : List NodeId) (entries : Array Entry) :
    (adopt id children entries).size = entries.size := by
  induction children generalizing entries with
  | nil => rfl
  | cons head tail induction =>
      exact (induction _).trans Array.size_modify

theorem getElem?_adopt (id : NodeId) (children : List NodeId) (entries : Array Entry)
    (index : NodeId) :
    (adopt id children entries)[index]? =
      if index ∈ children then
        entries[index]?.map fun entry => { entry with parent := some id }
      else
        entries[index]? := by
  induction children generalizing entries with
  | nil => simp [adopt]
  | cons head tail induction =>
      have step : adopt id (head :: tail) entries =
          adopt id tail (entries.modify head fun entry => { entry with parent := some id }) := rfl
      rw [step, induction, Array.getElem?_modify]
      by_cases equal : head = index
      · subst equal
        by_cases member : head ∈ tail
        · simp [member, Option.map_map, Function.comp_def]
        · simp [member]
      · have different : index ≠ head := fun same => equal same.symm
        simp [equal, different]

/-- Numbered nodes in which every parent comes after its children. -/
structure Forest where
  entries : Array Entry := #[]
  climbs : ∀ {child parent : Nat} {entry : Entry}, entries[child]? = some entry →
    entry.parent = some parent → child < parent ∧ parent < entries.size := by simp

namespace Forest

def empty : Forest := {}

def size (forest : Forest) : Nat :=
  forest.entries.size

def node? (forest : Forest) (id : NodeId) : Option Node :=
  forest.entries[id]?.map Entry.node

def kind? (forest : Forest) (id : NodeId) : Option NodeKind :=
  (forest.node? id).map Node.kind

def parent? (forest : Forest) (id : NodeId) : Option NodeId :=
  forest.entries[id]?.bind Entry.parent

def children (forest : Forest) (id : NodeId) : List NodeId :=
  (forest.entries[id]?.map Entry.children).getD []

/-- The span of a node; all zero for an unknown number. -/
def span (forest : Forest) (id : NodeId) : Span :=
  (forest.entries[id]?.map Entry.span).getD {}

theorem lt_size_of_node? {forest : Forest} {id : NodeId} {node : Node}
    (found : forest.node? id = some node) : id < forest.size := by
  obtain ⟨entry, inside, _⟩ := Option.map_eq_some_iff.mp found
  exact (Array.getElem?_eq_some_iff.mp inside).1

theorem kind?_of_node? {forest : Forest} {id : NodeId} {node : Node}
    (found : forest.node? id = some node) : forest.kind? id = some node.kind := by
  rw [kind?, found, Option.map_some]

theorem lt_size_of_kind? {forest : Forest} {id : NodeId} {kind : NodeKind}
    (found : forest.kind? id = some kind) : id < forest.size := by
  obtain ⟨node, here, _⟩ := Option.map_eq_some_iff.mp found
  exact lt_size_of_node? here

theorem parent?_bounds (forest : Forest) {child parent : Nat}
    (link : forest.parent? child = some parent) : child < parent ∧ parent < forest.size := by
  obtain ⟨entry, found, linked⟩ := Option.bind_eq_some_iff.mp link
  exact forest.climbs found linked

def ancestors (forest : Forest) (id : NodeId) : List NodeId :=
  match _link : forest.parent? id with
  | none => []
  | some parent => parent :: forest.ancestors parent
termination_by forest.size - id
decreasing_by
  have bounds := forest.parent?_bounds _link
  omega

theorem ancestors_of_parent?_eq_none {forest : Forest} {id : NodeId}
    (topmost : forest.parent? id = none) : forest.ancestors id = [] := by
  rw [ancestors]
  split
  · rfl
  · rename_i link
    rw [topmost] at link
    cases link

theorem ancestors_of_parent?_eq_some {forest : Forest} {id parent : NodeId}
    (link : forest.parent? id = some parent) :
    forest.ancestors id = parent :: forest.ancestors parent := by
  rw [ancestors]
  split
  · rename_i topmost
    rw [topmost] at link
    cases link
  · rename_i other otherLink
    rw [otherLink] at link
    cases link
    rfl

/-! ## Growth -/

/-- What a new node takes below itself: the nodes it refers to and the further nodes, by the start
of their spans and without repeated neighbours. -/
def arrange (forest : Forest) (node : Node) (others : List NodeId) : List NodeId :=
  Order.dropRepeatsBy (fun id : NodeId => id) <|
    Order.sort (fun left right => (forest.span left).start ≤ (forest.span right).start)
      (node.references ++ others)

def push (forest : Forest) (node : Node) (span : Span) (others : List NodeId) : Forest where
  entries :=
    let children := forest.arrange node others
    (adopt forest.size children forest.entries).push { node, span, children }
  climbs := by
    intro child parent entry found linked
    rw [Array.getElem?_push, size_adopt] at found
    simp only [Array.size_push, size_adopt, size] at *
    split at found
    · cases found
      cases linked
    · rw [getElem?_adopt] at found
      split at found
      · obtain ⟨old, oldFound, rfl⟩ := Option.map_eq_some_iff.mp found
        cases linked
        have inside := (Array.getElem?_eq_some_iff.mp oldFound).1
        exact ⟨inside, Nat.lt_succ_self _⟩
      · have bounds := forest.climbs found linked
        exact ⟨bounds.1, Nat.lt_succ_of_lt bounds.2⟩

structure Step where
  node : Node
  span : Span
  others : List NodeId := []

def extend (forest : Forest) (step : Step) : Forest :=
  forest.push step.node step.span step.others

def ofSteps (steps : List Step) : Forest :=
  steps.foldl extend empty

/-- The span of a node that stands for no text: every position has its own. -/
def placeholderSpan (position : Nat) : Span where
  start := position * 10
  stop := position * 10 + 5
  line := position + 1
  column := 1

def place (forest : Forest) (node : Node) (others : List NodeId := []) : Forest :=
  forest.push node (placeholderSpan forest.size) others

end Forest

structure Tree extends Forest where
  path : String
  root : Option NodeId

/-- Closes a forest under a root, which is absent if the number is not that of a node. -/
def Forest.finish (forest : Forest) (path : String) (root : NodeId) : Tree where
  toForest := forest
  path := path
  root := if root < forest.size then some root else none

namespace Tree

def ids (tree : Tree) : List NodeId :=
  List.range tree.size

end Tree

end UnityLint
