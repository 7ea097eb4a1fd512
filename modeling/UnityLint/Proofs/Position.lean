import Mathlib.Data.List.Nodup
import UnityLint.ParseTree.Basic

/-! # Positions in parse trees

Two rows of a parse tree can look alike, so that a row is known by the way that leads to it. -/

namespace UnityLint

/-- The places among the children on the way from a root to a row, outermost first. -/
abbrev Position := List Nat

namespace Position

def above : Position → List Position
  | [] => []
  | place :: rest => (above rest).map (place :: ·) ++ [[]]

example : above [4, 7] = [[4], []] := by decide

@[simp] theorem above_nil : above [] = [] := rfl

@[simp] theorem above_snoc (position : Position) (place : Nat) :
    above (position ++ [place]) = position :: above position := by
  induction position with
  | nil => rfl
  | cons head rest induction => simp [above, induction]

end Position

namespace ParseTree

@[elab_as_elim, induction_eliminator]
theorem children_induction {motive : ParseTree → Prop}
    (row : ∀ kind named field extent children, (∀ child ∈ children, motive child) →
      motive (.row kind named field extent children)) :
    ∀ tree, motive tree
  | .row kind named field extent children =>
      row kind named field extent children fun child _ => children_induction row child

def at? : ParseTree → Position → Option ParseTree
  | tree, [] => some tree
  | tree, place :: rest => tree.children[place]?.bind fun child => child.at? rest

@[simp] theorem at?_nil (tree : ParseTree) : tree.at? [] = some tree := rfl

theorem at?_append (tree : ParseTree) (first second : Position) :
    tree.at? (first ++ second) = (tree.at? first).bind (·.at? second) := by
  induction first generalizing tree with
  | nil => rfl
  | cons place rest induction =>
      simp only [List.cons_append, at?]
      cases tree.children[place]? with
      | none => rfl
      | some child => exact induction child

theorem at?_snoc (tree : ParseTree) (position : Position) (place : Nat) :
    tree.at? (position ++ [place]) = (tree.at? position).bind (·.children[place]?) := by
  rw [at?_append]
  congr 1
  funext row
  simp [at?]

def enclosing? (root : ParseTree) (test : ParseTree → Bool) (position : Position) :
    Option Position :=
  position.above.find? fun above => (root.at? above).any test

/-! ## Children with their positions -/

def placedFrom (position : Position) : Nat → List ParseTree → List (Position × ParseTree)
  | _, [] => []
  | place, child :: rest => (position ++ [place], child) :: placedFrom position (place + 1) rest

def placed (position : Position) (tree : ParseTree) : List (Position × ParseTree) :=
  placedFrom position 0 tree.children

theorem map_snd_placedFrom (position : Position) (place : Nat) (children : List ParseTree) :
    (placedFrom position place children).map Prod.snd = children := by
  induction children generalizing place with
  | nil => rfl
  | cons child rest induction => simp [placedFrom, induction]

theorem mem_placedFrom {position : Position} {place : Nat} {children : List ParseTree}
    {found : Position × ParseTree} :
    found ∈ placedFrom position place children ↔
      ∃ index, found.1 = position ++ [place + index] ∧ children[index]? = some found.2 := by
  induction children generalizing place with
  | nil => simp [placedFrom]
  | cons child rest induction =>
      rw [placedFrom, List.mem_cons, induction]
      constructor
      · rintro (rfl | ⟨index, equal, inside⟩)
        · exact ⟨0, rfl, rfl⟩
        · exact ⟨index + 1, by rw [equal]; congr 2; omega, inside⟩
      · rintro ⟨index, equal, inside⟩
        cases index with
        | zero =>
            left
            cases inside
            exact Prod.ext equal rfl
        | succ index => exact .inr ⟨index, by rw [equal]; congr 2; omega, inside⟩

theorem mem_placed {position : Position} {tree : ParseTree} {found : Position × ParseTree} :
    found ∈ tree.placed position ↔
      ∃ place, found.1 = position ++ [place] ∧ tree.children[place]? = some found.2 := by
  simp [placed, mem_placedFrom]

theorem at?_of_mem_placed {root tree : ParseTree} {position : Position}
    {found : Position × ParseTree} (here : root.at? position = some tree)
    (member : found ∈ tree.placed position) : root.at? found.1 = some found.2 := by
  rcases mem_placed.mp member with ⟨place, equal, inside⟩
  rw [equal, at?_snoc, here]
  exact inside

theorem mem_children_of_mem_placed {tree : ParseTree} {position : Position}
    {found : Position × ParseTree} (member : found ∈ tree.placed position) :
    found.2 ∈ tree.children := by
  rcases mem_placed.mp member with ⟨place, _, inside⟩
  exact List.mem_of_getElem? inside

theorem nodup_placed (position : Position) (tree : ParseTree) :
    ((tree.placed position).map Prod.fst).Nodup := by
  have general : ∀ place children, ((placedFrom position place children).map Prod.fst).Nodup := by
    intro place children
    induction children generalizing place with
    | nil => exact .nil
    | cons child rest induction =>
        refine List.nodup_cons.mpr ⟨?_, induction (place + 1)⟩
        intro member
        rcases List.mem_map.mp member with ⟨found, inside, equal⟩
        rcases mem_placedFrom.mp inside with ⟨index, shifted, _⟩
        rw [shifted] at equal
        have same := List.append_cancel_left equal
        simp only [List.cons.injEq, and_true] at same
        omega
  exact general 0 tree.children

/-! ## All rows of a tree -/

mutual

def rowsFrom (position : Position) : ParseTree → List (Position × ParseTree)
  | .row kind named field extent children =>
      (position, .row kind named field extent children) ::
        rowsOfAllFrom position 0 children

def rowsOfAllFrom (position : Position) : Nat → List ParseTree → List (Position × ParseTree)
  | _, [] => []
  | place, child :: rest =>
      child.rowsFrom (position ++ [place]) ++ rowsOfAllFrom position (place + 1) rest

end

theorem rowsOfAllFrom_eq (position : Position) (place : Nat) (children : List ParseTree) :
    rowsOfAllFrom position place children =
      (placedFrom position place children).flatMap fun found => found.2.rowsFrom found.1 := by
  induction children generalizing place with
  | nil => rfl
  | cons child rest induction =>
      rw [rowsOfAllFrom, placedFrom, List.flatMap_cons, induction]

theorem rowsFrom_eq (position : Position) (tree : ParseTree) :
    tree.rowsFrom position =
      (position, tree) :: (tree.placed position).flatMap fun found => found.2.rowsFrom found.1 := by
  cases tree with
  | row kind named field extent children =>
      rw [rowsFrom, rowsOfAllFrom_eq]
      rfl

theorem mem_rowsFrom {tree : ParseTree} {position : Position} {found : Position × ParseTree} :
    found ∈ tree.rowsFrom position ↔
      ∃ rest, found.1 = position ++ rest ∧ tree.at? rest = some found.2 := by
  induction tree generalizing position found with
  | row kind named field extent children induction =>
      rw [rowsFrom_eq, List.mem_cons, List.mem_flatMap]
      constructor
      · rintro (rfl | ⟨child, member, inside⟩)
        · exact ⟨[], by simp, rfl⟩
        · rcases mem_placed.mp member with ⟨place, equal, here⟩
          rcases (induction child.2 (List.mem_of_getElem? here)).mp inside with ⟨rest, same, there⟩
          refine ⟨place :: rest, by simp [same, equal], ?_⟩
          rw [at?, here]
          exact there
      · rintro ⟨rest, equal, there⟩
        cases rest with
        | nil =>
            left
            exact Prod.ext (by simpa using equal) (Option.some.inj there).symm
        | cons place rest =>
            right
            rcases Option.bind_eq_some_iff.mp there with ⟨child, here, below⟩
            refine ⟨(position ++ [place], child), mem_placed.mpr ⟨place, rfl, here⟩, ?_⟩
            exact (induction child (List.mem_of_getElem? here)).mpr
              ⟨rest, by simp [equal], below⟩

theorem mem_rowsFrom_nil {root : ParseTree} {found : Position × ParseTree} :
    found ∈ root.rowsFrom [] ↔ root.at? found.1 = some found.2 := by
  simp [mem_rowsFrom]

end ParseTree

end UnityLint
