/-! # Tables

Values by number, kept in the order of the numbers. -/

namespace UnityLint

/-- Pairs in increasing order of their keys. -/
abbrev Table (α : Type) := List (Nat × α)

namespace Table

variable {α : Type}

def insert (key : Nat) (value : α) : Table α → Table α
  | [] => [(key, value)]
  | (head, old) :: rest =>
      if key < head then (key, value) :: (head, old) :: rest
      else if key = head then (key, value) :: rest
      else (head, old) :: insert key value rest

def find? : Table α → Nat → Option α
  | [], _ => none
  | (head, value) :: rest, key => if key = head then some value else find? rest key

def values (table : Table α) : List α :=
  table.map Prod.snd

def ofList (pairs : List (Nat × α)) : Table α :=
  pairs.foldl (fun table pair => insert pair.1 pair.2 table) []

theorem find?_insert (table : Table α) (key other : Nat) (value : α) :
    find? (insert key value table) other =
      if other = key then some value else find? table other := by
  induction table with
  | nil => rfl
  | cons head rest induction =>
      obtain ⟨head, old⟩ := head
      rw [insert]
      split
      · rfl
      · split
        · rename_i same
          subst same
          simp only [find?]
          split <;> rfl
        · rename_i different
          simp only [find?, induction]
          by_cases equal : other = head
          · subst equal
            simp [Ne.symm different]
          · simp [equal]

end Table

end UnityLint
