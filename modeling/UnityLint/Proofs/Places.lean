import UnityLint.Environment
import UnityLint.Proofs.JoinedPaths

/-! # Paths of places

The path that names a place leads there, as long as a directory is above it and no link stands at it. A path
with a name that no entry has leads nowhere, whatever links it follows. -/

namespace UnityLint

namespace FileTree

variable {tree : FileTree} {current place : Place} {names rest : List String} {name path : String}
  {links : Nat}

/-! ## Entries -/

theorem find?_append (tree : FileTree) (place rest : Place) :
    tree.find? (place ++ rest) = (tree.find? place).bind (find? · rest) := by
  induction place generalizing tree with
  | nil => rw [find?, Option.bind_some, List.nil_append]
  | cons name others induction =>
      cases tree with
      | directory entries =>
          rw [List.cons_append, find?, find?, Option.bind_assoc]
          congr 1
          funext entry
          exact induction entry
      | file content => rfl
      | link target => rfl

theorem exists_entry_of_find? {entry : FileTree} (found : tree.find? (name :: rest) = some entry) :
    ∃ entries child, tree = .directory entries ∧ (name, child) ∈ entries ∧
      child.find? rest = some entry := by
  cases tree with
  | directory entries =>
      rw [find?] at found
      obtain ⟨child, listed, inside⟩ := Option.bind_eq_some_iff.mp found
      obtain ⟨before, after, rfl, _⟩ := List.lookup_eq_some_iff.mp listed
      exact ⟨_, child, rfl, by simp, inside⟩
  | file content => cases found
  | link target => cases found

theorem isDirectoryAt_of_append (directory : tree.isDirectoryAt (place ++ rest)) :
    tree.isDirectoryAt place := by
  cases rest with
  | nil => rwa [List.append_nil] at directory
  | cons name others =>
      rw [isDirectoryAt, find?_append, Option.any_eq_true] at directory
      obtain ⟨entry, found, _⟩ := directory
      obtain ⟨above, here, below⟩ := Option.bind_eq_some_iff.mp found
      obtain ⟨entries, child, rfl, _⟩ := exists_entry_of_find? below
      rw [isDirectoryAt, here]
      rfl

theorem read_eq_ok_iff {content : ByteArray} :
    tree.read current path = .ok content ↔ tree.entryOf? current path = some (.file content) := by
  rw [read, entryOf?]
  cases tree.resolve current path with
  | error error => simp [Except.toOption]
  | ok place =>
      rw [Except.toOption, Option.bind_some]
      dsimp only
      split <;> simp_all

/-! ## Paths along names -/

def IsEntryName (name : String) : Prop :=
  Path.IsName name ∧ name.utf8ByteSize ≤ nameLimit

instance (name : String) : Decidable (IsEntryName name) :=
  inferInstanceAs (Decidable (_ ∧ _))

section Steps

variable (named : IsEntryName name) (directory : tree.isDirectoryAt place)

include named directory

theorem walk_of_find? {entry : FileTree} (found : tree.find? (place ++ [name]) = some entry)
    (unlinked : ∀ target, entry ≠ .link target) :
    tree.walk links false place (name :: rest) = tree.walk links false (place ++ [name]) rest := by
  obtain ⟨⟨inhabited, notHere, notUp, _⟩, short⟩ := named
  rw [walk, if_neg (by simp [directory]), if_neg (by simp [inhabited, notHere]), if_neg notUp,
    if_neg (by simp [namesDirectory]), if_neg (Nat.not_lt.mpr short), found]
  cases entry with
  | directory entries => rfl
  | file content => rfl
  | link target => exact absurd rfl (unlinked target)

theorem walk_of_missing (missing : tree.find? (place ++ [name]) = none) :
    tree.walk links false place (name :: rest) = .error .missing := by
  obtain ⟨⟨inhabited, notHere, notUp, _⟩, short⟩ := named
  rw [walk, if_neg (by simp [directory]), if_neg (by simp [inhabited, notHere]), if_neg notUp,
    if_neg (by simp [namesDirectory]), if_neg (Nat.not_lt.mpr short), missing]
  rfl

end Steps

theorem walk_append (named : ∀ name ∈ names, IsEntryName name)
    (directory : tree.isDirectoryAt (place ++ names)) :
    tree.walk links false place (names ++ rest) = tree.walk links false (place ++ names) rest := by
  induction names generalizing place with
  | nil => rw [List.nil_append, List.append_nil]
  | cons name others induction =>
      obtain ⟨nameNamed, othersNamed⟩ := List.forall_mem_cons.mp named
      have longer : place ++ name :: others = (place ++ [name]) ++ others := List.append_cons ..
      rw [longer] at directory ⊢
      have next : tree.isDirectoryAt (place ++ [name]) := isDirectoryAt_of_append directory
      rw [← induction othersNamed directory, List.cons_append]
      rw [isDirectoryAt, Option.any_eq_true] at next
      obtain ⟨entry, found, entered⟩ := next
      apply walk_of_find? nameNamed (isDirectoryAt_of_append (isDirectoryAt_of_append directory)) found
      rintro target rfl
      cases entered

theorem piecesOf_pathOf (named : ∀ name ∈ place, IsEntryName name) (inhabited : place ≠ []) :
    piecesOf (pathOf place) = "" :: place := by
  have cut : Text.pieces Path.isSeparator ([] ++ '/' :: (String.intercalate "/" place).toList) = _ :=
    Text.pieces_append_divider rfl ..
  rw [Path.pieces_names (fun name member => (named name member).1) inhabited] at cut
  rw [piecesOf, pathOf, String.toList_append]
  refine (congrArg (List.map String.ofList) cut).trans ?_
  rw [List.map_append, List.map_map]
  exact congrArg (List.cons "") (by simp [Function.comp_def])

section PathOf

variable (named : ∀ other ∈ place ++ [name], IsEntryName other) (directory : tree.isDirectoryAt place)

include named directory

theorem follow_pathOf :
    tree.follow false current (pathOf (place ++ [name])) = tree.walk linkLimit false place [name] := by
  have absolute : Path.isAbsolute (pathOf (place ++ [name])) := Path.isAbsolute_append rfl _
  have inhabited : pathOf (place ++ [name]) ≠ "" := by
    intro empty
    rw [empty] at absolute
    cases absolute
  have rooted : tree.isDirectoryAt [] := isDirectoryAt_of_append directory
  rw [follow, if_neg inhabited, startOf, if_pos absolute, piecesOf_pathOf named (by simp), walk,
    if_neg (by simp [rooted]), if_pos (.inl rfl)]
  exact walk_append (List.forall_mem_append.mp named).1 directory

variable (unlinked : ∀ target, tree.find? (place ++ [name]) ≠ some (.link target))

include unlinked

variable (place name)

theorem toOption_follow_pathOf :
    (tree.follow false current (pathOf (place ++ [name]))).toOption =
      (tree.find? (place ++ [name])).map fun _ => place ++ [name] := by
  have nameNamed : IsEntryName name := named name (by simp)
  rw [follow_pathOf named directory]
  cases found : tree.find? (place ++ [name]) with
  | none => rw [walk_of_missing nameNamed directory found, Except.toOption, Option.map_none]
  | some entry =>
      rw [walk_of_find? nameNamed directory found, walk, Except.toOption, Option.map_some]
      rintro target rfl
      exact unlinked target found

/-- The path of a place in a directory leads to the entry there, if there is one. -/
theorem entryOf?_pathOf (short : (pathOf (place ++ [name])).utf8ByteSize < pathLimit) :
    tree.entryOf? current (pathOf (place ++ [name])) = tree.find? (place ++ [name]) := by
  rw [entryOf?, resolve, if_neg (Nat.not_le.mpr short),
    toOption_follow_pathOf place name named directory unlinked]
  cases found : tree.find? (place ++ [name]) with
  | none => rfl
  | some entry => exact found

end PathOf

/-! ## Names that no entry has -/

mutual

def entryNames : FileTree → List String
  | .directory entries => entryNamesAmong entries
  | _ => []

def entryNamesAmong : List (String × FileTree) → List String
  | [] => []
  | (name, entry) :: rest => name :: (entryNames entry ++ entryNamesAmong rest)

end

theorem mem_entryNamesAmong {entries : List (String × FileTree)} {entry : FileTree}
    (member : (name, entry) ∈ entries) :
    name ∈ entryNamesAmong entries ∧ entry.entryNames ⊆ entryNamesAmong entries := by
  induction entries with
  | nil => cases member
  | cons head rest induction =>
      obtain ⟨first, firstEntry⟩ := head
      rw [entryNamesAmong]
      rcases List.mem_cons.mp member with same | later
      · cases same
        exact ⟨List.mem_cons_self, fun other inside =>
          List.mem_cons_of_mem _ (List.mem_append_left _ inside)⟩
      · obtain ⟨listed, below⟩ := induction later
        exact ⟨List.mem_cons_of_mem _ (List.mem_append_right _ listed), fun other inside =>
          List.mem_cons_of_mem _ (List.mem_append_right _ (below inside))⟩

theorem mem_entryNames_of_find? {entry : FileTree} (found : tree.find? (place ++ [name]) = some entry) :
    name ∈ tree.entryNames := by
  induction place generalizing tree with
  | nil =>
      obtain ⟨entries, child, rfl, member, _⟩ := exists_entry_of_find? found
      exact (mem_entryNamesAmong member).1
  | cons head others induction =>
      obtain ⟨entries, child, rfl, member, inside⟩ := exists_entry_of_find? found
      exact (mem_entryNamesAmong member).2 (induction inside)

theorem mem_piecesOf_join {rest : String} (relative : Path.isAbsolute rest = false)
    (member : name ∈ piecesOf rest) (base : String) : name ∈ piecesOf (Path.join base rest) := by
  by_cases empty : base = ""
  · rwa [empty, Path.join_empty relative]
  · obtain ⟨front, joined, _⟩ := Path.exists_join_eq relative empty
    obtain ⟨first, others, _, continued⟩ := Path.exists_pieces_append_slash front
    rw [joined, piecesOf, continued, List.map_cons, List.map_append]
    exact List.mem_cons_of_mem _ (List.mem_append_right _ member)

section Absent

variable (named : Path.IsName name) (absent : name ∉ tree.entryNames)

include named absent

theorem walk_of_absent {creating : Bool} (reading : creating = false) {pieces : List String}
    (member : name ∈ pieces) : ∃ error, tree.walk links creating place pieces = .error error := by
  have later {piece : String} {rest : List String} (apart : piece ≠ name)
      (member : name ∈ piece :: rest) : name ∈ rest :=
    (List.mem_cons.mp member).resolve_left fun same => apart same.symm
  have apart {place : Place} {piece : String} {entry : FileTree}
      (found : tree.find? (place ++ [piece]) = some entry) : piece ≠ name := by
    rintro rfl
    exact absent (mem_entryNames_of_find? found)
  fun_induction walk tree links creating place pieces with
  | case1 => cases member
  | case3 links creating place piece rest _ blank induction =>
      refine induction reading (later ?_ member)
      rintro rfl
      exact blank.elim named.1 named.2.1
  | case4 links creating place rest _ _ induction =>
      exact induction reading (later (fun same => named.2.2.1 same.symm) member)
  | case7 links creating place piece rest _ _ _ _ _ _ created =>
      rw [reading] at created
      exact absurd created.1 Bool.false_ne_true
  | case10 creating place piece rest _ _ _ _ _ target found links induction =>
      exact induction reading (List.mem_append_right _ (later (apart found) member))
  | case11 links creating place piece rest _ _ _ _ _ entry _ found induction =>
      exact induction reading (later (apart found) member)
  | _ => exact ⟨_, rfl⟩

/-- A path with a name that no entry has leads nowhere. -/
theorem entryOf?_of_absent (member : name ∈ piecesOf path) : tree.entryOf? current path = none := by
  obtain ⟨error, failed⟩ := walk_of_absent named absent rfl member
  rw [entryOf?, resolve, follow]
  split
  · rfl
  · split
    · rfl
    · rw [failed]
      rfl

end Absent

end FileTree

namespace Environment

variable {environment : Environment} {path : String}

theorem exists_read_of_isFile (isFile : environment.isFile path) :
    ∃ content, environment.read path = .ok content := by
  rw [Environment.isFile, Option.any_eq_true] at isFile
  obtain ⟨entry, found, isFile⟩ := isFile
  cases entry with
  | directory entries => cases isFile
  | file content => exact ⟨content, FileTree.read_eq_ok_iff.mpr found⟩
  | link target => cases isFile

theorem readText_of_entryOf? {text : String}
    (found : environment.files.entryOf? environment.current path = some (.file text.toUTF8)) :
    environment.readText path = .ok text := by
  have decoded : String.fromUTF8? text.toUTF8 = some text := dif_pos text.isValidUTF8
  rw [readText, FileTree.readText, FileTree.read_eq_ok_iff.mpr found]
  dsimp only
  rw [decoded]

theorem eq_notText_of_readText (isFile : environment.isFile path) {error : FileError}
    (failed : environment.readText path = .error error) : error = .notText := by
  obtain ⟨content, read⟩ := exists_read_of_isFile isFile
  rw [Environment.read] at read
  rw [Environment.readText, FileTree.readText, read] at failed
  dsimp only at failed
  split at failed
  · cases failed
  · cases failed
    rfl

end Environment

end UnityLint
