import UnityLint.Discovery
import UnityLint.Proofs.Places

/-! # Discovered files

A file that is found below a root is found along the names of entries, so that its path is the root joined
with these names. A root that is a file itself is found as it is, and a path with a slash behind it leads to
no file. Where no entry has the name of an ignore file, nothing is left out. -/

namespace UnityLint

/-! ## Paths that end in a slash -/

namespace FileTree

theorem isDirectoryAt_of_walk {tree : FileTree} {links : Nat} {creating : Bool}
    {place reached : Place} {pieces : List String} (blank : pieces.getLast? = some "")
    (walked : tree.walk links creating place pieces = .ok reached) : tree.isDirectoryAt reached := by
  have later {piece : String} {rest : List String} (apart : piece ≠ "")
      (blank : (piece :: rest).getLast? = some "") : rest.getLast? = some "" := by
    cases rest with
    | nil => exact absurd (Option.some.inj blank) apart
    | cons second others => rwa [List.getLast?_cons_cons] at blank
  -- The last piece is passed where a directory is, and no other piece is the last one.
  fun_induction walk tree links creating place pieces with
  | case1 => cases blank
  | case3 links creating place piece rest directory _ induction =>
      cases rest with
      | nil =>
          rw [walk] at walked
          cases walked
          simpa using directory
      | cons second others => exact induction (by rwa [List.getLast?_cons_cons] at blank) walked
  | case4 links creating place rest _ _ induction => exact induction (later (by decide) blank) walked
  | case7 links creating place piece rest _ named _ _ _ _ created =>
      rw [created.2] at blank
      exact absurd (Option.some.inj blank) fun empty => named (.inl empty)
  | case10 creating place piece rest _ named _ _ _ target _ links induction =>
      have last := later (fun empty => named (.inl empty)) blank
      exact induction (by rw [List.getLast?_append, last, Option.some_or]) walked
  | case11 links creating place piece rest _ named _ _ _ _ _ _ induction =>
      exact induction (later (fun empty => named (.inl empty)) blank) walked
  | _ => cases walked

theorem isDirectoryAt_of_resolve {tree : FileTree} {current place : Place} {front : String}
    (resolved : tree.resolve current (front ++ "/") = .ok place) : tree.isDirectoryAt place := by
  have blank : (piecesOf (front ++ "/")).getLast? = some "" := by
    have cut : Text.pieces Path.isSeparator (front.toList ++ ['/']) = _ ++ [[]] :=
      Text.pieces_append_divider rfl front.toList []
    have slash : "/".toList = ['/'] := rfl
    rw [piecesOf, String.toList_append, slash, cut, List.map_append]
    exact List.getLast?_concat
  rw [resolve] at resolved
  split at resolved
  · cases resolved
  · rw [follow] at resolved
    split at resolved
    · cases resolved
    · exact isDirectoryAt_of_walk blank resolved

theorem read_append_slash (tree : FileTree) (current : Place) (front : String) :
    ∃ error, tree.read current (front ++ "/") = .error error := by
  rw [read]
  split
  · exact ⟨_, rfl⟩
  · rename_i place resolved
    have directory := isDirectoryAt_of_resolve resolved
    rw [isDirectoryAt] at directory
    cases found : tree.find? place with
    | none => exact ⟨_, rfl⟩
    | some entry =>
        rw [found] at directory
        cases entry with
        | directory entries => exact ⟨_, rfl⟩
        | file content => cases directory
        | link target => cases directory

theorem readText_join_empty (tree : FileTree) (current : Place) (path : String) :
    ∃ error, tree.readText current (Path.join path "") = .error error := by
  by_cases empty : path = ""
  · subst empty
    exact ⟨.missing, rfl⟩
  · have none : ∀ name ∈ [], Path.IsName name := by simp
    obtain ⟨front, joined, _⟩ := Path.exists_below_eq none empty
    obtain ⟨error, failed⟩ := tree.read_append_slash current front
    have ended : Path.join path "" = front ++ "/" := joined.trans (String.append_empty ..)
    rw [readText, ended, failed]
    exact ⟨error, rfl⟩

end FileTree

/-! ## Entries with names -/

namespace FileTree

inductive WellNamed : FileTree → Prop
  | directory {entries : List (String × FileTree)}
      (named : ∀ name entry, (name, entry) ∈ entries → Path.IsName name)
      (below : ∀ name entry, (name, entry) ∈ entries → entry.WellNamed) :
      WellNamed (.directory entries)
  | file (content : ByteArray) : WellNamed (.file content)
  | link (target : String) : WellNamed (.link target)

theorem WellNamed.of_find? {tree entry : FileTree} {place : Place} (wellNamed : tree.WellNamed)
    (found : tree.find? place = some entry) : entry.WellNamed := by
  induction place generalizing tree with
  | nil =>
      rw [find?] at found
      cases found
      exact wellNamed
  | cons name rest induction =>
      obtain ⟨entries, child, rfl, member, inside⟩ := exists_entry_of_find? found
      cases wellNamed with
      | directory _ below => exact induction (below name child member) inside

mutual

theorem wellNamed_of_entryNames :
    (tree : FileTree) → (∀ name ∈ tree.entryNames, Path.IsName name) → tree.WellNamed
  | .directory entries, named =>
      .directory
        (fun name _ member => named name (mem_entryNamesAmong member).1)
        (wellNamed_of_entryNamesAmong entries named)
  | .file content, _ => .file content
  | .link target, _ => .link target

theorem wellNamed_of_entryNamesAmong :
    (entries : List (String × FileTree)) → (∀ name ∈ entryNamesAmong entries, Path.IsName name) →
      ∀ name entry, (name, entry) ∈ entries → entry.WellNamed
  | [], _, _, _, member => absurd member List.not_mem_nil
  | (first, firstEntry) :: rest, named, name, entry, member => by
      rw [entryNamesAmong] at named
      rcases List.mem_cons.mp member with same | later
      · cases same
        exact wellNamed_of_entryNames firstEntry fun other inside => named other (by simp [inside])
      · exact wellNamed_of_entryNamesAmong rest (fun other inside => named other (by simp [inside]))
          name entry later

end

end FileTree

/-! ## Files below the root -/

namespace Discovery

variable {discovery : Discovery} {userFile : IgnoreFile} {path root found : String} {place : Place}

theorem exists_entry_of_mem_filesAmong {levels : List IgnoreLevel}
    {entries : List (String × FileTree)}
    (member : found ∈ discovery.filesAmong userFile levels path place entries) :
    ∃ name entry, (name, entry) ∈ entries ∧
      found ∈ discovery.filesFrom userFile levels (Path.join path name) (place ++ [name]) entry := by
  induction entries with
  | nil => cases member
  | cons head rest induction =>
      obtain ⟨name, entry⟩ := head
      rw [filesAmong, List.mem_append] at member
      rcases member with here | later
      · split at here
        · cases here
        · exact ⟨name, entry, List.mem_cons_self, here⟩
      · rcases induction later with ⟨name, entry, listed, inside⟩
        exact ⟨name, entry, List.mem_cons_of_mem _ listed, inside⟩

mutual

theorem isFile_of_mem_filesFrom :
    (tree : FileTree) → ∀ {above : List IgnoreLevel} {path : String} {place : Place},
      found ∈ discovery.filesFrom userFile above path place tree → discovery.environment.isFile found
  | .directory entries, _, _, _, member => by
      rw [filesFrom] at member
      exact isFile_of_mem_filesAmong entries member
  | .file content, _, _, _, member | .link target, _, _, _, member => by
      rw [filesFrom] at member
      · split at member
        · rwa [List.mem_singleton.mp member]
        · cases member
      · simp

theorem isFile_of_mem_filesAmong :
    (entries : List (String × FileTree)) → ∀ {levels : List IgnoreLevel} {path : String}
      {place : Place}, found ∈ discovery.filesAmong userFile levels path place entries →
        discovery.environment.isFile found
  | [], _, _, _, member => absurd member List.not_mem_nil
  | (name, entry) :: rest, _, _, _, member => by
      rw [filesAmong, List.mem_append] at member
      rcases member with here | later
      · split at here
        · cases here
        · exact isFile_of_mem_filesFrom entry here
      · exact isFile_of_mem_filesAmong rest later

end

theorem leads_of_mem_filesFrom {tree : FileTree} (wellNamed : tree.WellNamed) {names : List String}
    (named : ∀ name ∈ names, Path.IsName name)
    (step : ∀ name, Path.IsName name → Path.join path name = Path.below root (names ++ [name]))
    {above : List IgnoreLevel}
    (member : found ∈ discovery.filesFrom userFile above path place tree) :
    found = path ∧ discovery.environment.isFile path ∨
      ∃ further, further ≠ [] ∧ (∀ name ∈ names ++ further, Path.IsName name) ∧
        found = Path.below root (names ++ further) := by
  -- The path of an entry is one name further down, so that `step` holds for it again.
  induction wellNamed generalizing names path place above with
  | @directory entries entriesNamed _ induction =>
      rw [filesFrom] at member
      rcases exists_entry_of_mem_filesAmong member with ⟨name, entry, listed, inside⟩
      have nameNamed := entriesNamed name entry listed
      have longer : ∀ other ∈ names ++ [name], Path.IsName other := by
        simpa [or_imp, forall_and, nameNamed] using named
      rw [step name nameNamed] at inside
      have next other (otherNamed : Path.IsName other) :=
        Path.join_below longer (by simp) otherNamed root
      rcases induction name entry listed longer next inside with
        ⟨rfl, _⟩ | ⟨further, _, allNamed, rfl⟩
      · exact .inr ⟨[name], by simp, longer, rfl⟩
      · rw [List.append_assoc] at allNamed ⊢
        exact .inr ⟨[name] ++ further, by simp, allNamed, rfl⟩
  | file content | link target =>
      rw [filesFrom] at member
      · split at member
        · exact .inl ⟨List.mem_singleton.mp member, by assumption⟩
        · cases member
      · simp

theorem filesFrom_file (isFile : discovery.environment.isFile path) {above : List IgnoreLevel}
    {content : ByteArray} :
    discovery.filesFrom userFile above path place (.file content) = [path] := by
  rw [filesFrom, if_pos isFile]
  simp

theorem files_of_isFile (isFile : discovery.environment.isFile root) : discovery.files root = [root] := by
  have read := isFile
  rw [Environment.isFile, FileTree.entryOf?, FileTree.resolve] at read
  split at read
  · cases read
  · cases reached : discovery.environment.files.follow false discovery.environment.current root with
    | error error =>
        rw [reached] at read
        cases read
    | ok place =>
        rw [reached, Except.toOption, Option.bind_some] at read
        have led : discovery.environment.realPlace? root = some place :=
          congrArg Except.toOption reached
        cases entry : discovery.environment.files.find? place with
        | none =>
            rw [entry] at read
            cases read
        | some tree =>
            rw [entry] at read
            cases tree with
            | directory entries => cases read
            | link target => cases read
            | file content =>
                simp only [files, led, entry, Option.map_some, Option.getD_some, filesFrom_file isFile]

theorem exists_tree_of_mem_files (member : found ∈ discovery.files root) :
    ∃ place tree, discovery.environment.files.find? place = some tree ∧
      found ∈ discovery.filesFrom discovery.userFile (discovery.levelsAbove place) root place tree := by
  rw [files] at member
  split at member
  · cases member
  · rename_i place _
    cases entry : discovery.environment.files.find? place with
    | none =>
        rw [entry] at member
        cases member
    | some tree =>
        rw [entry] at member
        exact ⟨place, tree, entry, member⟩

theorem isFile_of_mem_files (member : found ∈ discovery.files root) :
    discovery.environment.isFile found := by
  obtain ⟨place, tree, _, inside⟩ := exists_tree_of_mem_files member
  exact isFile_of_mem_filesFrom tree inside

/-- A file that is found is the root, or it is found below the root along names. -/
theorem leads_of_mem_files (wellNamed : discovery.environment.files.WellNamed)
    (member : found ∈ discovery.files root) :
    discovery.environment.isFile root ∧ found = root ∨
      discovery.environment.isFile root = false ∧
        ∃ names, names ≠ [] ∧ (∀ name ∈ names, Path.IsName name) ∧ found = Path.below root names := by
  by_cases isFile : discovery.environment.isFile root
  · rw [files_of_isFile isFile, List.mem_singleton] at member
    exact .inl ⟨isFile, member⟩
  · obtain ⟨place, tree, entry, inside⟩ := exists_tree_of_mem_files member
    have single name (_ : Path.IsName name) : Path.join root name = Path.below root ([] ++ [name]) :=
      Path.join_eq_below root name
    rcases leads_of_mem_filesFrom (wellNamed.of_find? entry) (by simp) single inside with
      ⟨_, atRoot⟩ | below
    · exact absurd atRoot isFile
    · exact .inr ⟨eq_false_of_ne_true isFile, below⟩

end Discovery

/-! ## Without ignore files -/

def IgnoreLevel.IsEmpty (level : IgnoreLevel) : Prop :=
  level.ignore = [] ∧ level.gitignore = [] ∧ level.exclude = []

namespace Discovery

variable {discovery : Discovery}

/-- The names of the files that leave out others, or say where such a file is. -/
def ignoreNames : List String :=
  [".ignore", ".gitignore", "exclude", ".gitconfig", "config", "ignore"]

theorem isIgnored_of_isEmpty (discovery : Discovery) {levels : List IgnoreLevel}
    (empty : ∀ level ∈ levels, level.IsEmpty) (place : Place) (path : String) (isDirectory : Bool) :
    discovery.isIgnored [] levels place path isDirectory = false := by
  have silent (kind : IgnoreLevel → IgnoreFile) (blank : ∀ level ∈ levels, kind level = []) :
      verdictOf? kind levels place isDirectory = none := by
    rw [verdictOf?, List.findSome?_eq_none_iff]
    intro level member
    rw [blank level member]
    rfl
  rw [isIgnored, silent _ fun level member => (empty level member).1,
    silent _ fun level member => (empty level member).2.1,
    silent _ fun level member => (empty level member).2.2]
  rfl

section Unignored

variable (absent : ∀ name ∈ ignoreNames, name ∉ discovery.environment.files.entryNames)

include absent

theorem read_join_of_absent (base rest : String)
    (known : Path.isAbsolute rest = false ∧ ∃ name ∈ ignoreNames, name ∈ FileTree.piecesOf rest) :
    ∃ error, discovery.environment.read (Path.join base rest) = .error error := by
  obtain ⟨relative, name, listed, member⟩ := known
  have named : ∀ name ∈ ignoreNames, Path.IsName name := by decide
  have missing : discovery.environment.files.entryOf? discovery.environment.current
      (Path.join base rest) = none :=
    FileTree.entryOf?_of_absent (named name listed) (absent name listed)
      (FileTree.mem_piecesOf_join relative member base)
  cases read : discovery.environment.read (Path.join base rest) with
  | error error => exact ⟨error, rfl⟩
  | ok content =>
      rw [FileTree.read_eq_ok_iff.mp read] at missing
      cases missing

theorem ignoreFileAt_join_of_absent (base rest : String)
    (known : Path.isAbsolute rest = false ∧ ∃ name ∈ ignoreNames, name ∈ FileTree.piecesOf rest) :
    discovery.ignoreFileAt (Path.join base rest) = [] := by
  obtain ⟨error, failed⟩ := read_join_of_absent absent base rest known
  rw [ignoreFileAt, failed]

theorem level_of_absent (path : String) (place : Place) :
    discovery.level path place = ⟨place.length, [], [], []⟩ := by
  have exclude (directory : Option String) :
      ((directory.map (Path.join · "info/exclude")).map discovery.ignoreFileAt).getD [] = [] := by
    cases directory with
    | none => rfl
    | some directory => exact ignoreFileAt_join_of_absent absent directory "info/exclude" (by decide)
  rw [level, ignoreFileAt_join_of_absent absent path ".ignore" (by decide),
    ignoreFileAt_join_of_absent absent path ".gitignore" (by decide), ite_self,
    GitLayout.excludePath?, exclude]

theorem userFile_of_absent : discovery.userFile = [] := by
  have unset (rest : String)
      (known : Path.isAbsolute rest = false ∧ ∃ name ∈ ignoreNames, name ∈ FileTree.piecesOf rest) :
      GitLayout.settingIn? discovery.environment (Path.join discovery.environment.home rest) =
        none := by
    obtain ⟨error, failed⟩ := read_join_of_absent absent discovery.environment.home rest known
    rw [GitLayout.settingIn?, failed]
    rfl
  rw [userFile, GitLayout.userIgnorePath, unset ".gitconfig" (by decide), unset ".config/git/config" (by decide),
    Option.none_or, Option.getD_none]
  exact ignoreFileAt_join_of_absent absent _ ".config/git/ignore" (by decide)

/-- Where there are no ignore files, the files at and below every entry of a directory are found. -/
theorem filesFrom_of_absent {above : List IgnoreLevel} (empty : ∀ level ∈ above, level.IsEmpty)
    (path : String) (place : Place) (entries : List (String × FileTree)) :
    discovery.filesFrom discovery.userFile above path place (.directory entries) =
      entries.flatMap fun entry =>
        discovery.filesFrom discovery.userFile (discovery.level path place :: above)
          (Path.join path entry.1) (place ++ [entry.1]) entry.2 := by
  have own : (discovery.level path place).IsEmpty := by
    rw [level_of_absent absent]
    exact ⟨rfl, rfl, rfl⟩
  have silent := isIgnored_of_isEmpty discovery (List.forall_mem_cons.mpr ⟨own, empty⟩)
  rw [filesFrom, userFile_of_absent absent]
  induction entries with
  | nil => rfl
  | cons head rest induction =>
      obtain ⟨name, entry⟩ := head
      rw [filesAmong, silent, if_neg Bool.false_ne_true, induction, List.flatMap_cons]

theorem levelsAbove_of_absent (place : Place) :
    ∀ level ∈ discovery.levelsAbove place, level.IsEmpty := by
  intro level member
  obtain ⟨depth, _, rfl⟩ := List.mem_map.mp member
  rw [level_of_absent absent]
  exact ⟨rfl, rfl, rfl⟩

theorem files_pathOf_of_absent (place : Place) (name : String) {entries : List (String × FileTree)}
    (named : ∀ other ∈ place ++ [name], FileTree.IsEntryName other)
    (found : discovery.environment.files.find? (place ++ [name]) = some (.directory entries)) :
    discovery.files (FileTree.pathOf (place ++ [name])) =
      entries.flatMap fun entry =>
        discovery.filesFrom discovery.userFile
          (discovery.level (FileTree.pathOf (place ++ [name])) (place ++ [name]) ::
            discovery.levelsAbove (place ++ [name]))
          (Path.join (FileTree.pathOf (place ++ [name])) entry.1) (place ++ [name] ++ [entry.1])
          entry.2 := by
  have directory : discovery.environment.files.isDirectoryAt (place ++ [name]) := by
    rw [FileTree.isDirectoryAt, found]
    rfl
  have reached : discovery.environment.realPlace? (FileTree.pathOf (place ++ [name])) =
      some (place ++ [name]) := by
    rw [Environment.realPlace?, FileTree.toOption_follow_pathOf place name named
      (FileTree.isDirectoryAt_of_append directory) (by simp [found]), found, Option.map_some]
  rw [files, reached]
  dsimp only
  rw [found, Option.map_some, Option.getD_some,
    filesFrom_of_absent absent (levelsAbove_of_absent absent _)]

end Unignored

end Discovery

end UnityLint
