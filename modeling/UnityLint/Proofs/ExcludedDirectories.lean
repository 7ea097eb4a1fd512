import UnityLint.Analyzer
import UnityLint.Proofs.JoinedPaths
import UnityLint.Proofs.LiteralGlobs
import UnityLint.Proofs.ScopePolicy

/-! # Excluded directories

A pattern for what is below a directory is tried in three ways: as a glob on the whole path, as a glob on the
path from the root on, and as plain text. For a file below the root the last way finds whatever the others
find, so that the patterns can be read as conditions on the names along the whole path. -/

namespace UnityLint

/-! ## Names in front of a divider -/

namespace Text

variable {divider : Char} {needle : List Char}

theorem suffix_of_divided {left right : List Char} (undivided : divider ∉ needle)
    (ends : needle <:+ left ++ divider :: right) : needle <:+ right := by
  have reversed : needle.reverse <+: right.reverse ++ divider :: left.reverse := by
    simpa using List.reverse_prefix.mpr ends
  have starts := prefix_of_divided (fun member => undivided (List.mem_reverse.mp member)) reversed
  exact List.reverse_prefix.mp starts

theorem closing_infix_append_iff {left right : List Char} (undivided : divider ∉ needle)
    (leftUndivided : divider ∉ left) :
    needle ++ [divider] <:+: left ++ divider :: right ↔
      needle <:+ left ∨ needle ++ [divider] <:+: right := by
  constructor
  · rintro ⟨front, back, equal⟩
    have cut : (front ++ needle) ++ divider :: back = left ++ divider :: right := by
      simpa using equal
    rcases List.append_eq_append_iff.mp cut with ⟨gap, left_eq, later⟩ | ⟨gap, front_eq, later⟩
    · cases gap with
      | nil => exact .inl ⟨front, by rw [left_eq, List.append_nil]⟩
      | cons head tail =>
          have same := (List.cons.inj later).1
          exact absurd (left_eq ▸ same ▸ by simp) leftUndivided
    · cases gap with
      | nil => exact .inl ⟨front, by rw [front_eq, List.append_nil]⟩
      | cons head tail =>
          obtain ⟨rfl, right_eq⟩ := List.cons.inj later
          obtain ⟨start, rfl⟩ := suffix_of_divided undivided ⟨front, front_eq⟩
          exact .inr ⟨start, back, by simp [right_eq]⟩
  · rintro (⟨front, rfl⟩ | inside)
    · exact ⟨front, right, by simp⟩
    · exact inside.trans ((List.suffix_cons divider right).trans (List.suffix_append left _)).isInfix

theorem closing_infix_flatMap_iff {first : List Char} {others : List (List Char)}
    (undivided : divider ∉ needle) (partsUndivided : ∀ part ∈ first :: others, divider ∉ part) :
    needle ++ [divider] <:+: first ++ others.flatMap (divider :: ·) ↔
      ∃ part ∈ (first :: others).dropLast, needle <:+ part := by
  induction others generalizing first with
  | nil =>
      rw [List.flatMap_nil, List.append_nil]
      constructor
      · intro inside
        exact absurd (inside.subset (by simp)) (partsUndivided first List.mem_cons_self)
      · simp
  | cons second rest induction =>
      rw [List.forall_mem_cons] at partsUndivided
      rw [List.flatMap_cons, List.cons_append, closing_infix_append_iff undivided partsUndivided.1,
        induction partsUndivided.2, List.dropLast_cons_cons, List.exists_mem_cons_iff]

theorem not_mem_of_mem_pieces (divider : Char) (text : List Char) :
    ∀ piece ∈ pieces (· = divider) text, divider ∉ piece := by
  intro piece member inside
  simpa using undivided_of_mem_pieces piece member divider inside

theorem closing_infix_iff (undivided : divider ∉ needle) (text : List Char) :
    needle ++ [divider] <:+: text ↔
      ∃ piece ∈ (pieces (· = divider) text).dropLast, needle <:+ piece := by
  have partsUndivided := not_mem_of_mem_pieces divider text
  have joined := flatMap_pieces divider text
  obtain ⟨first, others, cut⟩ := List.exists_cons_of_ne_nil (pieces_ne_nil (· = divider) text)
  rw [cut] at partsUndivided joined
  rw [List.flatMap_cons, List.cons_append, List.cons.injEq] at joined
  rw [cut, ← closing_infix_flatMap_iff undivided partsUndivided, joined.2]

theorem dropPairs_cons {char first : Char} (apart : first ≠ char) (rest : List Char) :
    dropPairs char (first :: rest) = first :: dropPairs char rest := by
  cases rest with
  | nil => rfl
  | cons second others => rw [dropPairs, if_neg fun both => apart both.1]

theorem dropPairs_append {char : Char} {text : List Char} (missing : char ∉ text) :
    dropPairs char (text ++ [char, char]) = text := by
  induction text with
  | nil => simp [dropPairs]
  | cons first rest induction =>
      rw [List.mem_cons, not_or] at missing
      rw [List.cons_append, dropPairs_cons (Ne.symm missing.1), induction missing.2]

end Text

namespace Exclusion

/-! ## Names along a path -/

def segments (path : String) : List (List Char) :=
  Text.pieces (· = '/') (normalize path)

def directories (path : String) : List (List Char) :=
  (segments path).dropLast

example : directories "/Game\\Temp/A.cs" = [[], "Game".toList, "Temp".toList] := by decide

theorem normalize_append (left right : String) :
    normalize (left ++ right) = normalize left ++ normalize right := by
  simp [normalize, Text.replaceChar]

theorem segments_append_slash (base path : String) :
    segments (base ++ "/" ++ path) = segments base ++ segments path := by
  rw [segments, normalize_append, normalize_append, List.append_assoc]
  exact Text.pieces_append_divider (by decide) ..

variable {names : List String}

theorem segments_of_slashed {path : String} (slashed : '\\' ∉ path.toList) :
    segments path = Text.pieces Path.isSeparator path.toList := by
  rw [segments, normalize, Text.replaceChar_of_not_mem slashed]
  rfl

theorem directories_names (named : ∀ name ∈ names, Path.IsName name)
    (slashed : '\\' ∉ (String.intercalate "/" names).toList) :
    directories (String.intercalate "/" names) = names.dropLast.map String.toList := by
  by_cases empty : names = []
  · rw [empty]
    rfl
  · rw [directories, segments_of_slashed slashed, Path.pieces_names named empty, List.map_dropLast]

theorem suffix_normalize_below (named : ∀ name ∈ names, Path.IsName name) (base : String) :
    normalize (String.intercalate "/" names) <:+
      normalize (Path.below base names) := by
  rw [Path.below_eq named, normalize_append]
  exact List.suffix_append ..

theorem mem_directories_below_iff (named : ∀ name ∈ names, Path.IsName name) (base : String)
    {name : List Char} (written : name ≠ []) :
    name ∈ directories (Path.below base names) ↔
      name ∈ segments base ∨ name ∈ directories (String.intercalate "/" names) := by
  have blank : segments "" = [[]] := by decide
  by_cases empty : base = ""
  · have same : Path.below "" names = String.intercalate "/" names := by
      rw [Path.below_eq named]
      exact String.empty_append
    rw [empty, same, blank, List.mem_singleton]
    simp [written]
  obtain ⟨front, joined, base_eq⟩ := Path.exists_below_eq named empty
  have cut : directories (Path.below base names) =
      segments front ++ directories (String.intercalate "/" names) := by
    rw [directories, joined, segments_append_slash, List.dropLast_append_of_ne_nil]
    · rfl
    · exact Text.pieces_ne_nil _ _
  have baseNames : name ∈ segments base ↔ name ∈ segments front := by
    rcases base_eq with rfl | rfl
    · rfl
    · have ended := segments_append_slash front ""
      rw [String.append_empty] at ended
      rw [ended, blank, List.mem_append, List.mem_singleton]
      simp [written]
  rw [cut, List.mem_append, baseNames]

theorem exists_normalize_eq {path : String} (absolute : Path.isAbsolute path) :
    ∃ rest, normalize path = '/' :: rest := by
  obtain ⟨rest, start⟩ := List.head?_eq_some_iff.mp (of_decide_eq_true absolute)
  refine ⟨Text.replaceChar '\\' '/' rest, ?_⟩
  rw [normalize, start]
  rfl

theorem enclosed_infix_iff_mem_directories {path : String} (absolute : Path.isAbsolute path)
    {name : List Char} (written : name ≠ []) (undivided : '/' ∉ name) :
    '/' :: (name ++ ['/']) <:+: normalize path ↔ name ∈ directories path := by
  obtain ⟨rest, normal⟩ := exists_normalize_eq absolute
  have cut : directories path = [] :: (Text.pieces (· = '/') rest).dropLast := by
    rw [directories, segments, normal, Text.pieces, if_pos (by decide),
      List.dropLast_cons_of_ne_nil (Text.pieces_ne_nil _ _)]
  rw [normal, ← Text.flatMap_pieces '/' rest,
    Text.enclosed_infix_flatMap_iff undivided (Text.not_mem_of_mem_pieces '/' rest), cut, List.mem_cons]
  simp [written]

/-! ## Patterns for directories -/

def contents (name : String) : Exclusion :=
  ⟨name.toList ++ ['/', '*', '*'], .contents name.toList⟩

def contentsAnywhere (name : String) : Exclusion :=
  ⟨'*' :: '*' :: '/' :: (name.toList ++ ['/', '*', '*']), .contentsAnywhere name.toList⟩

variable {name : String}

theorem parse_contents (literal : Glob.IsLiteral name.toList) :
    parse (name ++ "/**") = .ok (contents name) := by
  rw [parse, String.toList_append]
  exact congrArg (Exclusion.mk _ <$> ·) (Glob.parse_contents literal)

theorem parse_contentsAnywhere (literal : Glob.IsLiteral name.toList) :
    parse ("**/" ++ name ++ "/**") = .ok (contentsAnywhere name) := by
  rw [parse, String.toList_append, String.toList_append]
  exact congrArg (Exclusion.mk _ <$> ·) (Glob.parse_contentsAnywhere literal)

theorem plainText_contents (literal : Glob.IsLiteral name.toList) :
    (contents name).plainText = name.toList ++ ['/'] := by
  have missing : '*' ∉ name.toList ++ ['/'] := by simpa using literal.2.1
  have dropped := Text.dropPairs_append missing
  rw [List.append_assoc] at dropped
  exact dropped

theorem plainText_contentsAnywhere (literal : Glob.IsLiteral name.toList) :
    (contentsAnywhere name).plainText = '/' :: (name.toList ++ ['/']) := by
  have rest := plainText_contents literal
  rw [plainText, contentsAnywhere, Text.dropPairs, if_pos ⟨rfl, rfl⟩, Text.dropPairs_cons (by decide)]
  exact congrArg ('/' :: ·) rest

theorem applies_iff (exclusion : Exclusion) (root path : String) :
    exclusion.applies root path ↔
      exclusion.glob.matches? (normalize path) ∨
      (normalize ((Path.relativeTo? root path).getD "") ≠ [] ∧
        exclusion.glob.matches? (normalize ((Path.relativeTo? root path).getD ""))) ∨
      (exclusion.plainText ≠ [] ∧ exclusion.plainText ≠ ['/'] ∧
        exclusion.plainText <:+: normalize path) := by
  simp [applies, Text.occurs_iff, and_assoc, or_assoc]

theorem applies_contents_iff (literal : Glob.IsLiteral name.toList) (written : name ≠ "")
    (named : ∀ name ∈ names, Path.IsName name) (root : String) :
    (contents name).applies root (Path.below root names) ↔
      name.toList ++ ['/'] <:+: normalize (Path.below root names) := by
  have inhabited : name.toList ≠ [] := fun empty => written (String.toList_eq_nil_iff.mp empty)
  have below := suffix_normalize_below named root
  rw [applies_iff, plainText_contents literal, Path.relativeTo?_below named, Option.getD_some,
    contents, Glob.matches?_contents_iff, Glob.matches?_contents_iff]
  constructor
  · rintro (starts | ⟨_, starts⟩ | ⟨_, _, inside⟩)
    · exact starts.isInfix
    · exact starts.isInfix.trans below.isInfix
    · exact inside
  · intro inside
    exact .inr (.inr ⟨by simp, by simpa using inhabited, inside⟩)

theorem applies_contentsAnywhere_iff (literal : Glob.IsLiteral name.toList) (directory : Path.IsName name)
    (named : ∀ name ∈ names, Path.IsName name) {root : String} (absolute : Path.isAbsolute root) :
    (contentsAnywhere name).applies root (Path.below root names) ↔
      '/' :: (name.toList ++ ['/']) <:+:
        normalize (Path.below root names) := by
  have rooted : root ≠ "" := by
    rintro rfl
    exact absurd absolute (by decide)
  obtain ⟨front, joined, _⟩ := Path.exists_below_eq named rooted
  have below : '/' :: normalize (String.intercalate "/" names) <:+
      normalize (Path.below root names) := by
    rw [joined, normalize_append, normalize_append, List.append_assoc]
    exact List.suffix_append ..
  rw [applies_iff, plainText_contentsAnywhere literal, Path.relativeTo?_below named, Option.getD_some,
    contentsAnywhere, Glob.matches?_contentsAnywhere_iff, Glob.matches?_contentsAnywhere_iff]
  constructor
  · rintro ((starts | inside) | ⟨_, starts | inside⟩ | ⟨_, _, inside⟩)
    -- An absolute path starts with a slash, and so with no name.
    · obtain ⟨rest, normal⟩ := exists_normalize_eq (Path.isAbsolute_below absolute names)
      obtain ⟨head, tail, text⟩ := List.exists_cons_of_ne_nil directory.toList_ne_nil
      rw [normal, text, List.cons_append, List.cons_prefix_cons] at starts
      exact absurd (text ▸ starts.1 ▸ List.mem_cons_self) directory.2.2.2
    · exact inside
    · exact ((List.prefix_cons_inj '/').mpr starts).isInfix.trans below.isInfix
    · exact inside.trans ((List.suffix_cons ..).trans below).isInfix
    · exact inside
  · intro inside
    exact .inl (.inr inside)

theorem parseAll_contentsAnywhere {names : List String}
    (literal : ∀ name ∈ names, Glob.IsLiteral name.toList) :
    parseAll (names.map fun name => "**/" ++ name ++ "/**") = .ok (names.map contentsAnywhere) := by
  induction names with
  | nil => rfl
  | cons first rest induction =>
      rw [List.forall_mem_cons] at literal
      rw [List.map_cons, parseAll, parse_contentsAnywhere literal.1, induction literal.2]
      rfl

end Exclusion

namespace Analyzer

open Exclusion

theorem exists_ofOptions (options : AnalyzerOptions) {exclusions : List Exclusion}
    (read : parseAll (options.excludes ++ options.settings.analyzer.exclude) = .ok exclusions)
    (current : String) :
    ∃ analyzer, ofOptions options current = .ok analyzer ∧
      analyzer.root = Path.join current (options.root.getD options.settings.analyzer.root) ∧
      analyzer.exclusions = exclusions := by
  rw [ofOptions, read]
  exact ⟨_, rfl, rfl, rfl⟩

variable {analyzer : Analyzer} {names : List String}

/-! ## The standard patterns -/

def outputDirectories : List String :=
  ["Library", "Temp", "obj"]

theorem standard_exclude_eq : ({} : AnalyzerSettings).exclude =
    outputDirectories.map fun name => "**/" ++ name ++ "/**" := by
  decide

theorem isLiteral_of_mem_outputDirectories :
    ∀ directory ∈ outputDirectories, Glob.IsLiteral directory.toList := by
  decide

theorem isName_of_mem_outputDirectories :
    ∀ directory ∈ outputDirectories, Path.IsName directory := by
  decide

theorem exists_standard {root : String} (absolute : Path.isAbsolute root) (frontends : List Frontend)
    (rules : List Rule) (current : String) :
    ∃ analyzer, ofOptions { root := some root, frontends, rules } current = .ok analyzer ∧
      analyzer.root = root ∧ analyzer.exclusions = outputDirectories.map contentsAnywhere := by
  obtain ⟨analyzer, built, root_eq, patterns⟩ :=
    exists_ofOptions { root := some root, frontends, rules }
      (standard_exclude_eq ▸ parseAll_contentsAnywhere isLiteral_of_mem_outputDirectories) current
  refine ⟨analyzer, built, ?_, patterns⟩
  rw [root_eq, Option.getD_some, Path.join, if_pos absolute]

/-- A directory counts wherever it stands along the path: above the root, as the root, or below it. -/
theorem excludes_contentsAnywhere_iff {directoryNames : List String}
    (patterns : analyzer.exclusions = directoryNames.map contentsAnywhere)
    (literal : ∀ directory ∈ directoryNames, Glob.IsLiteral directory.toList)
    (directoriesNamed : ∀ directory ∈ directoryNames, Path.IsName directory)
    (absolute : Path.isAbsolute analyzer.root) (named : ∀ name ∈ names, Path.IsName name) :
    analyzer.excludes (Path.below analyzer.root names) ↔
      ∃ directory ∈ directoryNames, directory.toList ∈ segments analyzer.root ∨
        directory.toList ∈ directories (String.intercalate "/" names) := by
  have absolutePath := Path.isAbsolute_below absolute names
  rw [excludes, patterns, List.any_map, List.any_eq_true]
  apply exists_congr
  intro directory
  apply and_congr_right
  intro member
  have directoryNamed := directoriesNamed directory member
  rw [Function.comp_apply,
    applies_contentsAnywhere_iff (literal directory member) directoryNamed named absolute,
    enclosed_infix_iff_mem_directories absolutePath directoryNamed.toList_ne_nil directoryNamed.2.2.2,
    mem_directories_below_iff named _ directoryNamed.toList_ne_nil]

/-- With the standard settings, a file below an absolute root is left out if an output directory is among
the names along the root, the root itself included, or among the directories between the root and the file.
Backslashes divide names as slashes do; without them the directories between are the names as given. -/
theorem excludes_standard_iff {root : String} (absolute : Path.isAbsolute root)
    (frontends : List Frontend) (rules : List Rule) (current : String) :
    ∃ analyzer, ofOptions { root := some root, frontends, rules } current = .ok analyzer ∧
      ∀ names : List String, (∀ name ∈ names, Path.IsName name) →
        (analyzer.excludes (Path.below root names) ↔
          ∃ directory ∈ outputDirectories, directory.toList ∈ segments root ∨
            directory.toList ∈ directories (String.intercalate "/" names)) ∧
        ('\\' ∉ (String.intercalate "/" names).toList →
          (analyzer.excludes (Path.below root names) ↔
            ∃ directory ∈ outputDirectories, directory.toList ∈ segments root ∨
              directory ∈ names.dropLast)) := by
  obtain ⟨analyzer, built, rfl, patterns⟩ := exists_standard absolute frontends rules current
  refine ⟨analyzer, built, ?_⟩
  intro names named
  have general := excludes_contentsAnywhere_iff patterns isLiteral_of_mem_outputDirectories
    isName_of_mem_outputDirectories absolute named
  refine ⟨general, ?_⟩
  intro slashed
  rw [general, directories_names named slashed]
  simp only [List.mem_map, String.toList_inj, exists_eq_right]

theorem excludes_standard_iff_game :
    Path.isAbsolute "/Game" ∧
      ∃ analyzer, ofOptions { root := some "/Game", frontends := [], rules := [] } "/" = .ok analyzer ∧
        analyzer.excludes (Path.below "/Game" ["Assets", "Temp", "A.cs"]) ∧
        ¬analyzer.excludes (Path.below "/Game" ["Assets", "Templates", "obj"]) := by
  have absolute : Path.isAbsolute "/Game" := by decide
  obtain ⟨analyzer, built, decides⟩ := excludes_standard_iff absolute [] [] "/"
  refine ⟨absolute, analyzer, built, ?_, ?_⟩
  · exact ((decides _ (by decide)).2 (by decide)).mpr (by decide)
  · exact fun excluded => absurd (((decides _ (by decide)).2 (by decide)).mp excluded) (by decide)

/-- An output directory above the root, and a backslash after such a name, leave out files that have no
output directory among the components below the root. -/
theorem excludes_standard_of_otherNames :
    Path.isAbsolute "/Temp/Game" ∧
      (∀ name ∈ ["Assets", "A.cs"], Path.IsName name) ∧
      (∀ name ∈ ["Assets", "Temp\\A.cs"], Path.IsName name) ∧
      (∀ directory ∈ outputDirectories, directory ∉ ["Assets"]) ∧
      (∃ analyzer, ofOptions { root := some "/Temp/Game", frontends := [], rules := [] } "/" =
          .ok analyzer ∧
        analyzer.excludes (Path.below "/Temp/Game" ["Assets", "A.cs"])) ∧
      ∃ analyzer, ofOptions { root := some "/Game", frontends := [], rules := [] } "/" = .ok analyzer ∧
        analyzer.excludes (Path.below "/Game" ["Assets", "Temp\\A.cs"]) := by
  have excluded {root : String} (absolute : Path.isAbsolute root) {names : List String}
      (named : ∀ name ∈ names, Path.IsName name)
      (met : ∃ directory ∈ outputDirectories, directory.toList ∈ segments root ∨
        directory.toList ∈ directories (String.intercalate "/" names)) :
      ∃ analyzer, ofOptions { root := some root, frontends := [], rules := [] } "/" = .ok analyzer ∧
        analyzer.excludes (Path.below root names) := by
    obtain ⟨analyzer, built, rfl, patterns⟩ := exists_standard absolute [] [] "/"
    exact ⟨analyzer, built, (excludes_contentsAnywhere_iff patterns isLiteral_of_mem_outputDirectories
      isName_of_mem_outputDirectories absolute named).mpr met⟩
  refine ⟨by decide, by decide, by decide, by decide, ?_, ?_⟩
  · exact excluded (by decide) (by decide) (by decide)
  · exact excluded (by decide) (by decide) (by decide)

/-! ## A pattern for one directory -/

theorem excludes_contents_iff {directory : String} (pattern : analyzer.exclusions = [contents directory])
    (literal : Glob.IsLiteral directory.toList) (directoryNamed : Path.IsName directory)
    (named : ∀ name ∈ names, Path.IsName name) :
    analyzer.excludes (Path.below analyzer.root names) ↔
      ∃ name ∈ directories (Path.below analyzer.root names), directory.toList <:+ name := by
  rw [excludes, pattern, List.any_cons, List.any_nil, Bool.or_false,
    applies_contents_iff literal directoryNamed.1 named, Text.closing_infix_iff directoryNamed.2.2.2]
  rfl

theorem mem_directories_iff_component {directory : String} (directoryNamed : Path.IsName directory)
    (named : ∀ name ∈ names, Path.IsName name) (inhabited : names ≠ []) (root : String)
    (slashed : '\\' ∉ (Path.below root names).toList) :
    directory.toList ∈ directories (Path.below root names) ↔
      .name directory ∈ (Path.components (Path.below root names)).dropLast := by
  have parts : '\\' ∉ root.toList ∧ '\\' ∉ (String.intercalate "/" names).toList := by
    rw [Path.below_eq named, String.toList_append, List.mem_append, not_or] at slashed
    refine ⟨fun member => slashed.1 ?_, slashed.2⟩
    split
    · exact member
    · rw [String.toList_append]
      exact List.mem_append_left _ member
  have named_iff : .name directory ∈ names.dropLast.map Path.Component.name ↔
      directory.toList ∈ names.dropLast.map String.toList := by
    simp only [List.mem_map, Path.Component.name.injEq, String.toList_inj, exists_eq_right]
  rw [mem_directories_below_iff named root directoryNamed.toList_ne_nil, segments_of_slashed parts.1,
    ← Path.name_mem_components_iff directoryNamed, directories_names named parts.2, ← named_iff,
    Path.components_below named, List.dropLast_append_of_ne_nil (by simpa using inhabited),
    List.mem_append, List.map_dropLast]

theorem exists_single_contents {options : AnalyzerOptions} {directory : String}
    (literal : Glob.IsLiteral directory.toList)
    (single : options.excludes ++ options.settings.analyzer.exclude = [directory ++ "/**"])
    (current : String) :
    ∃ analyzer, ofOptions options current = .ok analyzer ∧
      analyzer.root = Path.join current (options.root.getD options.settings.analyzer.root) ∧
      analyzer.exclusions = [contents directory] := by
  apply exists_ofOptions
  rw [single, parseAll, parse_contents literal]
  rfl

/-- A single pattern `name/**` leaves out a file below the root if a directory along its path ends in the
name. If no directory does but those that have the name itself, a file is left out exactly if the name is a
component of its path before the last. -/
theorem excludes_iff_of_single_contents {options : AnalyzerOptions} {directory : String}
    (directoryNamed : Path.IsName directory) (literal : Glob.IsLiteral directory.toList)
    (single : options.excludes ++ options.settings.analyzer.exclude = [directory ++ "/**"])
    (current : String) :
    ∃ analyzer, ofOptions options current = .ok analyzer ∧
      analyzer.root = Path.join current (options.root.getD options.settings.analyzer.root) ∧
      ∀ names : List String, names ≠ [] → (∀ name ∈ names, Path.IsName name) →
        (analyzer.excludes (Path.below analyzer.root names) ↔
          ∃ name ∈ directories (Path.below analyzer.root names), directory.toList <:+ name) ∧
        ('\\' ∉ (Path.below analyzer.root names).toList →
          (∀ name ∈ directories (Path.below analyzer.root names),
            directory.toList <:+ name → name = directory.toList) →
          (analyzer.excludes (Path.below analyzer.root names) ↔
            .name directory ∈ (Path.components (Path.below analyzer.root names)).dropLast)) := by
  obtain ⟨analyzer, built, root_eq, pattern⟩ := exists_single_contents literal single current
  refine ⟨analyzer, built, root_eq, ?_⟩
  intro names inhabited named
  have general := excludes_contents_iff pattern literal directoryNamed named
  refine ⟨general, ?_⟩
  intro slashed whole
  rw [general, ← mem_directories_iff_component directoryNamed named inhabited _ slashed]
  constructor
  · rintro ⟨name, member, ends⟩
    exact whole name member ends ▸ member
  · intro member
    exact ⟨_, member, List.suffix_rfl⟩

def tempOptions : AnalyzerOptions where
  settings := { analyzer := { exclude := ["Temp/**"] } }
  frontends := []
  rules := []

theorem excludes_iff_of_single_contents_temp :
    Path.IsName "Temp" ∧ Glob.IsLiteral "Temp".toList ∧
      tempOptions.excludes ++ tempOptions.settings.analyzer.exclude = ["Temp" ++ "/**"] ∧
      ∃ analyzer, ofOptions tempOptions "/Game" = .ok analyzer ∧
        analyzer.excludes (Path.below "/Game/." ["Assets", "Temp", "A.cs"]) ∧
        ¬analyzer.excludes (Path.below "/Game/." ["Assets", "Templates", "Temp"]) := by
  have directoryNamed : Path.IsName "Temp" := by decide
  have literal : Glob.IsLiteral "Temp".toList := by decide
  have single : tempOptions.excludes ++ tempOptions.settings.analyzer.exclude = ["Temp" ++ "/**"] := by
    decide
  obtain ⟨analyzer, built, root_eq, decides⟩ :=
    excludes_iff_of_single_contents directoryNamed literal single "/Game"
  have root : analyzer.root = "/Game/." := root_eq.trans (by decide)
  rw [root] at decides
  refine ⟨directoryNamed, literal, single, analyzer, built, ?_, ?_⟩
  · refine ((decides _ (by decide) (by decide)).2 (by decide) (by decide)).mpr (by decide)
  · intro excluded
    exact absurd ((decides _ (by decide) (by decide)).1.mp excluded) (by decide)

theorem excludes_longerName :
    Path.IsName "Temp" ∧ Glob.IsLiteral "Temp".toList ∧
      tempOptions.excludes ++ tempOptions.settings.analyzer.exclude = ["Temp" ++ "/**"] ∧
      (∀ name ∈ ["Assets", "MyTemp", "A.cs"], Path.IsName name) ∧
      .name "Temp" ∉ Path.components (Path.below "/Game/." ["Assets", "MyTemp", "A.cs"]) ∧
      ∃ analyzer, ofOptions tempOptions "/Game" = .ok analyzer ∧
        analyzer.excludes (Path.below "/Game/." ["Assets", "MyTemp", "A.cs"]) := by
  have directoryNamed : Path.IsName "Temp" := by decide
  have literal : Glob.IsLiteral "Temp".toList := by decide
  have named : ∀ name ∈ ["Assets", "MyTemp", "A.cs"], Path.IsName name := by decide
  have single : tempOptions.excludes ++ tempOptions.settings.analyzer.exclude = ["Temp" ++ "/**"] := by
    decide
  obtain ⟨analyzer, built, root_eq, pattern⟩ := exists_single_contents literal single "/Game"
  have root : analyzer.root = "/Game/." := root_eq.trans (by decide)
  have decides := excludes_contents_iff pattern literal directoryNamed named
  rw [root] at decides
  exact ⟨directoryNamed, literal, single, named, by decide, analyzer, built, decides.mpr (by decide)⟩

end Analyzer

end UnityLint
