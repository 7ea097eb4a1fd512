import Mathlib.Data.List.Forall2
import UnityLint.Proofs.ScopePolicy

/-! # The style of separators

Slashes and backslashes stand for the same separator in paths and markers. Inside a first-party prefix
they do not: a prefix that has a backslash between other characters is never found. -/

namespace UnityLint.ScopeFilter

/-! ## Texts in two styles -/

def RestyledChar (old new : Char) : Prop :=
  old = new ∨ (old = '/' ∨ old = '\\') ∧ (new = '/' ∨ new = '\\')

def Restyled (old new : String) : Prop :=
  List.Forall₂ RestyledChar old.toList new.toList

theorem restyledChar_iff {old new : Char} :
    RestyledChar old new ↔
      (if old = '\\' then '/' else old) = (if new = '\\' then '/' else new) := by
  rw [RestyledChar]
  grind

theorem restyled_iff {old new : String} :
    Restyled old new ↔
      Text.replaceChar '\\' '/' old.toList = Text.replaceChar '\\' '/' new.toList := by
  rw [Restyled, Text.replaceChar, Text.replaceChar, ← List.forall₂_eq_eq_eq,
    List.forall₂_map_left_iff, List.forall₂_map_right_iff]
  simp only [← restyledChar_iff]

instance (old new : String) : Decidable (Restyled old new) :=
  decidable_of_iff _ restyled_iff.symm

theorem replaceChar_trimmed (name : String) :
    Text.replaceChar '\\' '/' (trimmed name) =
      Text.trimWhile isSlash (Text.replaceChar '\\' '/' name.toList) := by
  have kept : (isSlash ∘ fun char => if char = '\\' then '/' else char) = isSlash := by
    funext char
    by_cases same : char = '\\'
    · simp [same, isSlash]
    · simp [same]
  simp only [trimmed, Text.trimWhile, Text.dropEndWhile, Text.replaceChar, List.dropWhile_map,
    ← List.map_reverse, kept]

variable {old new : String}

theorem Restyled.replaceChar_trimmed (restyled : Restyled old new) :
    Text.replaceChar '\\' '/' (trimmed old) = Text.replaceChar '\\' '/' (trimmed new) := by
  rw [ScopeFilter.replaceChar_trimmed, ScopeFilter.replaceChar_trimmed, restyled_iff.mp restyled]

theorem Restyled.trimmed_eq_nil_iff (restyled : Restyled old new) :
    trimmed old = [] ↔ trimmed new = [] := by
  have lengths := congrArg List.length restyled.replaceChar_trimmed
  rw [Text.replaceChar, Text.replaceChar, List.length_map, List.length_map] at lengths
  rw [← List.length_eq_zero_iff, lengths, List.length_eq_zero_iff]

/-! ## Markers and paths -/

theorem Restyled.marker_eq (restyled : Restyled old new) : marker old = marker new := by
  simp only [ScopeFilter.marker_eq, restyled.replaceChar_trimmed, restyled.trimmed_eq_nil_iff]

theorem Restyled.normalize_eq (restyled : Restyled old new) :
    normalize old.toList = normalize new.toList := by
  rw [normalize, normalize, restyled_iff.mp restyled]

theorem trim_replaceChar_eq_nil_iff {text : List Char} :
    Text.trim (Text.replaceChar '\\' '/' text) = [] ↔ Text.trim text = [] := by
  rw [Text.trim_eq_nil_iff, Text.trim_eq_nil_iff, Text.replaceChar, List.forall_mem_map]
  refine forall₂_congr fun char _ => ?_
  by_cases same : char = '\\'
  · subst same
    decide
  · rw [if_neg same]

theorem Restyled.trim_eq_nil_iff (restyled : Restyled old new) :
    Text.trim old.toList = [] ↔ Text.trim new.toList = [] := by
  rw [← trim_replaceChar_eq_nil_iff, restyled_iff.mp restyled, trim_replaceChar_eq_nil_iff]

/-! ## First-party prefixes -/

/-- Both or none of the names have a backslash between other characters. -/
def SameInside (old new : String) : Prop :=
  '\\' ∈ trimmed old ↔ '\\' ∈ trimmed new

instance (old new : String) : Decidable (SameInside old new) :=
  inferInstanceAs (Decidable (_ ↔ _))

theorem backslash_not_mem_normalize (path : List Char) : '\\' ∉ normalize path := by
  have replaced : '\\' ∉ Text.replaceChar '\\' '/' path := by
    rw [Text.replaceChar, List.mem_map]
    rintro ⟨char, _, equal⟩
    split at equal
    · cases equal
    · contradiction
  rw [normalize_eq]
  split
  · exact replaced
  · rw [List.mem_cons, not_or]
    exact ⟨by decide, replaced⟩

theorem any_opening?_eq_false {name : String} (inside : '\\' ∈ trimmed name) (path : List Char) :
    (opening? name).any (Text.occurs · (normalize path)) = false := by
  rw [opening?_eq, if_neg (List.ne_nil_of_mem inside), Option.any_some, ← Bool.not_eq_true,
    Text.occurs_iff]
  intro found
  exact backslash_not_mem_normalize path (found.subset (List.mem_cons_of_mem _ inside))

theorem Restyled.any_opening?_eq (restyled : Restyled old new) (same : SameInside old new)
    (path : List Char) :
    (opening? old).any (Text.occurs · (normalize path)) =
      (opening? new).any (Text.occurs · (normalize path)) := by
  by_cases inside : '\\' ∈ trimmed old
  · rw [any_opening?_eq_false inside, any_opening?_eq_false (same.mp inside)]
  · have equal : trimmed old = trimmed new :=
      calc trimmed old
          _ = Text.replaceChar '\\' '/' (trimmed old) :=
            (Text.replaceChar_of_not_mem inside).symm
          _ = Text.replaceChar '\\' '/' (trimmed new) := restyled.replaceChar_trimmed
          _ = trimmed new := Text.replaceChar_of_not_mem (mt same.mpr inside)
    rw [opening?_eq, opening?_eq, equal]

theorem any_filterMap_opening? (names : List String) (path : List Char) :
    (names.filterMap opening?).any (Text.occurs · path) =
      names.any fun name => (opening? name).any (Text.occurs · path) :=
  List.any_filterMap

theorem any_firstParty_eq {olds news : List String} (restyled : List.Forall₂ Restyled olds news)
    (same : List.Forall₂ SameInside olds news) (path : List Char) :
    (olds.filterMap opening?).any (Text.occurs · (normalize path)) =
      (news.filterMap opening?).any (Text.occurs · (normalize path)) := by
  rw [any_filterMap_opening?, any_filterMap_opening?]
  induction restyled with
  | nil => rfl
  | cons first _ induction =>
      cases same with
      | cons sameFirst sameRest =>
          rw [List.any_cons, List.any_cons, first.any_opening?_eq sameFirst, induction sameRest]

/-! ## Decisions in two styles -/

structure RestyledSettings (old new : ScopeSettings) : Prop where
  projectRoot : Restyled old.projectRoot new.projectRoot
  vendorCache : Restyled old.vendorCache new.vendorCache
  packageRoot : Restyled old.packageRoot new.packageRoot
  selfPackage : Restyled old.selfPackage new.selfPackage
  firstParty : List.Forall₂ Restyled old.firstPartyPackages new.firstPartyPackages

theorem RestyledSettings.includes_eq {old new : ScopeSettings} (settings : RestyledSettings old new)
    (same : List.Forall₂ SameInside old.firstPartyPackages new.firstPartyPackages)
    {path other : String} (paths : Restyled path other) :
    (ofSettings old).includes path = (ofSettings new).includes other := by
  dsimp only [includes, ofSettings]
  by_cases blank : Text.trim path.toList = []
  · rw [if_pos blank, if_pos (paths.trim_eq_nil_iff.mp blank)]
  · rw [if_neg blank, if_neg (mt paths.trim_eq_nil_iff.mpr blank), paths.normalize_eq,
      settings.projectRoot.marker_eq, settings.vendorCache.marker_eq,
      settings.packageRoot.marker_eq, settings.selfPackage.marker_eq,
      any_firstParty_eq settings.firstParty same]

/-! ## Prefixes that have to keep their style -/

def packageSettings (root opening : String) : ScopeSettings where
  projectRoot := ""
  vendorCache := ""
  packageRoot := root
  selfPackage := ""
  firstPartyPackages := [opening]

def packagePath (root : String) : String :=
  .ofList ('/' :: (trimmed root ++ ['/']))

variable {root : String}

theorem normalize_packagePath (plain : '\\' ∉ trimmed root) :
    normalize (packagePath root).toList = '/' :: (trimmed root ++ ['/']) := by
  have kept : '\\' ∉ '/' :: (trimmed root ++ ['/']) := by simp [plain]
  rw [packagePath, String.toList_ofList, normalize_eq, Text.replaceChar_of_not_mem kept,
    if_pos List.head?_cons]

theorem includes_packagePath (plain : '\\' ∉ trimmed root) (named : trimmed root ≠ [])
    (opening : String) :
    (ofSettings (packageSettings root opening)).includes (packagePath root) =
      (opening? opening).any (Text.occurs · (normalize (packagePath root).toList)) := by
  have written : Text.trim (packagePath root).toList ≠ [] := by
    rw [Ne, Text.trim_eq_nil_iff, packagePath, String.toList_ofList]
    exact fun blank => absurd (blank '/' List.mem_cons_self) (by decide)
  have unmarked : marker "" = [] := by decide
  have packaged : marks (marker root) (normalize (packagePath root).toList) := by
    rw [marks, decide_eq_true_iff, Text.occurs_iff, marker_eq, if_neg named,
      Text.replaceChar_of_not_mem plain, normalize_packagePath plain]
    exact ⟨List.cons_ne_nil _ _, List.infix_rfl⟩
  dsimp only [includes, ofSettings, packageSettings]
  rw [if_neg written, unmarked, packaged, if_pos rfl, any_filterMap_opening?]
  simp [marks]

theorem includes_packagePath_ne (plain : '\\' ∉ trimmed root) (named : trimmed root ≠ [])
    {opening : String} (inside : '\\' ∈ trimmed opening) :
    (ofSettings (packageSettings root root)).includes (packagePath root) ≠
      (ofSettings (packageSettings root opening)).includes (packagePath root) := by
  have found : (opening? root).any (Text.occurs · (normalize (packagePath root).toList)) := by
    rw [opening?_eq, if_neg named, Option.any_some, Text.occurs_iff, normalize_packagePath plain]
    exact List.IsPrefix.isInfix (List.prefix_append ('/' :: trimmed root) ['/'])
  rw [includes_packagePath plain named, includes_packagePath plain named, found,
    any_opening?_eq_false inside]
  exact Bool.noConfusion

theorem Restyled.exists_includes_ne (restyled : Restyled old new) (differ : ¬SameInside old new) :
    ∃ (settings : ScopeSettings) (path : String),
      (ofSettings { settings with firstPartyPackages := [old] }).includes path ≠
        (ofSettings { settings with firstPartyPackages := [new] }).includes path := by
  by_cases inside : '\\' ∈ trimmed old
  · have plain : '\\' ∉ trimmed new := fun other => differ ⟨fun _ => other, fun _ => inside⟩
    have named : trimmed new ≠ [] :=
      mt restyled.trimmed_eq_nil_iff.mpr (List.ne_nil_of_mem inside)
    exact ⟨packageSettings new new, packagePath new, (includes_packagePath_ne plain named inside).symm⟩
  · have other : '\\' ∈ trimmed new := by
      by_contra plain
      exact differ ⟨fun member => absurd member inside, fun member => absurd member plain⟩
    have named : trimmed old ≠ [] := mt restyled.trimmed_eq_nil_iff.mp (List.ne_nil_of_mem other)
    exact ⟨packageSettings old old, packagePath old, includes_packagePath_ne inside named other⟩

/-- The style of separators, in the path and in the settings, changes no decision, as long as each
first-party prefix has a backslash between other characters in both styles or in none. Every prefix that
has one in a single style makes a difference to some decision. -/
theorem includes_eq_of_restyled {old new : ScopeSettings} (settings : RestyledSettings old new) :
    (List.Forall₂ SameInside old.firstPartyPackages new.firstPartyPackages →
      ∀ path other : String, Restyled path other →
        (ofSettings old).includes path = (ofSettings new).includes other) ∧
    ∀ before after : String, (before, after) ∈ old.firstPartyPackages.zip new.firstPartyPackages →
      ¬SameInside before after →
      ∃ (markers : ScopeSettings) (path : String),
        (ofSettings { markers with firstPartyPackages := [before] }).includes path ≠
          (ofSettings { markers with firstPartyPackages := [after] }).includes path := by
  constructor
  · intro same path other paths
    exact settings.includes_eq same paths
  · intro before after member differ
    have restyled : Restyled before after :=
      (List.forall₂_iff_zip.mp settings.firstParty).2 member
    exact restyled.exists_includes_ne differ

def slashSettings : ScopeSettings where
  projectRoot := "/Assets/"
  packageRoot := "Local/Packages"
  firstPartyPackages := ["/com.example.", "studio/core"]

def backslashSettings : ScopeSettings where
  projectRoot := "\\Assets/"
  packageRoot := "Local\\Packages"
  firstPartyPackages := ["\\com.example.", "studio/core"]

theorem includes_eq_of_restyled_slashSettings :
    RestyledSettings slashSettings backslashSettings ∧
      List.Forall₂ SameInside slashSettings.firstPartyPackages
        backslashSettings.firstPartyPackages ∧
      Restyled "Local/Packages/studio/core/A.cs" "Local/Packages\\studio\\core/A.cs" ∧
      (ofSettings slashSettings).includes "Local/Packages/studio/core/A.cs" =
        (ofSettings backslashSettings).includes "Local/Packages\\studio\\core/A.cs" := by
  have settings : RestyledSettings slashSettings backslashSettings :=
    ⟨by decide, by decide, by decide, by decide, .cons (by decide) (.cons (by decide) .nil)⟩
  have same : List.Forall₂ SameInside slashSettings.firstPartyPackages
      backslashSettings.firstPartyPackages :=
    .cons (by decide) (.cons (by decide) .nil)
  have paths : Restyled "Local/Packages/studio/core/A.cs"
      "Local/Packages\\studio\\core/A.cs" := by
    decide
  exact ⟨settings, same, paths, (includes_eq_of_restyled settings).1 same _ _ paths⟩

/-- The prefix with a slash inside is found, and the same one with a backslash is not. -/
theorem backslashPrefix_notFound :
    let slash : ScopeSettings := { firstPartyPackages := ["studio/core"] }
    let backslash : ScopeSettings := { firstPartyPackages := ["studio\\core"] }
    RestyledSettings slash backslash ∧
      (ofSettings slash).includes "/Game/Packages/studio/core/A.cs" ∧
      ¬(ofSettings backslash).includes "/Game/Packages/studio/core/A.cs" :=
  ⟨⟨by decide, by decide, by decide, by decide, .cons (by decide) .nil⟩, by decide, by decide⟩

end UnityLint.ScopeFilter
