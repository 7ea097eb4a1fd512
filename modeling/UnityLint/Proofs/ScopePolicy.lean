import Mathlib.Data.List.Infix
import Mathlib.Data.List.TakeWhile
import UnityLint.Proofs.Paths
import UnityLint.Proofs.TextParts
import UnityLint.Scope

/-! # The scope policy

The filter searches the text of a path. For markers and prefixes that are single names it finds exactly
the directories of a name and the segments that begin with a name, so that its decision can be read off
the segments of the path. -/

namespace UnityLint

/-! ## Names in a text with a divider before each of them -/

namespace Text

theorem trim_eq_nil_iff {text : List Char} : trim text = [] ↔ ∀ char ∈ text, isBlank char := by
  rw [trim, trimEnd, dropEndWhile, List.reverse_eq_nil_iff, List.dropWhile_eq_nil_iff]
  constructor
  · intro blank char member
    rw [← List.takeWhile_append_dropWhile (p := isBlank) (l := text), List.mem_append] at member
    rcases member with start | rest
    · exact List.mem_takeWhile_imp start
    · exact blank char (List.mem_reverse.mpr rest)
  · intro blank char member
    exact blank char ((isSuffix_trimStart text).subset (List.mem_reverse.mp member))

theorem replaceChar_of_not_mem {old new : Char} {text : List Char} (missing : old ∉ text) :
    replaceChar old new text = text := by
  rw [replaceChar]
  calc text.map (fun char => if char = old then new else char)
      _ = text.map id := List.map_congr_left fun char member =>
        if_neg fun (same : char = old) => missing (same ▸ member)
      _ = text := List.map_id text

theorem dropWhile_of_forall_not {drops : Char → Bool} {text : List Char}
    (kept : ∀ char ∈ text, drops char = false) : text.dropWhile drops = text := by
  cases text with
  | nil => rfl
  | cons head tail => rw [List.dropWhile_cons, kept head List.mem_cons_self, if_neg Bool.false_ne_true]

theorem trimWhile_append {drops : Char → Bool} {lead core trail : List Char}
    (leadDropped : ∀ char ∈ lead, drops char) (trailDropped : ∀ char ∈ trail, drops char)
    (kept : ∀ char ∈ core, drops char = false) :
    trimWhile drops (lead ++ core ++ trail) = core := by
  have dropped : ∀ char ∈ trail.reverse, drops char :=
    fun char member => trailDropped char (List.mem_reverse.mp member)
  have keptReverse : ∀ char ∈ core.reverse, drops char = false :=
    fun char member => kept char (List.mem_reverse.mp member)
  rw [trimWhile, dropEndWhile, List.append_assoc, List.dropWhile_append_of_pos leadDropped]
  cases core with
  | nil => rw [List.nil_append, List.dropWhile_eq_nil_iff.mpr trailDropped]; rfl
  | cons head tail =>
      have stays : drops head = false := kept head List.mem_cons_self
      rw [List.cons_append, List.dropWhile_cons, stays, if_neg Bool.false_ne_true,
        ← List.cons_append, List.reverse_append, List.dropWhile_append_of_pos dropped,
        dropWhile_of_forall_not keptReverse, List.reverse_reverse]

theorem exists_append_trimWhile (drops : Char → Bool) (text : List Char) :
    ∃ lead trail, text = lead ++ trimWhile drops text ++ trail ∧
      (∀ char ∈ lead, drops char) ∧ ∀ char ∈ trail, drops char := by
  have parts : text.dropWhile drops =
      trimWhile drops text ++ ((text.dropWhile drops).reverse.takeWhile drops).reverse := by
    rw [trimWhile, dropEndWhile, ← List.reverse_append, List.takeWhile_append_dropWhile,
      List.reverse_reverse]
  refine ⟨text.takeWhile drops, ((text.dropWhile drops).reverse.takeWhile drops).reverse, ?_, ?_, ?_⟩
  · rw [List.append_assoc, ← parts, List.takeWhile_append_dropWhile]
  · exact fun char member => List.mem_takeWhile_imp member
  · exact fun char member => List.mem_takeWhile_imp (List.mem_reverse.mp member)

theorem flatMap_pieces (divider : Char) (text : List Char) :
    (pieces (· = divider) text).flatMap (divider :: ·) = divider :: text := by
  induction text with
  | nil => rfl
  | cons head tail induction =>
      rw [pieces]
      split
      · rename_i divides
        rw [List.flatMap_cons, induction, of_decide_eq_true divides]
        rfl
      · cases cut : pieces (· = divider) tail with
        | nil =>
            rw [cut] at induction
            cases induction
        | cons first others =>
            rw [cut, List.flatMap_cons, List.cons_append, List.cons.injEq] at induction
            rw [List.flatMap_cons, List.cons_append, List.cons_append, induction.2]

variable {divider : Char} {needle part : List Char} {parts : List (List Char)}

theorem infix_append_iff_of_undivided {text : List Char} (undivided : divider ∉ part) :
    divider :: needle <:+: part ++ text ↔ divider :: needle <:+: text := by
  induction part with
  | nil => rfl
  | cons head tail induction =>
      rw [List.mem_cons, not_or] at undivided
      rw [List.cons_append, List.infix_cons_iff, List.cons_prefix_cons, induction undivided.2]
      simp [undivided.1]

theorem infix_flatMap_cons_iff (undivided : divider ∉ part) :
    divider :: needle <:+: (part :: parts).flatMap (divider :: ·) ↔
      needle <+: part ++ parts.flatMap (divider :: ·) ∨
        divider :: needle <:+: parts.flatMap (divider :: ·) := by
  rw [List.flatMap_cons, List.cons_append, List.infix_cons_iff, List.cons_prefix_cons,
    infix_append_iff_of_undivided undivided]
  simp

theorem prefix_append_flatMap_iff (undivided : divider ∉ needle) :
    needle <+: part ++ parts.flatMap (divider :: ·) ↔ needle <+: part := by
  constructor
  · intro starts
    cases parts with
    | nil => rwa [List.flatMap_nil, List.append_nil] at starts
    | cons next others => exact prefix_of_divided undivided starts
  · intro starts
    exact starts.trans (List.prefix_append part _)

theorem enclosed_prefix_append_flatMap_iff (undivided : divider ∉ needle)
    (partUndivided : divider ∉ part) :
    needle ++ [divider] <+: part ++ parts.flatMap (divider :: ·) ↔ needle = part ∧ parts ≠ [] := by
  constructor
  · intro starts
    have inside := (prefix_append_flatMap_iff undivided).mp ((List.prefix_append ..).trans starts)
    rcases inside with ⟨rest, rfl⟩
    rw [List.append_assoc, List.prefix_append_right_inj] at starts
    cases rest with
    | nil =>
        refine ⟨(List.append_nil needle).symm, ?_⟩
        rintro rfl
        simp at starts
    | cons head tail =>
        have same := (List.cons_prefix_cons.mp starts).1
        exact absurd (same ▸ List.mem_append_right needle List.mem_cons_self) partUndivided
  · rintro ⟨rfl, more⟩
    rcases List.exists_cons_of_ne_nil more with ⟨next, others, rfl⟩
    rw [List.flatMap_cons, List.cons_append, List.prefix_append_right_inj]
    simp

theorem opening_infix_flatMap_iff (undivided : divider ∉ needle)
    (partsUndivided : ∀ part ∈ parts, divider ∉ part) :
    divider :: needle <:+: parts.flatMap (divider :: ·) ↔ ∃ part ∈ parts, needle <+: part := by
  induction parts with
  | nil => simp
  | cons part parts induction =>
      rw [List.forall_mem_cons] at partsUndivided
      rw [infix_flatMap_cons_iff partsUndivided.1, prefix_append_flatMap_iff undivided,
        induction partsUndivided.2, List.exists_mem_cons_iff]

theorem enclosed_infix_flatMap_iff (undivided : divider ∉ needle)
    (partsUndivided : ∀ part ∈ parts, divider ∉ part) :
    divider :: (needle ++ [divider]) <:+: parts.flatMap (divider :: ·) ↔ needle ∈ parts.dropLast := by
  induction parts with
  | nil => simp
  | cons part parts induction =>
      rw [List.forall_mem_cons] at partsUndivided
      rw [infix_flatMap_cons_iff partsUndivided.1,
        enclosed_prefix_append_flatMap_iff undivided partsUndivided.1, induction partsUndivided.2]
      cases parts with
      | nil => simp
      | cons next others => simp

end Text

namespace ScopeFilter

/-! ## Segments of a path -/

/-- The pieces of a path between its separators. A path that does not begin with a separator is read as
if it did, so that the first piece is always empty. -/
def segments (path : String) : List (List Char) :=
  let slashed := path.toList.map fun char => if char = '\\' then '/' else char
  Text.pieces (· = '/') (if slashed.head? = some '/' then slashed else '/' :: slashed)

def folders (path : String) : List (List Char) :=
  (segments path).dropLast

example : segments "Packages\\a//B.cs" = [[], "Packages".toList, ['a'], [], "B.cs".toList] := by decide

theorem normalize_eq (path : List Char) :
    normalize path =
      if (Text.replaceChar '\\' '/' path).head? = some '/' then Text.replaceChar '\\' '/' path
      else '/' :: Text.replaceChar '\\' '/' path := by
  rw [normalize]
  split
  · rename_i rest equal
    rw [equal, if_pos List.head?_cons]
  · rename_i relative
    rw [if_neg]
    intro starts
    rcases List.head?_eq_some_iff.mp starts with ⟨rest, equal⟩
    exact relative rest equal

theorem segments_eq (path : String) :
    segments path = Text.pieces (· = '/') (normalize path.toList) := by
  rw [segments, normalize_eq]
  rfl

theorem exists_normalize_eq (path : List Char) : ∃ text, normalize path = '/' :: text := by
  rw [normalize_eq]
  split
  · exact List.head?_eq_some_iff.mp ‹_›
  · exact ⟨_, rfl⟩

theorem exists_segments_eq (path : String) :
    ∃ names, segments path = [] :: names ∧ folders path = [] :: names.dropLast ∧
      (∀ name ∈ names, '/' ∉ name) ∧ normalize path.toList = names.flatMap ('/' :: ·) := by
  rcases exists_normalize_eq path.toList with ⟨text, normal⟩
  have joined := Text.flatMap_pieces '/' text
  have cut : segments path = [] :: Text.pieces (· = '/') text := by
    rw [segments_eq, normal, Text.pieces, if_pos (by decide)]
  refine ⟨Text.pieces (· = '/') text, cut, ?_, ?_, ?_⟩
  · rw [folders, cut, List.dropLast_cons_of_ne_nil]
    intro empty
    rw [empty] at joined
    cases joined
  · intro name member slash
    have undivided := Text.undivided_of_mem_pieces name member '/' slash
    simp at undivided
  · rw [joined, normal]

variable {path : String} {name : List Char}

theorem enclosed_infix_normalize_iff (inhabited : name ≠ []) (undivided : '/' ∉ name) :
    '/' :: (name ++ ['/']) <:+: normalize path.toList ↔ name ∈ folders path := by
  rcases exists_segments_eq path with ⟨names, _, folders, namesUndivided, normal⟩
  rw [normal, folders, Text.enclosed_infix_flatMap_iff undivided namesUndivided, List.mem_cons]
  simp [inhabited]

theorem opening_infix_normalize_iff (inhabited : name ≠ []) (undivided : '/' ∉ name) :
    '/' :: name <:+: normalize path.toList ↔ ∃ segment ∈ segments path, name <+: segment := by
  rcases exists_segments_eq path with ⟨names, segments, _, namesUndivided, normal⟩
  rw [normal, segments, Text.opening_infix_flatMap_iff undivided namesUndivided,
    List.exists_mem_cons_iff]
  simp [inhabited]

/-! ## Markers and prefixes -/

def trimmed (name : String) : List Char :=
  Text.trimWhile isSlash name.toList

def IsSingle (name : String) : Prop :=
  ∃ lead core trail, name.toList = lead ++ core ++ trail ∧
    (∀ char ∈ lead, char = '/' ∨ char = '\\') ∧ (∀ char ∈ trail, char = '/' ∨ char = '\\') ∧
    '/' ∉ core ∧ '\\' ∉ core

/-- The path leads through the directory that the marker names. A marker of separators only names none. -/
def LeadsThrough (path marker : String) : Prop :=
  trimmed marker ≠ [] ∧ trimmed marker ∈ folders path

def Opens (name : String) (segment : List Char) : Prop :=
  trimmed name ≠ [] ∧ trimmed name <+: segment

instance (path marker : String) : Decidable (LeadsThrough path marker) :=
  inferInstanceAs (Decidable (_ ∧ _))

instance (name : String) (segment : List Char) : Decidable (Opens name segment) :=
  inferInstanceAs (Decidable (_ ∧ _))

theorem isSingle_iff {name : String} :
    IsSingle name ↔ '/' ∉ trimmed name ∧ '\\' ∉ trimmed name := by
  constructor
  · rintro ⟨lead, core, trail, parts, leadSlashes, trailSlashes, noSlash, noBackslash⟩
    have core_eq : trimmed name = core := by
      rw [trimmed, parts]
      apply Text.trimWhile_append
      · exact fun char member => decide_eq_true (leadSlashes char member)
      · exact fun char member => decide_eq_true (trailSlashes char member)
      · rintro char member
        apply decide_eq_false
        rintro (rfl | rfl) <;> contradiction
    rw [core_eq]
    exact ⟨noSlash, noBackslash⟩
  · rintro ⟨noSlash, noBackslash⟩
    rcases Text.exists_append_trimWhile isSlash name.toList with ⟨lead, trail, parts, starts, ends⟩
    exact ⟨lead, trimmed name, trail, parts, fun char member => of_decide_eq_true (starts char member),
      fun char member => of_decide_eq_true (ends char member), noSlash, noBackslash⟩

instance (name : String) : Decidable (IsSingle name) :=
  decidable_of_iff _ isSingle_iff.symm

theorem marker_eq (name : String) :
    marker name = if trimmed name = [] then []
      else '/' :: (Text.replaceChar '\\' '/' (trimmed name) ++ ['/']) := by
  rw [marker, trimmed]
  split
  · rename_i empty
    rw [if_pos empty]
  · rename_i inhabited
    rw [if_neg inhabited, List.cons_append]

theorem opening?_eq (name : String) :
    opening? name = if trimmed name = [] then none else some ('/' :: trimmed name) := by
  rw [opening?, trimmed]
  split
  · rename_i empty
    rw [if_pos empty]
  · rename_i inhabited
    rw [if_neg inhabited]

theorem marks_marker_iff {name : String} (single : IsSingle name) :
    marks (marker name) (normalize path.toList) ↔ LeadsThrough path name := by
  rcases isSingle_iff.mp single with ⟨noSlash, noBackslash⟩
  rw [marks, decide_eq_true_iff, Text.occurs_iff, marker_eq, LeadsThrough]
  by_cases empty : trimmed name = []
  · simp [empty]
  · rw [if_neg empty, Text.replaceChar_of_not_mem noBackslash,
      enclosed_infix_normalize_iff empty noSlash]
    simp [empty]

theorem exists_opening_iff {names : List String} (single : ∀ name ∈ names, IsSingle name) :
    (∃ opening ∈ names.filterMap opening?, opening <:+: normalize path.toList) ↔
      ∃ segment ∈ segments path, ∃ name ∈ names, Opens name segment := by
  constructor
  · rintro ⟨opening, prepared, inside⟩
    rcases List.mem_filterMap.mp prepared with ⟨name, member, found⟩
    rw [opening?_eq, Option.ite_none_left_eq_some] at found
    rcases found with ⟨inhabited, found⟩
    cases found
    rcases (opening_infix_normalize_iff inhabited (isSingle_iff.mp (single name member)).1).mp inside with
      ⟨segment, listed, starts⟩
    exact ⟨segment, listed, name, member, inhabited, starts⟩
  · rintro ⟨segment, listed, name, member, inhabited, starts⟩
    refine ⟨'/' :: trimmed name, List.mem_filterMap.mpr ⟨name, member, ?_⟩, ?_⟩
    · rw [opening?_eq, if_neg inhabited]
    · exact (opening_infix_normalize_iff inhabited (isSingle_iff.mp (single name member)).1).mpr
        ⟨segment, listed, starts⟩

/-! ## Decisions -/

def IsBlank (path : String) : Prop :=
  ∀ char ∈ path.toList, Text.isBlank char

instance (path : String) : Decidable (IsBlank path) :=
  List.decidableBAll _ _

theorem trim_toList_eq_nil_iff : Text.trim path.toList = [] ↔ IsBlank path :=
  Text.trim_eq_nil_iff

structure SingleNames (settings : ScopeSettings) : Prop where
  projectRoot : IsSingle settings.projectRoot
  vendorCache : IsSingle settings.vendorCache
  packageRoot : IsSingle settings.packageRoot
  selfPackage : IsSingle settings.selfPackage
  firstParty : ∀ name ∈ settings.firstPartyPackages, IsSingle name

variable {settings : ScopeSettings}

theorem SingleNames.includes_eq (single : SingleNames settings) (path : String) :
    (ofSettings settings).includes path =
      if IsBlank path then false
      else if LeadsThrough path settings.projectRoot then true
      else if LeadsThrough path settings.vendorCache then false
      else if LeadsThrough path settings.packageRoot then
        decide (¬LeadsThrough path settings.selfPackage ∧
          ∃ segment ∈ segments path, ∃ name ∈ settings.firstPartyPackages, Opens name segment)
      else false := by
  have inPackage : (!marks (marker settings.selfPackage) (normalize path.toList) &&
      (settings.firstPartyPackages.filterMap opening?).any (Text.occurs · (normalize path.toList))) =
        decide (¬LeadsThrough path settings.selfPackage ∧
          ∃ segment ∈ segments path, ∃ name ∈ settings.firstPartyPackages, Opens name segment) := by
    rw [Bool.eq_iff_iff, Bool.and_eq_true, Bool.not_eq_true', ← Bool.not_eq_true,
      marks_marker_iff single.selfPackage, List.any_eq_true, decide_eq_true_iff,
      ← exists_opening_iff single.firstParty]
    simp only [Text.occurs_iff]
  simp only [includes, ofSettings, trim_toList_eq_nil_iff, marks_marker_iff single.projectRoot,
    marks_marker_iff single.vendorCache, marks_marker_iff single.packageRoot, inPackage]

/-- The policy on the segments of a path. A path below the project root belongs to the project. Any other
one does if it is outside the vendor cache and below the package root, is not in the analyser's own
package, and has a segment that begins as the first-party packages do. -/
def Admits (settings : ScopeSettings) (path : String) : Prop :=
  ¬IsBlank path ∧
    (LeadsThrough path settings.projectRoot ∨
      ¬LeadsThrough path settings.projectRoot ∧ ¬LeadsThrough path settings.vendorCache ∧
      LeadsThrough path settings.packageRoot ∧ ¬LeadsThrough path settings.selfPackage ∧
      ∃ segment ∈ segments path, ∃ name ∈ settings.firstPartyPackages, Opens name segment)

instance (settings : ScopeSettings) (path : String) : Decidable (Admits settings path) :=
  inferInstanceAs (Decidable (_ ∧ _))

/-- With single names for markers and prefixes, the search in the text of a path implements the policy on
its segments. -/
theorem includes_iff_admits (single : SingleNames settings) (path : String) :
    (ofSettings settings).includes path ↔ Admits settings path := by
  rw [single.includes_eq, Admits]
  by_cases blank : IsBlank path
  · simp [blank]
  rw [if_neg blank, and_iff_right blank]
  by_cases inRoot : LeadsThrough path settings.projectRoot
  · simp [inRoot]
  by_cases cached : LeadsThrough path settings.vendorCache
  · simp [inRoot, cached]
  by_cases packaged : LeadsThrough path settings.packageRoot
  · simp [inRoot, cached, packaged]
  · simp [inRoot, packaged]

def paddedSettings : ScopeSettings where
  projectRoot := "/"
  vendorCache := "\\PackageCache"
  packageRoot := "Packages//"
  firstPartyPackages := ["//", "/com.example."]

theorem includes_iff_admits_paddedSettings :
    SingleNames paddedSettings ∧
      (ofSettings paddedSettings).includes "Packages\\\\com.example.core/A.cs" ∧
      ¬(ofSettings paddedSettings).includes "Packages/com.example.core/PackageCache/A.cs" := by
  have single : SingleNames paddedSettings :=
    ⟨by decide, by decide, by decide, by decide, by decide⟩
  refine ⟨single, (includes_iff_admits single _).mpr (by decide), ?_⟩
  exact fun included => absurd ((includes_iff_admits single _).mp included) (by decide)

/-! ## Third-party packages -/

theorem segments_of_blank (blank : IsBlank path) :
    segments path = [[], path.toList] := by
  have written {char : Char} (separator : Text.isBlank char = false) : char ∉ path.toList := by
    intro member
    rw [blank char member] at separator
    cases separator
  have noSlash : '/' ∉ path.toList := written (by decide)
  have normal : normalize path.toList = '/' :: path.toList := by
    rw [normalize_eq, Text.replaceChar_of_not_mem (written (by decide)), if_neg]
    exact fun starts => noSlash (List.mem_of_head? starts)
  rw [segments_eq, normal, Text.pieces, if_pos (by decide), Text.pieces_of_undivided]
  intro char member
  exact decide_eq_false fun same => noSlash (same ▸ member)

/-- A file in a package that is not first-party stays out of the project, unless some other segment of
its path begins with a first-party prefix: one above the package root, the package root itself, one below
the package, or the name of the file. -/
theorem includes_eq_false_iff_of_thirdParty (single : SingleNames settings) {path : String}
    {above below : List (List Char)} {package file : List Char}
    (cut : segments path =
      above ++ trimmed settings.packageRoot :: package :: (below ++ [file]))
    (named : trimmed settings.packageRoot ≠ [])
    (outside : ¬LeadsThrough path settings.projectRoot)
    (thirdParty : ∀ name ∈ settings.firstPartyPackages, ¬Opens name package) :
    (ofSettings settings).includes path = false ↔
      LeadsThrough path settings.vendorCache ∨ LeadsThrough path settings.selfPackage ∨
      ∀ segment ∈ above ++ trimmed settings.packageRoot :: (below ++ [file]),
        ∀ name ∈ settings.firstPartyPackages, ¬Opens name segment := by
  have written : ¬IsBlank path := by
    intro blank
    rw [segments_of_blank blank] at cut
    have lengths := congrArg List.length cut
    simp at lengths
    omega
  have packaged : LeadsThrough path settings.packageRoot := by
    refine ⟨named, ?_⟩
    rw [folders, cut]
    simp
  have members (segment : List Char) : segment ∈ segments path ↔
      segment = package ∨
        segment ∈ above ++ trimmed settings.packageRoot :: (below ++ [file]) := by
    rw [cut, List.mem_append, List.mem_cons, List.mem_cons, or_left_comm (b := segment = package),
      or_left_comm (b := segment = package), ← List.mem_cons, ← List.mem_append]
  have foreign : ¬∃ name ∈ settings.firstPartyPackages, Opens name package := by
    simpa using thirdParty
  rw [single.includes_eq, if_neg written, if_neg outside, if_pos packaged]
  by_cases cached : LeadsThrough path settings.vendorCache
  · simp [cached]
  · rw [if_neg cached, or_iff_right cached, decide_eq_false_iff_not, not_and_or, not_not]
    simp only [members, or_and_right, exists_or, exists_eq_left, foreign, false_or, not_exists,
      not_and]

def studioSettings : ScopeSettings where
  firstPartyPackages := ["com.example."]

theorem includes_eq_false_iff_of_thirdParty_studioSettings :
    let path := "/Game/Packages/com.unity.tool/Runtime/A.cs"
    SingleNames studioSettings ∧
      segments path = [[], "Game".toList] ++ "Packages".toList :: "com.unity.tool".toList ::
        (["Runtime".toList] ++ ["A.cs".toList]) ∧
      ¬LeadsThrough path studioSettings.projectRoot ∧
      (∀ name ∈ studioSettings.firstPartyPackages, ¬Opens name "com.unity.tool".toList) ∧
      (ofSettings studioSettings).includes path = false := by
  have single : SingleNames studioSettings :=
    ⟨by decide, by decide, by decide, by decide, by decide⟩
  have cut : segments "/Game/Packages/com.unity.tool/Runtime/A.cs" =
      [[], "Game".toList] ++ "Packages".toList :: "com.unity.tool".toList ::
        (["Runtime".toList] ++ ["A.cs".toList]) := by
    decide
  refine ⟨single, cut, by decide, by decide, ?_⟩
  refine (includes_eq_false_iff_of_thirdParty single cut (by decide) (by decide) (by decide)).mpr ?_
  exact .inr (.inr (by decide))

/-- A directory above the package root, one below the package or the name of the file brings a file of a
third-party package into the project. -/
theorem thirdPartyFiles_included :
    SingleNames studioSettings ∧
      (∀ name ∈ studioSettings.firstPartyPackages, ¬Opens name "com.unity.tool".toList) ∧
      ∀ path ∈ ["/com.example.game/Packages/com.unity.tool/A.cs",
          "/Game/Packages/com.unity.tool/com.example.addon/A.cs",
          "/Game/Packages/com.unity.tool/com.example.cs"],
        ¬LeadsThrough path studioSettings.projectRoot ∧
        (folders path).count "Packages".toList = 1 ∧
        ["Packages".toList, "com.unity.tool".toList] <:+: folders path ∧
        (ofSettings studioSettings).includes path :=
  ⟨⟨by decide, by decide, by decide, by decide, by decide⟩, by decide, by decide⟩

end ScopeFilter

end UnityLint
