import UnityLint.Proofs.Places
import UnityLint.Settings.Source

/-! # The nearest settings

The directory to check and those above it are searched for a settings file from the inside out, and the
root of the project is the last one that counts. -/

namespace UnityLint

/-! ## Parents and ancestors of a path -/

namespace Path

theorem exists_component?_of_dropBlankEnd {pieces : List (List Char)}
    (inhabited : dropBlankEnd pieces ≠ []) :
    ∃ component, component? ((dropBlankEnd pieces).getLast inhabited) = some component := by
  have reversed : pieces.reverse.dropWhile (fun piece => (component? piece).isNone) ≠ [] := by
    intro empty
    exact inhabited (by rw [dropBlankEnd, empty]; rfl)
  have kept := List.head_dropWhile_not (fun piece => (component? piece).isNone) reversed
  simp only [dropBlankEnd, List.getLast_reverse]
  exact Option.isSome_iff_exists.mp (by simpa using kept)

theorem components_of_parent? {path above : String} (parent : parent? path = some above) :
    components path ≠ [] ∧ components above = (components path).dropLast := by
  obtain ⟨first, rest, cut⟩ := List.exists_cons_of_ne_nil
    (Text.pieces_ne_nil isSeparator path.toList)
  have undivided : ∀ piece ∈ first :: rest, ∀ char ∈ piece, isSeparator char = false :=
    cut ▸ Text.undivided_of_mem_pieces
  rw [parent?, cut] at parent
  rw [components_eq cut, ← filterMap_dropBlankEnd rest]
  dsimp only at parent
  have single : Text.pieces isSeparator (String.ofList first).toList = [first] := by
    rw [String.toList_ofList]
    exact Text.pieces_of_undivided (undivided first List.mem_cons_self)
  split at parent
  · -- Only the first piece can be a component.
    rename_i blank
    split at parent
    · cases parent
    · rename_i inhabited
      cases parent
      rw [if_neg inhabited, blank, List.filterMap_nil, List.append_nil]
      split
      · exact ⟨List.cons_ne_nil _ _, rfl⟩
      · rename_i undotted
        have known : ¬(first = [] ∨ first = ['.']) := not_or.mpr ⟨inhabited, undotted⟩
        rw [component?, if_neg known]
        split <;> exact ⟨List.cons_ne_nil _ _, rfl⟩
  · rename_i piece pieces split
    have inhabited : dropBlankEnd rest ≠ [] := split ▸ List.cons_ne_nil _ _
    obtain ⟨last, read⟩ := exists_component?_of_dropBlankEnd inhabited
    have restInhabited : rest ≠ [] := by
      rintro rfl
      exact inhabited rfl
    have init : (dropBlankEnd rest).filterMap component? =
        (dropBlankEnd (dropBlankEnd rest).dropLast).filterMap component? ++ [last] := by
      conv_lhs => rw [← List.dropLast_concat_getLast inhabited, List.filterMap_append]
      rw [filterMap_dropBlankEnd, List.filterMap_cons, read, List.filterMap_nil]
    rw [init, ← List.append_assoc, List.dropLast_concat]
    refine ⟨List.append_ne_nil_of_right_ne_nil _ (List.cons_ne_nil _ _), ?_⟩
    rw [← split] at parent
    split at parent
    · rename_i blank
      cases parent
      rw [blank, List.filterMap_nil, List.append_nil, if_neg restInhabited]
      split
      · decide
      · rw [components_eq single, if_neg ‹_›, List.filterMap_nil, List.append_nil]
    · rename_i kept
      cases parent
      have within : dropBlankEnd (dropBlankEnd rest).dropLast ⊆ rest := fun piece member =>
        (isPrefix_dropBlankEnd _).subset
          (List.dropLast_subset _ ((isPrefix_dropBlankEnd _).subset member))
      have pieces := pieces_ofPieces (List.cons_ne_nil first _)
        fun piece member => undivided piece (List.cons_subset_cons _ within member)
      rw [components_eq pieces, if_neg kept, if_neg restInhabited]

theorem length_components_of_parent? {path above : String} (parent : parent? path = some above) :
    (components above).length + 1 = (components path).length := by
  obtain ⟨inhabited, equal⟩ := components_of_parent? parent
  rw [equal, List.length_dropLast]
  exact Nat.sub_add_cancel (List.length_pos_iff.mpr inhabited)

@[elab_as_elim]
theorem parent_induction {motive : String → Prop}
    (step : ∀ path, (∀ above, parent? path = some above → motive above) → motive path)
    (path : String) : motive path :=
  step path fun above parent =>
    have : (components above).length < (components path).length :=
      Nat.lt_of_succ_le (Nat.le_of_eq (length_components_of_parent? parent))
    parent_induction step above
termination_by (components path).length

theorem ancestors_eq (path : String) :
    ancestors path = path :: ((parent? path).map ancestors).getD [] := by
  rw [ancestors, ancestorsWithin]
  cases parent : parent? path with
  | none => rfl
  | some above =>
      rw [Option.map_some, Option.getD_some, ancestors, length_components_of_parent? parent]

theorem isChain_ancestors (path : String) :
    (ancestors path).head? = some path ∧
      (ancestors path).IsChain (fun directory above => parent? directory = some above) ∧
      (ancestors path).getLast?.bind parent? = none := by
  induction path using parent_induction with
  | step path induction =>
      rw [ancestors_eq]
      cases parent : parent? path with
      | none => exact ⟨rfl, .singleton path, parent⟩
      | some above =>
          obtain ⟨_, chain, last⟩ := induction above parent
          rw [Option.map_some, Option.getD_some]
          refine ⟨rfl, ?_, ?_⟩
          · rw [ancestors_eq] at chain ⊢
            exact List.isChain_cons_cons.mpr ⟨parent, chain⟩
          · rw [ancestors_eq] at last ⊢
            rw [List.getLast?_cons_cons]
            exact last

end Path

/-! ## The nearest settings file -/

namespace SettingsSource

variable (environment : Environment)

def Configured (directory : String) : Prop :=
  ∃ name ∈ projectNames, environment.isFile (Path.join directory name)

def IsProjectRoot (directory : String) : Prop :=
  environment.isDirectory (Path.join directory projectMarker)

def fileIn (directory : String) : String :=
  if environment.isFile (Path.join directory "strict-lint.toml") then
    Path.join directory "strict-lint.toml"
  else
    Path.join directory ".strict-lint.toml"

/-- The directory is the first in the chain that holds a settings file, and no nearer one is the root of
a project. -/
def Nearest (chain : List String) (directory : String) : Prop :=
  ∃ nearer above, chain = nearer ++ directory :: above ∧ Configured environment directory ∧
    ∀ other ∈ nearer, ¬Configured environment other ∧ ¬IsProjectRoot environment other

variable {environment} {directory : String} {chain nearer above : List String}

theorem find?_projectNames (configured : Configured environment directory) :
    (projectNames.map (Path.join directory)).find? environment.isFile =
      some (fileIn environment directory) := by
  obtain ⟨name, member, found⟩ := configured
  simp only [projectNames, List.mem_cons, List.not_mem_nil, or_false] at member
  rw [fileIn, projectNames, List.map_cons, List.map_cons, List.map_nil, List.find?_cons]
  split
  · rw [if_pos ‹_›]
  · rename_i missing
    rw [if_neg (by simp [missing])]
    rcases member with rfl | rfl
    · rw [missing] at found
      cases found
    · rw [List.find?_cons, found]

theorem find?_projectNames_of_not (unconfigured : ¬Configured environment directory) :
    (projectNames.map (Path.join directory)).find? environment.isFile = none := by
  rw [List.find?_eq_none]
  intro path member found
  obtain ⟨name, listed, rfl⟩ := List.mem_map.mp member
  exact unconfigured ⟨name, listed, found⟩

/-! ### What one directory does to the search -/

theorem searchProject_cons :
    searchProject environment (directory :: above) =
      ((projectNames.map (Path.join directory)).find? environment.isFile).or
        (if environment.isDirectory (Path.join directory projectMarker) then none
          else searchProject environment above) := by
  conv_lhs => unfold searchProject
  cases (projectNames.map (Path.join directory)).find? environment.isFile <;> rfl

theorem searchProject_of_configured (configured : Configured environment directory) :
    searchProject environment (directory :: above) = some (fileIn environment directory) := by
  rw [searchProject_cons, find?_projectNames configured, Option.some_or]

theorem searchProject_of_root (unconfigured : ¬Configured environment directory)
    (root : IsProjectRoot environment directory) :
    searchProject environment (directory :: above) = none := by
  rw [searchProject_cons, find?_projectNames_of_not unconfigured, Option.none_or]
  exact if_pos root

theorem searchProject_of_other (unconfigured : ¬Configured environment directory)
    (other : ¬IsProjectRoot environment directory) :
    searchProject environment (directory :: above) = searchProject environment above := by
  rw [searchProject_cons, find?_projectNames_of_not unconfigured, Option.none_or]
  exact if_neg other

/-! ### The whole search -/

theorem searchProject_append
    (passed : ∀ other ∈ nearer, ¬Configured environment other ∧ ¬IsProjectRoot environment other) :
    searchProject environment (nearer ++ above) = searchProject environment above := by
  induction nearer with
  | nil => rfl
  | cons first rest induction =>
      obtain ⟨⟨unconfigured, other⟩, further⟩ := List.forall_mem_cons.mp passed
      rw [List.cons_append, searchProject_of_other unconfigured other, induction further]

theorem searchProject_of_nearest (nearest : Nearest environment chain directory) :
    searchProject environment chain = some (fileIn environment directory) := by
  obtain ⟨nearer, above, rfl, configured, passed⟩ := nearest
  rw [searchProject_append passed, searchProject_of_configured configured]

theorem Nearest.cons (unconfigured : ¬Configured environment directory)
    (other : ¬IsProjectRoot environment directory) {found : String}
    (nearest : Nearest environment chain found) : Nearest environment (directory :: chain) found := by
  obtain ⟨nearer, above, rfl, configured, passed⟩ := nearest
  exact ⟨directory :: nearer, above, rfl, configured,
    List.forall_mem_cons.mpr ⟨⟨unconfigured, other⟩, passed⟩⟩

theorem searchProject_eq_none (missing : ∀ directory, ¬Nearest environment chain directory) :
    searchProject environment chain = none := by
  induction chain with
  | nil => rfl
  | cons directory above induction =>
      have unconfigured : ¬Configured environment directory := fun configured =>
        missing directory ⟨[], above, rfl, configured, by simp⟩
      by_cases root : IsProjectRoot environment directory
      · exact searchProject_of_root unconfigured root
      · rw [searchProject_of_other unconfigured root]
        exact induction fun found nearest => missing found (nearest.cons unconfigured root)

theorem exists_of_searchProject {path : String} (found : searchProject environment chain = some path) :
    ∃ directory ∈ chain, path = fileIn environment directory := by
  by_cases configured : ∃ directory, Nearest environment chain directory
  · obtain ⟨directory, nearest⟩ := configured
    have equal := found.symm.trans (searchProject_of_nearest nearest)
    obtain ⟨nearer, above, rfl, _⟩ := nearest
    exact ⟨directory, by simp, Option.some.inj equal⟩
  · rw [searchProject_eq_none (not_exists.mp configured)] at found
    cases found

theorem searchProject_of_mem_root {root : String} (marked : IsProjectRoot environment root) :
    searchProject environment (nearer ++ root :: above) =
      searchProject environment (nearer ++ [root]) := by
  induction nearer with
  | nil =>
      by_cases configured : Configured environment root
      · rw [List.nil_append, List.nil_append, searchProject_of_configured configured,
          searchProject_of_configured configured]
      · rw [List.nil_append, List.nil_append, searchProject_of_root configured marked,
          searchProject_of_root configured marked]
  | cons first rest induction =>
      rw [List.cons_append, List.cons_append, searchProject_cons, induction, searchProject_cons]

/-! ### The choice -/

variable {userDirectory : Option String}

theorem choose_of_nearest (nearest : Nearest environment chain directory) :
    choose environment chain none userDirectory = .project (fileIn environment directory) := by
  simp only [choose, searchProject_of_nearest nearest]

theorem choose_of_user {user : String} (missing : ∀ directory, ¬Nearest environment chain directory)
    (given : userDirectory = some user)
    (found : environment.isFile (Path.join user "config.toml")) :
    choose environment chain none userDirectory = .global (Path.join user "config.toml") := by
  simp only [choose, searchProject_eq_none missing, given, Option.map_some, Option.filter_some,
    found, if_true]

theorem exists_of_choose {explicitPath : Option String} {path : String}
    (chosen : choose environment chain explicitPath userDirectory = .project path) :
    ∃ directory ∈ chain, path = fileIn environment directory := by
  unfold choose at chosen
  split at chosen
  · cases chosen
  · split at chosen
    · cases chosen
      exact exists_of_searchProject ‹_›
    · split at chosen <;> cases chosen

theorem choose_of_missing (missing : ∀ directory, ¬Nearest environment chain directory)
    (unset : ∀ user, userDirectory = some user →
      ¬environment.isFile (Path.join user "config.toml")) :
    choose environment chain none userDirectory = .standard := by
  simp only [choose, searchProject_eq_none missing]
  cases userDirectory with
  | none => rfl
  | some user => rw [Option.map_some, Option.filter_some, if_neg (unset user rfl)]

end SettingsSource

/-- Settings come from the path that is given; without one, from the nearest file in the chain of the
start directory and those above it, unless the root of a project is nearer still; without that, from the
directory of the user; and last from nowhere. A file in the root of the project counts, and nothing
above the root makes a difference. -/
theorem SettingsSource.choose_nearest (environment : Environment) (start : String)
    (explicitPath userDirectory : Option String) :
    let chain := Path.ancestors start
    let chosen := choose environment chain explicitPath userDirectory
    (chain.head? = some start ∧
        chain.IsChain (fun directory above => Path.parent? directory = some above) ∧
        chain.getLast?.bind Path.parent? = none) ∧
      (∀ path, explicitPath = some path → chosen = .explicit path) ∧
      (explicitPath = none →
        (∀ directory, Nearest environment chain directory →
          chosen = .project (fileIn environment directory)) ∧
        ((∀ directory, ¬Nearest environment chain directory) →
          (∀ user, userDirectory = some user →
            environment.isFile (Path.join user "config.toml") →
              chosen = .global (Path.join user "config.toml")) ∧
          ((∀ user, userDirectory = some user →
            ¬environment.isFile (Path.join user "config.toml")) → chosen = .standard))) ∧
      ∀ nearer root above, chain = nearer ++ root :: above → IsProjectRoot environment root →
        chosen = choose environment (nearer ++ [root]) explicitPath userDirectory ∧
          (∀ path, chosen = .project path →
            ∃ directory ∈ nearer ++ [root], path = fileIn environment directory) ∧
          (explicitPath = none → Configured environment root →
            (∀ other ∈ nearer, ¬Configured environment other ∧ ¬IsProjectRoot environment other) →
              chosen = .project (fileIn environment root)) := by
  intro chain chosen
  refine ⟨Path.isChain_ancestors start, ?_, ?_, ?_⟩
  · rintro path rfl
    rfl
  · rintro rfl
    refine ⟨fun directory nearest => choose_of_nearest nearest, fun missing => ⟨?_, ?_⟩⟩
    · intro user given found
      exact choose_of_user missing given found
    · exact choose_of_missing missing
  · intro nearer root above split marked
    have same : chosen = choose environment (nearer ++ [root]) explicitPath userDirectory := by
      simp only [chosen, choose, split, searchProject_of_mem_root marked]
    refine ⟨same, ?_, ?_⟩
    · intro path found
      exact exists_of_choose (same.symm.trans found)
    · rintro rfl configured passed
      exact choose_of_nearest ⟨nearer, above, split, configured, passed⟩

/-! A project with settings in its root and above it, and none in the directory to check. -/

def settledProject (content : ByteArray) : Environment where
  files := .directory [
    ("Game", .directory [
      ("Assets", .directory [("A.cs", .file content)]),
      ("ProjectSettings", .directory []),
      ("strict-lint.toml", .file content)]),
    ("strict-lint.toml", .file content)]
  current := []
  home := "/"

namespace settledProject

open SettingsSource

variable (content : ByteArray)

theorem isFile_root : (settledProject content).isFile "/Game/strict-lint.toml" :=
  congrArg (Option.any FileTree.isFile)
    (FileTree.entryOf?_pathOf ["Game"] "strict-lint.toml" (by decide) rfl (by rintro _ ⟨⟩) (by decide))

theorem isProjectRoot_root : IsProjectRoot (settledProject content) "/Game" :=
  congrArg (Option.any FileTree.isDirectory)
    (FileTree.entryOf?_pathOf ["Game"] projectMarker (by decide) rfl (by rintro _ ⟨⟩) (by decide))

theorem configured_aboveRoot : Configured (settledProject content) "/" :=
  ⟨"strict-lint.toml", List.mem_cons_self, congrArg (Option.any FileTree.isFile)
    (FileTree.entryOf?_pathOf [] "strict-lint.toml" (by decide) rfl (by rintro _ ⟨⟩) (by decide))⟩

theorem not_configured_assets : ¬Configured (settledProject content) "/Game/Assets" := by
  rintro ⟨name, listed, found⟩
  have missing : (settledProject content).files.entryOf? [] (Path.join "/Game/Assets" name) = none := by
    rcases List.mem_pair.mp listed with rfl | rfl
    · exact FileTree.entryOf?_pathOf ["Game", "Assets"] "strict-lint.toml" (by decide) rfl
        (by rintro _ ⟨⟩) (by decide)
    · exact FileTree.entryOf?_pathOf ["Game", "Assets"] ".strict-lint.toml" (by decide) rfl
        (by rintro _ ⟨⟩) (by decide)
  exact Bool.false_ne_true ((congrArg (Option.any FileTree.isFile) missing).symm.trans found)

theorem not_isProjectRoot_assets : ¬IsProjectRoot (settledProject content) "/Game/Assets" := by
  have missing : (settledProject content).files.entryOf? [] "/Game/Assets/ProjectSettings" = none :=
    FileTree.entryOf?_pathOf ["Game", "Assets"] projectMarker (by decide) rfl
      (by rintro _ ⟨⟩) (by decide)
  intro root
  exact Bool.false_ne_true ((congrArg (Option.any FileTree.isDirectory) missing).symm.trans root)

end settledProject

theorem SettingsSource.choose_nearest_settledProject :
    Nearest (settledProject .empty) (Path.ancestors "/Game/Assets") "/Game" ∧
      IsProjectRoot (settledProject .empty) "/Game" ∧ Configured (settledProject .empty) "/" ∧
      choose (settledProject .empty) (Path.ancestors "/Game/Assets") none none =
        .project "/Game/strict-lint.toml" := by
  have chain : Path.ancestors "/Game/Assets" = ["/Game/Assets"] ++ "/Game" :: ["/"] := by decide
  have nearest : Nearest (settledProject .empty) (Path.ancestors "/Game/Assets") "/Game" := by
    refine ⟨["/Game/Assets"], ["/"], chain, ?_, ?_⟩
    · exact ⟨"strict-lint.toml", List.mem_cons_self, settledProject.isFile_root _⟩
    · intro other member
      rw [List.mem_singleton.mp member]
      exact ⟨settledProject.not_configured_assets _, settledProject.not_isProjectRoot_assets _⟩
  obtain ⟨_, _, ungiven, _⟩ := choose_nearest (settledProject .empty) "/Game/Assets" none none
  refine ⟨nearest, settledProject.isProjectRoot_root _, settledProject.configured_aboveRoot _, ?_⟩
  rw [(ungiven rfl).1 "/Game" nearest]
  exact congrArg _ (if_pos (settledProject.isFile_root _))

end UnityLint
