import UnityLint.Proofs.DiscoveredFiles
import UnityLint.Proofs.Locations
import UnityLint.Proofs.MergedResult

/-! # Reported paths

A diagnostic carries the path of its file from the root on. If the root is a directory, that path joined
to the root is the path at which the file was read. If the root is a file, nothing is left of its path. -/

namespace UnityLint

/-! ## Diagnostics of a run -/

theorem ProcessedFile.outcome_of_mem_diagnostics (file : ProcessedFile) {diagnostic : Diagnostic}
    (inside : diagnostic ∈ file.diagnostics) : file.outcome = .ok (.checked file.diagnostics) := by
  rcases file with ⟨path, _ | _ | _⟩
  · cases inside
  · rfl
  · cases inside

theorem Diagnostic.file_relativeTo {root rest : String} {diagnostic : Diagnostic}
    (left : Path.relativeTo? root diagnostic.location.file = some rest) :
    (diagnostic.relativeTo root).location.file = rest := by
  rw [relativeTo, left]

theorem Preset.rules_subset_all (preset : Preset) : preset.rules ⊆ Preset.all.rules := by
  cases preset with
  | all => exact List.Subset.refl _
  | performance => exact List.cons_subset_cons _ (List.cons_subset_cons _ (List.nil_subset _))
  | failFast => exact List.subset_cons_of_subset _ (List.subset_cons_of_subset _ (List.Subset.refl _))

namespace Analyzer

variable {analyzer : Analyzer} {environment : Environment}

def processed (analyzer : Analyzer) (environment : Environment) : List ProcessedFile :=
  (analyzer.files environment).map fun path =>
    ⟨path, analyzer.outcome path (environment.readText path)⟩

theorem isOk_outcome (lenient : analyzer.rejectsUnparsable = false) (path : String)
    {content : Except FileError String}
    (readable : ∀ error, content = .error error → error = .notText) :
    (analyzer.outcome path content).isOk := by
  cases content with
  | error error =>
      rw [readable error rfl]
      rfl
  | ok source =>
      rw [outcome]
      split
      · rfl
      · split
        · rfl
        · rw [if_neg (by rw [lenient]; decide)]
          rfl

theorem isFile_of_mem_files {path : String} (listed : path ∈ analyzer.files environment) :
    environment.isFile path := by
  rw [files, (Order.sort_perm _ _).mem_iff] at listed
  exact Discovery.isFile_of_mem_files (List.mem_filter.mp listed).1

theorem analyze_eq_ok (lenient : analyzer.rejectsUnparsable = false)
    (present : environment.exists? analyzer.root) :
    analyzer.analyze environment =
      .ok (.ofFiles analyzer.root (analyzer.processed environment)) := by
  have succeeded : ∀ file ∈ analyzer.processed environment, file.outcome.isOk := by
    intro file member
    rcases List.mem_map.mp member with ⟨path, listed, rfl⟩
    exact isOk_outcome lenient path fun error =>
      Environment.eq_notText_of_readText (isFile_of_mem_files listed)
  rw [analyze, if_pos present, ← merge_eq_ok analyzer.root succeeded, processed, List.map_map]
  rfl

theorem exists_source_of_outcome {path : String} {content : Except FileError String}
    {diagnostics : List Diagnostic}
    (checked : analyzer.outcome path content = .ok (.checked diagnostics)) :
    ∃ source, content = .ok source ∧ analyzer.diagnose path source = .ok diagnostics := by
  cases content with
  | error error => cases error <;> cases checked
  | ok source =>
      rw [outcome] at checked
      split at checked
      · cases checked
      · split at checked
        · rename_i found diagnosed
          cases checked
          exact ⟨source, rfl, diagnosed⟩
        · split at checked <;> cases checked

theorem file_of_mem_diagnose {parser : String → Option ParseTree} {scope : ScopeFilter}
    {rules : List Rule} (frontends : analyzer.frontends = [.csharp parser])
    (engine : analyzer.engine = .ofRules scope rules) (builtIn : rules ⊆ Preset.all.rules)
    {path source : String} {diagnostics : List Diagnostic}
    (diagnosed : analyzer.diagnose path source = .ok diagnostics) :
    ∀ diagnostic ∈ diagnostics, diagnostic.location.file = path := by
  rw [diagnose] at diagnosed
  split at diagnosed
  · cases diagnosed
    simp
  · rename_i frontend selected
    rw [frontend?, frontends] at selected
    cases List.mem_singleton.mp (List.mem_of_find?_eq_some selected)
    split at diagnosed
    · cases diagnosed
      simp
    · cases parsed : parser source with
      | none =>
          simp only [Frontend.csharp, parsed] at diagnosed
          cases diagnosed
      | some root =>
          simp only [Frontend.csharp, parsed, engine] at diagnosed
          cases diagnosed
          intro diagnostic reported
          rcases List.mem_flatMap.mp reported with ⟨id, _, dispatched⟩
          rcases Engine.exists_rule_of_mem_dispatch dispatched with ⟨rule, listed, checked⟩
          rcases Preset.exists_descriptor_of_mem_check (builtIn listed) checked with
            ⟨descriptor, _, arguments, rfl⟩
          rfl

theorem of_ofOptions {options : AnalyzerOptions} {current : String}
    (built : ofOptions options current = .ok analyzer) :
    analyzer.frontends = options.frontends ∧
      analyzer.engine = .ofRules (.ofSettings options.settings.scope) options.rules ∧
      analyzer.rejectsUnparsable = options.rejectsUnparsable := by
  rw [ofOptions] at built
  split at built
  · cases built
  · cases built
    exact ⟨rfl, rfl, rfl⟩

section Processed

variable {file : ProcessedFile} {diagnostic : Diagnostic}
  (member : file ∈ analyzer.processed environment)

include member

theorem path_mem_files : file.path ∈ analyzer.files environment := by
  rcases List.mem_map.mp member with ⟨path, listed, rfl⟩
  exact listed

theorem exists_source_of_mem_processed (inside : diagnostic ∈ file.diagnostics) :
    ∃ source, environment.readText file.path = .ok source ∧
      analyzer.diagnose file.path source = .ok file.diagnostics := by
  have checked := file.outcome_of_mem_diagnostics inside
  rcases List.mem_map.mp member with ⟨path, _, rfl⟩
  exact exists_source_of_outcome checked

theorem leads_of_mem_processed (wellNamed : environment.files.WellNamed) :
    environment.isFile analyzer.root ∧ file.path = analyzer.root ∨
      environment.isFile analyzer.root = false ∧
        ∃ names, names ≠ [] ∧ (∀ name ∈ names, Path.IsName name) ∧
          file.path = Path.below analyzer.root names := by
  have listed := path_mem_files member
  rw [files, (Order.sort_perm _ _).mem_iff] at listed
  exact Discovery.leads_of_mem_files wellNamed (List.mem_filter.mp listed).1

theorem file_of_mem_reports {parser : String → Option ParseTree} {scope : ScopeFilter}
    {rules : List Rule} (frontends : analyzer.frontends = [.csharp parser])
    (engine : analyzer.engine = .ofRules scope rules) (builtIn : rules ⊆ Preset.all.rules)
    {rest : String} (left : Path.relativeTo? analyzer.root file.path = some rest)
    (reported : diagnostic ∈ file.reports analyzer.root) : diagnostic.location.file = rest := by
  rcases List.mem_map.mp reported with ⟨original, inside, rfl⟩
  obtain ⟨source, _, diagnosed⟩ := exists_source_of_mem_processed member inside
  apply Diagnostic.file_relativeTo
  rw [file_of_mem_diagnose frontends engine builtIn diagnosed original inside, left]

end Processed

end Analyzer

/-! ## A project with one script -/

def scriptProject (content : ByteArray) : Environment where
  files := .directory [("Assets", .directory [("A.cs", .file content)])]
  current := []
  home := "/"

def scriptDiscovery (content : ByteArray) : Discovery where
  environment := scriptProject content
  respectGitignore := false

def scriptAnalyzer (root : String) : Analyzer :=
  { linkedAnalyzer with root, respectGitignore := false }

namespace scriptProject

variable (content : ByteArray)

theorem entryNames : (scriptProject content).files.entryNames = ["Assets", "A.cs"] := rfl

theorem entryOf?_directory :
    (scriptProject content).files.entryOf? [] "/Assets" =
      some (.directory [("A.cs", .file content)]) :=
  FileTree.entryOf?_pathOf [] "Assets" (by decide) rfl (by rintro _ ⟨⟩) (by decide)

theorem entryOf?_script :
    (scriptProject content).files.entryOf? [] "/Assets/A.cs" = some (.file content) :=
  FileTree.entryOf?_pathOf ["Assets"] "A.cs" (by decide) rfl (by rintro _ ⟨⟩) (by decide)

theorem isFile_script : (scriptProject content).isFile "/Assets/A.cs" :=
  congrArg (Option.any FileTree.isFile) (entryOf?_script content)

theorem files_of_directory : (scriptDiscovery content).files "/Assets" = ["/Assets/A.cs"] := by
  have absent : ∀ name ∈ Discovery.ignoreNames, name ∉ (scriptProject content).files.entryNames := by
    rw [entryNames]
    decide
  have found : (scriptDiscovery content).files "/Assets" = _ :=
    Discovery.files_pathOf_of_absent absent [] "Assets" (by decide) rfl
  have isFile : (scriptDiscovery content).environment.isFile "/Assets/A.cs" := isFile_script content
  have joined : Path.join (FileTree.pathOf ([] ++ ["Assets"])) "A.cs" = "/Assets/A.cs" := by decide
  rw [found, List.flatMap_singleton, joined, Discovery.filesFrom_file isFile]

theorem processed_eq {root text : String}
    (found : (scriptDiscovery text.toUTF8).files root = ["/Assets/A.cs"]) :
    (scriptAnalyzer root).processed (scriptProject text.toUTF8) =
      [⟨"/Assets/A.cs", linkedAnalyzer.outcome "/Assets/A.cs" (.ok text)⟩] := by
  have listed : (scriptAnalyzer root).files (scriptProject text.toUTF8) = ["/Assets/A.cs"] := by
    rw [Analyzer.files]
    exact congrArg _ (congrArg _ found)
  rw [Analyzer.processed, listed, List.map_singleton,
    Environment.readText_of_entryOf? (entryOf?_script text.toUTF8)]
  rfl

theorem length_reports (root : String) :
    (ProcessedFile.reports root
      ⟨"/Assets/A.cs", linkedAnalyzer.outcome "/Assets/A.cs" (.ok linkedText)⟩).length = 2 := by
  rw [ProcessedFile.reports, List.length_map]
  decide +kernel

end scriptProject

theorem scriptAnalyzer_built {root : String} (absolute : Path.isAbsolute root) (content : ByteArray) :
    Analyzer.ofOptions
      { root := some root
        settings := { analyzer := { exclude := [], respectGitignore := false } }
        frontends := [.csharp fun _ => some .linkedGuard]
        rules := Preset.all.rules }
      (scriptProject content).currentPath = .ok (scriptAnalyzer root) := by
  have kept : Path.join (scriptProject content).currentPath root = root := if_pos absolute
  simp only [Analyzer.ofOptions, Option.getD_some, kept]
  rfl

/-! ## Paths in the result of a check -/

/-- In the result of a check, a diagnostic of a file below a directory carries the path that leads from
the root to the file. If the root is a file, its diagnostics carry the empty path, and joined to the root
it is a path at which nothing can be read. -/
theorem reportedPaths_of_analyze {environment : Environment} {parser : String → Option ParseTree}
    {preset : Preset} {settings : Settings} {excludes : List String} {root : String}
    {analyzer : Analyzer}
    (built : Analyzer.ofOptions
      { root := some root, settings, excludes, frontends := [.csharp parser], rules := preset.rules }
      environment.currentPath = .ok analyzer)
    (wellNamed : environment.files.WellNamed) (present : environment.exists? analyzer.root) :
    ∃ result, analyzer.analyze environment = .ok result ∧
      result.diagnostics.Perm
        ((analyzer.processed environment).flatMap (ProcessedFile.reports analyzer.root)) ∧
      ∀ file ∈ analyzer.processed environment, ∀ diagnostic ∈ file.reports analyzer.root,
        (environment.isFile analyzer.root = false →
          diagnostic.location.file ≠ "" ∧ Path.isAbsolute diagnostic.location.file = false ∧
          Path.join analyzer.root diagnostic.location.file = file.path ∧
          ∃ source, environment.readText file.path = .ok source ∧
            analyzer.diagnose file.path source = .ok file.diagnostics) ∧
        (environment.isFile analyzer.root →
          file.path = analyzer.root ∧ diagnostic.location.file = "" ∧
          ∃ error, environment.readText
            (Path.join analyzer.root diagnostic.location.file) = .error error) := by
  obtain ⟨frontends, engine, lenient⟩ := Analyzer.of_ofOptions built
  refine ⟨_, Analyzer.analyze_eq_ok lenient present, List.mergeSort_perm .., ?_⟩
  intro file member diagnostic reported
  have reportedAt {rest : String} (left : Path.relativeTo? analyzer.root file.path = some rest) :=
    Analyzer.file_of_mem_reports member frontends engine preset.rules_subset_all left reported
  rcases Analyzer.leads_of_mem_processed member wellNamed with
    ⟨isFile, same⟩ | ⟨notFile, names, inhabited, named, same⟩
  · constructor
    · intro notFile
      exact absurd (isFile.symm.trans notFile) (by decide)
    · intro _
      have empty : diagnostic.location.file = "" :=
        reportedAt (by rw [same, Path.relativeTo?_self])
      rw [empty]
      exact ⟨same, rfl, environment.files.readText_join_empty ..⟩
  · constructor
    · intro _
      rcases List.mem_map.mp reported with ⟨original, inside, _⟩
      rw [reportedAt (by rw [same, Path.relativeTo?_below named])]
      refine ⟨?_, Path.not_isAbsolute_names named, same.symm,
        Analyzer.exists_source_of_mem_processed member inside⟩
      intro empty
      obtain ⟨char, _, last⟩ := Path.getLast?_names named inhabited
      rw [empty] at last
      cases last
    · intro isFile
      exact absurd (isFile.symm.trans notFile) (by decide)

theorem reportedPaths_of_analyze_script :
    ∃ result,
      (scriptAnalyzer "/Assets").analyze (scriptProject linkedText.toUTF8) = .ok result ∧
      result.diagnostics.length = 2 ∧
      ∀ diagnostic ∈ result.diagnostics, diagnostic.location.file ≠ "" ∧
        (scriptProject linkedText.toUTF8).readText
          (Path.join "/Assets" diagnostic.location.file) = .ok linkedText := by
  have present (content : ByteArray) : (scriptProject content).exists? "/Assets" :=
    congrArg Option.isSome (scriptProject.entryOf?_directory content)
  have notFile (content : ByteArray) : (scriptProject content).isFile "/Assets" = false :=
    congrArg (Option.any FileTree.isFile) (scriptProject.entryOf?_directory content)
  have wellNamed (content : ByteArray) : (scriptProject content).files.WellNamed := by
    apply FileTree.wellNamed_of_entryNames
    rw [scriptProject.entryNames]
    decide
  obtain ⟨result, analysed, same, leads⟩ :=
    reportedPaths_of_analyze (scriptAnalyzer_built rfl _) (wellNamed _) (present _)
  rw [scriptProject.processed_eq (scriptProject.files_of_directory _)] at same leads
  rw [List.flatMap_singleton] at same
  refine ⟨result, analysed, same.length_eq.trans (scriptProject.length_reports _), ?_⟩
  intro diagnostic member
  have reported := same.mem_iff.mp member
  rcases (leads _ List.mem_cons_self diagnostic reported).1 (notFile _) with
    ⟨inhabited, _, joined, _⟩
  exact ⟨inhabited, (congrArg _ joined).trans
    (Environment.readText_of_entryOf? (scriptProject.entryOf?_script _))⟩

/-- With the script for a root, both of its diagnostics carry the empty path. -/
theorem emptyPath_of_fileRoot :
    ∃ result,
      (scriptAnalyzer "/Assets/A.cs").analyze (scriptProject linkedText.toUTF8) = .ok result ∧
      result.diagnostics.length = 2 ∧
      ∀ diagnostic ∈ result.diagnostics, diagnostic.location.file = "" ∧
        ∃ error, (scriptProject linkedText.toUTF8).readText
          (Path.join "/Assets/A.cs" diagnostic.location.file) = .error error := by
  have present (content : ByteArray) : (scriptProject content).exists? "/Assets/A.cs" :=
    congrArg Option.isSome (scriptProject.entryOf?_script content)
  have found (content : ByteArray) :
      (scriptDiscovery content).files "/Assets/A.cs" = ["/Assets/A.cs"] :=
    Discovery.files_of_isFile (scriptProject.isFile_script content)
  have processed := scriptProject.processed_eq (found linkedText.toUTF8)
  refine ⟨_, Analyzer.analyze_eq_ok rfl (present _), ?_, ?_⟩
  · rw [LintResult.ofFiles, processed]
    dsimp only
    rw [List.length_mergeSort, List.flatMap_singleton, scriptProject.length_reports]
  · intro diagnostic member
    rcases List.mem_flatMap.mp ((List.mergeSort_perm ..).mem_iff.mp member) with
      ⟨file, inside, reported⟩
    have path : file.path = "/Assets/A.cs" := by
      rw [processed, List.mem_singleton] at inside
      rw [inside]
    have left : Path.relativeTo? (scriptAnalyzer "/Assets/A.cs").root file.path = some "" := by
      rw [path]
      exact Path.relativeTo?_self _
    have empty := Analyzer.file_of_mem_reports inside rfl rfl (List.Subset.refl _) left reported
    rw [empty]
    exact ⟨rfl, (scriptProject _).files.readText_join_empty ..⟩

end UnityLint
