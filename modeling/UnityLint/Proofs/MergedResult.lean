import Mathlib.Data.List.Nodup
import Mathlib.Data.List.Perm.Basic
import UnityLint.Analyzer
import UnityLint.Proofs.Paths

/-! # The merged result of a run

The result of a run depends on what became of its files, not on the order in which they were
processed. Sorting keeps the order of diagnostics with the same key, and those are always diagnostics
of one file. -/

namespace UnityLint

/-! ## Stable sorting -/

namespace Order

variable {α κ : Type} {cmp : α → α → Ordering} [Std.TransCmp cmp]

theorem isLE_total (left right : α) : (cmp left right).isLE || (cmp right left).isLE := by
  have swapped : cmp left right = (cmp right left).swap := Std.OrientedCmp.eq_swap
  rw [swapped]
  cases cmp right left <;> rfl

theorem pairwise_mergeSort (values : List α) :
    (values.mergeSort fun left right => (cmp left right).isLE).Pairwise
      fun left right => (cmp left right).isLE :=
  List.pairwise_mergeSort (fun _ _ _ => Std.TransCmp.isLE_trans) isLE_total values

section Keys

variable [DecidableEq κ] {key : α → κ} {first second : List α}

theorem mem_iff_of_filter_key_eq
    (same : ∀ k, first.filter (key · = k) = second.filter (key · = k)) (value : α) :
    value ∈ first ↔ value ∈ second := by
  have listed (values : List α) : value ∈ values ↔ value ∈ values.filter (key · = key value) := by
    simp
  rw [listed, same, ← listed]

variable (ties : ∀ left right, cmp left right = .eq ↔ key left = key right)

include ties

/-- Sorted lists are equal if they list the members with each key in the same order. -/
theorem eq_of_filter_key_eq (firstSorted : first.Pairwise fun left right => (cmp left right).isLE)
    (secondSorted : second.Pairwise fun left right => (cmp left right).isLE)
    (same : ∀ k, first.filter (key · = k) = second.filter (key · = k)) : first = second := by
  induction first generalizing second with
  | nil =>
      cases second with
      | nil => rfl
      | cons other others =>
          cases (mem_iff_of_filter_key_eq same other).mpr List.mem_cons_self
  | cons head tail induction =>
      cases second with
      | nil => cases (mem_iff_of_filter_key_eq same head).mp List.mem_cons_self
      | cons other others =>
          -- Neither head comes after the other, so that both are the first of one key.
          have tied : key head = key other := by
            rcases List.mem_cons.mp ((mem_iff_of_filter_key_eq same head).mp List.mem_cons_self)
              with rfl | later
            · rfl
            rcases List.mem_cons.mp ((mem_iff_of_filter_key_eq same other).mpr List.mem_cons_self)
              with rfl | below
            · rfl
            rw [← ties]
            apply Std.OrientedCmp.isLE_antisymm
            · exact (List.pairwise_cons.mp firstSorted).1 other below
            · exact (List.pairwise_cons.mp secondSorted).1 head later
          have heads : head = other := by
            have equal := same (key other)
            simp only [List.filter_cons, tied, decide_true, if_true] at equal
            exact (List.cons.inj equal).1
          subst heads
          rw [induction firstSorted.of_cons secondSorted.of_cons]
          intro k
          have equal := same k
          simp only [List.filter_cons] at equal
          split at equal
          · exact (List.cons.inj equal).2
          · exact equal

theorem filter_key_mergeSort (values : List α) (k : κ) :
    (values.mergeSort fun left right => (cmp left right).isLE).filter (key · = k) =
      values.filter (key · = k) := by
  have sorted : (values.filter (key · = k)).Pairwise fun left right => (cmp left right).isLE := by
    apply List.pairwise_of_forall_mem_list
    intro left inLeft right inRight
    have tied : key left = key right := by
      rw [of_decide_eq_true (List.mem_filter.mp inLeft).2,
        of_decide_eq_true (List.mem_filter.mp inRight).2]
    rw [(ties left right).mpr tied]
    rfl
  have kept := List.sublist_mergeSort (fun _ _ _ => Std.TransCmp.isLE_trans) isLE_total sorted
    List.filter_sublist
  have filtered := kept.filter (key · = k)
  rw [List.filter_filter] at filtered
  simp only [Bool.and_self] at filtered
  apply (filtered.eq_of_length _).symm
  exact ((List.mergeSort_perm values _).filter _).length_eq.symm

theorem mergeSort_eq_of_filter_key_eq
    (same : ∀ k, first.filter (key · = k) = second.filter (key · = k)) :
    (first.mergeSort fun left right => (cmp left right).isLE) =
      second.mergeSort fun left right => (cmp left right).isLE := by
  apply eq_of_filter_key_eq ties
  · exact pairwise_mergeSort first
  · exact pairwise_mergeSort second
  · intro k
    rw [filter_key_mergeSort ties, filter_key_mergeSort ties, same]

end Keys

end Order

/-! ## The order of diagnostics -/

namespace Diagnostic

def key (diagnostic : Diagnostic) : List Path.Component × Nat × Nat × String :=
  (Path.components diagnostic.location.file, diagnostic.location.line, diagnostic.location.column,
    diagnostic.code)

def Precedes (left right : Diagnostic) : Prop :=
  Path.order left.location.file right.location.file = .lt ∨
    Path.components left.location.file = Path.components right.location.file ∧
      (left.location.line < right.location.line ∨
        left.location.line = right.location.line ∧
          (left.location.column < right.location.column ∨
            left.location.column = right.location.column ∧ left.code ≤ right.code))

theorem order_eq_eq_iff_key (left right : Diagnostic) :
    left.order right = .eq ↔ left.key = right.key := by
  simp only [order, Ordering.then_eq_eq, Path.order_eq_eq_iff, Nat.compare_eq_eq,
    Order.compareText_eq_iff, key, Prod.mk.injEq]

theorem isLE_order_iff {left right : Diagnostic} :
    (left.order right).isLE ↔ left.Precedes right := by
  simp only [order, Ordering.isLE_then_iff_or, Precedes, Path.order_eq_eq_iff, Nat.compare_eq_eq,
    Nat.compare_eq_lt, Order.isLE_compareText_iff]

instance : Std.TransCmp order := by
  have byFile : Std.TransCmp fun left right : Diagnostic =>
      Path.order left.location.file right.location.file :=
    Order.transCmp_comap fun diagnostic : Diagnostic => diagnostic.location.file
  have byLine : Std.TransCmp fun left right : Diagnostic =>
      compare left.location.line right.location.line :=
    Order.transCmp_comap fun diagnostic : Diagnostic => diagnostic.location.line
  have byColumn : Std.TransCmp fun left right : Diagnostic =>
      compare left.location.column right.location.column :=
    Order.transCmp_comap fun diagnostic : Diagnostic => diagnostic.location.column
  have byCode : Std.TransCmp fun left right : Diagnostic =>
      Order.compareText left.code right.code :=
    Order.transCmp_comap Diagnostic.code
  have equal : order = compareLex _ (compareLex _ (compareLex _ _)) := rfl
  rw [equal]
  infer_instance

end Diagnostic

/-! ## Files that were processed -/

structure ProcessedFile where
  path : String
  outcome : Except AnalyzerError FileOutcome

namespace ProcessedFile

def isChecked (file : ProcessedFile) : Bool :=
  match file.outcome with
  | .ok (.checked _) => true
  | _ => false

def diagnostics (file : ProcessedFile) : List Diagnostic :=
  match file.outcome with
  | .ok (.checked diagnostics) => diagnostics
  | _ => []

def reports (root : String) (file : ProcessedFile) : List Diagnostic :=
  file.diagnostics.map (Diagnostic.relativeTo root)

/-- The files are below the root, no two of them have the same path, and the diagnostics of each are
about itself. -/
structure Separate (root : String) (files : List ProcessedFile) : Prop where
  below : ∀ file ∈ files, Path.components root <+: Path.components file.path
  distinct : (files.map fun file => Path.components file.path).Nodup
  own : ∀ file ∈ files, ∀ diagnostic ∈ file.diagnostics, diagnostic.location.file = file.path

section Separate

variable {root : String} {files others : List ProcessedFile} {file : ProcessedFile}
  {diagnostic : Diagnostic}

theorem Separate.of_perm (separate : Separate root files) (perm : others.Perm files) :
    Separate root others where
  below file member := separate.below file (perm.mem_iff.mp member)
  distinct := (perm.map _).nodup_iff.mpr separate.distinct
  own file member := separate.own file (perm.mem_iff.mp member)

theorem Separate.components_eq (separate : Separate root files) (member : file ∈ files)
    (reported : diagnostic ∈ file.reports root) :
    Path.components file.path =
      Path.components root ++ Path.components diagnostic.location.file := by
  rcases List.mem_map.mp reported with ⟨original, inside, rfl⟩
  have found : Path.relativeTo? root file.path = some _ :=
    if_pos (List.isPrefixOf_iff_prefix.mpr (separate.below file member))
  have same := separate.own file member original inside
  rw [Path.components_of_relativeTo? found, Diagnostic.relativeTo, same, found]

theorem Separate.eq_of_key_eq (separate : Separate root files) {other : ProcessedFile}
    (member : file ∈ files) (otherMember : other ∈ files) {otherDiagnostic : Diagnostic}
    (reported : diagnostic ∈ file.reports root) (otherReported : otherDiagnostic ∈ other.reports root)
    (same : diagnostic.key = otherDiagnostic.key) : file = other := by
  have paths : Path.components file.path = Path.components other.path := by
    rw [separate.components_eq member reported, separate.components_eq otherMember otherReported,
      (Prod.mk.inj same).1]
  exact List.inj_on_of_nodup_map separate.distinct member otherMember paths

theorem Separate.filter_key_flatMap (separate : Separate root files) (member : file ∈ files)
    (reported : diagnostic ∈ file.reports root) :
    (files.flatMap (reports root)).filter (·.key = diagnostic.key) =
      (file.reports root).filter (·.key = diagnostic.key) := by
  rcases List.append_of_mem member with ⟨before, after, rfl⟩
  have others : ∀ other ∈ before ++ after,
      (other.reports root).filter (·.key = diagnostic.key) = [] := by
    intro other inside
    apply List.filter_eq_nil_iff.mpr
    intro found otherReported
    have listed : other ∈ before ++ file :: after := by
      rcases List.mem_append.mp inside with first | second
      · exact List.mem_append_left _ first
      · exact List.mem_append_right _ (List.mem_cons_of_mem _ second)
    rw [decide_eq_true_eq]
    intro same
    have equal := separate.eq_of_key_eq listed member otherReported reported same
    have once := separate.distinct.of_map
    rw [List.nodup_middle, List.nodup_cons] at once
    exact once.1 (equal ▸ inside)
  rw [List.filter_flatMap, List.flatMap_append, List.flatMap_cons,
    List.flatMap_eq_nil_iff.mpr fun other inside => others other (List.mem_append_left _ inside),
    List.flatMap_eq_nil_iff.mpr fun other inside => others other (List.mem_append_right _ inside),
    List.nil_append, List.append_nil]

theorem Separate.filter_key_of_perm (separate : Separate root files) (perm : others.Perm files)
    (key : List Path.Component × Nat × Nat × String) :
    (others.flatMap (reports root)).filter (·.key = key) =
      (files.flatMap (reports root)).filter (·.key = key) := by
  by_cases found : ∃ file ∈ files, ∃ diagnostic ∈ file.reports root, diagnostic.key = key
  · rcases found with ⟨file, member, diagnostic, reported, rfl⟩
    rw [separate.filter_key_flatMap member reported,
      (separate.of_perm perm).filter_key_flatMap (perm.mem_iff.mpr member) reported]
  · have none (listed : List ProcessedFile) (same : listed.Perm files) :
        (listed.flatMap (reports root)).filter (·.key = key) = [] := by
      apply List.filter_eq_nil_iff.mpr
      intro diagnostic member
      rcases List.mem_flatMap.mp member with ⟨file, inside, reported⟩
      rw [decide_eq_true_eq]
      exact fun equal => found ⟨file, same.mem_iff.mp inside, diagnostic, reported, equal⟩
    rw [none others perm, none files (.refl files)]

end Separate

end ProcessedFile

/-! ## Merging -/

namespace Analyzer

theorem collect_eq_ok {outcomes : List (Except AnalyzerError FileOutcome)}
    (succeeded : ∀ outcome ∈ outcomes, outcome.isOk) :
    collect outcomes = .ok (outcomes.filterMap Except.toOption) := by
  induction outcomes with
  | nil => rfl
  | cons outcome rest induction =>
      have later := induction fun other member => succeeded other (List.mem_cons_of_mem _ member)
      rw [collect] at later ⊢
      rw [List.mapM_cons, later]
      cases outcome with
      | ok value => rfl
      | error error => cases succeeded _ List.mem_cons_self

theorem collect_eq_error {outcomes : List (Except AnalyzerError FileOutcome)}
    (failed : ∃ outcome ∈ outcomes, outcome.isOk = false) :
    ∃ error, collect outcomes = .error error := by
  induction outcomes with
  | nil => simp at failed
  | cons outcome rest induction =>
      rw [collect, List.mapM_cons]
      cases outcome with
      | error error => exact ⟨error, rfl⟩
      | ok value =>
          have later : ∃ other ∈ rest, other.isOk = false := by
            rcases failed with ⟨other, member, fails⟩
            rcases List.mem_cons.mp member with rfl | inRest
            · cases fails
            · exact ⟨other, inRest, fails⟩
          rcases induction later with ⟨error, equal⟩
          rw [collect] at equal
          rw [equal]
          exact ⟨error, rfl⟩

end Analyzer

theorem LintResult.foldl_add {files : List ProcessedFile}
    (succeeded : ∀ file ∈ files, file.outcome.isOk) (result : LintResult) :
    (files.filterMap fun file => file.outcome.toOption).foldl add result =
      { diagnostics := result.diagnostics ++ files.flatMap ProcessedFile.diagnostics
        filesChecked := result.filesChecked + files.countP ProcessedFile.isChecked
        filesSkipped := result.filesSkipped + files.countP fun file => ¬ file.isChecked } := by
  induction files generalizing result with
  | nil => simp
  | cons file rest induction =>
      have later := induction fun other member => succeeded other (List.mem_cons_of_mem _ member)
      rcases file with ⟨path, outcome⟩
      cases outcome with
      | error error => cases succeeded _ List.mem_cons_self
      | ok outcome =>
          have kept : (⟨path, .ok outcome⟩ :: rest : List ProcessedFile).filterMap
              (fun file => file.outcome.toOption) =
              outcome :: rest.filterMap fun file => file.outcome.toOption := rfl
          rw [kept, List.foldl_cons, later, List.flatMap_cons, List.countP_cons, List.countP_cons]
          cases outcome with
          | checked diagnostics =>
              simp [add, ProcessedFile.diagnostics, ProcessedFile.isChecked, Nat.add_assoc,
                Nat.add_comm 1]
          | skipped =>
              simp [add, ProcessedFile.diagnostics, ProcessedFile.isChecked, Nat.add_assoc,
                Nat.add_comm 1]

def LintResult.ofFiles (root : String) (files : List ProcessedFile) : LintResult where
  diagnostics := (files.flatMap (ProcessedFile.reports root)).mergeSort
    fun left right => (left.order right).isLE
  filesChecked := files.countP ProcessedFile.isChecked
  filesSkipped := files.countP fun file => ¬ file.isChecked

theorem Analyzer.merge_eq_ok (root : String) {files : List ProcessedFile}
    (succeeded : ∀ file ∈ files, file.outcome.isOk) :
    merge root (files.map ProcessedFile.outcome) = .ok (LintResult.ofFiles root files) := by
  have collected : collect (files.map ProcessedFile.outcome) =
      .ok (files.filterMap fun file => file.outcome.toOption) := by
    rw [collect_eq_ok, List.filterMap_map]
    · rfl
    · intro outcome member
      rcases List.mem_map.mp member with ⟨file, inside, rfl⟩
      exact succeeded file inside
  have relative : (files.flatMap ProcessedFile.diagnostics).map (Diagnostic.relativeTo root) =
      files.flatMap (ProcessedFile.reports root) := List.map_flatMap
  rw [merge, collected, Except.map, LintResult.ofOutcomes, LintResult.foldl_add succeeded]
  simp only [LintResult.relativeTo, LintResult.sort, LintResult.empty, List.nil_append,
    Nat.zero_add, relative]
  rfl

theorem LintResult.ofFiles_of_perm {root : String} {files others : List ProcessedFile}
    (separate : ProcessedFile.Separate root files) (perm : others.Perm files) :
    ofFiles root others = ofFiles root files := by
  have sorted := Order.mergeSort_eq_of_filter_key_eq Diagnostic.order_eq_eq_iff_key
    (separate.filter_key_of_perm perm)
  rw [ofFiles, ofFiles, sorted, perm.countP_eq, perm.countP_eq]

/-- Files that are separate are merged to one result in whatever order they were processed. It has the
diagnostics of all files, in order; those of one file with the same key stay in the order in which they
were found. If some file failed, every order fails. -/
theorem merge_of_perm {root : String} {files : List ProcessedFile}
    (separate : ProcessedFile.Separate root files) :
    ((∀ file ∈ files, file.outcome.isOk) →
      ∃ result : LintResult,
        (∀ others : List ProcessedFile, others.Perm files →
          Analyzer.merge root (others.map ProcessedFile.outcome) = .ok result) ∧
        result.diagnostics.Perm (files.flatMap (ProcessedFile.reports root)) ∧
        result.diagnostics.Pairwise Diagnostic.Precedes ∧
        (∀ file ∈ files, ∀ diagnostic ∈ file.reports root,
          Path.components file.path =
              Path.components root ++ Path.components diagnostic.location.file ∧
            result.diagnostics.filter (·.key = diagnostic.key) =
              (file.reports root).filter (·.key = diagnostic.key)) ∧
        result.filesChecked = files.countP ProcessedFile.isChecked ∧
        result.filesChecked + result.filesSkipped = files.length) ∧
      ((∃ file ∈ files, file.outcome.isOk = false) →
        ∀ others : List ProcessedFile, others.Perm files →
          ∃ error, Analyzer.merge root (others.map ProcessedFile.outcome) = .error error) := by
  constructor
  · intro succeeded
    refine ⟨.ofFiles root files, ?_, List.mergeSort_perm .., ?_, ?_, rfl, ?_⟩
    · intro others perm
      rw [Analyzer.merge_eq_ok root fun file member => succeeded file (perm.mem_iff.mp member),
        LintResult.ofFiles_of_perm separate perm]
    · exact (Order.pairwise_mergeSort _).imp Diagnostic.isLE_order_iff.mp
    · intro file member diagnostic reported
      refine ⟨separate.components_eq member reported, ?_⟩
      rw [← separate.filter_key_flatMap member reported]
      exact Order.filter_key_mergeSort Diagnostic.order_eq_eq_iff_key ..
    · exact (List.length_eq_countP_add_countP ProcessedFile.isChecked).symm
  · rintro ⟨file, member, failed⟩ others perm
    have outcomes : ∃ outcome ∈ others.map ProcessedFile.outcome, outcome.isOk = false :=
      ⟨file.outcome, List.mem_map_of_mem (perm.mem_iff.mpr member), failed⟩
    rcases Analyzer.collect_eq_error outcomes with ⟨error, equal⟩
    refine ⟨error, ?_⟩
    rw [Analyzer.merge, equal]
    rfl

namespace ProcessedFile

def tiedReport (file message : String) : Diagnostic where
  code := "SR0003"
  rule := "null-guard"
  severity := .warning
  location := { file, line := 3, column := 5 }
  message := message

/-- A file with two reports at one place, one with a report at the same place of another file, and one
that was skipped. -/
def tiedFiles : List ProcessedFile :=
  [⟨"/Game/Assets/B.cs", .ok (.checked
      [tiedReport "/Game/Assets/B.cs" "second", tiedReport "/Game/Assets/B.cs" "first"])⟩,
    ⟨"/Game/Assets/A.cs", .ok (.checked [tiedReport "/Game/Assets/A.cs" "other"])⟩,
    ⟨"/Game/C.cs", .ok .skipped⟩]

def failedFiles : List ProcessedFile :=
  ⟨"/Game/D.cs", .error (.missingRoot "/Game/D.cs")⟩ :: tiedFiles

theorem merge_of_perm_tiedFiles :
    (∃ result : LintResult,
      Analyzer.merge "/Game" (tiedFiles.map outcome) = .ok result ∧
      Analyzer.merge "/Game" (tiedFiles.reverse.map outcome) = .ok result ∧
      result.diagnostics.filter (·.key = (tiedReport "Assets/B.cs" "first").key) =
        [tiedReport "Assets/B.cs" "second", tiedReport "Assets/B.cs" "first"] ∧
      result.filesChecked = 2 ∧ result.filesChecked + result.filesSkipped = 3) ∧
    ∃ error, Analyzer.merge "/Game" (failedFiles.reverse.map outcome) = .error error := by
  have failedSeparate : Separate "/Game" failedFiles := by
    refine ⟨?_, ?_, ?_⟩ <;> decide +kernel
  have separate : Separate "/Game" tiedFiles := by
    refine ⟨?_, ?_, ?_⟩ <;> decide +kernel
  constructor
  · rcases (merge_of_perm separate).1 (by decide) with
      ⟨result, merged, _, _, ties, checked, all⟩
    have found := (ties _ List.mem_cons_self (tiedReport "Assets/B.cs" "first")
      (by decide +kernel)).2
    refine ⟨result, merged _ (.refl _), merged _ tiedFiles.reverse_perm, found.trans ?_, checked,
      all⟩
    decide +kernel
  · exact (merge_of_perm failedSeparate).2 ⟨_, List.mem_cons_self, rfl⟩ _ failedFiles.reverse_perm

end ProcessedFile

end UnityLint
