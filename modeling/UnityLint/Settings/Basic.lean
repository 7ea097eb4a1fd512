import UnityLint.Diagnostic.Severity
import UnityLint.Scope
import UnityLint.Toml.Reader

/-! # Settings -/

namespace UnityLint

structure AnalyzerSettings where
  root : String := "."
  exclude : List String := ["**/Library/**", "**/Temp/**", "**/obj/**"]
  respectGitignore : Bool := true
  parallelism : Option Nat := none
deriving DecidableEq, Repr

structure Settings where
  failOn : Option String := none
  analyzer : AnalyzerSettings := {}
  scope : ScopeSettings := {}
deriving DecidableEq, Repr

namespace Settings

def threshold (settings : Settings) : Except Severity.Unknown Severity :=
  match settings.failOn with
  | none => .ok .warning
  | some text => Severity.parse text

/-! ## Reading -/

def fieldOr {α : Type} (default : α) (read? : Toml → Option α) (field : Option Toml) : Option α :=
  field.elim (some default) read?

def analyzerOf? (value : Toml) : Option AnalyzerSettings :=
  let standard : AnalyzerSettings := {}
  match Toml.record ["root", "exclude", "respect_gitignore", "parallelism"] value with
  | some [root, exclude, respectGitignore, parallelism] => do
      let root ← fieldOr standard.root Toml.text? root
      let exclude ← fieldOr standard.exclude (Toml.list? Toml.text?) exclude
      let respectGitignore ← fieldOr standard.respectGitignore Toml.boolean? respectGitignore
      let parallelism ← fieldOr standard.parallelism (Toml.nat? · |>.map some) parallelism
      some { root, exclude, respectGitignore, parallelism }
  | _ => none

def scopeOf? (value : Toml) : Option ScopeSettings :=
  let standard : ScopeSettings := {}
  match Toml.record ["project_root", "vendor_cache", "package_root", "self_package",
      "first_party_packages"] value with
  | some [projectRoot, vendorCache, packageRoot, selfPackage, firstPartyPackages] => do
      let projectRoot ← fieldOr standard.projectRoot Toml.text? projectRoot
      let vendorCache ← fieldOr standard.vendorCache Toml.text? vendorCache
      let packageRoot ← fieldOr standard.packageRoot Toml.text? packageRoot
      let selfPackage ← fieldOr standard.selfPackage Toml.text? selfPackage
      let firstPartyPackages ←
        fieldOr standard.firstPartyPackages (Toml.list? Toml.text?) firstPartyPackages
      some { projectRoot, vendorCache, packageRoot, selfPackage, firstPartyPackages }
  | _ => none

def ofToml? (value : Toml) : Option Settings :=
  match Toml.record ["fail_on", "analyzer", "scope"] value with
  | some [failOn, analyzer, scope] => do
      let failOn ← fieldOr none (Toml.text? · |>.map some) failOn
      let analyzer ← fieldOr {} analyzerOf? analyzer
      let scope ← fieldOr {} scopeOf? scope
      some { failOn, analyzer, scope }
  | _ => none

def parse? (text : String) : Option Settings :=
  (Toml.read? text.toList).bind ofToml?

end Settings

end UnityLint
