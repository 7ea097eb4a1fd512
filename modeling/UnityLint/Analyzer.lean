import UnityLint.Discovery
import UnityLint.Engine
import UnityLint.Exclusion
import UnityLint.Frontend.Basic
import UnityLint.LintResult
import UnityLint.Settings.Basic

/-! # Analysis of a project -/

namespace UnityLint

inductive AnalyzerError where
  | missingRoot (root : String)
  | unreadable (error : FileError)
  | frontend (error : FrontendError)
  | exclusion (error : Glob.Error)
deriving DecidableEq, Repr

namespace AnalyzerError

/-- The message followed by the messages of its causes. -/
def messages : AnalyzerError → List String
  | .missingRoot root =>
      ["IO error: root " ++ root ++ " does not exist", "root " ++ root ++ " does not exist"]
  | .unreadable error => ["IO error: " ++ error.message, error.message]
  | .frontend error => [error.message]
  | .exclusion error => ["Invalid glob pattern: " ++ error.message, error.message]

def message (error : AnalyzerError) : String :=
  error.messages.headD ""

end AnalyzerError

structure AnalyzerOptions where
  root : Option String := none
  settings : Settings := {}
  /-- Patterns tried before those of the settings. -/
  excludes : List String := []
  frontends : List Frontend
  rules : List Rule
  rejectsUnparsable : Bool := false

structure Analyzer where
  root : String
  frontends : List Frontend
  engine : Engine
  exclusions : List Exclusion
  respectGitignore : Bool
  rejectsUnparsable : Bool

inductive FileOutcome where
  | checked (diagnostics : List Diagnostic)
  | skipped
deriving DecidableEq, Repr

namespace LintResult

def add (result : LintResult) : FileOutcome → LintResult
  | .checked diagnostics =>
      { result with
        diagnostics := result.diagnostics ++ diagnostics
        filesChecked := result.filesChecked + 1 }
  | .skipped => { result with filesSkipped := result.filesSkipped + 1 }

end LintResult

def Diagnostic.relativeTo (root : String) (diagnostic : Diagnostic) : Diagnostic :=
  match Path.relativeTo? root diagnostic.location.file with
  | some file => { diagnostic with location := { diagnostic.location with file } }
  | none => diagnostic

namespace LintResult

def relativeTo (root : String) (result : LintResult) : LintResult :=
  { result with diagnostics := result.diagnostics.map (Diagnostic.relativeTo root) }

def ofOutcomes (root : String) (outcomes : List FileOutcome) : LintResult :=
  ((outcomes.foldl add empty).relativeTo root).sort

end LintResult

namespace Analyzer

def ofOptions (options : AnalyzerOptions) (current : String) : Except AnalyzerError Analyzer :=
  match Exclusion.parseAll (options.excludes ++ options.settings.analyzer.exclude) with
  | .error error => .error (.exclusion error)
  | .ok exclusions =>
      .ok {
        root := Path.join current (options.root.getD options.settings.analyzer.root)
        frontends := options.frontends
        engine := Engine.ofRules (ScopeFilter.ofSettings options.settings.scope) options.rules
        exclusions := exclusions
        respectGitignore := options.settings.analyzer.respectGitignore
        rejectsUnparsable := options.rejectsUnparsable }

/-! ## One file -/

def frontend? (analyzer : Analyzer) (path : String) : Option Frontend :=
  analyzer.frontends.find? (·.handles path)

def diagnose (analyzer : Analyzer) (path source : String) :
    Except FrontendError (List Diagnostic) :=
  match analyzer.frontend? path with
  | none => .ok []
  | some frontend =>
      if frontend.isGenerated path source then
        .ok []
      else
        (frontend.parse path source).map fun unit =>
          analyzer.engine.analyze unit.tree unit.resolver

def isGenerated (analyzer : Analyzer) (path source : String) : Bool :=
  (analyzer.frontend? path).any (·.isGenerated path source)

/-- What becomes of a file; one that is not text, or is generated, is skipped. -/
def outcome (analyzer : Analyzer) (path : String) (content : Except FileError String) :
    Except AnalyzerError FileOutcome :=
  match content with
  | .error .notText => .ok .skipped
  | .error error => .error (.unreadable error)
  | .ok source =>
      if analyzer.isGenerated path source then
        .ok .skipped
      else
        match analyzer.diagnose path source with
        | .ok diagnostics => .ok (.checked diagnostics)
        | .error error => if analyzer.rejectsUnparsable then .error (.frontend error) else .ok .skipped

/-! ## All files -/

def excludes (analyzer : Analyzer) (path : String) : Bool :=
  analyzer.exclusions.any (·.applies analyzer.root path)

def files (analyzer : Analyzer) (environment : Environment) : List String :=
  let discovery : Discovery := { environment, respectGitignore := analyzer.respectGitignore }
  Order.sort (fun left right => (Path.order left right).isLE) <|
    (discovery.files analyzer.root).filter fun path =>
      (analyzer.frontend? path).isSome && !analyzer.excludes path

def collect (outcomes : List (Except AnalyzerError FileOutcome)) :
    Except AnalyzerError (List FileOutcome) :=
  outcomes.mapM id

def merge (root : String) (outcomes : List (Except AnalyzerError FileOutcome)) :
    Except AnalyzerError LintResult :=
  (collect outcomes).map (LintResult.ofOutcomes root)

def analyze (analyzer : Analyzer) (environment : Environment) : Except AnalyzerError LintResult :=
  if environment.exists? analyzer.root then
    merge analyzer.root ((analyzer.files environment).map fun path =>
      analyzer.outcome path (environment.readText path))
  else
    .error (.missingRoot analyzer.root)

end Analyzer

end UnityLint
