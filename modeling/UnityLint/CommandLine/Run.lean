import UnityLint.Analyzer
import UnityLint.CommandLine.Output
import UnityLint.Frontend.CSharp
import UnityLint.Rule.Catalogue
import UnityLint.Settings.Source

/-! # Runs of the program -/

namespace UnityLint

structure RunResult where
  code : Nat
  output : String := ""
  failure : Option Failure := none
  files : FileTree

namespace CommandLine

/-! ## Checking -/

def loadSettings (environment : Environment) (source : SettingsSource) :
    Except Failure Settings :=
  match source.path? with
  | none => .ok {}
  | some path =>
      let failure (causes : List String) : Failure :=
        { message := "Failed to load config: " ++ path, causes }
      match environment.readText path with
      | .error error =>
          .error (failure
            ["Failed to read config file " ++ path ++ ": " ++ error.message, error.message])
      | .ok text =>
          match Settings.parse? text with
          | none => .error (failure ["Failed to parse config: TOML parse error"])
          | some settings => .ok settings

def threshold (options : CheckOptions) (settings : Settings) : Except Failure Severity :=
  match options.failOn with
  | some severity => .ok severity
  | none =>
      match settings.threshold with
      | .ok severity => .ok severity
      | .error unknown =>
          .error { message := "Invalid `fail_on` in config"
                   causes := ["Failed to parse config: " ++ unknown.message] }

def check (environment : Environment) (parser : String → Option ParseTree)
    (settingsPath : Option String) (options : CheckOptions) : Except Failure (String × Bool) := do
  let source := SettingsSource.resolve environment options.path settingsPath
  let settings ← loadSettings environment source
  let threshold ← threshold options settings
  let analyzerOptions : AnalyzerOptions :=
    { root := some options.path
      settings := settings
      excludes := options.excludes
      frontends := [Frontend.csharp parser]
      rules := options.preset.rules }
  let analyzer ← (Analyzer.ofOptions analyzerOptions environment.currentPath).mapError fun error =>
    { message := "Failed to build analyzer", causes := error.messages }
  let result ← (analyzer.analyze environment).mapError fun error =>
    { message := "Analysis failed", causes := error.messages }
  let output ← result.format options.format environment analyzer.root
  return (output, result.reaches threshold)

/-! ## Listing the rules -/

def pad (width : Nat) (text : String) : String :=
  text ++ String.ofList (List.replicate (width - text.length) ' ')

def ruleRow (code name severity title : String) : String :=
  pad 8 code ++ " " ++ pad 32 name ++ " " ++ pad 9 severity ++ " " ++ title ++ "\n"

def ruleList : String :=
  "Available rules:\n\n" ++
    ruleRow "Code" "Name" "Severity" "Title" ++
    String.ofList (List.replicate 90 '-') ++ "\n" ++
    String.join (Catalogue.all.map fun descriptor =>
      ruleRow descriptor.id descriptor.name descriptor.severity.name descriptor.title) ++
    "\nPresets:\n" ++
    "  all          - SR0001, SR0002, SR0003, SR0004 (default)\n" ++
    "  performance  - SR0001, SR0002\n" ++
    "  fail-fast    - SR0003, SR0004\n" ++
    "\nSelect a preset with --preset, e.g.:\n" ++
    "  strict-lint check --preset performance\n"

/-! ## Starting a project -/

def settingsName : String :=
  "strict-lint.toml"

def settingsTemplate : String :=
  String.intercalate "\n" [
    "# strict-lint configuration",
    "",
    "# Lowest severity that makes `strict-lint check` exit with status 1",
    "fail_on = \"warning\"",
    "",
    "[analyzer]",
    "# Root directory to analyze (default: current directory)",
    "# root = \".\"",
    "",
    "# Glob patterns to exclude from analysis",
    "exclude = [",
    "    \"**/Library/**\",",
    "    \"**/Temp/**\",",
    "    \"**/obj/**\",",
    "]",
    "",
    "# Respect .gitignore files",
    "respect_gitignore = true",
    "",
    "# Worker threads (default: one per core)",
    "# parallelism = 4",
    "",
    "# Which files count as project code. Paths under `project_root` are always",
    "# analyzed; packages are analyzed only when first-party.",
    "[scope]",
    "project_root = \"Assets\"",
    "vendor_cache = \"PackageCache\"",
    "package_root = \"Packages\"",
    "self_package = \"com.strict-lint.analyzers\"",
    "# first_party_packages = [\"com.example.\"]",
    ""]

def nextSteps : String :=
  "Created " ++ settingsName ++ "\n\nNext steps:\n  1. Edit " ++ settingsName ++
    " to match your project layout\n  2. Run: strict-lint check\n"

/-- Writes a settings file into the working directory. One that is there is kept, unless forced. -/
def start (environment : Environment) (force : Bool) : Except Failure FileTree :=
  if environment.exists? settingsName && !force then
    .error { message := "Configuration file already exists at " ++ settingsName ++
      ". Use --force to overwrite." }
  else
    (environment.files.write environment.current settingsName settingsTemplate.toUTF8).mapError
      fun error => { message := error.message }

/-! ## Runs -/

def versionText : String :=
  "strict-lint 0.2.0\n"

def helpText : String :=
  String.intercalate "\n" [
    "Static analyzer for Unity C# projects",
    "",
    "Usage: strict-lint [OPTIONS] <COMMAND>",
    "",
    "Commands:",
    "  check       Run lint checks",
    "  list-rules  List available rules",
    "  init        Initialize configuration file",
    "  help        Print this message or the help of the given subcommand(s)",
    "",
    "Options:",
    "  -v, --verbose          Enable verbose output",
    "  -c, --config <CONFIG>  Path to configuration file",
    "  -h, --help             Print help",
    "  -V, --version          Print version",
    ""]

def runRequest (environment : Environment) (parser : String → Option ParseTree) :
    Request → RunResult
  | .check settingsPath options =>
      match check environment parser settingsPath options with
      | .ok (output, failed) => { code := if failed then 1 else 0, output, files := environment.files }
      | .error failure => { code := 1, failure := some failure, files := environment.files }
  | .listRules => { code := 0, output := ruleList, files := environment.files }
  | .init force =>
      match start environment force with
      | .ok files => { code := 0, output := nextSteps, files }
      | .error failure => { code := 1, failure := some failure, files := environment.files }
  | .version => { code := 0, output := versionText, files := environment.files }
  | .help => { code := 0, output := helpText, files := environment.files }

def run (environment : Environment) (parser : String → Option ParseTree) (words : List String) :
    RunResult :=
  match Request.parse? words with
  | some request => runRequest environment parser request
  | none => { code := 2, files := environment.files }

end CommandLine

end UnityLint
