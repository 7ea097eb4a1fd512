import UnityLint.CommandLine.Run
import UnityLint.ParseTree.Stored

/-! # The command line

Reads the files that a run may ask for, runs it, and prints what it says. -/

namespace UnityLint.Main

abbrev Loaded := List (String × FileTree)

def Loaded.into (loaded : Loaded) (files : FileTree) : FileTree :=
  loaded.foldl (fun files (path, entry) => files.add [] path entry) files

def Loaded.extend (loaded : Loaded) (environment : Environment) : Environment :=
  { environment with files := loaded.into environment.files }

def loadOne (path : String) : IO Loaded := do
  let base ← IO.currentDir
  try
    match (← (base / path).metadata).type with
    | .dir => return [(path, .empty)]
    | _ => return [(path, .file (← IO.FS.readBinFile path))]
  catch _ => return []

def loadAll (paths : List String) : IO Loaded :=
  return (← paths.mapM loadOne).flatten

partial def loadBelow (path : String) : IO Loaded := do
  let base ← IO.currentDir
  let own ← loadOne path
  unless ← (base / path).isDir do
    return own
  let below ← (← (base / path).readDir).toList.mapM fun child => do
    let childPath := Path.join path child.fileName
    match (← child.path.symlinkMetadata).type with
    | .dir => loadBelow childPath
    | .symlink => if ← child.path.isDir then return [] else loadOne childPath
    | _ => loadOne childPath
  return own ++ below.flatten

def namesAbove : List String :=
  SettingsSource.projectMarker :: SettingsSource.projectNames ++
    [".ignore", ".gitignore", ".git", ".git/info/exclude"]

def pathsAbove (path : String) : List String :=
  (Path.ancestors path).flatMap fun directory => namesAbove.map (Path.join directory)

def gitPaths (environment : Environment) (path : String) : List String :=
  (Path.ancestors path).filterMap (fun directory =>
    (GitLayout.ownDirectory? environment (Path.join directory ".git")).map
      (Path.join · "commondir")) ++
    [".gitconfig", ".config/git/config"].map (Path.join environment.home)

def excludePaths (environment : Environment) (path : String) : List String :=
  (Path.ancestors path).filterMap (GitLayout.excludePath? environment) ++
    [GitLayout.userIgnorePath environment]

def loadChecked (environment : Environment) (path : String) (settingsPath : Option String) :
    IO Environment := do
  let absolute := environment.absolute path
  let real ← try pure (← IO.FS.realPath absolute).toString catch _ => pure absolute
  let linked : Loaded := if real = absolute then [] else [(absolute, .link real)]
  let userSettings := Path.join (SettingsSource.globalDirectory environment) "config.toml"
  let chosen := (userSettings :: settingsPath.toList).map environment.absolute
  let own := (← loadBelow real) ++ (← loadAll (pathsAbove real ++ chosen)) ++ linked
  let environment := own.extend environment
  let environment := (← loadAll (gitPaths environment real)).extend environment
  return (← loadAll (excludePaths environment real)).extend environment

def run (words : List String) : IO UInt32 := do
  let current := (← IO.FS.realPath ".").toString
  let bare : Environment :=
    { files := FileTree.empty.add [] current .empty
      current := FileTree.piecesOf current |>.filter (· ≠ "")
      home := (← IO.getEnv "HOME").getD "/"
      settingsDirectory := ← IO.getEnv "STRICT_LINT_CONFIG_DIR" }
  let environment ← match Request.parse? words with
    | some (.check settingsPath options) => loadChecked bare options.path settingsPath
    | some (.init _) => pure ((← loadOne (bare.absolute CommandLine.settingsName)).extend bare)
    | _ => pure bare
  let trees := ParseTree.stored environment.files
  let result := CommandLine.run environment (fun source => trees.lookup source) words
  IO.print result.output
  match result.failure with
  | some failure => IO.eprintln failure.text
  | none =>
      if let some (.init _) := Request.parse? words then
        IO.FS.writeFile CommandLine.settingsName CommandLine.settingsTemplate
  return result.code.toUInt32

end UnityLint.Main

def main (words : List String) : IO UInt32 :=
  UnityLint.Main.run words
