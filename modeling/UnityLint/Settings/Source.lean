import UnityLint.Environment
import UnityLint.Settings.Basic

/-! # Where settings come from

A path that is given wins. Otherwise the directory to check and those above it are searched, up to the
root of the project, and last the directory for settings of the user. -/

namespace UnityLint

inductive SettingsSource where
  | explicit (path : String)
  | project (path : String)
  | global (path : String)
  | standard
deriving DecidableEq, Repr

namespace SettingsSource

def path? : SettingsSource → Option String
  | .explicit path => some path
  | .project path => some path
  | .global path => some path
  | .standard => none

def isGlobal : SettingsSource → Bool
  | .global _ => true
  | _ => false

def projectNames : List String :=
  ["strict-lint.toml", ".strict-lint.toml"]

def projectMarker : String :=
  "ProjectSettings"

/-- The first settings file in a chain of directories, which ends after the root of the project. -/
def searchProject (environment : Environment) : List String → Option String
  | [] => none
  | directory :: above =>
      match (projectNames.map (Path.join directory)).find? environment.isFile with
      | some found => some found
      | none =>
          if environment.isDirectory (Path.join directory projectMarker) then none
          else searchProject environment above

def globalDirectory (environment : Environment) : String :=
  environment.settingsDirectory.getD (Path.join environment.home ".strict-lint")

def choose (environment : Environment) (chain : List String) (explicitPath : Option String)
    (userDirectory : Option String) : SettingsSource :=
  match explicitPath with
  | some path => .explicit path
  | none =>
      match searchProject environment chain with
      | some path => .project path
      | none =>
          match (userDirectory.map (Path.join · "config.toml")).filter environment.isFile with
          | some path => .global path
          | none => .standard

def resolve (environment : Environment) (start : String) (explicitPath : Option String) :
    SettingsSource :=
  let real := ((environment.realPlace? start).map FileTree.pathOf).getD start
  choose environment (Path.ancestors real) explicitPath (some (globalDirectory environment))

end SettingsSource

end UnityLint
