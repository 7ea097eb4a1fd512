import UnityLint.GitLayout

/-! # Discovery

The files below a root, apart from those that ignore files leave out. An ignored directory hides all
that is below it, and a linked directory is not entered. -/

namespace UnityLint

structure Discovery where
  environment : Environment
  respectGitignore : Bool

structure IgnoreLevel where
  depth : Nat
  ignore : IgnoreFile
  gitignore : IgnoreFile
  exclude : IgnoreFile

namespace Discovery

def ignoreFileAt (discovery : Discovery) (path : String) : IgnoreFile :=
  match discovery.environment.read path with
  | .ok content => .ofContent content.toList
  | .error _ => []

def level (discovery : Discovery) (path : String) (place : Place) : IgnoreLevel where
  depth := place.length
  ignore := discovery.ignoreFileAt (Path.join path ".ignore")
  gitignore :=
    if discovery.respectGitignore then discovery.ignoreFileAt (Path.join path ".gitignore") else []
  exclude :=
    ((GitLayout.excludePath? discovery.environment path).map discovery.ignoreFileAt).getD []

def levelsAbove (discovery : Discovery) (place : Place) : List IgnoreLevel :=
  (List.range place.length).reverse.map fun depth =>
    discovery.level (FileTree.pathOf (place.take depth)) (place.take depth)

def userFile (discovery : Discovery) : IgnoreFile :=
  discovery.ignoreFileAt (GitLayout.userIgnorePath discovery.environment)

def relativeBytes (names : List String) : List UInt8 :=
  (String.intercalate "/" names).toUTF8.toList

/-- What the ignore files of one kind say of a place; the nearest one that says something decides. -/
def verdictOf? (kind : IgnoreLevel → IgnoreFile) (levels : List IgnoreLevel) (place : Place)
    (isDirectory : Bool) : Option IgnoreFile.Verdict :=
  levels.findSome? fun level =>
    (kind level).verdict? (relativeBytes (place.drop level.depth)) isDirectory

def userPath (discovery : Discovery) (path : String) : List Char :=
  match Text.dropStart? discovery.environment.currentPath.toList path.toList with
  | some ('/' :: rest) => rest
  | some rest => rest
  | none => path.toList

/-- An entry is left out. The kinds of ignore files are asked in order, and the first that says something
decides. -/
def isIgnored (discovery : Discovery) (userFile : IgnoreFile) (levels : List IgnoreLevel)
    (place : Place) (path : String) (isDirectory : Bool) : Bool :=
  ((verdictOf? IgnoreLevel.ignore levels place isDirectory).or <|
    (verdictOf? IgnoreLevel.gitignore levels place isDirectory).or <|
      (verdictOf? IgnoreLevel.exclude levels place isDirectory).or <|
        userFile.verdict? (IgnoreFile.Wildcard.bytes (discovery.userPath path)) isDirectory) =
    some .ignored

mutual

def filesFrom (discovery : Discovery) (userFile : IgnoreFile) (above : List IgnoreLevel)
    (path : String) (place : Place) : FileTree → List String
  | .directory entries =>
      filesAmong discovery userFile (discovery.level path place :: above) path place entries
  | _ => if discovery.environment.isFile path then [path] else []

def filesAmong (discovery : Discovery) (userFile : IgnoreFile) (levels : List IgnoreLevel)
    (path : String) (place : Place) : List (String × FileTree) → List String
  | [] => []
  | (name, entry) :: rest =>
      (if discovery.isIgnored userFile levels (place ++ [name]) (Path.join path name)
          entry.isDirectory then []
        else filesFrom discovery userFile levels (Path.join path name) (place ++ [name]) entry) ++
        filesAmong discovery userFile levels path place rest

end

def files (discovery : Discovery) (root : String) : List String :=
  match discovery.environment.realPlace? root with
  | none => []
  | some place =>
      ((discovery.environment.files.find? place).map
        (discovery.filesFrom discovery.userFile (discovery.levelsAbove place) root place)).getD []

end Discovery

end UnityLint
