import UnityLint.FileTree

/-! # Surroundings of a run -/

namespace UnityLint

structure Environment where
  files : FileTree
  /-- The working directory, which is not below a link. -/
  current : Place
  home : String
  settingsDirectory : Option String := none

namespace Environment

def currentPath (environment : Environment) : String :=
  FileTree.pathOf environment.current

def absolute (environment : Environment) (path : String) : String :=
  Path.join environment.currentPath path

def isFile (environment : Environment) (path : String) : Bool :=
  (environment.files.entryOf? environment.current path).any FileTree.isFile

def isDirectory (environment : Environment) (path : String) : Bool :=
  (environment.files.entryOf? environment.current path).any FileTree.isDirectory

def exists? (environment : Environment) (path : String) : Bool :=
  (environment.files.entryOf? environment.current path).isSome

def readText (environment : Environment) (path : String) : Except FileError String :=
  environment.files.readText environment.current path

def read (environment : Environment) (path : String) : Except FileError ByteArray :=
  environment.files.read environment.current path

/-- Where a path leads after all links, however long it is. -/
def realPlace? (environment : Environment) (path : String) : Option Place :=
  (environment.files.follow false environment.current path).toOption

end Environment

end UnityLint
