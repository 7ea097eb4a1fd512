import UnityLint.Text.Basic

/-! # Scope

Whether a file belongs to the project is decided from its path alone. A marker is a directory name;
first-party packages are known by how their directory names begin. -/

namespace UnityLint

structure ScopeSettings where
  projectRoot : String := "Assets"
  vendorCache : String := "PackageCache"
  packageRoot : String := "Packages"
  selfPackage : String := "com.strict-lint.analyzers"
  firstPartyPackages : List String := []
deriving DecidableEq, Repr

/-- The settings prepared for the search in a path. A marker is empty or enclosed in slashes. -/
structure ScopeFilter where
  projectRoot : List Char
  vendorCache : List Char
  packageRoot : List Char
  selfPackage : List Char
  firstParty : List (List Char)
deriving DecidableEq, Repr

namespace ScopeFilter

def isSlash (char : Char) : Bool :=
  char = '/' ∨ char = '\\'

/-- A marker enclosed in slashes; nothing for a marker that is only slashes. -/
def marker (name : String) : List Char :=
  match Text.trimWhile isSlash name.toList with
  | [] => []
  | trimmed => '/' :: Text.replaceChar '\\' '/' trimmed ++ ['/']

def opening? (name : String) : Option (List Char) :=
  match Text.trimWhile isSlash name.toList with
  | [] => none
  | trimmed => some ('/' :: trimmed)

def ofSettings (settings : ScopeSettings) : ScopeFilter where
  projectRoot := marker settings.projectRoot
  vendorCache := marker settings.vendorCache
  packageRoot := marker settings.packageRoot
  selfPackage := marker settings.selfPackage
  firstParty := settings.firstPartyPackages.filterMap opening?

def standard : ScopeFilter :=
  ofSettings {}

def normalize (path : List Char) : List Char :=
  match Text.replaceChar '\\' '/' path with
  | '/' :: rest => '/' :: rest
  | relative => '/' :: relative

def marks (marker path : List Char) : Bool :=
  marker ≠ [] ∧ Text.occurs marker path

/-- The file at `path` is project code: below the project root, or in a first-party package that is
neither in the vendor cache nor the analyser's own. -/
def includes (filter : ScopeFilter) (path : String) : Bool :=
  let normal := normalize path.toList
  if Text.trim path.toList = [] then false
  else if marks filter.projectRoot normal then true
  else if marks filter.vendorCache normal then false
  else if marks filter.packageRoot normal then
    !marks filter.selfPackage normal && filter.firstParty.any (Text.occurs · normal)
  else false

/-- As `includes`, for a path given by its bytes; one that is not UTF-8 is not project code. -/
def includesBytes (filter : ScopeFilter) (path : ByteArray) : Bool :=
  (String.fromUTF8? path).any filter.includes

end ScopeFilter

end UnityLint
