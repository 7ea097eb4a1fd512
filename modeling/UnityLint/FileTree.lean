import UnityLint.Path

/-! # File trees

A file system held in memory. A place is the list of names that leads from the root to an entry,
without links on the way. -/

namespace UnityLint

abbrev Place := List String

/-- An entry with all that is below it. The entries of a directory are kept in the order of their
names. -/
inductive FileTree where
  | directory (entries : List (String × FileTree))
  | file (content : ByteArray)
  | link (target : String)

inductive FileError where
  | missing
  | notDirectory
  | isDirectory
  | nameTooLong
  | tooManyLinks
  | notText
deriving DecidableEq, Repr

def FileError.message : FileError → String
  | .missing => "No such file or directory (os error 2)"
  | .notDirectory => "Not a directory (os error 20)"
  | .isDirectory => "Is a directory (os error 21)"
  | .nameTooLong => "File name too long (os error 36)"
  | .tooManyLinks => "Too many levels of symbolic links (os error 40)"
  | .notText => "stream did not contain valid UTF-8"

namespace FileTree

def empty : FileTree :=
  .directory []

def isDirectory : FileTree → Bool
  | .directory _ => true
  | _ => false

def isFile : FileTree → Bool
  | .file _ => true
  | _ => false

/-! ## Entries -/

def putEntry (name : String) (entry : FileTree) :
    List (String × FileTree) → List (String × FileTree)
  | [] => [(name, entry)]
  | (head, old) :: rest =>
      match Order.compareText name head with
      | .lt => (name, entry) :: (head, old) :: rest
      | .eq => (name, entry) :: rest
      | .gt => (head, old) :: putEntry name entry rest

def find? : FileTree → Place → Option FileTree
  | tree, [] => some tree
  | .directory entries, name :: rest => (entries.lookup name).bind (find? · rest)
  | _, _ :: _ => none

/-- Puts an entry at a place, instead of one that is there. Directories on the way are made, but nothing is
put below a file or a link. -/
def set : FileTree → Place → FileTree → FileTree
  | _, [], entry => entry
  | .directory entries, name :: rest, entry =>
      .directory (putEntry name (set ((entries.lookup name).getD empty) rest entry) entries)
  | tree, _ :: _, _ => tree

theorem lookup_cons (name head : String) (entry : FileTree) (rest : List (String × FileTree)) :
    ((head, entry) :: rest).lookup name = if name = head then some entry else rest.lookup name := by
  by_cases same : name = head
  · simp [same]
  · rw [List.lookup_cons, beq_false_of_ne same, if_neg same]

theorem lookup_putEntry (name other : String) (entry : FileTree)
    (entries : List (String × FileTree)) :
    (putEntry name entry entries).lookup other =
      if other = name then some entry else entries.lookup other := by
  induction entries with
  | nil => rw [putEntry, lookup_cons]
  | cons head rest induction =>
      obtain ⟨head, old⟩ := head
      rw [putEntry]
      split
      · rw [lookup_cons]
      · rename_i equal
        rw [(Order.compareText_eq_iff name head).mp equal, lookup_cons, lookup_cons]
        split <;> rfl
      · rename_i later
        have apart : head ≠ name := by
          intro same
          rw [(Order.compareText_eq_iff name head).mpr same.symm] at later
          contradiction
        rw [lookup_cons, lookup_cons, induction]
        by_cases same : other = head
        · rw [if_pos same, if_pos same, if_neg (same ▸ apart)]
        · rw [if_neg same, if_neg same]

theorem find?_set (tree entry : FileTree) (place : Place)
    (inDirectory : (tree.find? place.dropLast).any isDirectory) :
    (tree.set place entry).find? place = some entry := by
  induction place generalizing tree with
  | nil => simp [set, find?]
  | cons name rest induction =>
      cases rest with
      | nil => cases tree <;> simp_all [set, find?, isDirectory, lookup_putEntry]
      | cons next others =>
          cases tree with
          | directory entries =>
              rw [List.dropLast_cons_cons, find?] at inDirectory
              cases found : entries.lookup name with
              | none => simp [found] at inDirectory
              | some child =>
                  have inChild := induction child (by simpa [found] using inDirectory)
                  simp [set, find?, lookup_putEntry, found, inChild]
          | file content => simp [find?] at inDirectory
          | link target => simp [find?] at inDirectory

def isDirectoryAt (tree : FileTree) (place : Place) : Bool :=
  (tree.find? place).any isDirectory

/-! ## Following paths -/

def linkLimit : Nat := 40

def nameLimit : Nat := 255

/-- A path that is handed over to the file system has fewer bytes. -/
def pathLimit : Nat := 4096

def startOf (place : Place) (path : String) : Place :=
  if Path.isAbsolute path then [] else place

def piecesOf (path : String) : List String :=
  (Text.pieces Path.isSeparator path.toList).map String.ofList

/-- The file that is to be created is named like a directory: slashes follow it. -/
def namesDirectory (creating : Bool) (rest : List String) : Bool :=
  creating && !rest.isEmpty && rest.all (· = "")

/-- Goes from a place along the pieces of a path. The pieces of a link stand in for its name, and at most
`links` links are followed. With `creating` the last name may be missing. -/
def walk (tree : FileTree) :
    (links : Nat) → (creating : Bool) → Place → List String → Except FileError Place
  | _, _, place, [] => .ok place
  | links, creating, place, piece :: rest =>
      if !tree.isDirectoryAt place then
        .error .notDirectory
      else if piece = "" ∨ piece = "." then
        walk tree links creating place rest
      else if piece = ".." then
        walk tree links creating place.dropLast rest
      else if namesDirectory creating rest then
        .error .isDirectory
      else if nameLimit < piece.utf8ByteSize then
        .error .nameTooLong
      else
        match tree.find? (place ++ [piece]) with
        | none =>
            if creating ∧ rest = [] then .ok (place ++ [piece]) else .error .missing
        | some (.link target) =>
            match links with
            | 0 => .error .tooManyLinks
            | links + 1 => walk tree links creating (startOf place target) (piecesOf target ++ rest)
        | some _ => walk tree links creating (place ++ [piece]) rest
termination_by links _ _ pieces => (links, pieces.length)

def follow (tree : FileTree) (creating : Bool) (current : Place) (path : String) :
    Except FileError Place :=
  if path = "" then .error .missing
  else tree.walk linkLimit creating (startOf current path) (piecesOf path)

def resolve (tree : FileTree) (current : Place) (path : String) : Except FileError Place :=
  if pathLimit ≤ path.utf8ByteSize then .error .nameTooLong
  else tree.follow false current path

def entryOf? (tree : FileTree) (current : Place) (path : String) : Option FileTree :=
  (tree.resolve current path).toOption.bind tree.find?

def pathOf (place : Place) : String :=
  "/" ++ String.intercalate "/" place

/-! ## Contents -/

def read (tree : FileTree) (current : Place) (path : String) : Except FileError ByteArray :=
  match tree.resolve current path with
  | .error error => .error error
  | .ok place =>
      match tree.find? place with
      | some (.file content) => .ok content
      | some _ => .error .isDirectory
      | none => .error .missing

def readText (tree : FileTree) (current : Place) (path : String) : Except FileError String :=
  match tree.read current path with
  | .error error => .error error
  | .ok content =>
      match String.fromUTF8? content with
      | some text => .ok text
      | none => .error .notText

def write (tree : FileTree) (current : Place) (path : String) (content : ByteArray) :
    Except FileError FileTree :=
  match tree.follow true current path with
  | .error error => .error error
  | .ok place =>
      if tree.isDirectoryAt place then .error .isDirectory
      else .ok (tree.set place (.file content))

def makeDirectories : FileTree → Place → List String → FileTree × Place
  | tree, place, [] => (tree, place)
  | tree, place, name :: rest =>
      match tree.walk linkLimit false place [name] with
      | .ok found => makeDirectories tree found rest
      | .error _ =>
          makeDirectories (tree.set (place ++ [name]) empty) (place ++ [name]) rest

def add (tree : FileTree) (current : Place) (path : String) (entry : FileTree) : FileTree :=
  let pieces := piecesOf path
  let (tree, parent) := tree.makeDirectories (startOf current path) pieces.dropLast
  match entry, pieces.getLast? with
  | _, none => tree
  | .directory _, some name => (tree.makeDirectories parent [name]).1
  | .file content, some name => ((tree.write parent name content).toOption).getD tree
  | .link target, some name => tree.set (parent ++ [name]) (.link target)

end FileTree

end UnityLint
