import UnityLint.Environment
import UnityLint.IgnoreFile.Basic

/-! # Ignore files of a repository

Besides the ignore files that lie among the files they speak of, a repository keeps one in its own
directory, and the user keeps one for all repositories. -/

namespace UnityLint.GitLayout

/-! ## The directory of a repository -/

def firstLine? (environment : Environment) (path : String) : Option String :=
  (environment.read path).toOption.bind fun content =>
    (IgnoreFile.lines content.toList).head?.bind fun line => String.fromUTF8? line.toByteArray

def valueAfter? (start line : String) : Option String :=
  (Text.dropStart? start.toList line.toList).map String.ofList

def ownDirectory? (environment : Environment) (marker : String) : Option String :=
  (firstLine? environment marker).bind (valueAfter? "gitdir: ")

/-- The directory that the working trees of a repository have in common. A path that starts with a dot
continues the directory of one working tree. -/
def commonDirectory? (environment : Environment) (marker : String) : Option String := do
  let own ← ownDirectory? environment marker
  let common ← firstLine? environment (Path.join own "commondir")
  return if common.toList.head? = some '.' then Path.join own common else common

def excludePath? (environment : Environment) (directory : String) : Option String :=
  let marker := Path.join directory ".git"
  (if environment.isFile marker then commonDirectory? environment marker else some marker).map
    (Path.join · "info/exclude")

/-! ## The ignore file of the user -/

def isBlank (value : UInt8) : Bool :=
  (9 ≤ value && value ≤ 13) || value = 0x20

def lineFeed : UInt8 := 0x0A
def quote : UInt8 := 0x22
def equals : UInt8 := 0x3D

def atLineEnd (text : List UInt8) : Bool :=
  lineFeed ∈ text.takeWhile isBlank ∨ text.dropWhile isBlank = []

def endsValue (text : List UInt8) : Bool :=
  atLineEnd text ||
    match text.dropWhile isBlank with
    | value :: rest => value = quote && atLineEnd rest
    | [] => true

def value? : List UInt8 → Option (List UInt8)
  | [] => none
  | value :: rest =>
      if isBlank value then none
      else if endsValue rest then some [value]
      else (value? rest).map (value :: ·)

def lowerCase (value : UInt8) : UInt8 :=
  if 0x41 ≤ value && value ≤ 0x5A then value + 0x20 else value

def settingName : List UInt8 :=
  "excludesfile".toUTF8.toList

/-- The value of the setting at the start of a text. A quote in front of it does not belong to it, unless
there is no value without it. -/
def settingAt? (text : List UInt8) : Option (List UInt8) :=
  let named := text.dropWhile isBlank
  if (named.take settingName.length).map lowerCase = settingName then
    match (named.drop settingName.length).dropWhile isBlank with
    | [] => none
    | sign :: rest =>
        if sign ≠ equals then
          none
        else
          match rest.dropWhile isBlank with
          | [] => none
          | first :: others =>
              (if first = quote then value? (others.dropWhile isBlank) else none).or
                (value? (first :: others))
  else
    none

def setting? : (startsLine : Bool) → List UInt8 → Option (List UInt8)
  | _, [] => none
  | startsLine, value :: rest =>
      (if startsLine then settingAt? (value :: rest) else none).or (setting? (value = lineFeed) rest)

def settingIn? (environment : Environment) (path : String) : Option String := do
  let content ← (environment.read path).toOption
  let value ← setting? true content.toList
  let text ← String.fromUTF8? value.toByteArray
  return String.ofList (text.toList.flatMap fun char =>
    if char = '~' then environment.home.toList else [char])

def userIgnorePath (environment : Environment) : String :=
  let inHome := Path.join environment.home
  ((settingIn? environment (inHome ".gitconfig")).or
    (settingIn? environment (inHome ".config/git/config"))).getD (inHome ".config/git/ignore")

end UnityLint.GitLayout
