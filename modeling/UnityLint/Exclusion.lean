import UnityLint.Glob.Basic
import UnityLint.Path

/-! # Excluded files -/

namespace UnityLint

structure Exclusion where
  text : List Char
  glob : Glob
deriving DecidableEq, Repr

namespace Exclusion

def parse (pattern : String) : Except Glob.Error Exclusion :=
  (Exclusion.mk pattern.toList ·) <$> Glob.parse pattern.toList

def parseAll : List String → Except Glob.Error (List Exclusion)
  | [] => .ok []
  | pattern :: rest => do
      let first ← parse pattern
      let others ← parseAll rest
      .ok (first :: others)

def normalize (path : String) : List Char :=
  Text.replaceChar '\\' '/' path.toList

def plainText (exclusion : Exclusion) : List Char :=
  Text.dropPairs '*' exclusion.text

/-- The glob describes the path or the path from the root on, or its plain text stands somewhere in the
path. -/
def applies (exclusion : Exclusion) (root path : String) : Bool :=
  let whole := normalize path
  let relative := normalize ((Path.relativeTo? root path).getD "")
  exclusion.glob.matches? whole ||
    (relative ≠ [] && exclusion.glob.matches? relative) ||
    (exclusion.plainText ≠ [] && exclusion.plainText ≠ ['/'] &&
      Text.occurs exclusion.plainText whole)

end Exclusion

end UnityLint
