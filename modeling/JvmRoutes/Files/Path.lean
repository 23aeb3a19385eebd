/-! Paths of files: the names on the way to a file. -/
namespace JvmRoutes.Files

/-- A path. It starts from the root if there is a slash in front, of which two are kept apart
from one. -/
structure Path where
  slashes : Nat
  names : List String
  deriving DecidableEq, Repr

namespace Path

/-- How many slashes are kept of those in front. -/
def keptSlashes (count : Nat) : Nat := if count ≤ 2 then count else 1

/-- The path that a text spells. Empty names and single dots are left out. -/
def ofText (text : String) : Path where
  slashes := keptSlashes (text.toList.takeWhile (· == '/')).length
  names := ((text.toList.splitOn '/').map String.ofList).filter fun name => name != "" && name != "."

def text (p : Path) : String :=
  if p.slashes = 0 && p.names.isEmpty then "."
  else String.ofList (List.replicate p.slashes '/') ++ String.intercalate "/" p.names

def append (base p : Path) : Path :=
  if p.slashes = 0 then { base with names := base.names ++ p.names } else p

instance : Append Path := ⟨append⟩

def up : String := ".."

/-- Whether one of the names holds a NUL, so that nothing can go by it. -/
def holdsNul (p : Path) : Bool := p.names.any (·.toList.contains '\x00')

def longest : Nat := 4095

def longestName : Nat := 255

def isTooLong (p : Path) : Bool := decide (longest < p.text.utf8ByteSize)

end Path

end JvmRoutes.Files
