import JvmRoutes.Archive.Unpacking

/-! Codes in which no word starts another one, given by the lengths of their words. -/
namespace JvmRoutes.Archive

/-- A code: for each length from one on, the symbols with words of that length in the order of
their words. Words of one length are consecutive numbers, behind the words that start with a
shorter one. -/
structure PrefixCode where
  levels : List (Array Nat)
  deriving Repr

namespace PrefixCode

/-- The code that gives each symbol a word of some length of at most `longest`, and none to a
symbol of length zero. Words of one length follow their symbols. -/
def ofLengths (longest : Nat) (lengths : List Nat) : PrefixCode :=
  let symbols := lengths.zipIdx
  ⟨(List.range longest).map fun i => ((symbols.filter (·.1 == i + 1)).map (·.2)).toArray⟩

/-- How many words of the greatest length are left over. Below zero, there are not enough words
for all symbols. -/
def spare (code : PrefixCode) : Int :=
  code.levels.foldl (fun (free : Int) symbols => 2 * free - symbols.size) 1

/-- The symbol of a word of which some bits have been read. As a number these are `word`, and the
words of their length start from `first`. -/
def decodeFrom (bit : Unpacker Bool) (word first : Nat) : List (Array Nat) → Unpacker Nat
  | [] => Unpacker.refuse
  | symbols :: deeper => do
    let word := 2 * word + (← bit).toNat
    match symbols[word - first]? with
    | some symbol => return symbol
    | none => decodeFrom bit word (2 * (first + symbols.size)) deeper

def decode (code : PrefixCode) (bit : Unpacker Bool) : Unpacker Nat :=
  decodeFrom bit 0 0 code.levels

end PrefixCode

end JvmRoutes.Archive
