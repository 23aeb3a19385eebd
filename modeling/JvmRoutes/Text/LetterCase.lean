import JvmRoutes.Text.Ranges
import JvmRoutes.Text.CaseRuns
import JvmRoutes.Text.CasedRanges
import JvmRoutes.Text.IgnorableRanges

/-! Upper and lower case of a whole text. -/
namespace JvmRoutes.Text

def CaseRun.image? (run : CaseRun) (code : Nat) : Option Nat :=
  if run.first ≤ code && code ≤ run.last && (code - run.first) % run.step == 0 then
    some (run.target + (code - run.first))
  else none

/-- The images of one character: an expansion, a run, or the character itself. -/
def recase (expansions : List (Nat × List Nat)) (runs : List CaseRun) (c : Char) : List Char :=
  match expansions.lookup c.toNat with
  | some codes => codes.map Char.ofNat
  | none =>
    match runs.findSome? (·.image? c.toNat) with
    | some code => [Char.ofNat code]
    | none => [c]

def upperChar : Char → List Char := recase upperExpansions upperRuns

/-- The lower case of one character, wherever it stands. -/
def lowerChar : Char → List Char := recase lowerExpansions lowerRuns

def upper (s : String) : String := String.ofList (s.toList.flatMap upperChar)

/-- Whether a letter with case is met before anything else that counts. -/
def meetsCased (cs : List Char) : Bool :=
  match cs.dropWhile (fun c => inRanges c.toNat ignorableRanges) with
  | [] => false
  | c :: _ => inRanges c.toNat casedRanges

/-- The lower case of characters after others, these in reverse: a sigma that ends a word is
written in its final form. -/
def lowerAfter (before : List Char) : List Char → List Char
  | [] => []
  | c :: rest =>
    let image :=
      if c = 'Σ' then [if meetsCased before && !meetsCased rest then 'ς' else 'σ']
      else lowerChar c
    image ++ lowerAfter (c :: before) rest

def lower (s : String) : String := String.ofList (lowerAfter [] s.toList)

end JvmRoutes.Text
