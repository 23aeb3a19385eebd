import JvmRoutes.Json.Basic
import JvmRoutes.Decimal.Shortest
import JvmRoutes.Text.Hex

/-! Documents written with one item a line and two spaces for each level. -/
namespace JvmRoutes.Json

/-- Numbers of a document: those from a ten-thousandth up to ten to the sixteenth without a
power. -/
def numberLayout : Decimal.Layout where
  leastPlain := -4
  greatestPlain := 15
  powerDigits := 2
  infinity := "Infinity"
  noNumber := "NaN"

/-- One character of a text: only the quote, the backslash and control characters are escaped. -/
def escapeChar (c : Char) : List Char :=
  if c = '"' || c = '\\' then ['\\', c]
  else if c = '\n' then ['\\', 'n']
  else if c = '\r' then ['\\', 'r']
  else if c = '\t' then ['\\', 't']
  else if c = '\x08' then ['\\', 'b']
  else if c = '\x0C' then ['\\', 'f']
  else if c.toNat < 0x20 then '\\' :: 'u' :: Text.hexDigits 4 c.toNat
  else [c]

def quote (s : String) : List Char := '"' :: s.toList.flatMap escapeChar ++ ['"']

def lineStart (depth : Nat) : List Char := '\n' :: List.replicate (2 * depth) ' '

/-- Items of a list or an object, separated by commas, between its brackets. -/
def enclose (left right : Char) (depth : Nat) : List (List Char) → List Char
  | [] => [left, right]
  | first :: rest =>
    left :: lineStart (depth + 1) ++ first ++
      rest.flatMap (fun item => ',' :: lineStart (depth + 1) ++ item) ++ lineStart depth ++ [right]

mutual

def printAt (depth : Nat) : Json → List Char
  | null => "null".toList
  | truth true => "true".toList
  | truth false => "false".toList
  | integer n => (toString n).toList
  | real x => (numberLayout.text x).toList
  | text s => quote s
  | array items => enclose '[' ']' depth (printItems (depth + 1) items)
  | object fields => enclose '\x7b' '\x7d' depth (printFields (depth + 1) fields)

def printItems (depth : Nat) : List Json → List (List Char)
  | [] => []
  | item :: rest => printAt depth item :: printItems depth rest

def printFields (depth : Nat) : List (String × Json) → List (List Char)
  | [] => []
  | (key, value) :: rest =>
    (quote key ++ ':' :: ' ' :: printAt depth value) :: printFields depth rest

end

def print (value : Json) : String := String.ofList (printAt 0 value)

end JvmRoutes.Json
