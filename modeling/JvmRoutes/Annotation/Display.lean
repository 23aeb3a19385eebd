import JvmRoutes.Annotation.Basic
import JvmRoutes.Decimal.Shortest
import JvmRoutes.Text.Quoted

/-! Element values as text: a text is shown bare, and between quotes inside another value. -/
namespace JvmRoutes

/-- Numbers in element values: those from a ten-thousandth up to ten to the sixteenth without a
power. -/
def Element.numberLayout : Decimal.Layout where
  leastPlain := -4
  greatestPlain := 15
  powerDigits := 2
  infinity := "inf"
  noNumber := "nan"

def truthName (b : Bool) : String := if b then "True" else "False"

def listing (parts : List String) : String := String.intercalate ", " parts

mutual

/-- The value as it is shown inside another one. -/
def Element.literal : Element → String
  | .null => "None"
  | .text s => Text.quoted s
  | .integer n => toString n
  | .real x => Element.numberLayout.text x
  | .truth b => truthName b
  | .constant typeName name =>
    "EnumValue(type_name=" ++ Text.quoted typeName ++ ", name=" ++ Text.quoted name ++ ")"
  | .nested a => a.literal
  | .array items => "[" ++ listing (literals items) ++ "]"

def literals : List Element → List String
  | [] => []
  | e :: rest => e.literal :: literals rest

def Annotation.literal : Annotation → String
  | ⟨typeName, values, visible⟩ =>
    "AnnotationNode(type_name=" ++ Text.quoted typeName ++ ", values=\x7b" ++
      listing (mapLiterals values) ++ "\x7d, visible=" ++ truthName visible ++ ")"

def mapLiterals : OrderedMap Element → List String
  | ⟨entries⟩ => entryLiterals entries

def entryLiterals : List (String × Element) → List String
  | [] => []
  | (name, value) :: rest => (Text.quoted name ++ ": " ++ value.literal) :: entryLiterals rest

end

/-- The value as it is shown by itself. -/
def Element.display : Element → String
  | .text s => s
  | e => e.literal

end JvmRoutes
