import JvmRoutes.Text.Ranges

/-! Blank characters, and text without the blanks around it. -/
namespace JvmRoutes.Text

/-- Tabs, line ends, separators and spaces of any width that has one. -/
def blankRanges : List (Nat × Nat) :=
  [(0x09, 0x0D), (0x1C, 0x20), (0x85, 0x85), (0xA0, 0xA0), (0x1680, 0x1680), (0x2000, 0x200A),
   (0x2028, 0x2029), (0x202F, 0x202F), (0x205F, 0x205F), (0x3000, 0x3000)]

/-- A character that counts as space at the ends of a text. -/
def isBlank (c : Char) : Bool := inRanges c.toNat blankRanges

def trimChars (cs : List Char) : List Char :=
  ((cs.dropWhile isBlank).reverse.dropWhile isBlank).reverse

def trim (s : String) : String := String.ofList (trimChars s.toList)

/-- What is left of a text after trimming, if anything is. -/
def nonBlank? (s : String) : Option String :=
  let t := trim s
  if t = "" then none else some t

end JvmRoutes.Text
