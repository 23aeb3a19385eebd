import JvmRoutes.Text.Ranges
import JvmRoutes.Text.PrintableRanges
import JvmRoutes.Text.Hex

/-! Text between quotes, in which every character that cannot be shown is escaped. -/
namespace JvmRoutes.Text

def isPrintable (c : Char) : Bool := inRanges c.toNat printableRanges

/-- Single quotes, or double ones when the text holds single quotes only. -/
def quoteFor (cs : List Char) : Char :=
  if cs.contains '\'' && !cs.contains '"' then '"' else '\''

/-- The shortest of the escapes of two, four and eight digits that can name the character. -/
def escapeCode (c : Char) : List Char :=
  if c.toNat < 0x100 then '\\' :: 'x' :: hexDigits 2 c.toNat
  else if c.toNat < 0x10000 then '\\' :: 'u' :: hexDigits 4 c.toNat
  else '\\' :: 'U' :: hexDigits 8 c.toNat

/-- One character inside the given quotes. -/
def escapeWithin (quote c : Char) : List Char :=
  if c = quote || c = '\\' then ['\\', c]
  else if c = '\n' then ['\\', 'n']
  else if c = '\r' then ['\\', 'r']
  else if c = '\t' then ['\\', 't']
  else if isPrintable c then [c]
  else escapeCode c

def quoted (s : String) : String :=
  let quote := quoteFor s.toList
  String.ofList (quote :: s.toList.flatMap (escapeWithin quote) ++ [quote])

end JvmRoutes.Text
