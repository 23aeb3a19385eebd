/-! The encoding of names that are not in UTF-8: one byte for each character. -/
namespace JvmRoutes.Archive

def highCharacters : Array Char :=
  ("ÇüéâäàåçêëèïîìÄÅÉæÆôöòûùÿÖÜ¢£¥₧ƒáíóúñÑªº¿⌐¬½¼¡«»░▒▓│┤╡╢╖╕╣║╗╝╜╛┐" ++
  "└┴┬├─┼╞╟╚╔╩╦╠═╬╧╨╤╥╙╘╒╓╫╪┘┌█▄▌▐▀αßΓπΣσµτΦΘΩδ∞φε∩≡±≥≤⌠⌡÷≈°∙·√ⁿ²■\u00a0").toList.toArray

/-- The character of a byte. Those below 128 are characters by themselves. -/
def characterOf (byte : UInt8) : Char :=
  if byte < 128 then Char.ofNat byte.toNat
  else highCharacters.getD (byte.toNat - 128) (Char.ofNat byte.toNat)

def codePageText (bytes : List UInt8) : String := String.ofList (bytes.map characterOf)

end JvmRoutes.Archive
