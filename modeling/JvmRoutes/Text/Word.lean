import JvmRoutes.Text.Ranges
import JvmRoutes.Text.WordRanges

/-! Word characters: letters and numbers of every script, and the underscore. -/
namespace JvmRoutes.Text

/-- A character that can stand in a name. -/
def isWord (c : Char) : Bool := inRanges c.toNat wordRanges

end JvmRoutes.Text
