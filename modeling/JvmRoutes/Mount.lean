import JvmRoutes.Text.Blank

/-! Mounts: controllers and the paths they are put below. -/
namespace JvmRoutes

/-- A controller type, and the path that its routes are put below. -/
structure Mount where
  controller : String
  base : Option String := none
  deriving Repr, DecidableEq

/-- The mount that a text spells: a controller, and a path behind an equals sign. -/
def Mount.ofText (text : String) : Mount where
  controller := String.ofList (Text.trimChars (text.toList.takeWhile (· != '=')))
  base := Text.nonBlank? (String.ofList ((text.toList.dropWhile (· != '=')).drop 1))

end JvmRoutes
