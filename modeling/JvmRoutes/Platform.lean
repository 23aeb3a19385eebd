import JvmRoutes.Text.LetterCase

/-! Platforms whose compiled classes can be read. -/
namespace JvmRoutes

inductive Platform
  | jvm
  deriving DecidableEq, Repr

/-- A platform, in lower case, that no classes can be read of. -/
structure UnsupportedPlatform where
  name : String
  deriving DecidableEq, Repr

def UnsupportedPlatform.message (p : UnsupportedPlatform) : String :=
  "Unsupported platform: " ++ p.name

/-- The platform of a name in any case: languages compiled for the virtual machine name it too. -/
def Platform.ofName (name : String) : Except UnsupportedPlatform Platform :=
  let name := Text.lower name
  if ["jvm", "java", "kotlin"].contains name then .ok .jvm else .error ⟨name⟩

end JvmRoutes
