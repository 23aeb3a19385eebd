/-! Numbers in base sixteen with a fixed number of digits. -/
namespace JvmRoutes.Text

/-- The last `width` base-sixteen digits of a number, in lower case. -/
def hexDigits : (width : Nat) → Nat → List Char
  | 0, _ => []
  | width + 1, n => hexDigits width (n / 16) ++ [Nat.digitChar (n % 16)]

end JvmRoutes.Text
