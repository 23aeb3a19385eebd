/-! Sets of code points given by ascending ranges. -/
namespace JvmRoutes.Text

/-- Whether a code point lies in one of the ranges, which ascend and have both ends in them. -/
def inRanges (code : Nat) : List (Nat × Nat) → Bool
  | [] => false
  | (first, last) :: rest => first ≤ code && (code ≤ last || inRanges code rest)

end JvmRoutes.Text
