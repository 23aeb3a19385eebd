import JvmRoutes.Decimal.Binary64

/-!
Shortest decimals: of the decimals with the fewest digits that are rounded to a given binary
number, the nearest to it.
-/
namespace JvmRoutes.Decimal

structure Scaled where
  digits : Nat
  power : Int
  deriving DecidableEq, Repr

/-- The positive reals that are rounded to one binary number, in units of `2 ^ power`. -/
structure Neighbourhood where
  low : Nat
  middle : Nat
  high : Nat
  power : Int
  closed : Bool
  deriving Repr

/-- The reals nearer to a number than to its neighbours. Its ends belong to it when the mantissa
is even, and the lower neighbour of a power of two is half as far away. -/
def Binary64.neighbourhood (x : Binary64) : Neighbourhood where
  low := 4 * x.mantissa - (if x.fraction = 0 && 1 < x.exponentBits then 1 else 2)
  middle := 4 * x.mantissa
  high := 4 * x.mantissa + 2
  power := x.power - 2
  closed := x.mantissa % 2 == 0

namespace Neighbourhood

/-- What one step of the grid of spacing `10 ^ k` is multiplied by, to be compared with units
multiplied by `unitFactor`. -/
def gridFactor (n : Neighbourhood) (k : Int) : Nat :=
  Nat.pow 10 k.toNat * Nat.pow 2 (-n.power).toNat

/-- What one unit is multiplied by, to be compared with grid steps. -/
def unitFactor (n : Neighbourhood) (k : Int) : Nat :=
  Nat.pow 10 (-k).toNat * Nat.pow 2 n.power.toNat

/-- Whether `digits * 10 ^ k` is rounded to the number. -/
def holds (n : Neighbourhood) (k : Int) (digits : Nat) : Bool :=
  let point := digits * n.gridFactor k
  let low := n.low * n.unitFactor k
  let high := n.high * n.unitFactor k
  (low < point && point < high) || (n.closed && (point == low || point == high))

/-- The grid point next to the number that is rounded to it, if one of the two is. The nearer
one is taken, and of two at the same distance the even one. -/
def onGrid? (n : Neighbourhood) (k : Int) : Option Scaled :=
  let middle := n.middle * n.unitFactor k
  let step := n.gridFactor k
  let below := middle / step
  let rest := middle % step
  let lowFirst := 2 * rest < step || (2 * rest == step && below % 2 == 0)
  let candidates := if lowFirst then [below, below + 1] else [below + 1, below]
  (candidates.find? (n.holds k)).map (⟨·, k⟩)

/-- The exponent of the first decimal digit of the number. -/
def leading (n : Neighbourhood) : Int :=
  ((Nat.toDigits 10 (n.middle * n.unitFactor (-324) / n.gridFactor (-324))).length : Int) - 325

/-- The first hit on grids of one digit, two digits and so on. -/
def shortest? (n : Neighbourhood) : Option Scaled :=
  (List.range 17).findSome? fun (count : Nat) => n.onGrid? (n.leading - count)

end Neighbourhood

structure Layout where
  /-- The least exponent of the first digit that is written without a power. -/
  leastPlain : Int
  /-- The greatest exponent of the first digit that is written without a power. -/
  greatestPlain : Int
  /-- The least number of digits in a power. -/
  powerDigits : Nat
  infinity : String
  noNumber : String

def padLeft (width : Nat) (cs : List Char) : List Char :=
  List.replicate (width - cs.length) '0' ++ cs

/-- A decimal with its point in place, and at least one digit behind it. -/
def plain (digits : List Char) (exponent : Int) : List Char :=
  if exponent < 0 then '0' :: '.' :: List.replicate (-exponent - 1).toNat '0' ++ digits
  else
    let whole := exponent.toNat + 1
    let front := digits.take whole
    front ++ List.replicate (whole - front.length) '0' ++ '.' ::
      (match digits.drop whole with
      | [] => ['0']
      | fraction => fraction)

/-- A decimal with one digit before the point, and its power behind it. -/
def scientific (layout : Layout) (digits : List Char) (exponent : Int) : List Char :=
  let power := (if exponent < 0 then '-' else '+') ::
    padLeft layout.powerDigits (Nat.toDigits 10 exponent.natAbs)
  match digits with
  | [] => []
  | [d] => d :: 'e' :: power
  | d :: rest => d :: '.' :: rest ++ 'e' :: power

def significant (n : Nat) : List Char :=
  ((Nat.toDigits 10 n).reverse.dropWhile (· == '0')).reverse

def Layout.scaled (layout : Layout) (s : Scaled) : List Char :=
  let all := Nat.toDigits 10 s.digits
  let exponent := s.power + all.length - 1
  if layout.leastPlain ≤ exponent && exponent ≤ layout.greatestPlain then
    plain (significant s.digits) exponent
  else scientific layout (significant s.digits) exponent

def Layout.text (layout : Layout) (x : Binary64) : String :=
  if x.isNaN then layout.noNumber
  else
    (if x.isNegative then "-" else "") ++
      if x.isInfinite then layout.infinity
      else if x.isZero then "0.0"
      else String.ofList ((x.neighbourhood.shortest?.map layout.scaled).getD [])

end JvmRoutes.Decimal
