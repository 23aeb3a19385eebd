/-! Binary floating-point numbers of 64 and 32 bits, as their bit patterns. -/
namespace JvmRoutes.Decimal

/-- A number of 64 bits: one for the sign, eleven for the exponent, 52 for the fraction. -/
structure Binary64 where
  bits : UInt64
  deriving DecidableEq, Repr

namespace Binary64

def isNegative (x : Binary64) : Bool := x.bits.toNat / Nat.pow 2 63 == 1

def exponentBits (x : Binary64) : Nat := x.bits.toNat / Nat.pow 2 52 % Nat.pow 2 11

def fraction (x : Binary64) : Nat := x.bits.toNat % Nat.pow 2 52

def isNaN (x : Binary64) : Bool := x.exponentBits == 2047 && x.fraction != 0

def isInfinite (x : Binary64) : Bool := x.exponentBits == 2047 && x.fraction == 0

def isZero (x : Binary64) : Bool := x.exponentBits == 0 && x.fraction == 0

/-- The integer `m` of the value `m * 2 ^ q` of a finite number. -/
def mantissa (x : Binary64) : Nat :=
  if x.exponentBits = 0 then x.fraction else Nat.pow 2 52 + x.fraction

/-- The power `q` of the value `m * 2 ^ q` of a finite number. -/
def power (x : Binary64) : Int := (if x.exponentBits = 0 then 1 else x.exponentBits : Nat) - 1075

def ofFields (negative : Bool) (exponent fraction : Nat) : Binary64 :=
  ⟨UInt64.ofNat ((if negative then Nat.pow 2 63 else 0) + exponent * Nat.pow 2 52 + fraction)⟩

/-- The number of 64 bits with the value of one of 32 bits: one for the sign, eight for the
exponent, 23 for the fraction. -/
def ofBinary32 (bits : UInt32) : Binary64 :=
  let negative := bits.toNat / Nat.pow 2 31 == 1
  let exponent := bits.toNat / Nat.pow 2 23 % Nat.pow 2 8
  let fraction := bits.toNat % Nat.pow 2 23
  if exponent = 255 then ofFields negative 2047 (fraction * Nat.pow 2 29)
  else if exponent = 0 then
    if fraction = 0 then ofFields negative 0 0
    else
      let top := fraction.log2
      ofFields negative (top + 874) ((fraction - Nat.pow 2 top) * Nat.pow 2 (52 - top))
  else ofFields negative (exponent + 896) (fraction * Nat.pow 2 29)

end Binary64

end JvmRoutes.Decimal
