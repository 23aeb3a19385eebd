/-! The types that one letter of a descriptor stands for. -/
namespace JvmRoutes.Signature

inductive Primitive
  | boolean | byte | char | short | int | float | double | long | void
  deriving DecidableEq, Repr

namespace Primitive

def name : Primitive → String
  | boolean => "boolean"
  | byte => "byte"
  | char => "char"
  | short => "short"
  | int => "int"
  | float => "float"
  | double => "double"
  | long => "long"
  | void => "void"

def letter : Primitive → Char
  | boolean => 'Z'
  | byte => 'B'
  | char => 'C'
  | short => 'S'
  | int => 'I'
  | float => 'F'
  | double => 'D'
  | long => 'J'
  | void => 'V'

def ofLetter? (c : Char) : Option Primitive :=
  [boolean, byte, char, short, int, float, double, long, void].find? (·.letter == c)

def slots : Primitive → Nat
  | double | long => 2
  | _ => 1

theorem ofLetter?_letter (p : Primitive) : ofLetter? p.letter = some p := by cases p <;> rfl

end Primitive

end JvmRoutes.Signature
