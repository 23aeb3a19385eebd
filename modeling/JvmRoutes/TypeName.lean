import JvmRoutes.Signature.Primitive

/-! Spellings of class names: with dots, with slashes, and inside field descriptors. -/
namespace JvmRoutes.TypeName

def swapChars (a b : Char) (cs : List Char) : List Char := cs.map fun c => if c = a then b else c

def swap (a b : Char) (s : String) : String := String.ofList (swapChars a b s.toList)

def dotted (name : String) : String := swap '/' '.' name

def slashed (name : String) : String := swap '.' '/' name

/-- What stands behind the last dot. -/
def simple (name : String) : String :=
  String.ofList (name.toList.reverse.takeWhile (· != '.')).reverse

/-- The class name between `L` and `;`, if the characters are of that form. -/
def classBody? : List Char → Option (List Char)
  | 'L' :: rest =>
    match rest.reverse with
    | ';' :: body => some body.reverse
    | _ => none
  | _ => none

/-- The name that a field descriptor stands for. Text that is no descriptor is taken for a name
with slashes. -/
def describedChars : List Char → List Char
  | [] => []
  | c :: rest =>
    match classBody? (c :: rest) with
    | some body => swapChars '/' '.' body
    | none =>
      match rest, Signature.Primitive.ofLetter? c with
      | [], some p => p.name.toList
      | _, _ =>
        if c = '[' then describedChars rest ++ ['[', ']'] else swapChars '/' '.' (c :: rest)

def described (descriptor : String) : String := String.ofList (describedChars descriptor.toList)

end JvmRoutes.TypeName
