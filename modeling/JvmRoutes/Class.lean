import JvmRoutes.Annotation.Basic

/-! Compiled classes, as far as routes depend on them. -/
namespace JvmRoutes

/-- A variable of a method body, with the slot and the first instruction it is valid for. -/
structure LocalVariable where
  name : String
  descriptor : String
  signature : Option String := none
  slot : Nat := 0
  start : Nat := 0
  deriving Repr, BEq

structure FormalParameter where
  name : String
  visible : List Annotation := []
  invisible : List Annotation := []
  deriving Repr, BEq

/-- The annotations of a parameter, those visible at run time first. -/
def FormalParameter.annotations (p : FormalParameter) : List Annotation :=
  p.visible ++ p.invisible

structure Method where
  name : String
  descriptor : String
  signature : Option String := none
  flags : Nat := 0
  parameters : List FormalParameter := []
  locals : List LocalVariable := []
  visible : List Annotation := []
  invisible : List Annotation := []
  deriving Repr, BEq

namespace Method

def annotations (m : Method) : List Annotation := m.visible ++ m.invisible

/-- Whether flags mark a method that belongs to its class and not to an object. -/
def staticFlag (flags : Nat) : Bool := flags.testBit 3

def isStatic (m : Method) : Bool := staticFlag m.flags

/-- The characters up to and with the first closing parenthesis. -/
def throughParenthesis? : List Char → Option (List Char)
  | [] => none
  | c :: rest => if c = ')' then some [c] else (throughParenthesis? rest).map (c :: ·)

/-- The name with the parameter part of the descriptor, which a method shares with those it
overrides. A descriptor without a closing parenthesis gives none. -/
def key? (m : Method) : Option String :=
  (throughParenthesis? m.descriptor.toList).map fun cs => m.name ++ String.ofList cs

end Method

structure Class where
  name : String
  superclass : Option String := none
  methods : List Method := []
  visible : List Annotation := []
  invisible : List Annotation := []
  flags : Nat := 0
  signature : Option String := none
  interfaces : List String := []
  deriving Repr, BEq

namespace Class

def enumBase : String := "java.lang.Enum"

/-- Whether the class is an enumeration, by its flags or by its superclass. -/
def isEnum (c : Class) : Bool := c.flags.testBit 14 || c.superclass == some enumBase

/-- The superclass, unless its name is missing or empty. -/
def parent? (c : Class) : Option String := c.superclass.filter (· != "")

end Class

end JvmRoutes
