import JvmRoutes.Signature.Primitive
import JvmRoutes.TypeName

/-!
Types of the virtual machine as signatures spell them, with their names, their erasures and the
text they are shown as.
-/
namespace JvmRoutes.Signature

mutual

/-- A type that a signature can give to a field, a parameter or a result. -/
inductive JavaType
  | primitive (p : Primitive)
  | variable (name : String)
  | array (component : JavaType)
  | object (c : ClassType)
  deriving Repr

/-- A class, inside the class that its own name is a suffix of. Without angle brackets it has no
list of arguments. -/
inductive ClassType
  | outermost (name : String) (arguments : Option (List TypeArgument))
  | inner (enclosing : ClassType) (name : String) (arguments : Option (List TypeArgument))
  deriving Repr

/-- What stands for one type parameter of a class. -/
inductive TypeArgument
  | any
  | exactly (t : JavaType)
  | upTo (bound : JavaType)
  | downTo (bound : JavaType)
  deriving Repr

end

structure TypeParameter where
  name : String
  classBound : Option JavaType := none
  interfaceBounds : List JavaType := []
  deriving Repr

/-- The type of a method. Without angle brackets it has no list of type parameters. -/
structure MethodSignature where
  typeParameters : Option (List TypeParameter)
  parameters : List JavaType
  result : JavaType
  thrown : List JavaType := []
  deriving Repr

def objectClass : String := "java.lang.Object"

namespace ClassType

/-- The name with dots between packages and dollar signs in front of inner classes. -/
def name : ClassType → String
  | outermost name _ => TypeName.dotted name
  | inner enclosing name _ => enclosing.name ++ "$" ++ name

/-- The arguments of the innermost class, which alone count. -/
def arguments : ClassType → List TypeArgument
  | outermost _ arguments | inner _ _ arguments => arguments.getD []

end ClassType

namespace JavaType

/-- The name of the type, empty for an array. -/
def name : JavaType → String
  | primitive p => p.name
  | .variable name => name
  | array _ => ""
  | object c => c.name

def arguments : JavaType → List TypeArgument
  | object c => c.arguments
  | _ => []

def isClass : JavaType → Bool
  | object _ => true
  | _ => false

def ofObject : JavaType := object (.outermost objectClass none)

/-- The name of the type once generics are forgotten. -/
def erasure : JavaType → String
  | primitive p => p.name
  | .variable _ => objectClass
  | array component => component.erasure ++ "[]"
  | object c => c.name

/-- How many local-variable slots a value of the type takes. -/
def slots : JavaType → Nat
  | primitive p => p.slots
  | _ => 1

end JavaType

namespace TypeArgument

/-- The type itself or its bound; without a bound, every object is meant. -/
def bound : TypeArgument → JavaType
  | any => .ofObject
  | exactly t | upTo t | downTo t => t

def erasure : TypeArgument → String
  | any | downTo _ => objectClass
  | exactly t | upTo t => t.erasure

end TypeArgument

/-- Type arguments between angle brackets, and nothing for none of them. -/
def angled : List String → String
  | [] => ""
  | texts => "<" ++ String.intercalate ", " texts ++ ">"

mutual

def JavaType.render : JavaType → String
  | .primitive p => p.name
  | .variable name => name
  | .array component => component.render ++ "[]"
  | .object c => c.render

/-- The class as it is shown, with the arguments of the innermost class only. -/
def ClassType.render : ClassType → String
  | .outermost name none => TypeName.dotted name
  | .outermost name (some arguments) => TypeName.dotted name ++ angled (renderEach arguments)
  | .inner enclosing name none => enclosing.name ++ "$" ++ name
  | .inner enclosing name (some arguments) =>
    enclosing.name ++ "$" ++ name ++ angled (renderEach arguments)

def TypeArgument.render : TypeArgument → String
  | .any => "?"
  | .exactly t => t.render
  | .upTo t => "? extends " ++ t.render
  | .downTo t => "? super " ++ t.render

def renderEach : List TypeArgument → List String
  | [] => []
  | a :: rest => a.render :: renderEach rest

end

def MethodSignature.typeParameterNames (m : MethodSignature) : List String :=
  (m.typeParameters.getD []).map (·.name)

end JvmRoutes.Signature
