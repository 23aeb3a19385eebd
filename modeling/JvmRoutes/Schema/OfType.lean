import JvmRoutes.Schema.Catalog
import JvmRoutes.Signature.JavaType

/-! The schemas of types. -/
namespace JvmRoutes.Schema

open Signature

variable {m : Type → Type} [Monad m]

def componentName (className : String) : String :=
  TypeName.swap '$' '.' (TypeName.simple className)

/-- The schema of a type with a name, from actions that give the schemas of its arguments. Of a
type that is in no catalog it is asked whether it is an enumeration, whose values are texts. -/
def ofNamed (isEnum : String → m Bool) (name : String) (arguments : List (m Schema)) : m Schema :=
  match family? name with
  | some (.single s) => pure s
  | some .collection =>
    match arguments with
    | [] => pure anyList
    | items :: _ => do return list (← items)
  | some .mapping =>
    match arguments with
    | [_, values] => do return dictionary (← values)
    | _ => pure anyObject
  | some (.optional fallback) => arguments.headD (pure fallback)
  | none => do
    if ← isEnum name then return anyText
    return reference (componentName name)

mutual

def ofType (isEnum : String → m Bool) : JavaType → m Schema
  | .primitive p => ofNamed isEnum p.name []
  | .variable _ => pure anyObject
  | .array component =>
    if component.name = "byte" then pure binary
    else do return list (← ofType isEnum component)
  | .object c => ofClass isEnum c

def ofClass (isEnum : String → m Bool) : ClassType → m Schema
  | .outermost name none => ofNamed isEnum (TypeName.dotted name) []
  | .outermost name (some arguments) =>
    ofNamed isEnum (TypeName.dotted name) (ofArguments isEnum arguments)
  | .inner enclosing name none => ofNamed isEnum (enclosing.name ++ "$" ++ name) []
  | .inner enclosing name (some arguments) =>
    ofNamed isEnum (enclosing.name ++ "$" ++ name) (ofArguments isEnum arguments)

def ofArguments (isEnum : String → m Bool) : List TypeArgument → List (m Schema)
  | [] => []
  | a :: rest => ofArgument isEnum a :: ofArguments isEnum rest

/-- The schema of an argument: that of its bound, and any object without one. -/
def ofArgument (isEnum : String → m Bool) : TypeArgument → m Schema
  | .any => pure anyObject
  | .exactly t => ofType isEnum t
  | .upTo t => ofType isEnum t
  | .downTo t => ofType isEnum t

end

/-- Whether a type is an object that is described by its own schema. -/
def isBean (isEnum : String → m Bool) (t : JavaType) : m Bool := do
  return (← ofType isEnum t).isReference && t.isClass

end JvmRoutes.Schema
