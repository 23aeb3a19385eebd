import JvmRoutes.Text.LetterCase

/-! What an extraction can be told about the classes it reads. -/
namespace JvmRoutes

structure Config where
  /-- Where a walk up the superclasses stops. -/
  rootTypes : List String := ["java.lang.Object"]
  verbs : List String := ["GET", "POST", "PUT", "DELETE", "PATCH", "HEAD", "OPTIONS", "TRACE"]
  /-- The type of the last parameter of a method that can be suspended. -/
  continuationType : String := "kotlin.coroutines.Continuation"
  /-- Types of parameters that no client supplies. -/
  ignoredTypes : List String :=
    ["io.jooby.Context", "io.jooby.Session", "java.util.Optional<io.jooby.Session>",
      "kotlin.coroutines.Continuation"]
  /-- Types whose values cannot be missing. -/
  primitiveTypes : List String :=
    ["boolean", "byte", "char", "short", "int", "float", "double", "long"]
  /-- Whether a value of which nothing else is known is required. -/
  unmarkedRequired : Bool := true
  bodyMediaType : String := "application/json"
  formMediaType : String := "multipart/form-data"
  deriving Repr

/-- The settings with other verbs, which are taken in upper case. -/
def Config.withVerbs (config : Config) (verbs : List String) : Config :=
  { config with verbs := verbs.map Text.upper }

end JvmRoutes
