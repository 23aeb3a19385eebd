import JvmRoutes.Annotation.Display
import JvmRoutes.Text.Blank

/-! Annotation types with a meaning for routes, and what annotations of these types say. -/
namespace JvmRoutes.Marker

def frameworkPackage : String := "io.jooby.annotations"

/-- The packages of the standard markers, the old one and the new one. -/
def standardPackages : List String := ["javax.ws.rs", "jakarta.ws.rs"]

def allPackages : List String := frameworkPackage :: standardPackages

def within (packages : List String) (simpleName : String) : List String :=
  packages.map (· ++ "." ++ simpleName)

def inAllPackages (simpleName : String) : List String := within allPackages simpleName

def pathName : String := "Path"

def frameworkPath : List String := within [frameworkPackage] pathName

def standardPath : List String := within standardPackages pathName

/-- The types that give a parameter another name. -/
def named : List String := ["javax.inject.Named", "jakarta.inject.Named"]

/-- The types that mark what should not be used any more. -/
def deprecated : List String := ["java.lang.Deprecated", "kotlin.Deprecated"]

def nullable : List String :=
  ["org.jetbrains.annotations.Nullable", "javax.annotation.Nullable",
    "jakarta.annotation.Nullable", "androidx.annotation.Nullable",
    "org.springframework.lang.Nullable", "edu.umd.cs.findbugs.annotations.Nullable",
    "org.checkerframework.checker.nullness.qual.Nullable"]

def nonNull : List String :=
  ["org.jetbrains.annotations.NotNull", "javax.annotation.Nonnull",
    "jakarta.annotation.Nonnull", "androidx.annotation.NonNull",
    "org.springframework.lang.NonNull", "lombok.NonNull",
    "edu.umd.cs.findbugs.annotations.NonNull",
    "org.checkerframework.checker.nullness.qual.NonNull"]

def produces : List String := inAllPackages "Produces"

def consumes : List String := inAllPackages "Consumes"

/-- The types that make a method a route: path markers and those of the verbs. -/
def ofRoutes (verbs : List String) : List String :=
  frameworkPath ++ standardPath ++ verbs.flatMap inAllPackages

def select (types : List String) (annotations : List Annotation) : List Annotation :=
  annotations.filter fun a => types.contains a.typeName

def present (types : List String) (annotations : List Annotation) : Bool :=
  annotations.any fun a => types.contains a.typeName

/-- The text of an element that holds more than blanks, without those around it. -/
def textValue? (a : Annotation) : Option String :=
  match a.get? "value" with
  | some (.text s) => Text.nonBlank? s
  | _ => none

def firstText? (types : List String) (annotations : List Annotation) : Option String :=
  (select types annotations).findSome? textValue?

/-- The text of an item of a list: null and blank items have none. -/
def itemText? : Element → Option String
  | .null => none
  | e => Text.nonBlank? e.display

def textsOf (a : Annotation) (name : String) : List String :=
  ((a.get? name).getD .null).listed.filterMap itemText?

/-- The texts that an annotation gives under the first name that has any. -/
def firstTexts (a : Annotation) (names : List String) : List String :=
  ((names.map (textsOf a)).find? (· != [])).getD []

/-- The texts that annotations of some types give, each under the first of the names that has
any. -/
def texts (types names : List String) (annotations : List Annotation) : List String :=
  (select types annotations).flatMap (firstTexts · names)

end JvmRoutes.Marker
