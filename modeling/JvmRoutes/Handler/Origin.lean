import JvmRoutes.Annotation.Marker
import JvmRoutes.Class
import JvmRoutes.Config
import JvmRoutes.Operation.Basic

/-! Where the value of a formal parameter comes from. -/
namespace JvmRoutes

namespace Location

/-- The types of annotations that put a parameter at a location. -/
def markers : Location → List String
  | context => Marker.within [Marker.frameworkPackage] "ContextParam"
  | header => Marker.inAllPackages "HeaderParam"
  | cookie => Marker.inAllPackages "CookieParam"
  | path => Marker.inAllPackages "PathParam"
  | query => Marker.inAllPackages "QueryParam"
  | form => Marker.inAllPackages "FormParam"
  | body => []

/-- The types of annotations that can name a parameter at a location. -/
def nameMarkers (l : Location) : List String := l.markers ++ Marker.named

/-- Whether an input at the location can never be left out. -/
def alwaysRequired : Location → Bool
  | path => true
  | _ => false

/-- Whether the value is no input of the request. -/
def isExcluded : Location → Bool
  | context => true
  | _ => false

def ofAnnotation? (a : Annotation) : Option Location :=
  all.find? fun l => l.markers.contains a.typeName

/-- The location of the first annotation that stands for one. Without such an annotation, the
value is the body. -/
def ofAnnotations (annotations : List Annotation) : Location :=
  (annotations.findSome? ofAnnotation?).getD body

end Location

namespace FormalParameter

def location (p : FormalParameter) : Location := .ofAnnotations p.visible

/-- The name that an annotation gives, or else the one in the program. -/
def inputName (p : FormalParameter) : String :=
  (Marker.firstText? p.location.nameMarkers p.visible).getD p.name

/-- Whether the value may be missing, if a marker says so or says otherwise. -/
def nullable? (p : FormalParameter) : Option Bool :=
  if Marker.present Marker.nullable p.annotations then some true
  else if Marker.present Marker.nonNull p.annotations then some false
  else none

def isRequired (config : Config) (p : FormalParameter) (type : String) : Bool :=
  config.primitiveTypes.contains type || p.location.alwaysRequired ||
    match p.nullable? with
    | some nullable => !nullable
    | none => config.unmarkedRequired

end FormalParameter

end JvmRoutes
