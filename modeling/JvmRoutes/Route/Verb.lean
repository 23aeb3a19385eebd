import JvmRoutes.Annotation.Marker
import JvmRoutes.Class
import JvmRoutes.Config

/-! Which methods are routes, and for which verbs. -/
namespace JvmRoutes.Route

def defaultVerb : String := "GET"

def isRoute (config : Config) (m : Method) : Bool :=
  Marker.present (Marker.ofRoutes config.verbs) m.visible

def isDeprecated (m : Method) : Bool := Marker.present Marker.deprecated m.annotations

/-- The simple names of the markers of a method, each once. -/
def markerNames (config : Config) (m : Method) : List String :=
  ((Marker.select (Marker.ofRoutes config.verbs) m.visible).map (·.simpleName)).eraseDups

/-- The verbs of a method. Path markers alone stand for the default verb, and beside a verb they
add none. -/
def verbs (config : Config) (m : Method) : List String :=
  let names := markerNames config m
  if names = [Marker.pathName] then [defaultVerb] else names.filter (· != Marker.pathName)

end JvmRoutes.Route
