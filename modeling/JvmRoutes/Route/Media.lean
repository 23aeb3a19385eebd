import JvmRoutes.Loader.Ancestry
import JvmRoutes.Annotation.Marker
import JvmRoutes.Config

/-! The media types that a route produces and consumes. -/
namespace JvmRoutes.Route

def mediaTypes? (types : List String) (annotations : List Annotation) : Option (List String) :=
  match Marker.texts types ["value"] annotations with
  | [] => none
  | values => some values

/-- The media types of a method, or of the nearest class from its controller upwards that has
any. -/
def mediaTypes (config : Config) (types : List String) (controller : Class) (m : Method) :
    Loading (List String) := do
  match mediaTypes? types m.visible <|> mediaTypes? types controller.visible with
  | some values => return values
  | none =>
    let above (c : Class) := mediaTypes? types c.visible
    return (← Loading.searchAbove config.rootTypes above controller).getD []

end JvmRoutes.Route
