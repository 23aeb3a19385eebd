import JvmRoutes.Loader.Ancestry
import JvmRoutes.Route.Path
import JvmRoutes.Route.Verb

/-! The paths of a route: those of its class, each with those of its method below it. -/
namespace JvmRoutes.Route

/-- The paths that annotations give for a verb: those of the verb's markers, else those of the
framework's path marker, else those of the standard ones. -/
def pathValues (verb : String) (annotations : List Annotation) : List String :=
  let ofVerb := Marker.texts (Marker.inAllPackages verb) ["value", "path"] annotations
  if ofVerb ≠ [] then ofVerb
  else
    let ofFramework := Marker.texts Marker.frameworkPath ["value"] annotations
    if ofFramework ≠ [] then ofFramework
    else Marker.texts Marker.standardPath ["value"] annotations

def classPaths? (verb : String) (c : Class) : Option (List String) :=
  match pathValues verb c.visible with
  | [] => none
  | values => some (values.map fun value => join none (some value))

/-- The paths of a class or of the nearest class above it that has any; without one, the root. -/
def basePaths (config : Config) (verb : String) (controller : Class) : Loading (List String) := do
  match classPaths? verb controller with
  | some paths => return paths
  | none =>
    let above (c : Class) := (classPaths? verb c).map (c.name, ·)
    match ← Loading.searchAbove config.rootTypes above controller with
    | some (name, paths) =>
      Loading.log .debug ("Path prefix of " ++ controller.name ++ " inherited from " ++ name)
      return paths
    | none => return [root]

def pathsBelow (verb : String) (m : Method) (base : String) : List String :=
  match pathValues verb m.visible with
  | [] => [join (some base) none]
  | values => values.map fun value => join (some base) (some value)

def patterns (config : Config) (controller : Class) (m : Method) (verb : String) :
    Loading (List String) := do
  return (← basePaths config verb controller).flatMap (pathsBelow verb m)

end JvmRoutes.Route
