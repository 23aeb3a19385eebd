import JvmRoutes.Loader.Ancestry
import JvmRoutes.Route.Verb

/-! The handlers of a controller: its own and those it inherits. -/
namespace JvmRoutes.Handler

/-- A route method with the key that it shares with those it overrides. -/
def keyed (m : Method) : Except Fault (String × Method) :=
  match m.key? with
  | some key => .ok (key, m)
  | none => .error (.openDescriptor m.descriptor)

def declared (config : Config) (c : Class) : List Method :=
  c.methods.filter (Route.isRoute config)

/-- The handlers of classes, of which the last is the one farthest up. A method takes the place
of the one that it overrides. -/
def ofLineage (config : Config) (classes : List Class) : Except Fault (OrderedMap Method) := do
  -- from the root down: an overriding method comes later, and takes the place of the first
  let pairs ← (classes.reverse.flatMap (declared config)).mapM keyed
  return .ofList pairs

/-- The handlers of a controller by their keys. -/
def effective (config : Config) (controller : Class) : Loading (OrderedMap Method) := do
  let classes ← Loading.lineage config.rootTypes controller
  let handlers ← Loading.ofExcept (ofLineage config classes)
  Loading.log .debug
    (controller.name ++ ": " ++ toString handlers.size ++ " route method(s) across " ++
      toString classes.length ++ " class(es)")
  return handlers

end JvmRoutes.Handler
