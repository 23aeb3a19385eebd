import JvmRoutes.Handler.Effective
import JvmRoutes.Handler.Result
import JvmRoutes.Mount
import JvmRoutes.Operation.Handling
import JvmRoutes.Route.Media
import JvmRoutes.Route.Pattern

/-! The extraction of operations: from controllers to all that a client can ask for. -/
namespace JvmRoutes.Extraction

/-- Joins the lists that an activity gives for each of some items. -/
def collect {α β : Type} (f : α → Loading (List β)) : List α → Loading (List β)
  | [] => return []
  | a :: rest => do
    let first ← f a
    return first ++ (← collect f rest)

def ofHandler (config : Config) (controller : Class) (base : Option String) (m : Method) :
    Loading (List Operation) := do
  Loading.log .debug ("Handler " ++ controller.name ++ "." ++ m.name ++ m.descriptor)
  let arguments ← Handler.arguments config Handler.isLoadedEnum m
  let result ← Loading.ofExcept (Handler.result config m)
  let produces ← Route.mediaTypes config Marker.produces controller m
  let consumes ← Route.mediaTypes config Marker.consumes controller m
  let handling : Operation.Handling :=
    { controller, method := m, arguments, results := [result], produces, consumes }
  -- the paths are looked for once for each verb, whose markers can have paths of their own
  Route.verbs config m |> collect fun verb => do
    return handling.operations base [verb] (← Route.patterns config controller m verb)

def ofMount (config : Config) (mount : Mount) : Loading (List Operation) := do
  let controller ← Loading.resolve mount.controller
  let handlers ← Handler.effective config controller
  collect (ofHandler config controller mount.base) handlers.values

/-- The operations of mounts, of which the first is at `position` out of `count`. -/
def ofMountsFrom (config : Config) (position count : Nat) : List Mount → Loading (List Operation)
  | [] => return []
  | mount :: rest => do
    Loading.log .debug
      ("Processing mount " ++ toString position ++ "/" ++ toString count ++ ": " ++
        mount.controller)
    let first ← ofMount config mount
    return first ++ (← ofMountsFrom config (position + 1) count rest)

def announce (count : Nat) : Loading Unit :=
  Loading.log .info ("Starting route extraction for " ++ toString count ++ " mount reference(s)")

def ofMounts (config : Config) (mounts : List Mount) : Loading (List Operation) := do
  announce mounts.length
  let operations ← ofMountsFrom config 1 mounts.length mounts
  let classes ← Loading.ask (·.loaded.size)
  Loading.log .info
    ("Extracted " ++ toString operations.length ++ " operations, loaded " ++ toString classes ++
      " classes")
  return operations

/-- The operations of those out of `count` mounts that stand in front of one that does not say what
is mounted. -/
def ofLeading (config : Config) (count : Nat) (mounts : List Mount) : Loading (List Operation) := do
  announce count
  ofMountsFrom config 1 count mounts

/-- Extracts the operations of mounts with nothing loaded before, and gives the store as it is
afterwards. -/
def run (config : Config) (mounts : List Mount) (store : ClassStore) :
    Traced Fault (List Operation) × ClassStore :=
  let (outcome, loader) := ofMounts config mounts { store }
  (outcome, loader.store)

end JvmRoutes.Extraction
