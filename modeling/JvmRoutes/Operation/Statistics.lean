import JvmRoutes.Operation.Basic
import JvmRoutes.OrderedMap

/-! Counts over operations. -/
namespace JvmRoutes

/-- How many operations there are of each kind. -/
structure Statistics where
  operations : Nat
  controllerCount : Nat
  controllers : OrderedMap Nat
  verbs : OrderedMap Nat
  locations : OrderedMap Nat
  mediaTypes : OrderedMap Nat
  deprecated : Nat
  deriving Repr, DecidableEq

namespace Statistics

def ofOperations (operations : List Operation) : Statistics where
  operations := operations.length
  controllerCount := (operations.map (·.controller)).eraseDups.length
  controllers := .tally (operations.map (·.controller))
  verbs := .tally (operations.map (·.verb))
  locations := .tally (operations.flatMap fun o => o.parameters.map (·.location.name))
  mediaTypes := .tally (operations.filterMap fun o => o.body.map (·.mediaType))
  deprecated := (operations.filter (·.deprecated)).length

def bodies (s : Statistics) : Nat := s.mediaTypes.values.foldl (· + ·) 0

def counts (m : OrderedMap Nat) : Json := .object (m.map fun (n : Nat) => Json.integer n).entries

def toJson (s : Statistics) : Json :=
  .object [("total_operations", .integer s.operations),
    ("total_controllers", .integer s.controllerCount), ("http_methods", counts s.verbs),
    ("controllers", counts s.controllers), ("parameter_locations", counts s.locations),
    ("request_bodies", .object [("total_request_bodies", .integer s.bodies),
      ("content_types", counts s.mediaTypes)]),
    ("deprecated_operations", .integer s.deprecated)]

end Statistics

end JvmRoutes
