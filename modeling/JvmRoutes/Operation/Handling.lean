import JvmRoutes.Handler.Inputs
import JvmRoutes.Route.Key
import JvmRoutes.Route.Path
import JvmRoutes.Route.Verb
import JvmRoutes.Text.LetterCase

/-! Operations from handlers: one for each verb and each path. -/
namespace JvmRoutes.Operation

/-- What all operations of a handler have in common. -/
structure Handling where
  controller : Class
  method : Method
  arguments : Arguments := {}
  results : List String := []
  produces : List String := []
  consumes : List String := []

namespace Handling

/-- The operation of a handler for a verb on a path below another one. -/
def operation (h : Handling) (base : Option String) (verb path : String) : Operation :=
  let pattern := Route.join base (some path)
  { verb := Text.upper verb
    pattern
    arguments := h.arguments
    results := h.results
    name := h.method.name
    controller := h.controller.name
    method := h.method.name ++ h.method.descriptor
    deprecated := Route.isDeprecated h.method
    keys := Route.keys pattern
    produces := h.produces
    consumes := h.consumes }

/-- A list, or one item in place of none. -/
def orElse (default : String) : List String → List String
  | [] => [default]
  | items => items

def operations (h : Handling) (base : Option String) (verbs paths : List String) :
    List Operation :=
  (orElse Route.defaultVerb verbs).flatMap fun verb =>
    (orElse Route.root paths).map (h.operation base verb)

end Handling

end JvmRoutes.Operation
