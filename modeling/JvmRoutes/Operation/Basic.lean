import JvmRoutes.Json.Basic

/-! Operations: what a client can ask for, and with which inputs. -/
namespace JvmRoutes

inductive Location
  | context | header | cookie | path | query | form | body
  deriving DecidableEq, Repr

def Location.name : Location → String
  | context => "context"
  | header => "header"
  | cookie => "cookie"
  | path => "path"
  | query => "query"
  | form => "form"
  | body => "body"

def Location.all : List Location := [context, header, cookie, path, query, form, body]

/-- An input of a request with a name of its own. -/
structure Parameter where
  name : String
  type : String
  location : Location
  required : Bool := false
  deriving Repr, BEq

structure RequestBody where
  type : Option String := none
  schema : Option Json := none
  required : Bool := false
  mediaType : String := "application/json"
  deriving Repr, BEq

structure Arguments where
  parameters : List Parameter := []
  body : Option RequestBody := none
  deriving Repr, BEq

/-- One verb on one path. -/
structure Operation where
  verb : String
  pattern : String
  arguments : Arguments := {}
  results : List String := []
  name : String
  controller : String
  method : String := ""
  deprecated : Bool := false
  keys : List String := []
  produces : List String := []
  consumes : List String := []
  deriving Repr, BEq

namespace Operation

def parameters (o : Operation) : List Parameter := o.arguments.parameters

def body (o : Operation) : Option RequestBody := o.arguments.body

end Operation

end JvmRoutes
