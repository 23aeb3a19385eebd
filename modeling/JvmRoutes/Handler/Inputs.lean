import JvmRoutes.Handler.Origin
import JvmRoutes.Loader.Basic
import JvmRoutes.Schema.OfType
import JvmRoutes.Signature.MethodReader

/-! The inputs of a handler: what each of its formal parameters asks of a request. -/
namespace JvmRoutes.Handler

open Signature

structure FormField where
  name : String
  type : String
  schema : Schema
  required : Bool
  isBean : Bool
  deriving Repr, DecidableEq

inductive Input
  | parameter (p : Parameter)
  | field (f : FormField)
  | body (b : RequestBody)
  deriving Repr

def descriptorType (m : Method) : Except Fault MethodSignature :=
  (MethodSignature.parse m.descriptor).mapError .malformedSignature

/-- The type of a method by its generic signature, if it has one. -/
def genericType (m : Method) : Except Fault MethodSignature :=
  (MethodSignature.parse (preferred m.descriptor m.signature)).mapError .malformedSignature

/-- Whether the last parameter of a method takes the result of a call that can be suspended. -/
def takesContinuation (config : Config) (m : Method) : Except Fault Bool := do
  let type ← descriptorType m
  return type.parameters.getLast?.any (·.erasure == config.continuationType)

/-- The names under which the variable of a parameter can be found. Compilers rename that of a
continuation. -/
def variableNames (p : FormalParameter) (isContinuation : Bool) : List String :=
  if isContinuation then [p.name, "$" ++ p.name, "$completion", "$continuation"] else [p.name]

/-- The variable of a parameter: the first row of the table with one of its names. -/
def variableOf (m : Method) (p : FormalParameter) (isContinuation : Bool) :
    Except Fault LocalVariable :=
  let names := variableNames p isContinuation
  match m.locals.find? fun v => names.contains v.name with
  | some v => .ok v
  | none => .error (.parameterTypeNotFound m.name p.name)

def typeOf (m : Method) (p : FormalParameter) (isContinuation : Bool) : Except Fault JavaType := do
  let v ← variableOf m p isContinuation
  (JavaType.parse (preferred v.descriptor v.signature)).mapError .malformedSignature

/-- Whether values of a type are supplied by the runtime. -/
def isSupplied (config : Config) (t : JavaType) : Bool :=
  config.ignoredTypes.contains t.render || t.erasure == config.continuationType

def inputOfType (config : Config) (isEnum : String → Loading Bool) (p : FormalParameter)
    (t : JavaType) : Loading (Option Input) := do
  let type := t.render
  if isSupplied config t then
    Loading.log .debug ("Skipping runtime-supplied parameter " ++ p.name ++ ": " ++ type)
    return none
  if p.location.isExcluded then return none
  let required := p.isRequired config type
  match p.location with
  | .body => return some (.body { type := some type, required, mediaType := config.bodyMediaType })
  | .form =>
    let schema ← Schema.ofType isEnum t
    let isBean ← Schema.isBean isEnum t
    return some (.field { name := p.inputName, type, schema, required, isBean })
  | location => return some (.parameter { name := p.inputName, type, location, required })

def inputs (config : Config) (isEnum : String → Loading Bool) (m : Method)
    (hasContinuation : Bool) : List FormalParameter → Loading (List Input)
  | [] => return []
  | p :: rest => do
    -- only the last parameter can be the continuation
    let t ← Loading.ofExcept (typeOf m p (hasContinuation && rest.isEmpty))
    let first ← inputOfType config isEnum p t
    return first.toList ++ (← inputs config isEnum m hasContinuation rest)

/-- The schema of a form: an object with a property for each name, and the names of the fields
that must be given. -/
def formSchema (fields : List FormField) : Json :=
  let properties := OrderedMap.ofList (fields.map fun f => (f.name, f.schema.toJson))
  let required := (fields.filter (·.required)).map (·.name)
  .object ([("type", .text "object"), ("properties", .object properties.entries)] ++
    if required.isEmpty then [] else [("required", .texts required)])

/-- The body of a form: of a type when its only field is a bean, else with a property for each
field. -/
def formBody (config : Config) (fields : List FormField) : RequestBody :=
  let asSchema : RequestBody :=
    { schema := some (formSchema fields), required := fields.any (·.required),
      mediaType := config.formMediaType }
  match fields with
  | [f] =>
    if f.isBean then
      { type := some f.type, required := f.required, mediaType := config.formMediaType }
    else asSchema
  | _ => asSchema

def Input.parameter? : Input → Option Parameter
  | parameter p => some p
  | _ => none

def Input.field? : Input → Option FormField
  | field f => some f
  | _ => none

def Input.body? : Input → Option RequestBody
  | body b => some b
  | _ => none

/-- Inputs put together. A form takes the place of any other body, and of several bodies the last
one counts. -/
def assemble (config : Config) (inputs : List Input) : Arguments :=
  let fields := inputs.filterMap Input.field?
  { parameters := inputs.filterMap Input.parameter?
    body :=
      if fields.isEmpty then (inputs.filterMap Input.body?).getLast?
      else some (formBody config fields) }

def arguments (config : Config) (isEnum : String → Loading Bool) (m : Method) :
    Loading Arguments := do
  let hasContinuation ← Loading.ofExcept (takesContinuation config m)
  return assemble config (← inputs config isEnum m hasContinuation m.parameters)

/-- Whether a class that can be loaded is an enumeration. -/
def isLoadedEnum (name : String) : Loading Bool := do
  return (← Loading.find name).any (·.isEnum)

def noEnum (_ : String) : Loading Bool := return false

end JvmRoutes.Handler
