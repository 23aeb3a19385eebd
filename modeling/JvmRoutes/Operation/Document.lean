import JvmRoutes.Operation.Basic

/-! Operations as documents. -/
namespace JvmRoutes

def Parameter.toJson (p : Parameter) : Json :=
  .object [("name", .text p.name), ("in", .text p.location.name), ("type", .text p.type),
    ("required", .truth p.required)]

def RequestBody.toJson (b : RequestBody) : Json :=
  .object [("type", .ofText? b.type), ("schema", b.schema.getD .null),
    ("required", .truth b.required), ("content_type", .text b.mediaType)]

def Operation.toJson (o : Operation) : Json :=
  .object [("method", .text o.verb), ("pattern", .text o.pattern),
    ("operation_id", .text o.name), ("controller", .text o.controller),
    ("java_method", .text o.method), ("deprecated", .truth o.deprecated),
    ("path_keys", .texts o.keys), ("produces", .texts o.produces),
    ("consumes", .texts o.consumes), ("parameters", .array (o.parameters.map (·.toJson))),
    ("request_body", (o.body.map (·.toJson)).getD .null),
    ("response", .object [("types", .texts o.results)])]

end JvmRoutes
