import JvmRoutes.Json.Basic

/-! Schemas: what a document must look like to be a value of some type. -/
namespace JvmRoutes

inductive Schema
  | scalar (type : String) (format : Option String)
  | anyList
  | list (items : Schema)
  | dictionary (values : Schema)
  | reference (name : String)
  deriving Repr, DecidableEq

namespace Schema

def anyObject : Schema := scalar "object" none

def binary : Schema := scalar "string" (some "binary")

def anyText : Schema := scalar "string" none

def isReference : Schema → Bool
  | reference _ => true
  | _ => false

def toJson : Schema → Json
  | scalar type none => .object [("type", .text type)]
  | scalar type (some format) => .object [("type", .text type), ("format", .text format)]
  | anyList => .object [("type", .text "array"), ("items", .object [])]
  | list items => .object [("type", .text "array"), ("items", items.toJson)]
  | dictionary values =>
    .object [("type", .text "object"), ("additionalProperties", values.toJson)]
  | reference name => .object [("$ref", .text ("#/components/schemas/" ++ name))]

end Schema

end JvmRoutes
