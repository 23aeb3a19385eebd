import JvmRoutes.Decimal.Binary64

/-! Documents of nested values. -/
namespace JvmRoutes

/-- A value of a document. The fields of an object keep their order. -/
inductive Json
  | null
  | truth (b : Bool)
  | integer (n : Int)
  | real (x : Decimal.Binary64)
  | text (s : String)
  | array (items : List Json)
  | object (fields : List (String × Json))
  deriving Repr, BEq, Inhabited

namespace Json

def field? (key : String) : Json → Option Json
  | object fields => fields.lookup key
  | _ => none

def ofText? : Option String → Json
  | none => null
  | some s => text s

def texts (items : List String) : Json := array (items.map text)

end Json

end JvmRoutes
