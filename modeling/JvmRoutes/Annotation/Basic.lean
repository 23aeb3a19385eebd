import JvmRoutes.Decimal.Binary64
import JvmRoutes.OrderedMap
import JvmRoutes.TypeName

/-! Annotations and the values of their elements. -/
namespace JvmRoutes

mutual

/-- An annotation with its element values. It is visible when programs can see it at run time. -/
structure Annotation where
  typeName : String
  values : OrderedMap Element := {}
  visible : Bool := true
  deriving Repr

inductive Element
  | null
  | text (s : String)
  | integer (n : Int)
  | real (x : Decimal.Binary64)
  | truth (b : Bool)
  | constant (typeName name : String)
  | nested (a : Annotation)
  | array (items : List Element)
  deriving Repr

end

deriving instance BEq for Annotation, Element

namespace Annotation

def simpleName (a : Annotation) : String := TypeName.simple a.typeName

def get? (a : Annotation) (name : String) : Option Element := a.values.get? name

end Annotation

/-- The values that an element stands for where a list may be given: its items, itself, or none
for null. -/
def Element.listed : Element → List Element
  | .null => []
  | .array items => items
  | e => [e]

end JvmRoutes
