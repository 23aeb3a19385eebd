import JvmRoutes.ClassFile.ConstantPool
import JvmRoutes.Text.Hex

/-! The attributes that hold annotations. -/
namespace JvmRoutes.ClassFile

/-- The text of the character with a code. Texts hold no half of a pair of surrogates, so that of
this the code is spelled out. -/
def characterText (code : Nat) : String :=
  if 0xD800 ≤ code && code < 0xE000 then "\\u" ++ String.ofList (Text.hexDigits 4 code)
  else String.singleton (Char.ofNat code)

def characterOf : Element → Except Fault Element
  | .integer n =>
    if 0 ≤ n && n < 0x110000 then .ok (.text (characterText n.toNat))
    else if -(Nat.pow 2 31 : Int) ≤ n && n < (Nat.pow 2 31 : Int) then .error (.noCharacter n)
    else .error (.wideCode n)
  | _ => .error .characterExpected

/-- Anything but zero and the empty text is true. -/
def truthOf : Element → Element
  | .text s => .truth (s != "")
  | .integer n => .truth (n != 0)
  | .real x => .truth (!x.isZero)
  | e => e

mutual

/-- An annotation. The depth bounds how far values are nested in it. -/
def annotationAt (pool : ConstantPool) (visible : Bool) : (depth : Nat) → ByteReader Annotation
  | 0 => truncatedHere
  | depth + 1 => do
    let typeName ← textRef pool
    let count ← u2
    let pairs ← times count do
      let name ← textRef pool
      let value ← elementAt pool visible depth
      pure (name, value)
    return { typeName := TypeName.described typeName, values := .ofList pairs, visible }

def elementAt (pool : ConstantPool) (visible : Bool) : (depth : Nat) → ByteReader Element
  | 0 => truncatedHere
  | depth + 1 => do
    let tag := Char.ofNat (← u1)
    match tag with
    | 'B' | 'D' | 'F' | 'I' | 'J' | 'S' | 's' => pool.value (← u2)
    | 'C' => characterOf (← pool.value (← u2))
    | 'Z' => return truthOf (← pool.value (← u2))
    | 'e' => do
      let typeName ← textRef pool
      let name ← textRef pool
      return .constant (TypeName.described typeName) name
    | 'c' => return .text (TypeName.described (← textRef pool))
    | '@' => return .nested (← annotationAt pool visible depth)
    | '[' => do
      let count ← u2
      return .array (← times count (elementAt pool visible depth))
    | _ => throw (.unknownElement tag)

end

def annotationList (pool : ConstantPool) (visible : Bool) (depth : Nat) :
    ByteReader (List Annotation) := do
  let count ← u2
  times count (annotationAt pool visible depth)

def parameterAnnotationLists (pool : ConstantPool) (visible : Bool) (depth : Nat) :
    ByteReader (List (List Annotation)) := do
  let count ← u1
  times count (annotationList pool visible depth)

/-- What a reader that nests no deeper than there are bytes makes of an attribute, and nothing
without it. -/
def Attributes.nested {α : Type} (tables : Attributes) (name : String)
    (r : (depth : Nat) → ByteReader (List α)) : Except Fault (List α) :=
  match tables.get? name with
  | none => .ok []
  | some bytes => (r (bytes.length + 1)).over bytes

def Attributes.annotations (tables : Attributes) (pool : ConstantPool) (visible : Bool) :
    Except Fault (List Annotation) :=
  tables.nested (if visible then "RuntimeVisibleAnnotations" else "RuntimeInvisibleAnnotations")
    (annotationList pool visible)

def Attributes.parameterAnnotations (tables : Attributes) (pool : ConstantPool)
    (visible : Bool) : Except Fault (List (List Annotation)) :=
  tables.nested
    (if visible then "RuntimeVisibleParameterAnnotations"
      else "RuntimeInvisibleParameterAnnotations")
    (parameterAnnotationLists pool visible)

end JvmRoutes.ClassFile
