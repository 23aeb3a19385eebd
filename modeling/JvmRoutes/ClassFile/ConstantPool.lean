import JvmRoutes.ClassFile.Cursor
import JvmRoutes.Annotation.Basic
import JvmRoutes.Text.ModifiedUtf8

/-! The constants of a class file, which the rest of it refers to by their indices. -/
namespace JvmRoutes.ClassFile

/-- A constant. Of kinds that describe code, nothing is kept. -/
inductive Constant
  | text (s : String)
  | integer (n : Int)
  | float (x : Decimal.Binary64)
  | long (n : Int)
  | double (x : Decimal.Binary64)
  | className (text : Nat)
  | string (text : Nat)
  | other
  deriving DecidableEq, Repr

def Constant.isWide : Constant → Bool
  | long _ | double _ => true
  | _ => false

/-- How many bytes follow the tag of a constant that is not kept. -/
def otherSize? : Nat → Option Nat
  | 9 | 10 | 11 | 12 | 17 | 18 => some 4
  | 15 => some 3
  | 16 | 19 | 20 => some 2
  | _ => none

def textOf (bytes : List UInt8) : ByteReader String :=
  match Text.ModifiedUtf8.decode? bytes with
  | some cs => pure (String.ofList cs)
  | none => throw .malformedText

def constantBody (tag index : Nat) : ByteReader Constant :=
  match tag with
  | 1 => do return .text (← textOf (← take (← u2)))
  | 3 => do return .integer (signed (← take 4))
  | 4 => do return .float (.ofBinary32 (UInt32.ofNat (unsigned (← take 4))))
  | 5 => do return .long (signed (← take 8))
  | 6 => do return .double ⟨UInt64.ofNat (unsigned (← take 8))⟩
  | 7 => do return .className (← u2)
  | 8 => do return .string (← u2)
  | tag =>
    match otherSize? tag with
    | some size => do
      skip size
      return .other
    | none => throw (.unknownConstant tag index)

def constant (index : Nat) : ByteReader Constant := do constantBody (← u1) index

/-- The constants of the next `count` indices. The index behind a wide constant has none. -/
def constants (index : Nat) (afterWide : Bool) : (count : Nat) →
    ByteReader (List (Option Constant))
  | 0 => pure []
  | count + 1 =>
    if afterWide then do return none :: (← constants (index + 1) false count)
    else do
      let first ← constant index
      return some first :: (← constants (index + 1) first.isWide count)

/-- The constants from index one on. -/
structure ConstantPool where
  entries : Array (Option Constant)

namespace ConstantPool

def read : ByteReader ConstantPool := do
  let count ← u2
  return ⟨(← constants 1 false (count - 1)).toArray⟩

def find? (pool : ConstantPool) : Nat → Option Constant
  | 0 => none
  | index + 1 => pool.entries[index]?.join

def text (pool : ConstantPool) (index : Nat) : Except Fault String :=
  match pool.find? index with
  | some (.text s) => .ok s
  | _ => .error (.badReference index)

def className (pool : ConstantPool) (index : Nat) : Except Fault String :=
  match pool.find? index with
  | some (.className name) => (pool.text name).map TypeName.dotted
  | _ => .error (.badReference index)

/-- The value at an index that can be given to an annotation element. -/
def value (pool : ConstantPool) (index : Nat) : Except Fault Element :=
  match pool.find? index with
  | some (.text s) => .ok (.text s)
  | some (.integer n) | some (.long n) => .ok (.integer n)
  | some (.float x) | some (.double x) => .ok (.real x)
  | some (.string s) => (pool.text s).map .text
  | _ => .error (.badReference index)

end ConstantPool

def textRef (pool : ConstantPool) : ByteReader String := do pool.text (← u2)

def classRef (pool : ConstantPool) : ByteReader String := do pool.className (← u2)

/-- Named tables of bytes. Of two with one name the last counts. -/
abbrev Attributes := OrderedMap (List UInt8)

def attributes (pool : ConstantPool) : ByteReader Attributes := do
  let count ← u2
  let tables ← times count do
    let name ← textRef pool
    let bytes ← take (← u4)
    pure (name, bytes)
  return .ofList tables

def Attributes.read? {α : Type} (tables : Attributes) (name : String) (r : ByteReader α) :
    Except Fault (Option α) :=
  match tables.get? name with
  | none => .ok none
  | some bytes => (r.over bytes).map some

def Attributes.signature? (tables : Attributes) (pool : ConstantPool) :
    Except Fault (Option String) :=
  tables.read? "Signature" (textRef pool)

end JvmRoutes.ClassFile
