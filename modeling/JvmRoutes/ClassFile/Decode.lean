import JvmRoutes.ClassFile.AnnotationTable
import JvmRoutes.ClassFile.Variables
import JvmRoutes.Log
import JvmRoutes.Signature.MethodReader

/-! Class files: from their bytes to the classes that they hold. -/
namespace JvmRoutes.ClassFile

/-- Reads some bytes and writes messages, or fails. -/
abbrev Decoder := StateT Cursor (Traced Fault)

def Decoder.ofReader {α : Type} (r : ByteReader α) : Decoder α := fun c => .ofExcept (r c)

/-- The names that a method declares for its parameters, one entry for each. -/
def declaredNames (pool : ConstantPool) : ByteReader (List (Option String)) := do
  let count ← u1
  times count do
    let index ← u2
    let _ ← u2
    if index = 0 then return none
    return some (← pool.text index)

def slotsFrom (slot : Nat) : List Signature.JavaType → List Nat
  | [] => []
  | t :: rest => slot :: slotsFrom (slot + t.slots) rest

/-- The name of the variable that occupies a slot from the first instruction on. -/
def nameInSlot? (locals : List LocalVariable) (slot : Nat) : Option String :=
  (locals.find? fun v => v.slot == slot && v.start == 0).map (·.name)

/-- The name of a parameter: the declared one, or that of the variable in its slot. If there is
neither, it is named by its position. -/
def parameterName (owner method : String) (locals : List LocalVariable) (position slot : Nat)
    (declared : Option String) : Traced Fault String :=
  match declared <|> nameInSlot? locals slot with
  | some name => pure name
  | none => do
    Traced.log .warning
      ("No parameter name for " ++ owner ++ "." ++ method ++ " parameter " ++ toString position ++
        ", compiled without -g?")
    return "arg" ++ toString position

/-- The names of parameters that start in the given slots, of which the first is at `position`. -/
def namesFrom (owner method : String) (locals : List LocalVariable) (position : Nat) :
    List (Nat × Option String) → Traced Fault (List String)
  | [] => pure []
  | (slot, declared) :: rest => do
    let name ← parameterName owner method locals position slot declared
    return name :: (← namesFrom owner method locals (position + 1) rest)

/-- The names of the parameters of a method. Declared names count when there is one for each
parameter of the descriptor. -/
def parameterNames (pool : ConstantPool) (owner method descriptor : String) (flags : Nat)
    (tables : Attributes) (locals : List LocalVariable) : Traced Fault (List String) := do
  let type ← Traced.ofExcept ((Signature.MethodSignature.parse descriptor).mapError
    (.badDescriptor owner method))
  let count := type.parameters.length
  let declared := (← Traced.ofExcept (tables.read? "MethodParameters" (declaredNames pool))).getD []
  let declared := if declared.length = count then declared else List.replicate count none
  -- without the flag, the first slot is that of the object
  let slots := slotsFrom (if Method.staticFlag flags then 0 else 1) type.parameters
  namesFrom owner method locals 0 (slots.zip declared)

def formalParameters : (names : List String) → (visible invisible : List (List Annotation)) →
    List FormalParameter
  | [], _, _ => []
  | name :: names, visible, invisible =>
    { name, visible := visible.headD [], invisible := invisible.headD [] } ::
      formalParameters names visible.tail invisible.tail

def methodOf (pool : ConstantPool) (owner : String) (flags : Nat) (name descriptor : String)
    (tables : Attributes) : Traced Fault Method := do
  let locals ← Traced.ofExcept (localVariables pool tables)
  let visibleLists ← Traced.ofExcept (tables.parameterAnnotations pool true)
  let invisibleLists ← Traced.ofExcept (tables.parameterAnnotations pool false)
  let names ← parameterNames pool owner name descriptor flags tables locals
  let signature ← Traced.ofExcept (tables.signature? pool)
  let visible ← Traced.ofExcept (tables.annotations pool true)
  let invisible ← Traced.ofExcept (tables.annotations pool false)
  return {
    name, descriptor, signature, flags, locals, visible, invisible,
    parameters := formalParameters names visibleLists invisibleLists }

def method (pool : ConstantPool) (owner : String) : Decoder Method := do
  let flags ← Decoder.ofReader u2
  let name ← Decoder.ofReader (textRef pool)
  let descriptor ← Decoder.ofReader (textRef pool)
  let tables ← Decoder.ofReader (attributes pool)
  methodOf pool owner flags name descriptor tables

def methods (pool : ConstantPool) (owner : String) : (count : Nat) → Decoder (List Method)
  | 0 => pure []
  | count + 1 => do
    let first ← method pool owner
    return first :: (← methods pool owner count)

/-- What stands in front of the methods of a class file. -/
structure Head where
  version : Nat
  pool : ConstantPool
  flags : Nat
  name : String
  superclass : Option String
  interfaces : List String

def magic : Nat := 0xCAFEBABE

/-- A field, of which nothing is kept. -/
def field (pool : ConstantPool) : ByteReader Unit := do
  skip 6
  let _ ← attributes pool

def superclass? (pool : ConstantPool) : ByteReader (Option String) := do
  let index ← u2
  if index = 0 then return none
  return some (← pool.className index)

def head (origin : String) : ByteReader Head := do
  if (← u4) ≠ magic then throw (.otherFormat origin)
  let _ ← u2
  let version ← u2
  let pool ← ConstantPool.read
  let flags ← u2
  let name ← classRef pool
  let superclass ← superclass? pool
  let interfaces ← times (← u2) (classRef pool)
  let _ ← times (← u2) (field pool)
  return { version, pool, flags, name, superclass, interfaces }

/-- The class of a class file. The origin stands in messages for where it comes from. -/
def decoder (origin : String) : Decoder Class := do
  let h ← Decoder.ofReader (head origin)
  let count ← Decoder.ofReader u2
  let methods ← methods h.pool h.name count
  let tables ← Decoder.ofReader (attributes h.pool)
  (Traced.log .debug ("Decoded " ++ h.name ++ " (class file version " ++ toString h.version ++
    ") from " ++ origin ++ ": " ++ toString methods.length ++ " methods") : Traced Fault Unit)
  let visible ← Traced.ofExcept (tables.annotations h.pool true)
  let invisible ← Traced.ofExcept (tables.annotations h.pool false)
  let signature ← Traced.ofExcept (tables.signature? h.pool)
  return {
    name := h.name, superclass := h.superclass, methods, visible, invisible, flags := h.flags,
    signature, interfaces := h.interfaces }

def decode (origin : String) (bytes : List UInt8) : Traced Fault Class := do
  let (c, _) ← decoder origin { rest := bytes }
  return c

end JvmRoutes.ClassFile
