import JvmRoutes.ClassFile.ConstantPool
import JvmRoutes.Class

/-! The tables of local variables in the code of a method. -/
namespace JvmRoutes.ClassFile

/-- A row of a table of local variables: a name and a type, for a slot from some instruction on. -/
structure VariableRow where
  start : Nat
  name : String
  type : String
  slot : Nat
  deriving DecidableEq, Repr

def variableRow (pool : ConstantPool) : ByteReader VariableRow := do
  let start ← u2
  let _ ← u2
  let name ← textRef pool
  let type ← textRef pool
  let slot ← u2
  return { start, name, type, slot }

def variableRows (pool : ConstantPool) : ByteReader (List VariableRow) := do
  let count ← u2
  times count (variableRow pool)

def VariableRow.sameVariable (a b : VariableRow) : Bool :=
  a.start == b.start && a.name == b.name && a.slot == b.slot

/-- The variable of a row. Its signature is that of the last generic row about it. -/
def VariableRow.variable (generic : List VariableRow) (row : VariableRow) : LocalVariable where
  name := row.name
  descriptor := row.type
  signature := (generic.reverse.find? row.sameVariable).map (·.type)
  slot := row.slot
  start := row.start

/-- The attributes of the code of a method: behind the sizes of its frame, its instructions and
its table of handlers. -/
def codeAttributes (pool : ConstantPool) : ByteReader Attributes := do
  skip 4
  skip (← u4)
  skip ((← u2) * 8)
  attributes pool

def localVariables (pool : ConstantPool) (tables : Attributes) :
    Except Fault (List LocalVariable) := do
  let code := (← tables.read? "Code" (codeAttributes pool)).getD {}
  let generic := (← code.read? "LocalVariableTypeTable" (variableRows pool)).getD []
  let rows := (← code.read? "LocalVariableTable" (variableRows pool)).getD []
  return rows.map (·.variable generic)

end JvmRoutes.ClassFile
