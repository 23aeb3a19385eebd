import JvmRoutes.ClassFile.Fault

/-! Reading bytes from front to back. -/
namespace JvmRoutes.ClassFile

/-- The bytes still to be read, and how many have been. -/
structure Cursor where
  offset : Nat := 0
  rest : List UInt8

abbrev ByteReader := StateT Cursor (Except Fault)

def truncatedHere {α : Type} : ByteReader α := fun c => .error (.truncated c.offset)

def u1 : ByteReader Nat := fun c =>
  match c.rest with
  | a :: rest => .ok (a.toNat, ⟨c.offset + 1, rest⟩)
  | _ => .error (.truncated c.offset)

def u2 : ByteReader Nat := fun c =>
  match c.rest with
  | a :: b :: rest => .ok (a.toNat * 256 + b.toNat, ⟨c.offset + 2, rest⟩)
  | _ => .error (.truncated c.offset)

def u4 : ByteReader Nat := fun c =>
  match c.rest with
  | a :: b :: d :: e :: rest =>
    .ok (((a.toNat * 256 + b.toNat) * 256 + d.toNat) * 256 + e.toNat, ⟨c.offset + 4, rest⟩)
  | _ => .error (.truncated c.offset)

def take (size : Nat) : ByteReader (List UInt8) := fun c =>
  let chunk := c.rest.take size
  if chunk.length = size then .ok (chunk, ⟨c.offset + size, c.rest.drop size⟩)
  else .error (.truncated c.offset)

def skip (size : Nat) : ByteReader Unit := do let _ ← take size

def times {α : Type} (count : Nat) (item : ByteReader α) : ByteReader (List α) :=
  match count with
  | 0 => pure []
  | count + 1 => do
    let first ← item
    let rest ← times count item
    pure (first :: rest)

/-- What a reader makes of bytes by themselves, whatever follows what it needs. -/
def ByteReader.over {α : Type} (r : ByteReader α) (bytes : List UInt8) : Except Fault α :=
  (r { rest := bytes }).map (·.1)

def unsigned (bytes : List UInt8) : Nat := bytes.foldl (fun n b => n * 256 + b.toNat) 0

/-- The number in two's complement that the bytes spell. -/
def signed (bytes : List UInt8) : Int :=
  let n := unsigned bytes
  let count := Nat.pow 256 bytes.length
  if 2 * n < count then n else n - count

end JvmRoutes.ClassFile
