import JvmRoutes.Archive.Bzip
import JvmRoutes.Archive.Deflate
import JvmRoutes.Archive.Directory
import JvmRoutes.Archive.Lzma

/-! Archives: files in one file, with a directory of them at its end. -/
namespace JvmRoutes

structure Archive where
  bytes : ByteArray
  directory : Archive.Directory

namespace Archive

def ofBytes (bytes : ByteArray) : Except Fault (Option Archive) := do
  return (← Directory.ofBytes bytes).map (⟨bytes, ·⟩)

def size (archive : Archive) : Nat := archive.directory.names.length

def Packing.unpack (packing : Packing) (packed : ByteArray) : Except Fault Unpacked :=
  let unpacked : Option Unpacked :=
    match packing with
    | stored => some ⟨packed, false⟩
    | deflate => Deflate.unpack? packed
    | bzip => Bzip.unpack? packed
    | lzma => Lzma.unpack? packed
  match unpacked with
  | some unpacked => .ok unpacked
  | none => .error (.malformedBytes packing)

/-- The bytes of a member, from the packed ones as far as the archive has them. Bytes beyond its
size do not count, and the others must have its checksum. -/
def Entry.unpack (e : Entry) (packing : Packing) (packed : ByteArray) : Except Fault ByteArray := do
  if packed.size = 0 && 0 < e.packedSize then throw .truncated
  let unpacked ← packing.unpack packed
  let bytes := unpacked.bytes.extract 0 e.size
  if !unpacked.isComplete && packed.size < e.packedSize && bytes.size < e.size then
    throw .truncated
  if (lowChecksum bytes).toNat ≠ e.checksum then throw .damaged
  return bytes

/-- The size of the record in front of a member without its name and its extras. -/
def memberSize : Nat := 30

/-- The last place that a file can reach: it has fewer than `2 ^ 32` blocks of 4096 bytes. -/
def lastPlace : Nat := (Nat.pow 2 32 - 1) * 4096

/-- The place of the record in front of a member. Places are numbers of 64 bits with a sign. -/
def headerPlace (e : Entry) : Except Fault Nat :=
  if e.header < -(Nat.pow 2 63 : Int) || (Nat.pow 2 63 : Int) ≤ e.header then .error .widePlace
  else if e.header < 0 || (lastPlace : Int) < e.header then .error .outside
  else .ok e.header.toNat

/-- Where the packed bytes of a member start, which must end at a limit. The record in front of them
must be about the same member. -/
def packedPlace (bytes : ByteArray) (e : Entry) (limit : Int) : Except Fault Nat := do
  let place ← headerPlace e
  if bytes.size < place + memberSize || !hasMark bytes place memberMark then throw .damaged
  if e.isPatch || e.isStronglyEncrypted then throw .unsupported
  let names := place + memberSize
  let extras := names + numberAt bytes (place + 26) 2
  let name ← nameText (numberAt bytes (place + 6) 2) (bytes.extract names extras)
  if name ≠ e.fullName then throw .damaged
  -- extras beyond the end of the file are taken to end with it
  let start := min (extras + numberAt bytes (place + 28) 2) bytes.size
  if limit < ↑(start + e.packedSize) then throw .damaged
  return start

/-- The bytes of a member that must end at a limit. -/
def read (bytes : ByteArray) (e : Entry) (limit : Int) : Except Fault ByteArray := do
  let place ← packedPlace bytes e limit
  if e.isEncrypted then throw .encrypted
  let some packing := Packing.ofNumber? e.packing | throw .unsupported
  e.unpack packing (bytes.extract place (place + e.packedSize))

/-- The bytes of the member of some name, if there is one. Of two with one name the later
counts. -/
def find? (archive : Archive) (name : String) : Except Fault (Option ByteArray) :=
  match archive.directory.find? name with
  | none => .ok none
  | some (e, earlier) =>
    (read archive.bytes e (archive.directory.limit earlier e)).map some

end Archive

end JvmRoutes
