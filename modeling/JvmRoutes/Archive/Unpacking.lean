/-! Unpacking: reading packed bytes bit by bit and writing the bytes that they stand for. -/
namespace JvmRoutes.Archive

/-- Why unpacking stops in front of the end: there are no more packed bytes, or no bytes are
packed like that. -/
inductive Stop
  | exhausted
  | malformed
  deriving DecidableEq, Repr

/-- Packed bytes, how many of their bits have been read, and the bytes written so far. -/
structure Unpacking where
  packed : ByteArray
  position : Nat := 0
  output : ByteArray := .empty

/-- A part of unpacking. What has been written stays written when it stops. -/
abbrev Unpacker := ExceptT Stop (StateM Unpacking)

/-- What packed bytes stand for, as far as they go, and whether their end has been reached. -/
structure Unpacked where
  bytes : ByteArray
  isComplete : Bool

namespace Unpacker

/-- What an unpacker makes of packed bytes, unless they are malformed. -/
def unpack? (unpacker : Unpacker Unit) (packed : ByteArray) : Option Unpacked :=
  match StateT.run (m := Id) (ExceptT.run unpacker) { packed } with
  | (.ok (), s) => some ⟨s.output, true⟩
  | (.error .exhausted, s) => some ⟨s.output, false⟩
  | (.error .malformed, _) => none

def refuse {α : Type} : Unpacker α := throw .malformed

def check (condition : Bool) : Unpacker Unit := if condition then pure () else refuse

def bitAt (place : Nat → Nat) : Unpacker Bool := do
  let s ← get
  match s.packed[s.position / 8]? with
  | none => throw .exhausted
  | some byte =>
    modify fun s => { s with position := s.position + 1 }
    return byte.toNat.testBit (place (s.position % 8))

def lowBit : Unpacker Bool := bitAt id

def highBit : Unpacker Bool := bitAt (7 - ·)

def lowNumber : (count : Nat) → Unpacker Nat
  | 0 => pure 0
  | count + 1 => do
    let low ← lowBit
    return low.toNat + 2 * (← lowNumber count)

/-- A number of `count` bits behind others, the highest first. -/
def highNumberFrom (before : Nat) : (count : Nat) → Unpacker Nat
  | 0 => pure before
  | count + 1 => do highNumberFrom (2 * before + (← highBit).toNat) count

def highNumber (count : Nat) : Unpacker Nat := highNumberFrom 0 count

def toNextByte : Unpacker Unit := modify fun s => { s with position := (s.position + 7) / 8 * 8 }

def repeated {α : Type} (item : Unpacker α) : (count : Nat) → Unpacker (List α)
  | 0 => pure []
  | count + 1 => do
    let first ← item
    return first :: (← repeated item count)

def write (byte : UInt8) : Unpacker Unit := modify fun s => { s with output := s.output.push byte }

end Unpacker

/-- The bytes with `length` more, each the one at some distance in front of it. -/
def copyBack (distance : Nat) : (length : Nat) → (output : ByteArray) → ByteArray
  | 0, output => output
  | length + 1, output =>
    copyBack distance length (output.push (output[output.size - distance]?.getD 0))

end JvmRoutes.Archive
