import JvmRoutes.Archive.Unpacking

/-!
The packing by guessed bits: every bit of the symbols takes the less room the better it could be
guessed from what came before it.
-/
namespace JvmRoutes.Archive.Lzma

/-- How many bits of the last byte and of the position choose the model of a byte, and how many
bits of the position choose other models. -/
structure Properties where
  lastBits : Nat
  placeBits : Nat
  positionBits : Nat
  dictionary : Nat
  deriving DecidableEq, Repr

def leastDictionary : Nat := 4096

def Properties.ofBytes? : List UInt8 → Option Properties
  | [packed, a, b, c, d] =>
    let n := packed.toNat
    let size := a.toNat + 256 * (b.toNat + 256 * (c.toNat + 256 * d.toNat))
    let properties : Properties :=
      { lastBits := n % 9, placeBits := n / 9 % 5, positionBits := n / 45
        dictionary := (max leastDictionary size + 15) / 16 * 16 }
    if n < 225 && properties.lastBits + properties.placeBits ≤ 4 then some properties else none
  | _ => none

/-- Which symbols came last: the fewer bytes since the last copy, the higher the number. From
`afterCopy` on the last symbol was a copy. -/
abbrev History := Nat

/-- The least history in which the last symbol was a copy. -/
def afterCopy : History := 7

namespace History

def byte (h : History) : History := if h < 4 then 0 else if h < 10 then h - 3 else h - 6

def newCopy (h : History) : History := if h < afterCopy then 7 else 10

def oldCopy (h : History) : History := if h < afterCopy then 8 else 11

def oldByte (h : History) : History := if h < afterCopy then 9 else 11

end History

/-! Each model has a place in one table. -/

def isCopyAt (history place : Nat) : Nat := 16 * history + place

def isOldAt (history : Nat) : Nat := 192 + history

def isOlderAt (history : Nat) : Nat := 204 + history

def isStillOlderAt (history : Nat) : Nat := 216 + history

def isOldestAt (history : Nat) : Nat := 228 + history

def isLongAt (history place : Nat) : Nat := 240 + 16 * history + place

def slotsAt (lengthClass : Nat) : Nat := 432 + 64 * lengthClass

/-- The models of the bits of short distances. -/
def shortDistances : Nat := 688

def lowDistances : Nat := 816

def newLengths : Nat := 832

def oldLengths : Nat := 1346

def bytesAt (group : Nat) : Nat := 1860 + 768 * group

/-- Packed bytes, how many have been read, the part of the numbers that is left and where in it the
rest of the packed bytes lies, the models as the odds of a zero out of 2048, and the bytes written
so far with the symbols and distances that came last. -/
structure Unpacking where
  packed : ByteArray
  position : Nat := 0
  range : UInt32 := 0xFFFFFFFF
  code : UInt32 := 0
  models : Array UInt32
  output : ByteArray := .empty
  history : History := 0
  distances : UInt32 × UInt32 × UInt32 × UInt32 := (0, 0, 0, 0)

abbrev Unpacker := ExceptT Stop (StateM Unpacking)

def readByte : Unpacker Unit := do
  let s ← get
  match s.packed[s.position]? with
  | none => throw .exhausted
  | some byte =>
    modify fun s =>
      { s with position := s.position + 1, code := (s.code <<< 8) ||| byte.toUInt32 }

/-- Reads a byte when the range has become small. -/
def normalize : Unpacker Unit := do
  if (← get).range < 0x1000000 then
    readByte
    modify fun s => { s with range := s.range <<< 8 }

def bit (model : Nat) : Unpacker Bool := do
  normalize
  let s ← get
  let odds := s.models.getD model 0
  let bound := (s.range >>> 11) * odds
  if s.code < bound then
    modify fun s =>
      { s with range := bound, models := s.models.setIfInBounds model (odds + ((2048 - odds) >>> 5)) }
    return false
  else
    modify fun s =>
      { s with
        range := s.range - bound, code := s.code - bound
        models := s.models.setIfInBounds model (odds - (odds >>> 5)) }
    return true

def digit (model : Nat) : Unpacker Nat := return (← bit model).toNat

def evenBit : Unpacker Nat := do
  normalize
  let s ← get
  let half := s.range >>> 1
  let rest := s.code - half
  if rest >>> 31 = 1 then
    modify fun s => { s with range := half }
    return 0
  else
    modify fun s => { s with range := half, code := rest }
    return 1

/-- A number behind others of `count` bits without a model, the highest first. -/
def evenNumber (before : Nat) : (count : Nat) → Unpacker Nat
  | 0 => return before
  | count + 1 => do evenNumber (2 * before + (← evenBit)) count

/-- A number of bits, the highest first, behind those of `node`. These choose the model. -/
def treeFrom (base node : Nat) : (count : Nat) → Unpacker Nat
  | 0 => return node
  | count + 1 => do treeFrom base (2 * node + (← digit (base + node))) count

def tree (base count : Nat) : Unpacker Nat := return (← treeFrom base 1 count) - Nat.pow 2 count

/-- A number of `count` bits, the lowest first, behind those of `node`. -/
def lowTreeFrom (base node : Nat) : (count : Nat) → Unpacker Nat
  | 0 => return 0
  | count + 1 => do
    let low ← digit (base + node)
    return low + 2 * (← lowTreeFrom base (2 * node + low) count)

def lowTree (base count : Nat) : Unpacker Nat := lowTreeFrom base 1 count

/-- A byte of which the bits of `node` are known. While they are those of another byte, of which
`count` bits are left, the next bit of that chooses the model too. -/
def likeByteFrom (base other node : Nat) : (count : Nat) → Unpacker Nat
  | 0 => return node
  | count + 1 => do
    let expected := (other.testBit count).toNat
    let next ← digit (base + 256 * (1 + expected) + node)
    if next = expected then likeByteFrom base other (2 * node + next) count
    else treeFrom base (2 * node + next) count

/-- The byte at a distance in front of the next one. -/
def earlier (s : Unpacking) (distance : UInt32) : UInt8 :=
  s.output[s.output.size - 1 - distance.toNat]?.getD 0

/-- The byte in front of the next one. In front of the first one stands zero. -/
def lastByte (s : Unpacking) : UInt8 := if s.output.size = 0 then 0 else earlier s 0

/-- The next byte as a symbol of its own. After a copy it is less likely to be the one that the
copy would go on with. -/
def byteSymbol (p : Properties) : Unpacker Unit := do
  let s ← get
  let place := s.output.size % Nat.pow 2 p.placeBits
  let group := place * Nat.pow 2 p.lastBits + (lastByte s).toNat / Nat.pow 2 (8 - p.lastBits)
  let base := bytesAt group
  let node ←
    if s.history < afterCopy then treeFrom base 1 8
    else likeByteFrom base (earlier s s.distances.1).toNat 1 8
  modify fun s =>
    { s with output := s.output.push (UInt8.ofNat node), history := s.history.byte }

def length (base place : Nat) : Unpacker Nat := do
  if ← bit base then
    if ← bit (base + 1) then return 18 + (← tree (base + 258) 8)
    else return 10 + (← tree (base + 130 + 8 * place) 3)
  else return 2 + (← tree (base + 2 + 8 * place) 3)

def distance (length : Nat) : Unpacker UInt32 := do
  let slot ← tree (slotsAt (min (length - 2) 3)) 6
  if slot < 4 then return UInt32.ofNat slot
  let bits := slot / 2 - 1
  let high := 2 + slot % 2
  if slot < 14 then
    let start := high * Nat.pow 2 bits
    return UInt32.ofNat (start + (← lowTree (shortDistances + start - slot - 1) bits))
  else
    -- of a long distance only the first and the last bits have models
    let middle ← evenNumber high (bits - 4)
    return UInt32.ofNat (16 * middle + (← lowTree lowDistances 4))

def endMark : UInt32 := 0xFFFFFFFF

/-- Copies bytes from the last distance, which must lie in the dictionary. -/
def copy (p : Properties) (length : Nat) : Unpacker Unit := do
  let s ← get
  if s.distances.1.toNat < min s.output.size p.dictionary then
    modify fun s => { s with output := copyBack (s.distances.1.toNat + 1) length s.output }
  else throw .malformed

/-- A copy from a new distance, unless the symbols end here. -/
def newCopy (p : Properties) (place : Nat) : Unpacker Bool := do
  let length ← length newLengths place
  let distance ← distance length
  modify fun s =>
    let (first, second, third, _) := s.distances
    { s with history := s.history.newCopy, distances := (distance, first, second, third) }
  if distance = endMark then
    normalize
    -- behind the end nothing may be left of the packed numbers
    if (← get).code = 0 then return true else throw .malformed
  copy p length
  return false

def takeOlder (history : History) : Unpacker Unit := do
  if ← bit (isStillOlderAt history) then
    if ← bit (isOldestAt history) then
      modify fun s =>
        let (first, second, third, fourth) := s.distances
        { s with distances := (fourth, first, second, third) }
    else
      modify fun s =>
        let (first, second, third, fourth) := s.distances
        { s with distances := (third, first, second, fourth) }
  else
    modify fun s =>
      let (first, second, rest) := s.distances
      { s with distances := (second, first, rest) }

/-- A copy from an old distance, of which there is none in front of the first byte. -/
def oldCopy (p : Properties) (place : Nat) : Unpacker Unit := do
  let s ← get
  if s.output.size = 0 then throw .malformed
  let isOlder ← bit (isOlderAt s.history)
  if isOlder then takeOlder s.history
  else if !(← bit (isLongAt s.history place)) then
    copy p 1
    modify fun s => { s with history := s.history.oldByte }
    return ()
  let length ← length oldLengths place
  modify fun s => { s with history := s.history.oldCopy }
  copy p length

/-- Writes what the next symbol stands for, and says whether it ends them. -/
def symbol (p : Properties) : Unpacker Bool := do
  let s ← get
  let place := s.output.size % Nat.pow 2 p.positionBits
  if ← bit (isCopyAt s.history place) then
    if ← bit (isOldAt s.history) then
      oldCopy p place
      return false
    else newCopy p place
  else
    byteSymbol p
    return false

def symbols (p : Properties) : (bound : Nat) → Unpacker Unit
  | 0 => throw .malformed
  | bound + 1 => do if ← symbol p then return () else symbols p bound

/-- Reads the first bytes of the code, of which the first is zero. -/
def start : Unpacker Unit := do
  if let some byte := (← get).packed[0]? then
    if byte ≠ 0 then throw .malformed
  readByte
  readByte
  readByte
  readByte
  readByte

/-- How many symbols come to a packed byte at most: every bit makes the range smaller by a
sixty-sixth at least, so that fewer than 512 bits come to a byte. -/
def mostSymbols : Nat := 512

def unpackWith? (p : Properties) (packed : ByteArray) : Option Unpacked :=
  let models := Array.replicate (bytesAt (Nat.pow 2 (p.lastBits + p.placeBits))) 1024
  let unpacker : Unpacker Unit := do
    start
    symbols p (mostSymbols * (packed.size + 1))
  match StateT.run (m := Id) (ExceptT.run unpacker) { packed, models } with
  | (.ok (), s) => some ⟨s.output, true⟩
  | (.error .exhausted, s) => some ⟨s.output, false⟩
  | (.error .malformed, _) => none

/-- What packed bytes behind their properties stand for. In front of these stand a version and
their size, and bytes that end before anything is packed stand for none. -/
def unpack? (packed : ByteArray) : Option Unpacked :=
  let size := (packed[2]?.getD 0).toNat + 256 * (packed[3]?.getD 0).toNat
  if packed.size ≤ 4 || packed.size ≤ 4 + size then some ⟨.empty, false⟩
  else do
    let properties ← Properties.ofBytes? (packed.extract 4 (4 + size)).toList
    unpackWith? properties (packed.extract (4 + size) packed.size)

end JvmRoutes.Archive.Lzma
