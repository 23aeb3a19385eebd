import JvmRoutes.Archive.Checksum
import JvmRoutes.Archive.Mixing
import JvmRoutes.Archive.PrefixCode

/-!
The packing by sorted blocks: runs are shortened, the bytes of a block are sorted by what follows
them, each is named by how long ago it came last, and these numbers are given by words of codes.
-/
namespace JvmRoutes.Archive.Bzip

open Unpacker

/-- Passes over bytes that must be there. -/
def expect : List Nat → Unpacker Unit
  | [] => return ()
  | byte :: rest => do
    check ((← highNumber 8) == byte)
    expect rest

/-- How many ones there are up to the next zero, fewer than `bound`. -/
def ones : (bound : Nat) → Unpacker Nat
  | 0 => refuse
  | bound + 1 => do if ← highBit then return 1 + (← ones bound) else return 0

def moveToFront {α : Type} (items : List α) (place : Nat) : Option (α × List α) :=
  items[place]?.map fun item => (item, item :: items.eraseIdx place)

def movedItems {α : Type} (items : List α) : (places : List Nat) → List α
  | [] => []
  | place :: rest =>
    match moveToFront items place with
    | none => []
    | some (item, items) => item :: movedItems items rest

def longest : Nat := 20

/-- The length of the next word: the last one, changed by one as often as a bit says so. -/
def wordLength : (bound : Nat) → (length : Nat) → Unpacker Nat
  | 0, _ => refuse
  | bound + 1, length => do
    check (1 ≤ length && length ≤ longest)
    if ← highBit then
      if ← highBit then wordLength bound (length - 1) else wordLength bound (length + 1)
    else return length

def wordLengths (bound : Nat) : (count : Nat) → (length : Nat) → Unpacker (List Nat)
  | 0, _ => return []
  | count + 1, length => do
    let length ← wordLength bound length
    return length :: (← wordLengths bound count length)

/-- A code for `count` symbols. It has a level more than there are lengths, without words: bits that
start no word are refused only behind the first bit that is too many. -/
def codeOf (bound count : Nat) : Unpacker PrefixCode := do
  let start ← highNumber 5
  return .ofLengths (longest + 1) (← wordLengths bound count start)

/-- The bytes of a block, as two levels of sixteen marks each. -/
def usedBytes : Unpacker (List UInt8) := do
  let groups ← repeated highBit 16
  let marks ← groups.mapM fun isUsed =>
    if isUsed then repeated highBit 16 else return List.replicate 16 false
  return (marks.flatten.zipIdx.filter (·.1)).map fun mark => UInt8.ofNat mark.2

/-- The codes of a block, and which of them is used for each fifty symbols. -/
structure Codes where
  codes : Array PrefixCode
  selectors : Array Nat

def groupSize : Nat := 50

def mostSelectors : Nat := 18002

def codesOf (bound count : Nat) : Unpacker Codes := do
  let size ← highNumber 3
  check (2 ≤ size && size ≤ 6)
  let selectorCount ← highNumber 15
  check (1 ≤ selectorCount)
  let places ← repeated (ones size) selectorCount
  let codes ← repeated (codeOf bound count) size
  return ⟨codes.toArray, (movedItems (List.range size) (places.take mostSelectors)).toArray⟩

def symbolAt (codes : Codes) (index : Nat) : Unpacker Nat := do
  match codes.selectors[index / groupSize]?.bind (codes.codes[·]?) with
  | none => refuse
  | some code => code.decode highBit

/-- The least weight of a digit that a run has no room for. -/
def weightLimit : Nat := Nat.pow 2 21

/-- The sorted bytes of a block, after those given. `alphabet` holds its bytes, the last one first.
A run of the last byte is given by digits one and two, of which the next has the weight `weight`;
`run` is what they come to so far. The symbol behind all others ends the block. -/
def sortedBytes (codes : Codes) (room : Nat) : (bound index : Nat) → (alphabet : List UInt8) →
    (run weight : Nat) → (block : ByteArray) → Unpacker ByteArray
  | 0, _, _, _, _, _ => refuse
  | bound + 1, index, alphabet, run, weight, block => do
    let symbol ← symbolAt codes index
    if symbol ≤ 1 then
      check (weight < weightLimit)
      sortedBytes codes room bound (index + 1) alphabet (run + (symbol + 1) * weight) (2 * weight)
        block
    else
      check (block.size + run ≤ room)
      let block := Nat.repeat (·.push (alphabet.headD 0)) run block
      match moveToFront alphabet (symbol - 1) with
      -- no byte has this symbol: it is the one that ends the block
      | none => return block
      | some (byte, alphabet) =>
        check (block.size < room)
        sortedBytes codes room bound (index + 1) alphabet 0 1 (block.push byte)

/-- For each byte value, how many of the bytes are less. -/
def startsOf (block : ByteArray) : Array Nat :=
  let counts := block.foldl (fun counts byte => counts.modify byte.toNat (· + 1))
    (Array.replicate 256 0)
  (counts.foldl (fun (starts, sum) count => (starts.push sum, sum + count))
    ((#[] : Array Nat), 0)).1

/-- For each place of the sorted bytes, the place of the byte that followed it. -/
def followers (block : ByteArray) : Array Nat :=
  ((List.range block.size).foldl (fun (places, starts) index =>
    let byte := (block[index]?.getD 0).toNat
    let start := starts.getD byte 0
    (places.setIfInBounds start index, starts.modify byte (· + 1)))
    (Array.replicate block.size 0, startsOf block)).1

/-- The next `count` bytes in the order in which they were before they were sorted. -/
def unsorted (block : ByteArray) (followers : Array Nat) (place : Nat) : (count : Nat) → List UInt8
  | 0 => []
  | count + 1 =>
    block[place]?.getD 0 :: unsorted block followers (followers.getD place 0) count

/-- How many equal bytes in a row are followed by how many more there are. -/
def longRun : Nat := 4

/-- The bytes with their runs in full length, and whether every long run is followed by its length.
The last byte has come `count` times. A length that is missing at the end counts as `missing`. -/
def fullRuns (missing last : UInt8) (count : Nat) (output : ByteArray) :
    List UInt8 → ByteArray × Bool
  | [] =>
    if count = longRun then (Nat.repeat (·.push last) missing.toNat output, false)
    else (output, true)
  | byte :: rest =>
    if count = longRun then
      fullRuns missing last 0 (Nat.repeat (·.push last) byte.toNat output) rest
    else
      fullRuns missing byte (if count ≠ 0 && byte = last then count + 1 else 1) (output.push byte)
        rest

/-- The bytes of a block in the order in which they were before they were sorted, and one more, with
which this order goes on. If they were mixed before that, this is undone. -/
def inOrder (isMixed : Bool) (start : Nat) (block : ByteArray) : List UInt8 :=
  let followers := followers block
  let bytes := unsorted block followers (followers.getD start 0) (block.size + 1)
  if isMixed then Mixing.mix bytes else bytes

def firstRoom : Nat := 32 * 1024

/-- How much room is added, in units of 1024 bytes, each time when there is no more. -/
def addedRoom : List Nat :=
  [64, 256, 1024, 4096, 8192, 16384, 16384, 32768, 32768, 32768, 32768, 65536, 65536, 131072,
    131072]

/-- The room when there is enough for `size` bytes, from some room on. -/
def roomFrom (size room : Nat) : (added : List Nat) → Nat
  | [] => max size room
  | units :: added => if size ≤ room then room else roomFrom size (room + 1024 * units) added

def roomFor (size : Nat) : Nat := roomFrom size firstRoom addedRoom

/-- Writes bytes if there is room for `needed`. More room is added only as long as there are packed
bytes that have not been read; without them, only the bytes that there is room for are written. -/
def writeInRoom (needed : Nat) (bytes : ByteArray) : Unpacker Unit := do
  let s ← get
  let free := roomFor s.output.size - s.output.size
  if free < needed && 8 * s.packed.size < s.position + 8 then
    set { s with output := s.output ++ bytes.extract 0 free }
    throw .exhausted
  set { s with output := s.output ++ bytes }

/-- Writes the bytes of a block, which must have the checksum in front of it, and gives that. That a
mixed block lacks the length of a run is seen only where there is room for another byte. -/
def writeBlock (level bound : Nat) : Unpacker UInt32 := do
  let expected := UInt32.ofNat (← highNumber 32)
  let isMixed ← highBit
  let start ← highNumber 24
  let room := 100000 * level
  check (start ≤ 10 + room)
  let alphabet ← usedBytes
  check (!alphabet.isEmpty)
  let codes ← codesOf bound (alphabet.length + 2)
  let block ← sortedBytes codes room bound 0 alphabet 0 1 .empty
  check (start < block.size)
  let ordered := inOrder isMixed start block
  let (bytes, isWhole) := fullRuns (ordered.getLastD 0) 0 0 .empty ordered.dropLast
  writeInRoom (bytes.size + (isMixed && !isWhole).toNat) bytes
  check (isWhole && highChecksum bytes == expected)
  return expected

/-- Writes the bytes of all blocks. `sum` is made of the checksums of those before. -/
def writeBlocks (level : Nat) : (bound : Nat) → (sum : UInt32) → Unpacker Unit
  | 0, _ => refuse
  | bound + 1, sum => do
    match ← highNumber 8 with
    | 0x17 =>
      expect [0x72, 0x45, 0x38, 0x50, 0x90]
      check ((← highNumber 32) == sum.toNat)
    | 0x31 =>
      expect [0x41, 0x59, 0x26, 0x53, 0x59]
      let checksum ← writeBlock level bound
      writeBlocks level bound (((sum <<< 1) ||| (sum >>> 31)) ^^^ checksum)
    | _ => refuse

def writeStream (bound : Nat) : Unpacker Unit := do
  expect [0x42, 0x5A, 0x68]
  let digit ← highNumber 8
  check (0x31 ≤ digit && digit ≤ 0x39)
  writeBlocks (digit - 0x30) bound 0

/-- What packed bytes stand for. Every symbol takes a bit at least. -/
def unpack? (packed : ByteArray) : Option Unpacked :=
  (writeStream (8 * packed.size + 2)).unpack? packed

end JvmRoutes.Archive.Bzip
