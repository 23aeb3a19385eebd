import JvmRoutes.Archive.PrefixCode

/-! The packing by blocks of symbols that stand for bytes or for copies of earlier bytes. -/
namespace JvmRoutes.Archive.Deflate

open Unpacker

/-- The least length of a copy and the number of extra bits, for each symbol of a length. -/
def lengthTable : Array (Nat × Nat) :=
  #[(3, 0), (4, 0), (5, 0), (6, 0), (7, 0), (8, 0), (9, 0), (10, 0), (11, 1), (13, 1), (15, 1),
    (17, 1), (19, 2), (23, 2), (27, 2), (31, 2), (35, 3), (43, 3), (51, 3), (59, 3), (67, 4),
    (83, 4), (99, 4), (115, 4), (131, 5), (163, 5), (195, 5), (227, 5), (258, 0)]

/-- The least distance of a copy and the number of extra bits, for each symbol of a distance. -/
def distanceTable : Array (Nat × Nat) :=
  #[(1, 0), (2, 0), (3, 0), (4, 0), (5, 1), (7, 1), (9, 2), (13, 2), (17, 3), (25, 3), (33, 4),
    (49, 4), (65, 5), (97, 5), (129, 6), (193, 6), (257, 7), (385, 7), (513, 8), (769, 8),
    (1025, 9), (1537, 9), (2049, 10), (3073, 10), (4097, 11), (6145, 11), (8193, 12),
    (12289, 12), (16385, 13), (24577, 13)]

/-- The order in which the lengths of the words for lengths are given. -/
def lengthOrder : List Nat := [16, 17, 18, 0, 8, 7, 9, 6, 10, 5, 11, 4, 12, 3, 13, 2, 14, 1, 15]

def longest : Nat := 15

/-- The number that a symbol of a table and its extra bits stand for. -/
def entry (table : Array (Nat × Nat)) (symbol : Nat) : Unpacker Nat := do
  match table[symbol]? with
  | none => refuse
  | some (least, extra) => return least + (← lowNumber extra)

/-- Writes the bytes of a block up to its end. Every symbol takes a bit at least, so that there
are no more symbols than bits. -/
def writeSymbols (literals distances : PrefixCode) : (bound : Nat) → Unpacker Unit
  | 0 => refuse
  | bound + 1 => do
    let symbol ← literals.decode lowBit
    if symbol < 256 then
      write (UInt8.ofNat symbol)
      writeSymbols literals distances bound
    else if symbol = 256 then return ()
    else
      let length ← entry lengthTable (symbol - 257)
      let distance ← entry distanceTable (← distances.decode lowBit)
      check (distance ≤ (← get).output.size)
      modify fun s => { s with output := copyBack distance length s.output }
      writeSymbols literals distances bound

/-- The code of some lengths. It must leave no word over, but for a single word of one bit where
that is allowed. A code without words leads to `fallback`. -/
def codeOf (singleAllowed : Bool) (fallback : PrefixCode) (lengths : List Nat) :
    Unpacker PrefixCode := do
  let used := lengths.foldl max 0
  if used = 0 then return fallback
  let code := PrefixCode.ofLengths used lengths
  check (code.spare == 0 || (decide (0 < code.spare) && singleAllowed && used == 1))
  return code

def noWords : PrefixCode := ⟨[#[]]⟩

/-- The code in which either bit is a word for zero. -/
def onlyZero : PrefixCode := ⟨[#[0, 0]]⟩

/-- What a symbol among the lengths of words stands for: how often some length comes next. -/
def lengthRun (before : List Nat) (symbol : Nat) : Unpacker (Nat × Nat) := do
  if symbol < 16 then return (1, symbol)
  else if symbol = 16 then
    let times := 3 + (← lowNumber 2)
    -- the first length has none before it that could be repeated
    check (!before.isEmpty)
    return (times, before.headD 0)
  else if symbol = 17 then return (3 + (← lowNumber 3), 0)
  else return (11 + (← lowNumber 7), 0)

/-- The lengths of words, of which `count` are missing, after those given in reverse. -/
def wordLengths (code : PrefixCode) : (bound count : Nat) → (before : List Nat) →
    Unpacker (List Nat)
  | _, 0, before => return before.reverse
  | 0, _, _ => refuse
  | bound + 1, count, before => do
    let (times, length) ← lengthRun before (← code.decode lowBit)
    check (times ≤ count)
    wordLengths code bound (count - times) (List.replicate times length ++ before)

def fixedCodes : PrefixCode × PrefixCode :=
  (.ofLengths longest (List.replicate 144 8 ++ List.replicate 112 9 ++ List.replicate 24 7 ++
    List.replicate 8 8), .ofLengths longest (List.replicate 32 5))

/-- The codes that a block gives. A symbol for its end must be among them. -/
def givenCodes : Unpacker (PrefixCode × PrefixCode) := do
  let literals := 257 + (← lowNumber 5)
  let distances := 1 + (← lowNumber 5)
  let size := 4 + (← lowNumber 4)
  check (literals ≤ 286 && distances ≤ 30)
  let given ← repeated (lowNumber 3) size
  let lengths := (List.range 19).map fun i => ((lengthOrder.zip given).lookup i).getD 0
  let code ← codeOf false onlyZero lengths
  let count := literals + distances
  let all ← wordLengths code count count []
  check (all[256]?.getD 0 != 0)
  return (← codeOf true noWords (all.take literals), ← codeOf true noWords (all.drop literals))

def writeBytes : (count : Nat) → Unpacker Unit
  | 0 => return ()
  | count + 1 => do
    write (UInt8.ofNat (← lowNumber 8))
    writeBytes count

/-- Writes the bytes of a block that is not packed. Its size is given twice. -/
def writeStored : Unpacker Unit := do
  toNextByte
  let size ← lowNumber 16
  let complement ← lowNumber 16
  check (size + complement == 0xFFFF)
  writeBytes size

def writeBlocks : (bound : Nat) → Unpacker Unit
  | 0 => refuse
  | bound + 1 => do
    let isLast ← lowBit
    match ← lowNumber 2 with
    | 0 => writeStored
    | 1 => writeSymbols fixedCodes.1 fixedCodes.2 bound
    | 2 => do
      let (literals, distances) ← givenCodes
      writeSymbols literals distances bound
    | _ => refuse
    if isLast then return ()
    writeBlocks bound

def unpack? (packed : ByteArray) : Option Unpacked :=
  (writeBlocks (8 * packed.size + 2)).unpack? packed

end JvmRoutes.Archive.Deflate
