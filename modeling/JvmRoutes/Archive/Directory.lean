import JvmRoutes.Archive.CodePage
import JvmRoutes.Archive.Fault

/-! The directory at the end of an archive. -/
namespace JvmRoutes.Archive

/-- The number in `size` bytes from a place on, the lowest byte first. Missing bytes count as
zero. -/
def numberAt (bytes : ByteArray) (place : Nat) : (size : Nat) → Nat
  | 0 => 0
  | size + 1 => (bytes[place]?.getD 0).toNat + 256 * numberAt bytes (place + 1) size

def hasMark (bytes : ByteArray) (place : Nat) (mark : List UInt8) : Bool :=
  (bytes.extract place (place + mark.length)).toList == mark

def memberMark : List UInt8 := [0x50, 0x4B, 3, 4]

def entryMark : List UInt8 := [0x50, 0x4B, 1, 2]

def endMark : List UInt8 := [0x50, 0x4B, 5, 6]

/-- The start of a record behind the directory that has room for large numbers. -/
def wideMark : List UInt8 := [0x50, 0x4B, 6, 6]

def locatorMark : List UInt8 := [0x50, 0x4B, 6, 7]

def endSize : Nat := 22

def wideSize : Nat := 56

def locatorSize : Nat := 20

/-- The size of a record of the directory without its name and its extras. -/
def entrySize : Nat := 46

/-- How many bytes can stand behind the record behind the directory. -/
def mostBehind : Nat := 65536

/-- Where the directory ends, how large it is, and where it says that it starts. -/
structure Ending where
  place : Nat
  size : Nat
  start : Nat
  deriving Repr

/-- The last place with some bytes, of `count` places up to one. -/
def lastMark? (bytes : ByteArray) (mark : List UInt8) (place : Nat) : (count : Nat) → Option Nat
  | 0 => none
  | count + 1 =>
    if hasMark bytes place mark then some place
    else if place = 0 then none
    else lastMark? bytes mark (place - 1) count

/-- The place of the record behind the directory: at the end, or with something behind it. -/
def endPlace? (bytes : ByteArray) : Option Nat :=
  if bytes.size < endSize then none
  else
    -- nothing stands behind the record, or else it is looked for from the end on
    let last := bytes.size - endSize
    if hasMark bytes last endMark && numberAt bytes (last + 20) 2 == 0 then some last
    else
      match lastMark? bytes endMark (bytes.size - 4) (endSize - 4 + mostBehind + 1) with
      | none => none
      | some place => if place ≤ last then some place else none

def endingAt (bytes : ByteArray) (place : Nat) : Ending where
  place := place
  size := numberAt bytes (place + 12) 4
  start := numberAt bytes (place + 16) 4

def wideEndingAt (bytes : ByteArray) (place : Nat) : Ending where
  place := place
  size := numberAt bytes (place + 40) 8
  start := numberAt bytes (place + 48) 8

/-- What is said of the directory in front of a record, if the bytes are an archive. A wide record
counts for more. An archive in several parts is refused. -/
def ending? (bytes : ByteArray) (place : Nat) : Except Fault (Option Ending) :=
  let locator := place - locatorSize
  if place < locatorSize || !hasMark bytes locator locatorMark then
    .ok (some (endingAt bytes place))
  else if numberAt bytes (locator + 4) 4 ≠ 0 || 1 < numberAt bytes (locator + 16) 4 then
    .error .damaged
  -- without room for the wide record, the bytes are not damaged but no archive at all
  else if locator < wideSize then .ok none
  else
    let wide := locator - wideSize
    if hasMark bytes wide wideMark then .ok (some (wideEndingAt bytes wide))
    else .ok (some (endingAt bytes place))

/-- What the directory says of a member. Its name counts up to the first NUL. -/
structure Entry where
  fullName : String
  flags : Nat
  packing : Nat
  checksum : Nat
  packedSize : Nat
  size : Nat
  header : Int
  deriving Repr

namespace Entry

def name (e : Entry) : String := String.ofList (e.fullName.toList.takeWhile (· != '\x00'))

def isEncrypted (e : Entry) : Bool := e.flags.testBit 0

def isPatch (e : Entry) : Bool := e.flags.testBit 5

/-- Whether the member is encrypted in a way that not even a password helps with. -/
def isStronglyEncrypted (e : Entry) : Bool := e.flags.testBit 6

end Entry

/-- The text of a name, which is in UTF-8 if a flag says so. -/
def nameText (flags : Nat) (name : ByteArray) : Except Fault String :=
  if flags.testBit 11 then
    match String.fromUTF8? name with
    | some text => .ok text
    | none => .error .malformedName
  else .ok (codePageText name.toList)

/-- A number of an entry that was too large for it: the next eight bytes of an extra. -/
def wideNumber (isWide : Bool) (number : Nat) (extra : ByteArray) :
    Except Fault (Nat × ByteArray) :=
  if !isWide then .ok (number, extra)
  else if extra.size < 8 then .error .damaged
  else .ok (numberAt extra 0 8, extra.extract 8 extra.size)

/-- The greatest number of four bytes, which stands for one that is too large. -/
def tooWide : Nat := Nat.pow 2 32 - 1

/-- The entry with the numbers that were too large for it. -/
def Entry.widen (e : Entry) (extra : ByteArray) : Except Fault Entry := do
  let (size, extra) ← wideNumber (e.size == tooWide || e.size == Nat.pow 2 64 - 1) e.size extra
  let (packedSize, extra) ← wideNumber (e.packedSize == tooWide) e.packedSize extra
  let (header, _) ← wideNumber (e.header == tooWide) e.header.toNat extra
  return { e with size, packedSize, header }

def Entry.withExtras (e : Entry) (extras : ByteArray) (place : Nat) : Except Fault Entry := do
  if extras.size < place + 4 then return e
  let next := place + 4 + numberAt extras (place + 2) 2
  if extras.size < next then throw .damaged
  let e ← if numberAt extras place 2 = 1 then e.widen (extras.extract (place + 4) next) else pure e
  e.withExtras extras next
termination_by extras.size - place

/-- The greatest version that the rules for a member may be of. -/
def newestVersion : Nat := 63

/-- The entry at a place of the directory, and the place behind it. Places inside the archive are
off by `shift` when something stands in front of it. -/
def entryAt (directory : ByteArray) (shift : Int) (place : Nat) : Except Fault (Entry × Nat) := do
  if directory.size < place + entrySize || !hasMark directory place entryMark then throw .damaged
  let number (offset size : Nat) := numberAt directory (place + offset) size
  let names := place + entrySize
  let extras := names + number 28 2
  let comment := extras + number 30 2
  let flags := number 8 2
  let fullName ← nameText flags (directory.extract names extras)
  if newestVersion < number 6 1 then throw .unsupported
  let narrow : Entry :=
    { fullName, flags, packing := number 10 2, checksum := number 16 4, packedSize := number 20 4
      size := number 24 4, header := number 42 4 }
  let e ← narrow.withExtras (directory.extract extras comment) 0
  return ({ e with header := e.header + shift }, comment + number 32 2)

/-- The entries of the directory from a place on. Each takes a byte at least. -/
def entriesFrom (directory : ByteArray) (shift : Int) (place : Nat) : (bound : Nat) →
    Except Fault (List Entry)
  | 0 => return []
  | bound + 1 => do
    if directory.size ≤ place then return []
    let (e, next) ← entryAt directory shift place
    return e :: (← entriesFrom directory shift next bound)

/-- The directory of an archive: where it starts, and its entries in their order. -/
structure Directory where
  place : Nat
  entries : List Entry
  deriving Repr

namespace Directory

def ofBytes (bytes : ByteArray) : Except Fault (Option Directory) := do
  let some place := endPlace? bytes | return none
  let some ending ← ending? bytes place | return none
  if ending.place < ending.size then throw .damaged
  let start := ending.place - ending.size
  let records := bytes.extract start ending.place
  return some ⟨start, ← entriesFrom records (start - ending.start) 0 records.size⟩

def names (d : Directory) : List String := (d.entries.map (·.name)).eraseDups

/-- The last entry of some name, and the entries before it from the last to the first. -/
def find? (d : Directory) (name : String) : Option (Entry × List Entry) :=
  match d.entries.reverse.dropWhile (·.name != name) with
  | [] => none
  | e :: earlier => some (e, earlier)

theorem name_of_find? {d : Directory} {name : String} {e : Entry} {earlier : List Entry}
    (h : d.find? name = some (e, earlier)) : e.name = name := by
  unfold find? at h
  split at h
  · contradiction
  · rename_i first rest hs
    have hf := List.head?_dropWhile_not (fun e : Entry => e.name != name) d.entries.reverse
    rw [hs] at hf
    obtain ⟨rfl, -⟩ := Prod.mk.inj (Option.some.inj h)
    simpa using hf

/-- Where a member has to end: in front of the next one, or in front of the directory if it is the
last one. Of members that start at one place only the first in the directory has room, and the
others end where they start. -/
def limit (d : Directory) (earlier : List Entry) (e : Entry) : Int :=
  if earlier.any (·.header == e.header) then e.header
  else ((d.entries.map (·.header)).filter (e.header < ·)).min?.getD d.place

end Directory

end JvmRoutes.Archive
