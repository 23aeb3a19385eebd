import JvmRoutes.Archive.Checksum
import JvmRoutes.Archive.Directory

/-! Writing archives whose members are stored as they are. -/
namespace JvmRoutes.Archive

/-- A number in `size` bytes, the lowest first. -/
def spell : (size : Nat) → Nat → List UInt8
  | 0, _ => []
  | size + 1, n => UInt8.ofNat n :: spell size (n / 256)

/-- What the records about a member have in common: the version of the rules, the flags, how it is
packed, when it was written, its checksum, its sizes and those of its name and its extras. -/
def packedFacts (name content : ByteArray) : List UInt8 :=
  spell 2 20 ++ spell 2 (Nat.pow 2 11) ++ spell 2 0 ++ spell 2 0 ++ spell 2 33 ++
    spell 4 (lowChecksum content).toNat ++ spell 4 content.size ++ spell 4 content.size ++
    spell 2 name.size ++ spell 2 0

def packedMember (name content : ByteArray) : List UInt8 :=
  memberMark ++ packedFacts name content ++ name.toList ++ content.toList

/-- The record of the directory about a member that starts at a place. -/
def packedEntry (place : Nat) (name content : ByteArray) : List UInt8 :=
  entryMark ++ spell 2 20 ++ packedFacts name content ++ spell 2 0 ++ spell 2 0 ++ spell 2 0 ++
    spell 4 0 ++ spell 4 place ++ name.toList

/-- The members from a place on, and the records of the directory about them. -/
def packedParts (place : Nat) : List (String × ByteArray) → List UInt8 × List UInt8
  | [] => ([], [])
  | (name, content) :: rest =>
    let name := name.toUTF8
    let member := packedMember name content
    let (members, directory) := packedParts (place + member.length) rest
    (member ++ members, packedEntry place name content ++ directory)

def pack (members : List (String × ByteArray)) : List UInt8 :=
  let (packed, directory) := packedParts 0 members
  packed ++ directory ++ endMark ++ spell 2 0 ++ spell 2 0 ++ spell 2 members.length ++
    spell 2 members.length ++ spell 4 directory.length ++ spell 4 packed.length ++ spell 2 0

end JvmRoutes.Archive
