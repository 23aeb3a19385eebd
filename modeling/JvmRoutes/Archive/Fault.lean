/-! Why archives and their members cannot be read. -/
namespace JvmRoutes.Archive

inductive Packing
  | stored | deflate | bzip | lzma
  deriving DecidableEq, Repr

namespace Packing

def ofNumber? : Nat → Option Packing
  | 0 => some stored
  | 8 => some deflate
  | 12 => some bzip
  | 14 => some lzma
  | _ => none

def name : Packing → String
  | stored => "stored"
  | deflate => "deflate"
  | bzip => "bzip2"
  | lzma => "LZMA"

end Packing

/-- Why an archive or one of its members cannot be read: its records contradict each other, it
asks for a way of reading that is not at hand or for a password, it ends too early, a member
starts in front of it or where no file reaches, the place of a member is too great for a place, a
name is not in its encoding, or packed bytes are not what their packing leads to. -/
inductive Fault
  | damaged
  | unsupported
  | encrypted
  | truncated
  | outside
  | widePlace
  | malformedName
  | malformedBytes (packing : Packing)
  deriving DecidableEq, Repr

def Fault.message : Fault → String
  | damaged => "The archive is damaged"
  | unsupported => "The archive cannot be read by this version"
  | encrypted => "The member of the archive is encrypted"
  | truncated => "The archive ends inside a member"
  | outside => "A member starts outside of the archive"
  | widePlace => "The place of a member has more than 64 bits"
  | malformedName => "The name of a member is malformed"
  | malformedBytes packing => "The bytes of a member are malformed: " ++ packing.name

end JvmRoutes.Archive
