import JvmRoutes.Signature.Reader

/-! What can be wrong with the bytes of a class file. -/
namespace JvmRoutes.ClassFile

/-- Why bytes are no class file. -/
inductive Fault
  | truncated (offset : Nat)
  | otherFormat (origin : String)
  | unknownConstant (tag index : Nat)
  | badReference (index : Nat)
  | unknownElement (tag : Char)
  | badDescriptor (owner method : String) (cause : Signature.Malformed)
  | malformedText
  | noCharacter (code : Int)
  | wideCode (code : Int)
  | characterExpected
  deriving DecidableEq, Repr

def Fault.message : Fault → String
  | truncated offset => "Truncated class file at offset " ++ toString offset
  | otherFormat origin => "Not a class file: " ++ origin
  | unknownConstant tag index =>
    "Unknown constant pool tag " ++ toString tag ++ " at index " ++ toString index
  | badReference index => "Bad constant pool reference " ++ toString index
  | unknownElement tag =>
    "Unknown annotation element tag " ++ Text.quoted (String.singleton tag)
  | badDescriptor owner method cause =>
    "Bad descriptor on " ++ owner ++ "." ++ method ++ ": " ++ cause.message
  | malformedText => "Text is not in modified UTF-8"
  | noCharacter code => "No character has the code " ++ toString code
  | wideCode code => "The code of a character has more than 32 bits: " ++ toString code
  | characterExpected => "A character is given by something else than its code"

/-- Whether the fault breaks the format. The others are texts and characters that have no meaning
where the format allows them. -/
def Fault.breaksFormat : Fault → Bool
  | malformedText | noCharacter _ | wideCode _ | characterExpected => false
  | _ => true

end JvmRoutes.ClassFile
