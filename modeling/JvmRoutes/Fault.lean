import JvmRoutes.Archive.Fault
import JvmRoutes.ClassFile.Fault
import JvmRoutes.Files.Obstacle

/-! Why an extraction fails. -/
namespace JvmRoutes

/-- Why an extraction fails. -/
inductive Fault
  | typeNotFound (name : String)
  | cyclicHierarchy (name superclass : String)
  | parameterTypeNotFound (method parameter : String)
  | malformedSignature (m : Signature.Malformed)
  | classFile (f : ClassFile.Fault)
  | archive (f : Archive.Fault)
  | path (obstacle : Files.Obstacle)
  | openDescriptor (descriptor : String)
  | noContinuation (signature : String)
  deriving DecidableEq, Repr

def Fault.message : Fault → String
  | typeNotFound name => "Type not found: " ++ name
  | cyclicHierarchy name superclass => "Cyclic class hierarchy: " ++ name ++ " -> " ++ superclass
  | parameterTypeNotFound method parameter =>
    "Parameter type not found on method: " ++ method ++ ", parameter: " ++ parameter
  | malformedSignature m => m.message
  | classFile f => f.message
  | archive f => f.message
  | path obstacle => obstacle.message
  | openDescriptor descriptor =>
    "Descriptor without a closing parenthesis: " ++ Text.quoted descriptor
  | noContinuation signature =>
    "Signature without the parameters of its descriptor: " ++ Text.quoted signature

/-- Whether the fault lies in the classes that an extraction is asked for, so that it is told as a
message. The others end a run at once. -/
def Fault.isReported : Fault → Bool
  | openDescriptor _ | noContinuation _ | archive _ | path _ => false
  | classFile f => f.breaksFormat
  | _ => true

end JvmRoutes
