import JvmRoutes.Signature.JavaType
import JvmRoutes.Signature.Reader

/-!
The reader of one type. What is still open is a stack of frames, and every type ends with a
character of its own, so that no character has to be looked at twice.
-/
namespace JvmRoutes.Signature

structure OpenClass where
  enclosing : Option ClassType
  name : String
  deriving Repr

def OpenClass.close (c : OpenClass) (arguments : Option (List TypeArgument)) : ClassType :=
  match c.enclosing with
  | none => .outermost c.name arguments
  | some enclosing => .inner enclosing c.name arguments

inductive Limit
  | exactly | upTo | downTo
  deriving DecidableEq, Repr

def Limit.argument : Limit → JavaType → TypeArgument
  | exactly => .exactly
  | upTo => .upTo
  | downTo => .downTo

/-- What waits for the type that is being read. -/
inductive Frame
  | component
  | argument (owner : OpenClass) (before : List TypeArgument) (limit : Limit)
  deriving Repr

/-- Where the reader stands inside the innermost open construct. -/
inductive Point
  | typeStart (voidAllowed : Bool)
  | referenceStart
  | className (c : OpenClass)
  | argumentStart (owner : OpenClass) (before : List TypeArgument)
  | argumentsEnd (c : ClassType)
  | variableName (name : String)
  deriving Repr

/-- Where the reader stands, and what waits around it from the inside out. -/
structure OpenType where
  frames : List Frame
  point : Point
  deriving Repr

/-- A type of which some characters have been read. -/
inductive TypeProgress
  | reading (s : OpenType)
  | complete (t : JavaType)
  deriving Repr

/-- Hands a type that has ended to what waits for it. -/
def close (t : JavaType) : List Frame → TypeProgress
  | [] => .complete t
  | .component :: frames => close (.array t) frames
  | .argument owner before limit :: frames =>
    .reading ⟨frames, .argumentStart owner (before ++ [limit.argument t])⟩

def stepReference (frames : List Frame) (c : Char) : Except Reason TypeProgress :=
  if c = 'L' then .ok (.reading ⟨frames, .className ⟨none, ""⟩⟩)
  else if c = 'T' then .ok (.reading ⟨frames, .variableName ""⟩)
  else if c = '[' then .ok (.reading ⟨.component :: frames, .typeStart false⟩)
  else .error .reference

def stepType (frames : List Frame) (voidAllowed : Bool) (c : Char) : Except Reason TypeProgress :=
  match Primitive.ofLetter? c with
  | none => stepReference frames c
  | some .void => if voidAllowed then .ok (close (.primitive .void) frames) else .error .void
  | some p => .ok (close (.primitive p) frames)

def stepClassName (frames : List Frame) (owner : OpenClass) (c : Char) :
    Except Reason TypeProgress :=
  if c = '<' || c = ';' || c = '.' then
    if owner.name = "" then .error .identifier
    else if c = '<' then .ok (.reading ⟨frames, .argumentStart owner []⟩)
    else if c = ';' then .ok (close (.object (owner.close none)) frames)
    else .ok (.reading ⟨frames, .className ⟨some (owner.close none), ""⟩⟩)
  else .ok (.reading ⟨frames, .className { owner with name := owner.name.push c }⟩)

/-- The first character of an argument, or the bracket behind the last one. -/
def stepArgument (frames : List Frame) (owner : OpenClass) (before : List TypeArgument) (c : Char) :
    Except Reason TypeProgress :=
  if c = '>' then .ok (.reading ⟨frames, .argumentsEnd (owner.close (some before))⟩)
  else if c = '*' then .ok (.reading ⟨frames, .argumentStart owner (before ++ [.any])⟩)
  else if c = '+' then .ok (.reading ⟨.argument owner before .upTo :: frames, .referenceStart⟩)
  else if c = '-' then .ok (.reading ⟨.argument owner before .downTo :: frames, .referenceStart⟩)
  else stepReference (.argument owner before .exactly :: frames) c

def stepArgumentsEnd (frames : List Frame) (owner : ClassType) (c : Char) :
    Except Reason TypeProgress :=
  if c = '.' then .ok (.reading ⟨frames, .className ⟨some owner, ""⟩⟩)
  else if c = ';' then .ok (close (.object owner) frames)
  else .error (.character ';')

def stepVariableName (frames : List Frame) (name : String) (c : Char) :
    Except Reason TypeProgress :=
  if c = ';' then
    if name = "" then .error .identifier else .ok (close (.variable name) frames)
  else .ok (.reading ⟨frames, .variableName (name.push c)⟩)

namespace OpenType

def step (s : OpenType) (c : Char) : Except Reason TypeProgress :=
  match s.point with
  | .typeStart voidAllowed => stepType s.frames voidAllowed c
  | .referenceStart => stepReference s.frames c
  | .className owner => stepClassName s.frames owner c
  | .argumentStart owner before => stepArgument s.frames owner before c
  | .argumentsEnd owner => stepArgumentsEnd s.frames owner c
  | .variableName name => stepVariableName s.frames name c

def missing (s : OpenType) : Reason :=
  match s.point with
  | .typeStart _ | .referenceStart => .reference
  | .className owner => if owner.name = "" then .identifier else .character ';'
  | .argumentStart _ _ => .openArguments
  | .argumentsEnd _ => .character ';'
  | .variableName name => if name = "" then .identifier else .character ';'

end OpenType

def typeReader : Reader TypeProgress JavaType where
  start := .reading ⟨[], .typeStart true⟩
  step
    | .reading s, c => s.step c
    | .complete _, _ => .error .trailing
  finish
    | .reading s => .error s.missing
    | .complete t => .ok t

def JavaType.parse (text : String) : Except Malformed JavaType := typeReader.read text

end JvmRoutes.Signature
