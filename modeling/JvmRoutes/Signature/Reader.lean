import JvmRoutes.Text.Quoted

/-!
Reading a text character by character. A reader refuses a text at the first character that it
cannot go on with, or at the end when more must come.
-/
namespace JvmRoutes.Signature

/-- What is missing or too much where a text stops being a signature. -/
inductive Reason
  | identifier
  | reference
  | void
  | character (expected : Char)
  | openArguments
  | openTypeParameters
  | openParameters
  | trailing
  deriving DecidableEq, Repr

def Reason.message : Reason → String
  | identifier => "Expected identifier"
  | reference => "Expected reference type"
  | void => "Unexpected void"
  | character c => "Expected " ++ Text.quoted (String.singleton c)
  | openArguments => "Unterminated type arguments"
  | openTypeParameters => "Unterminated type parameters"
  | openParameters => "Unterminated parameter list"
  | trailing => "Trailing characters"

/-- A text that is no signature, and how many of its characters could still start one. -/
structure Malformed where
  text : String
  position : Nat
  reason : Reason
  deriving DecidableEq, Repr

def Malformed.message (m : Malformed) : String :=
  m.reason.message ++ " at " ++ toString m.position ++ " in " ++ Text.quoted m.text

/-- A machine that takes one character at a time. -/
structure Reader (σ α : Type) where
  start : σ
  step : σ → Char → Except Reason σ
  finish : σ → Except Reason α

namespace Reader

variable {σ α : Type}

/-- The state after some characters, of which the first stands at `position`. -/
def advance (r : Reader σ α) (state : σ) (position : Nat) :
    List Char → Except (Nat × Reason) σ
  | [] => .ok state
  | c :: rest =>
    match r.step state c with
    | .error reason => .error (position, reason)
    | .ok next => r.advance next (position + 1) rest

/-- What the reader makes of the characters, or where and why it refuses them. -/
def readChars (r : Reader σ α) (cs : List Char) : Except (Nat × Reason) α := do
  let state ← r.advance r.start 0 cs
  (r.finish state).mapError (cs.length, ·)

def read (r : Reader σ α) (text : String) : Except Malformed α :=
  (r.readChars text.toList).mapError fun (position, reason) => ⟨text, position, reason⟩

end Reader

end JvmRoutes.Signature
