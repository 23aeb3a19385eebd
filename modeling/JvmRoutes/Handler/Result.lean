import JvmRoutes.Handler.Inputs

/-! The type of what a handler answers. -/
namespace JvmRoutes.Handler

open Signature

def continuationResult? (t : JavaType) : Option String :=
  t.arguments.head?.map (·.bound.render)

def declaredResult (m : Method) : Except Fault String := do return (← genericType m).result.render

/-- The type of the result of a method with a generic signature. One that can be suspended hands
its result to its continuation. -/
def genericResult (config : Config) (m : Method) (signature : String) : Except Fault String := do
  if ← takesContinuation config m then
    match (← genericType m).parameters.getLast? with
    -- the descriptor has a continuation, but the generic signature has no parameter
    | none => throw (.noContinuation signature)
    | some continuation =>
      match continuationResult? continuation with
      | some type => return type
      | none => declaredResult m
  else declaredResult m

def result (config : Config) (m : Method) : Except Fault String :=
  match m.signature with
  | none | some "" => declaredResult m
  | some signature => genericResult config m signature

end JvmRoutes.Handler
