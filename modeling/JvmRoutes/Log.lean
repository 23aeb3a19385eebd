/-! Messages, and results that come with the messages written on the way. -/
namespace JvmRoutes

inductive Level
  | debug | info | warning | error
  deriving DecidableEq, Repr

def Level.name : Level → String
  | debug => "DEBUG"
  | info => "INFO"
  | warning => "WARNING"
  | error => "ERROR"

structure Message where
  level : Level
  text : String
  deriving DecidableEq, Repr

/-- A result or a failure, after the messages that were written before it. -/
structure Traced (ε α : Type) where
  messages : List Message := []
  result : Except ε α

namespace Traced

variable {ε α β : Type}

def ofExcept (result : Except ε α) : Traced ε α := { result }

def log (level : Level) (text : String) : Traced ε Unit := ⟨[⟨level, text⟩], .ok ()⟩

/-- Goes on with a result. A failure keeps the messages written before it. -/
def andThen (x : Traced ε α) (f : α → Traced ε β) : Traced ε β :=
  match x.result with
  | .error e => ⟨x.messages, .error e⟩
  | .ok a => ⟨x.messages ++ (f a).messages, (f a).result⟩

instance : Monad (Traced ε) where
  pure a := ofExcept (.ok a)
  bind := andThen

@[simp]
theorem ofExcept_andThen (a : α) (f : α → Traced ε β) :
    (ofExcept (.ok a) : Traced ε α).andThen f = f a := by
  simp [andThen, ofExcept]

@[simp]
theorem andThen_ofExcept (x : Traced ε α) : (x.andThen fun a => ofExcept (.ok a)) = x := by
  obtain ⟨messages, result⟩ := x
  cases result <;> simp [andThen, ofExcept]

theorem andThen_assoc {γ : Type} (x : Traced ε α) (f : α → Traced ε β) (g : β → Traced ε γ) :
    (x.andThen f).andThen g = x.andThen fun a => (f a).andThen g := by
  obtain ⟨messages, result⟩ := x
  cases result with
  | error e => rfl
  | ok a => cases h : (f a).result <;> simp [andThen, h]

instance : LawfulMonad (Traced ε) :=
  LawfulMonad.mk' (Traced ε) andThen_ofExcept ofExcept_andThen andThen_assoc

/-- The same with another kind of failure. -/
def mapError {ε' : Type} (f : ε → ε') (x : Traced ε α) : Traced ε' α :=
  ⟨x.messages, x.result.mapError f⟩

end Traced

end JvmRoutes
