import JvmRoutes.Fault
import JvmRoutes.Loader.Store
import JvmRoutes.Loader.Hierarchy

/-! Loading classes on demand: each is taken from the store once. -/
namespace JvmRoutes

/-- The classes loaded so far, by their names with dots, and what they have been loaded from. -/
structure Loader where
  store : ClassStore
  hierarchy : Hierarchy := {}
  loaded : OrderedMap Class := {}

/-- An activity that can load classes. What it has loaded stays loaded when it fails. -/
def Loading (α : Type) : Type := Loader → Traced Fault α × Loader

namespace Loading

variable {α β : Type}

def andThen (x : Loading α) (f : α → Loading β) : Loading β := fun loader =>
  let (first, loader) := x loader
  match first.result with
  | .error e => (⟨first.messages, .error e⟩, loader)
  | .ok a =>
    let (second, loader) := f a loader
    (⟨first.messages ++ second.messages, second.result⟩, loader)

instance : Monad Loading where
  pure a := fun loader => (pure a, loader)
  bind := andThen

theorem pure_andThen (a : α) (f : α → Loading β) : (pure a : Loading α).andThen f = f a := by
  funext loader
  rfl

theorem andThen_pure (x : Loading α) : (x.andThen fun a => pure a) = x := by
  funext loader
  rcases h : x loader with ⟨⟨messages, result⟩, next⟩
  cases result <;> simp [andThen, h, pure, Traced.ofExcept]

theorem andThen_assoc {γ : Type} (x : Loading α) (f : α → Loading β) (g : β → Loading γ) :
    (x.andThen f).andThen g = x.andThen fun a => (f a).andThen g := by
  funext loader
  rcases h : x loader with ⟨⟨messages, result⟩, next⟩
  cases result with
  | error e => simp [andThen, h]
  | ok a =>
    rcases h' : f a next with ⟨⟨messages', result'⟩, next'⟩
    cases result' <;> simp [andThen, h, h']

instance : LawfulMonad Loading :=
  LawfulMonad.mk' Loading andThen_pure pure_andThen andThen_assoc

def ofTraced (x : Traced Fault α) : Loading α := fun loader => (x, loader)

def ofExcept (x : Except Fault α) : Loading α := ofTraced (.ofExcept x)

def fail (fault : Fault) : Loading α := ofExcept (.error fault)

def log (level : Level) (text : String) : Loading Unit := ofTraced (.log level text)

def attempt (x : Loading α) : Loading (Except Fault α) := fun loader =>
  let (first, loader) := x loader
  (⟨first.messages, .ok first.result⟩, loader)

def ask (f : Loader → α) : Loading α := fun loader => (pure (f loader), loader)

def fetch (name : String) : Loading (Option Class) := fun loader =>
  let (found, store) := loader.store.find name
  (found, { loader with store })

def link (name : String) (superclass : Option String) : Loading Unit := fun loader =>
  let hierarchy := loader.hierarchy.addNode name
  match superclass with
  | none => (pure (), { loader with hierarchy })
  | some superclass =>
    if hierarchy.nodes.contains superclass && hierarchy.reaches superclass name then
      -- the link is refused, and the class stays in the hierarchy without it
      (.ofExcept (.error (.cyclicHierarchy name superclass)), { loader with hierarchy })
    else (pure (), { loader with hierarchy := hierarchy.addLink name superclass })

def keep (name : String) (c : Class) : Loading Unit := fun loader =>
  (pure (), { loader with loaded := loader.loaded.insert name c })

def load (name : String) : Loading (Option Class) := do
  log .debug ("Loading class " ++ name)
  match ← fetch name with
  | none => return none
  | some c =>
    link name (c.parent?.map TypeName.dotted)
    keep name c
    return some c

/-- The class of some name, in either spelling, if there is one. -/
def find (name : String) : Loading (Option Class) := do
  let name := TypeName.dotted name
  match ← ask (·.loaded.get? name) with
  | some c => return some c
  | none => load name

/-- The class of some name, which there must be. -/
def resolve (name : String) : Loading Class := do
  match ← find name with
  | some c => return c
  | none => fail (.typeNotFound (TypeName.dotted name))

end Loading

def Loader.contains (loader : Loader) (name : String) : Bool :=
  loader.loaded.contains (TypeName.dotted name)

end JvmRoutes
