import JvmRoutes.Loader.Basic

/-! The way from a class up to the root types. -/
namespace JvmRoutes

/-- Classes met on the way up, and the fault that ended it before its end. -/
structure Ancestry where
  classes : List Class
  fault : Option Fault := none

namespace Loading

variable {α : Type}

/-- The superclass of a class, unless it has none or is a child of a root type. -/
def parent? (rootTypes : List String) (c : Class) : Loading (Option Class) :=
  match c.parent? with
  | none => return none
  | some superclass =>
    if rootTypes.contains (TypeName.dotted superclass) then return none
    else do return some (← resolve superclass)

/-- No way up is longer than this, since no class is met twice. -/
def height : Loading Nat := ask fun loader => loader.loaded.size + loader.store.size + 2

/-- The fault of a way up that does not end. -/
def endless (c : Class) : Fault := .cyclicHierarchy c.name (c.superclass.getD "")

/-- A class and the classes above it, as far as they can be loaded. -/
def ancestryWithin (rootTypes : List String) : (height : Nat) → Class → Loading Ancestry
  | 0, c => return { classes := [], fault := some (endless c) }
  | height + 1, c => do
    match ← attempt (parent? rootTypes c) with
    -- the classes below the fault are kept, for those who need no more of them
    | .error fault => return { classes := [c], fault := some fault }
    | .ok none => return { classes := [c] }
    | .ok (some parent) =>
      let above ← ancestryWithin rootTypes height parent
      return { above with classes := c :: above.classes }

def ancestry (rootTypes : List String) (c : Class) : Loading Ancestry := do
  ancestryWithin rootTypes (← height) c

def lineage (rootTypes : List String) (c : Class) : Loading (List Class) := do
  let way ← ancestry rootTypes c
  match way.fault with
  | none => return way.classes
  | some fault => fail fault

/-- What the nearest of the classes above a class has to say. Those above it are not loaded. -/
def searchAboveWithin (rootTypes : List String) (f : Class → Option α) : (height : Nat) →
    Class → Loading (Option α)
  | 0, c => fail (endless c)
  | height + 1, c => do
    match ← parent? rootTypes c with
    | none => return none
    | some parent =>
      match f parent with
      | some a => return some a
      | none => searchAboveWithin rootTypes f height parent

def searchAbove (rootTypes : List String) (f : Class → Option α) (c : Class) :
    Loading (Option α) := do
  searchAboveWithin rootTypes f (← height) c

end Loading

end JvmRoutes
