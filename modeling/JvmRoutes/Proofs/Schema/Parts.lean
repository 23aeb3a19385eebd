import JvmRoutes.Schema.Catalog
import JvmRoutes.Signature.Primitive
import Mathlib.Tactic.Common

/-! What schemas are made of, place by place. Those of the catalogs hold no reference. -/
namespace JvmRoutes.Schema

/-- A step from a schema to one that it is made of. -/
inductive Step
  | items | values
  deriving DecidableEq, Repr

def Step.wrap : Step → Schema → Schema
  | items => list
  | values => dictionary

def part? : Schema → List Step → Option Schema
  | s, [] => some s
  | list s, .items :: path => s.part? path
  | dictionary s, .values :: path => s.part? path
  | _, _ :: _ => none

/-- The schema with another one at a place. -/
def withPart : Schema → List Step → Schema → Schema
  | _, [], new => new
  | list s, .items :: path, new => list (s.withPart path new)
  | dictionary s, .values :: path, new => dictionary (s.withPart path new)
  | s, _ :: _, _ => s

@[simp] theorem part?_nil (s : Schema) : s.part? [] = some s := by
  cases s <;> rfl

@[simp] theorem part?_wrap_cons (step other : Step) (s : Schema) (path : List Step) :
    (step.wrap s).part? (other :: path) = if other = step then s.part? path else none := by
  cases step <;> cases other <;> rfl

@[simp] theorem withPart_nil (s new : Schema) : s.withPart [] new = new := by
  cases s <;> rfl

@[simp] theorem withPart_wrap_cons (step : Step) (s new : Schema) (path : List Step) :
    (step.wrap s).withPart (step :: path) new = step.wrap (s.withPart path new) := by
  cases step <;> rfl

/-- Nothing that the schema is made of is a reference. -/
def RefersNowhere (s : Schema) : Prop := ∀ path r, s.part? path ≠ some (reference r)

theorem refersNowhere_scalar (type : String) (format : Option String) :
    RefersNowhere (scalar type format) := by
  intro path r
  cases path <;> simp [part?]

theorem refersNowhere_anyList : RefersNowhere anyList := by
  intro path r
  cases path <;> simp [part?]

private theorem lookup_of_family_single {name : String} {s : Schema}
    (h : family? name = some (.single s)) : singles.lookup name = some s := by
  unfold family? at h
  split at h <;> grind [Option.map_eq_some_iff]

theorem lookup_of_family_optional {name : String} {s : Schema}
    (h : family? name = some (.optional s)) : optionals.lookup name = some s := by
  unfold family? at h
  split at h <;> grind [Option.map_eq_some_iff]

theorem refersNowhere_single {name : String} {s : Schema} (h : family? name = some (.single s)) :
    RefersNowhere s := by
  have hs : ∀ entry ∈ singles, RefersNowhere entry.2 := by
    simp [singles, anyText, anyObject, binary, refersNowhere_scalar]
  obtain ⟨front, back, heq, -⟩ := List.lookup_eq_some_iff.1 (lookup_of_family_single h)
  exact hs (name, s) (by simp [heq])

theorem refersNowhere_fallback {name : String} {s : Schema}
    (h : family? name = some (.optional s)) : RefersNowhere s := by
  have hs : ∀ entry ∈ optionals, RefersNowhere entry.2 := by
    simp [optionals, anyObject, refersNowhere_scalar]
  obtain ⟨front, back, heq, -⟩ := List.lookup_eq_some_iff.1 (lookup_of_family_optional h)
  exact hs (name, s) (by simp [heq])

/-- The primitive types have schemas of their own, and the missing result has none. -/
theorem family_primitive (p : Signature.Primitive) :
    family? p.name = none ∨ ∃ s, family? p.name = some (.single s) := by
  cases p with
  | void => exact .inl rfl
  | _ => exact .inr ⟨_, rfl⟩

end JvmRoutes.Schema
