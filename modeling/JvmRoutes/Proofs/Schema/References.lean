import JvmRoutes.Proofs.Schema.Parts
import JvmRoutes.Schema.OfType
import Mathlib.Data.List.Basic

/-!
Where the schema of a type refers to a class. There is one such place at most, and what is known of
its class makes a difference to that place alone.
-/
namespace JvmRoutes.Signature

/-- What holds of a type once it holds of its component, or of the bounds of its arguments. -/
structure HoldsByBounds (P : JavaType → Prop) : Prop where
  ofPrimitive : ∀ p, P (.primitive p)
  ofVariable : ∀ name, P (.variable name)
  ofArray : ∀ t, P t → P (.array t)
  ofObject : ∀ c : ClassType, (∀ a ∈ c.arguments, P a.bound) → P (.object c)

namespace HoldsByBounds

variable {P : JavaType → Prop}

mutual

theorem type (h : HoldsByBounds P) : ∀ t, P t
  | .primitive p => h.ofPrimitive p
  | .variable name => h.ofVariable name
  | .array t => h.ofArray t (h.type t)
  | .object c => h.ofObject c (h.class_arguments c)

theorem class_arguments (h : HoldsByBounds P) : ∀ c : ClassType, ∀ a ∈ c.arguments, P a.bound
  | .outermost _ none => nofun
  | .outermost _ (some arguments) => h.each arguments
  | .inner _ _ none => nofun
  | .inner _ _ (some arguments) => h.each arguments

theorem each (h : HoldsByBounds P) : ∀ arguments : List TypeArgument, ∀ a ∈ arguments, P a.bound
  | [] => nofun
  | a :: rest => List.forall_mem_cons.2 ⟨h.argument a, h.each rest⟩

theorem argument (h : HoldsByBounds P) : ∀ a : TypeArgument, P a.bound
  | .any => h.ofObject _ nofun
  | .exactly t => h.type t
  | .upTo t => h.type t
  | .downTo t => h.type t

end

end HoldsByBounds

end JvmRoutes.Signature

namespace JvmRoutes.Schema

open Signature

/-- The schema of a type refers to a class at a place. Collections are described by their first
argument and maps by the second of two, and optional values as their first argument is. -/
inductive RefersAt : JavaType → List Step → String → Prop
  | primitive {p : Primitive} (hf : family? p.name = none) : RefersAt (.primitive p) [] p.name
  | object {c : ClassType} (hf : family? c.name = none) : RefersAt (.object c) [] c.name
  | component {t : JavaType} {path : List Step} {name : String} (hb : t.name ≠ "byte")
    (h : RefersAt t path name) : RefersAt (.array t) (.items :: path) name
  | item {c : ClassType} {a : TypeArgument} {rest : List TypeArgument} {path : List Step}
    {name : String} (hf : family? c.name = some .collection) (ha : c.arguments = a :: rest)
    (h : RefersAt a.bound path name) : RefersAt (.object c) (.items :: path) name
  | value {c : ClassType} {key a : TypeArgument} {path : List Step} {name : String}
    (hf : family? c.name = some .mapping) (ha : c.arguments = [key, a])
    (h : RefersAt a.bound path name) : RefersAt (.object c) (.values :: path) name
  | option {c : ClassType} {fallback : Schema} {a : TypeArgument} {rest : List TypeArgument}
    {path : List Step} {name : String} (hf : family? c.name = some (.optional fallback))
    (ha : c.arguments = a :: rest) (h : RefersAt a.bound path name) :
    RefersAt (.object c) path name

variable {t t' : JavaType} {c : ClassType} {path path' : List Step} {name name' : String}

/-- A schema refers to one class at most. -/
theorem RefersAt.unique (h : RefersAt t path name) (h' : RefersAt t path' name') :
    path = path' ∧ name = name' := by
  induction h generalizing path' name' with
  | primitive hf => cases h'; exact ⟨rfl, rfl⟩
  | object hf => cases h' <;> grind
  | component hb _ ih => cases h'; grind
  | item hf ha _ ih => cases h' <;> grind
  | value hf ha _ ih => cases h' <;> grind
  | option hf ha _ ih => cases h' <;> grind

section Equations

variable {m : Type → Type} [Monad m] {isEnum : String → m Bool}

theorem ofArgument_eq (a : TypeArgument) : ofArgument isEnum a = ofType isEnum a.bound := by
  cases a <;> rfl

theorem ofArguments_eq (arguments : List TypeArgument) :
    ofArguments isEnum arguments = arguments.map fun a => ofType isEnum a.bound := by
  induction arguments with
  | nil => rfl
  | cons a rest ih => rw [ofArguments, ofArgument_eq, ih, List.map_cons]

/-- A class is described by its name and by the bounds of its arguments. -/
theorem ofType_object (c : ClassType) : ofType isEnum (.object c) =
    ofNamed isEnum c.name (c.arguments.map fun a => ofType isEnum a.bound) := by
  rcases c with ⟨name, _ | arguments⟩ | ⟨enclosing, name, _ | arguments⟩
  · rfl
  · rw [ofType, ofClass, ofArguments_eq]
    rfl
  · rfl
  · rw [ofType, ofClass, ofArguments_eq]
    rfl

theorem ofNamed_single {s : Schema} (hf : family? name = some (.single s))
    (arguments : List (m Schema)) : ofNamed isEnum name arguments = pure s := by
  unfold ofNamed
  rw [hf]

theorem ofNamed_collection_nil (hf : family? name = some .collection) :
    ofNamed isEnum name [] = pure anyList := by
  unfold ofNamed
  rw [hf]

theorem ofNamed_optional {fallback : Schema} (hf : family? name = some (.optional fallback))
    (arguments : List (m Schema)) :
    ofNamed isEnum name arguments = arguments.headD (pure fallback) := by
  unfold ofNamed
  rw [hf]

theorem ofNamed_mapping_of_length {arguments : List (m Schema)}
    (hf : family? name = some .mapping) (ha : arguments.length ≠ 2) :
    ofNamed isEnum name arguments = pure anyObject := by
  unfold ofNamed
  rw [hf]
  match arguments, ha with
  | [], _ | [_], _ | _ :: _ :: _ :: _, _ => rfl
  | [_, _], ha => exact absurd rfl ha

variable [LawfulMonad m]

theorem ofNamed_collection_cons (hf : family? name = some .collection) (items : m Schema)
    (rest : List (m Schema)) : ofNamed isEnum name (items :: rest) = list <$> items := by
  unfold ofNamed
  rw [hf, map_eq_pure_bind]

theorem ofNamed_mapping (hf : family? name = some .mapping) (keys values : m Schema) :
    ofNamed isEnum name [keys, values] = dictionary <$> values := by
  unfold ofNamed
  rw [hf, map_eq_pure_bind]

theorem ofNamed_none (hf : family? name = none) (arguments : List (m Schema)) :
    ofNamed isEnum name arguments =
      (fun known => if known then anyText else reference (componentName name)) <$>
        isEnum name := by
  unfold ofNamed
  rw [hf, map_eq_pure_bind]
  refine bind_congr fun known => ?_
  cases known <;> rfl

end Equations

/-- The schema of a type as far as nothing is known of classes: it has a reference where the type
refers to a class, and only the class at that place is ever asked for. -/
structure IsPlain (m : Type → Type) [Monad m] (t : JavaType) (s : Schema) : Prop where
  references : ∀ path r, s.part? path = some (.reference r) ↔
    ∃ name, RefersAt t path name ∧ componentName name = r
  asked : ∀ path name, RefersAt t path name → ∀ isEnum : String → m Bool,
    ofType isEnum t = (fun known => if known then s.withPart path anyText else s) <$> isEnum name
  fixed : (∀ path name, ¬ RefersAt t path name) → ∀ isEnum : String → m Bool,
    ofType isEnum t = pure s

namespace IsPlain

variable {m : Type → Type} [Monad m] {s : Schema}

theorem constant (hs : s.RefersNowhere) (ht : ∀ path name, ¬ RefersAt t path name)
    (heq : ∀ isEnum : String → m Bool, ofType isEnum t = pure s) : IsPlain m t s where
  references path r := by
    refine ⟨fun h => absurd h (hs path r), ?_⟩
    rintro ⟨name, h, -⟩
    exact absurd h (ht path name)
  asked path name h := absurd h (ht path name)
  fixed _ := heq

theorem of_name (ht : ∀ path other, RefersAt t path other ↔ path = [] ∧ other = name)
    (heq : ∀ isEnum : String → m Bool, ofType isEnum t =
      (fun known => if known then anyText else reference (componentName name)) <$> isEnum name) :
    IsPlain m t (.reference (componentName name)) where
  references path r := by
    cases path <;> simp [ht, part?]
  asked path other h := by
    obtain ⟨rfl, rfl⟩ := (ht path other).1 h
    simpa using heq
  fixed h := absurd ((ht [] name).2 ⟨rfl, rfl⟩) (h [] name)

theorem congr (h : IsPlain m t s) (ht : ∀ path name, RefersAt t' path name ↔ RefersAt t path name)
    (heq : ∀ isEnum : String → m Bool, ofType isEnum t' = ofType isEnum t) : IsPlain m t' s := by
  obtain ⟨href, hasked, hfixed⟩ := h
  constructor <;> simpa only [ht, heq]

/-- A type whose schema is made of that of another one refers to what the other one refers to. -/
theorem wrapped [LawfulMonad m] (h : IsPlain m t s) (step : Step)
    (ht : ∀ path name, RefersAt t' path name ↔ ∃ rest, path = step :: rest ∧ RefersAt t rest name)
    (heq : ∀ isEnum : String → m Bool, ofType isEnum t' = step.wrap <$> ofType isEnum t) :
    IsPlain m t' (step.wrap s) where
  references path r := by
    cases path with
    | nil => cases step <;> simp [ht, Step.wrap]
    | cons other rest =>
      rw [part?_wrap_cons]
      by_cases hs : other = step
      · simp [hs, ht, h.references]
      · simp [hs, ht]
  asked path name hr isEnum := by
    obtain ⟨rest, rfl, hrest⟩ := (ht path name).1 hr
    rw [heq, h.asked rest name hrest, Functor.map_map]
    refine congrArg (· <$> isEnum name) (funext fun known => ?_)
    rw [apply_ite step.wrap, withPart_wrap_cons]
  fixed hn isEnum := by
    have hn' : ∀ path name, ¬ RefersAt t path name :=
      fun path name hr => hn _ name ((ht _ name).2 ⟨path, rfl, hr⟩)
    rw [heq, h.fixed hn', map_pure]

end IsPlain

section Families

variable {m : Type → Type} [Monad m]

private theorem exists_isPlain_unknown [LawfulMonad m] (hf : family? c.name = none) :
    ∃ s, IsPlain m (.object c) s := by
  refine ⟨reference (componentName c.name), .of_name (fun path other => ?_) fun isEnum => ?_⟩
  · constructor
    · intro h
      cases h <;> grind
    · rintro ⟨rfl, rfl⟩
      exact .object hf
  · rw [ofType_object, ofNamed_none hf]

private theorem exists_isPlain_single {s : Schema} (hf : family? c.name = some (.single s)) :
    ∃ s, IsPlain m (.object c) s := by
  refine ⟨s, .constant (refersNowhere_single hf) (fun path name h => ?_) fun isEnum => ?_⟩
  · cases h <;> grind
  · rw [ofType_object, ofNamed_single hf]

private theorem exists_isPlain_collection [LawfulMonad m] (hf : family? c.name = some .collection)
    (ih : ∀ a ∈ c.arguments, ∃ s, IsPlain m a.bound s) : ∃ s, IsPlain m (.object c) s := by
  cases ha : c.arguments with
  | nil =>
    refine ⟨anyList, .constant refersNowhere_anyList (fun path name h => ?_) fun isEnum => ?_⟩
    · cases h <;> grind
    · rw [ofType_object, ha, List.map_nil, ofNamed_collection_nil hf]
  | cons a rest =>
    obtain ⟨s, hs⟩ := ih a (by simp [ha])
    refine ⟨_, hs.wrapped .items (fun path name => ?_) fun isEnum => ?_⟩
    · constructor
      · intro h
        cases h <;> grind
      · rintro ⟨path, rfl, h⟩
        exact .item hf ha h
    · rw [ofType_object, ha, List.map_cons, ofNamed_collection_cons hf]
      rfl

private theorem exists_isPlain_mapping [LawfulMonad m] (hf : family? c.name = some .mapping)
    (ih : ∀ a ∈ c.arguments, ∃ s, IsPlain m a.bound s) : ∃ s, IsPlain m (.object c) s := by
  by_cases hl : c.arguments.length = 2
  · obtain ⟨key, a, ha⟩ := List.length_eq_two.1 hl
    obtain ⟨s, hs⟩ := ih a (by simp [ha])
    refine ⟨_, hs.wrapped .values (fun path name => ?_) fun isEnum => ?_⟩
    · constructor
      · intro h
        cases h <;> grind
      · rintro ⟨path, rfl, h⟩
        exact .value hf ha h
    · rw [ofType_object, ha, List.map_cons, List.map_singleton, ofNamed_mapping hf]
      rfl
  · refine ⟨anyObject, .constant (refersNowhere_scalar _ _) (fun path name h => ?_)
      fun isEnum => ?_⟩
    · cases h <;> grind
    · rw [ofType_object, ofNamed_mapping_of_length hf (by rwa [List.length_map])]

private theorem exists_isPlain_optional {fallback : Schema}
    (hf : family? c.name = some (.optional fallback))
    (ih : ∀ a ∈ c.arguments, ∃ s, IsPlain m a.bound s) : ∃ s, IsPlain m (.object c) s := by
  cases ha : c.arguments with
  | nil =>
    refine ⟨fallback, .constant (refersNowhere_fallback hf) (fun path name h => ?_)
      fun isEnum => ?_⟩
    · cases h <;> grind
    · rw [ofType_object, ofNamed_optional hf, ha, List.map_nil, List.headD_nil]
  | cons a rest =>
    obtain ⟨s, hs⟩ := ih a (by simp [ha])
    refine ⟨s, hs.congr (fun path name => ?_) fun isEnum => ?_⟩
    · constructor
      · intro h
        cases h <;> grind
      · exact .option hf ha
    · rw [ofType_object, ofNamed_optional hf, ha, List.map_cons, List.headD_cons]

variable [LawfulMonad m]

/-- The induction step for classes: what their family makes of their arguments. -/
theorem exists_isPlain_object (ih : ∀ a ∈ c.arguments, ∃ s, IsPlain m a.bound s) :
    ∃ s, IsPlain m (.object c) s := by
  cases hf : family? c.name with
  | none => exact exists_isPlain_unknown hf
  | some family =>
    cases family with
    | single s => exact exists_isPlain_single hf
    | collection => exact exists_isPlain_collection hf ih
    | mapping => exact exists_isPlain_mapping hf ih
    | optional fallback => exact exists_isPlain_optional hf ih

private theorem holdsByBounds_isPlain : HoldsByBounds fun t => ∃ s, IsPlain m t s where
  ofPrimitive p := by
    obtain hf | ⟨s, hf⟩ := family_primitive p
    · refine ⟨reference (componentName p.name), .of_name (fun path other => ?_) fun isEnum => ?_⟩
      · constructor
        · intro h
          cases h
          exact ⟨rfl, rfl⟩
        · rintro ⟨rfl, rfl⟩
          exact .primitive hf
      · rw [ofType, ofNamed_none hf]
    · refine ⟨s, .constant (refersNowhere_single hf) (fun path name h => ?_) fun isEnum => ?_⟩
      · cases h with
        | primitive hn => simp [hf] at hn
      · rw [ofType, ofNamed_single hf]
  ofVariable name := ⟨anyObject, .constant (refersNowhere_scalar _ _) nofun fun isEnum => rfl⟩
  ofArray t h := by
    by_cases hb : t.name = "byte"
    · refine ⟨binary, .constant (refersNowhere_scalar _ _) (fun path name h => ?_) fun isEnum => ?_⟩
      · cases h
        contradiction
      · rw [ofType, if_pos hb]
    · obtain ⟨s, hs⟩ := h
      refine ⟨_, hs.wrapped .items (fun path name => ?_) fun isEnum => ?_⟩
      · constructor
        · intro h
          cases h with
          | component _ h => exact ⟨_, rfl, h⟩
        · rintro ⟨path, rfl, h⟩
          exact .component hb h
      · rw [ofType, if_neg hb, map_eq_pure_bind]
        rfl
  ofObject _ := exists_isPlain_object

/-- Every type has a schema as far as nothing is known of classes. -/
theorem exists_isPlain (t : JavaType) : ∃ s, IsPlain m t s :=
  holdsByBounds_isPlain.type t

end Families

end JvmRoutes.Schema
