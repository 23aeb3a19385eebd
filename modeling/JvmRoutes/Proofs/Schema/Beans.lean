import JvmRoutes.Proofs.Schema.Enumerations

/-!
Which types are beans: the classes outside all catalogs and, since an optional value is described as
its argument is, also the optional values of such classes. Enumerations that can be found are none.
-/
namespace JvmRoutes.Schema

open Signature Loading Handler

def catalogued : List String :=
  singles.map (·.1) ++ collections ++ mappings ++ optionals.map (·.1)

private theorem lookup_eq_none_iff (entries : List (String × Schema)) (name : String) :
    entries.lookup name = none ↔ name ∉ entries.map (·.1) := by
  simp only [List.lookup_eq_none_iff, List.mem_map, bne_iff_ne]
  grind

theorem family?_eq_none_iff (name : String) : family? name = none ↔ name ∉ catalogued := by
  have hsingles := lookup_eq_none_iff singles name
  have hoptionals := lookup_eq_none_iff optionals name
  unfold family? catalogued
  cases hl : singles.lookup name with
  | some s => grind
  | none => grind [Option.map_eq_none_iff]

private theorem exists_family_optional_iff (name : String) :
    (∃ fallback, family? name = some (.optional fallback)) ↔ name ∈ optionals.map (·.1) := by
  constructor
  · rintro ⟨fallback, hf⟩
    obtain ⟨front, back, heq, -⟩ := List.lookup_eq_some_iff.1 (lookup_of_family_optional hf)
    simp [heq]
  · intro h
    obtain rfl | rfl | rfl | rfl : name = "java.util.Optional" ∨ name = "java.util.OptionalInt" ∨
        name = "java.util.OptionalLong" ∨ name = "java.util.OptionalDouble" := by
      simpa [optionals] using h
    all_goals exact ⟨_, rfl⟩

variable {loader : Loader} {t : JavaType} {c : ClassType} {s : Schema} {path : List Step}
  {name : String}

/-- A class is that of the optional values of a type that is described by the schema of a class. -/
def IsOptionOf (c : ClassType) (name : String) : Prop :=
  c.name ∈ optionals.map (·.1) ∧ ∃ a rest, c.arguments = a :: rest ∧ RefersAt a.bound [] name

theorem refersAt_nil_iff : RefersAt (.object c) [] name ↔
    c.name ∉ catalogued ∧ c.name = name ∨ IsOptionOf c name := by
  constructor
  · intro h
    cases h with
    | object hf => exact .inl ⟨(family?_eq_none_iff _).1 hf, rfl⟩
    | option hf ha h =>
      exact .inr ⟨(exists_family_optional_iff _).1 ⟨_, hf⟩, _, _, ha, h⟩
  · rintro (⟨hc, rfl⟩ | ⟨ho, a, rest, ha, h⟩)
    · exact .object ((family?_eq_none_iff _).2 hc)
    · obtain ⟨fallback, hf⟩ := (exists_family_optional_iff _).2 ho
      exact .option hf ha h

private theorem isReference_iff (s : Schema) : s.isReference = true ↔ ∃ r, s = .reference r := by
  cases s <;> simp [isReference]

private theorem isReference_withPart {r : String} (h : s.part? path = some (.reference r)) :
    (s.withPart path anyText).isReference = false := by
  cases path with
  | nil => simp [isReference, anyText]
  | cons step rest => cases s <;> cases step <;> simp_all [part?, withPart, isReference]

theorem IsPlain.isReference_iff (hs : IsPlain Loading t s) :
    s.isReference = true ↔ ∃ name, RefersAt t [] name := by
  rw [Schema.isReference_iff]
  constructor
  · rintro ⟨r, rfl⟩
    obtain ⟨name, hr, -⟩ := (hs.references [] r).1 (part?_nil _)
    exact ⟨name, hr⟩
  · rintro ⟨name, hr⟩
    have hp := (hs.references [] _).2 ⟨name, hr, rfl⟩
    exact ⟨_, by simpa using hp⟩

/-- A refined schema is a reference if the schema was one and its class is no enumeration. -/
theorem IsRefined.isReference_iff {last : Loader} {s' : Schema} (h : IsRefined loader last t s s')
    (hs : IsPlain Loading t s) :
    s'.isReference = true ↔ ∃ name, RefersAt t [] name ∧ ¬ loader.FindsEnum name := by
  by_cases he : ∃ path name, RefersAt t path name ∧ loader.FindsEnum name
  · obtain ⟨path, name, hr, he⟩ := he
    have hp := (h.references path _).2 ⟨name, hr, rfl⟩
    rw [h.text path name hr he, isReference_withPart hp]
    refine ⟨nofun, ?_⟩
    rintro ⟨name', hr', hn⟩
    obtain ⟨rfl, rfl⟩ := hr.unique hr'
    exact absurd he hn
  · push Not at he
    rw [h.same he, hs.isReference_iff]
    exact exists_congr fun name => (and_iff_left_of_imp (he [] name)).symm

theorem outcome_isBean {isEnum : String → Loading Bool} {last : Loader}
    (h : outcome (ofType isEnum t) loader = (.ok s, last)) :
    outcome (isBean isEnum t) loader = (.ok (s.isReference && t.isClass), last) := by
  unfold isBean
  rw [outcome_bind_ok h, outcome_pure]

/-- Of the classes that a type is described by at its top, some may be known to be enumerations. -/
theorem refersAt_nil_and_isClass_iff (known : String → Prop) :
    (∃ name, RefersAt t [] name ∧ ¬ known name) ∧ t.isClass = true ↔ ∃ c, t = .object c ∧
      (c.name ∉ catalogued ∧ ¬ known c.name ∨ ∃ name, IsOptionOf c name ∧ ¬ known name) := by
  constructor
  · rintro ⟨⟨name, hr, hk⟩, ht⟩
    obtain ⟨c, rfl⟩ : ∃ c, t = .object c := by
      cases t <;> simp_all [JavaType.isClass]
    obtain ⟨hc, rfl⟩ | ho := refersAt_nil_iff.1 hr
    · exact ⟨c, rfl, .inl ⟨hc, hk⟩⟩
    · exact ⟨c, rfl, .inr ⟨name, ho, hk⟩⟩
  · rintro ⟨c, rfl, ⟨hc, hk⟩ | ⟨name, ho, hk⟩⟩
    · exact ⟨⟨c.name, refersAt_nil_iff.2 (.inl ⟨hc, rfl⟩), hk⟩, rfl⟩
    · exact ⟨⟨name, refersAt_nil_iff.2 (.inr ho), hk⟩, rfl⟩

/-- The beans are the classes outside all catalogs and the optional values of such classes, but for
the enumerations that a loader finds. -/
theorem isBean_iff (t : JavaType) (loader : Loader)
    (h : ∀ path name, RefersAt t path name → ∃ found, loader.answer name = .ok found) :
    ∃ b b' last, outcome (isBean noEnum t) loader = (.ok b, loader) ∧
      outcome (isBean isLoadedEnum t) loader = (.ok b', last) ∧
      (b = true ↔ ∃ c, t = .object c ∧ (c.name ∉ catalogued ∨ ∃ name, IsOptionOf c name)) ∧
      (b' = true ↔ ∃ c, t = .object c ∧ (c.name ∉ catalogued ∧ ¬ loader.FindsEnum c.name ∨
        ∃ name, IsOptionOf c name ∧ ¬ loader.FindsEnum name)) := by
  obtain ⟨s, hs⟩ := exists_isPlain (m := Loading) t
  obtain ⟨s', last, hs', href⟩ := hs.exists_isRefined loader h
  refine ⟨_, _, last, outcome_isBean (hs.outcome_noEnum loader), outcome_isBean hs', ?_, ?_⟩
  · have hk := refersAt_nil_and_isClass_iff (t := t) fun _ => False
    simpa [hs.isReference_iff] using hk
  · rw [Bool.and_eq_true, href.isReference_iff hs, refersAt_nil_and_isClass_iff]

def optionalOf (className : String) : ClassType :=
  .outermost "java/util/Optional" (some [.exactly (.object (.outermost className none))])

private theorem isOptionOf_shade : IsOptionOf (optionalOf "k/Shade") "k.Shade" := by
  refine ⟨by decide +kernel, _, [], rfl, ?_⟩
  exact .object (c := .outermost "k/Shade" none) (by decide +kernel)

theorem isBean_iff_optionalShade :
    (∀ path name, RefersAt (.object (optionalOf "k/Shade")) path name →
      ∃ found, Loader.answer { store := .ofClasses [shade] } name = .ok found) ∧
    ∃ last, outcome (isBean noEnum (.object (optionalOf "k/Shade")))
        { store := .ofClasses [shade] } = (.ok true, { store := .ofClasses [shade] }) ∧
      outcome (isBean isLoadedEnum (.object (optionalOf "k/Shade")))
        { store := .ofClasses [shade] } = (.ok false, last) := by
  have hroot : RefersAt (.object (optionalOf "k/Shade")) [] "k.Shade" :=
    refersAt_nil_iff.2 (.inr isOptionOf_shade)
  have h : ∀ path name, RefersAt (.object (optionalOf "k/Shade")) path name →
      ∃ found, Loader.answer { store := .ofClasses [shade] } name = .ok found := by
    intro path name hr
    obtain ⟨rfl, rfl⟩ := hroot.unique hr
    exact ⟨_, answer_shade⟩
  obtain ⟨b, b', last, hb, hb', hiff, hiff'⟩ := isBean_iff (.object (optionalOf "k/Shade")) _ h
  have hbean : b = true := hiff.2 ⟨_, rfl, .inr ⟨_, isOptionOf_shade⟩⟩
  have hnone : b' = false := by
    refine Bool.eq_false_iff.2 fun ht => ?_
    obtain ⟨⟨name, hr, hn⟩, -⟩ := (refersAt_nil_and_isClass_iff _).2 (hiff'.1 ht)
    obtain ⟨-, rfl⟩ := hroot.unique hr
    exact hn ⟨shade, answer_shade, rfl⟩
  subst hbean hnone
  exact ⟨h, last, hb, hb'⟩

/-- An optional value is a bean though its name is in a catalog. -/
theorem isBean_optionalUser :
    JavaType.parse "Ljava/util/Optional<Lcom/example/User;>;" =
      .ok (.object (optionalOf "com/example/User")) ∧
    (optionalOf "com/example/User").name ∈ catalogued ∧
    ∀ loader, outcome (isBean noEnum (.object (optionalOf "com/example/User"))) loader =
      (.ok true, loader) := by
  exact ⟨rfl, by decide +kernel, fun _ => rfl⟩

end JvmRoutes.Schema
