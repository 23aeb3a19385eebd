import JvmRoutes.Handler.Inputs
import JvmRoutes.Proofs.Loader.Lookups
import JvmRoutes.Proofs.Schema.References

/-!
What a loader changes in a schema: a reference to a class that it finds as an enumeration becomes a
text. It keeps the classes that the schema refers to, as far as it finds them.
-/
namespace JvmRoutes

namespace Loader

def answer (loader : Loader) (name : String) : Except Fault (Option Class) :=
  (Loading.outcome (Loading.find name) loader).1

/-- A class can be found, and is an enumeration. -/
def FindsEnum (loader : Loader) (name : String) : Prop :=
  ∃ c, loader.answer name = .ok (some c) ∧ c.isEnum = true

end Loader

namespace Schema

open Signature Loading Handler

variable {loader : Loader} {t : JavaType} {s : Schema} {path : List Step} {name : String}

theorem outcome_isLoadedEnum {last : Loader} {found : Option Class}
    (h : outcome (find name) loader = (.ok found, last)) :
    outcome (isLoadedEnum name) loader = (.ok (found.any (·.isEnum)), last) := by
  unfold isLoadedEnum
  rw [outcome_bind_ok h, outcome_pure]

theorem findsEnum_iff {found : Option Class} (h : loader.answer name = .ok found) :
    loader.FindsEnum name ↔ found.any (·.isEnum) = true := by
  rw [Loader.FindsEnum, h]
  cases found <;> simp

/-- The schemas of a type before and after a loader has been asked about the class that the type
refers to, and what has been loaded meanwhile. -/
structure IsRefined (loader last : Loader) (t : JavaType) (s s' : Schema) : Prop where
  references : ∀ path r, s.part? path = some (.reference r) ↔
    ∃ name, RefersAt t path name ∧ componentName name = r
  text : ∀ path name, RefersAt t path name → loader.FindsEnum name → s' = s.withPart path anyText
  same : (∀ path name, RefersAt t path name → ¬ loader.FindsEnum name) → s' = s
  loaded : ∀ key c, last.loaded.get? key = some c ↔ loader.loaded.get? key = some c ∨
    ∃ path name, RefersAt t path name ∧ TypeName.dotted name = key ∧
      loader.answer name = .ok (some c)

theorem IsPlain.outcome_noEnum (hs : IsPlain Loading t s) (loader : Loader) :
    outcome (ofType noEnum t) loader = (.ok s, loader) := by
  by_cases hr : ∃ path name, RefersAt t path name
  · obtain ⟨path, name, hr⟩ := hr
    rw [hs.asked path name hr]
    rfl
  · push Not at hr
    rw [hs.fixed hr]
    rfl

theorem IsPlain.outcome_isLoadedEnum (hs : IsPlain Loading t s) (hr : RefersAt t path name)
    {last : Loader} {found : Option Class} (hf : outcome (find name) loader = (.ok found, last)) :
    outcome (ofType isLoadedEnum t) loader =
      (.ok (if found.any (·.isEnum) then s.withPart path anyText else s), last) := by
  rw [hs.asked path name hr]
  exact outcome_map_ok (Schema.outcome_isLoadedEnum hf) _

theorem IsPlain.isRefined_of_refersAt (hs : IsPlain Loading t s) (hr : RefersAt t path name)
    {last : Loader} {found : Option Class} (hf : outcome (find name) loader = (.ok found, last)) :
    IsRefined loader last t s (if found.any (·.isEnum) then s.withPart path anyText else s) where
  references := hs.references
  text path' name' hr' he := by
    obtain ⟨rfl, rfl⟩ := hr.unique hr'
    rw [findsEnum_iff (congrArg Prod.fst hf)] at he
    rw [if_pos he]
  same hn := by
    have he := hn path name hr
    rw [findsEnum_iff (congrArg Prod.fst hf)] at he
    rw [if_neg he]
  loaded key c := by
    have ha : loader.answer name = .ok found := congrArg Prod.fst hf
    rw [Loader.get?_loaded_of_find hf]
    refine or_congr_right ⟨?_, ?_⟩
    · rintro ⟨hk, rfl⟩
      exact ⟨path, name, hr, hk, ha⟩
    · rintro ⟨path', name', hr', hk, hc⟩
      obtain ⟨rfl, rfl⟩ := hr.unique hr'
      rw [ha] at hc
      exact ⟨hk, Except.ok.inj hc⟩

theorem IsPlain.isRefined_of_closed (hs : IsPlain Loading t s)
    (hr : ∀ path name, ¬ RefersAt t path name) (loader : Loader) :
    IsRefined loader loader t s s where
  references := hs.references
  text path name h := absurd h (hr path name)
  same _ := rfl
  loaded key c := by simp [hr]

theorem IsPlain.exists_isRefined (hs : IsPlain Loading t s) (loader : Loader)
    (h : ∀ path name, RefersAt t path name → ∃ found, loader.answer name = .ok found) :
    ∃ s' last, outcome (ofType isLoadedEnum t) loader = (.ok s', last) ∧
      IsRefined loader last t s s' := by
  by_cases hr : ∃ path name, RefersAt t path name
  · obtain ⟨path, name, hr⟩ := hr
    obtain ⟨found, ha⟩ := h path name hr
    have hf : outcome (find name) loader = (.ok found, (outcome (find name) loader).2) :=
      Prod.ext ha rfl
    exact ⟨_, _, hs.outcome_isLoadedEnum hr hf, hs.isRefined_of_refersAt hr hf⟩
  · push Not at hr
    refine ⟨s, loader, ?_, hs.isRefined_of_closed hr loader⟩
    rw [hs.fixed hr, outcome_pure]

/-- With a loader that can be asked about the class that a type refers to, the schema differs from
the one without a loader in a reference to an enumeration alone, which becomes a text. What the
loader has loaded is the class that the type refers to, if there is one. -/
theorem isRefined_of_ofType (t : JavaType) (loader : Loader)
    (h : ∀ path name, RefersAt t path name → ∃ found, loader.answer name = .ok found) :
    ∃ s s' last, outcome (ofType noEnum t) loader = (.ok s, loader) ∧
      outcome (ofType isLoadedEnum t) loader = (.ok s', last) ∧ IsRefined loader last t s s' := by
  obtain ⟨s, hs⟩ := exists_isPlain (m := Loading) t
  obtain ⟨s', last, hs', href⟩ := hs.exists_isRefined loader h
  exact ⟨s, s', last, hs.outcome_noEnum loader, hs', href⟩

def shade : Class := { name := "k.Shade", superclass := some "java.lang.Enum" }

def shadesByShade : JavaType :=
  .object (.outermost "java/util/Map" (some [.exactly (.object (.outermost "k/Shade" none)),
    .upTo (.array (.object (.outermost "k/Shade" none)))]))

private theorem refersAt_shadesByShade : RefersAt shadesByShade [.values, .items] "k.Shade" := by
  refine .value (by decide +kernel) rfl (.component (by decide +kernel) ?_)
  exact .object (c := .outermost "k/Shade" none) (by decide +kernel)

theorem answer_shade :
    Loader.answer { store := .ofClasses [shade] } "k.Shade" = .ok (some shade) := by
  rfl

theorem isRefined_of_ofType_shadesByShade :
    (∀ path name, RefersAt shadesByShade path name →
      ∃ found, Loader.answer { store := .ofClasses [shade] } name = .ok found) ∧
    ∃ s s' last, outcome (ofType noEnum shadesByShade) { store := .ofClasses [shade] } =
        (.ok s, { store := .ofClasses [shade] }) ∧
      outcome (ofType isLoadedEnum shadesByShade) { store := .ofClasses [shade] } = (.ok s', last) ∧
      s.part? [.values, .items] = some (.reference "Shade") ∧
      s' = s.withPart [.values, .items] anyText ∧ last.loaded.get? "k.Shade" = some shade := by
  have h : ∀ path name, RefersAt shadesByShade path name →
      ∃ found, Loader.answer { store := .ofClasses [shade] } name = .ok found := by
    intro path name hr
    obtain ⟨rfl, rfl⟩ := refersAt_shadesByShade.unique hr
    exact ⟨_, answer_shade⟩
  obtain ⟨s, s', last, hs, hs', href⟩ := isRefined_of_ofType shadesByShade _ h
  refine ⟨h, s, s', last, hs, hs', ?_, ?_, ?_⟩
  · exact (href.references _ _).2 ⟨_, refersAt_shadesByShade, by decide +kernel⟩
  · exact href.text _ _ refersAt_shadesByShade ⟨shade, answer_shade, rfl⟩
  · exact (href.loaded _ _).2 (.inr ⟨_, _, refersAt_shadesByShade, by decide +kernel, answer_shade⟩)

end Schema

end JvmRoutes
