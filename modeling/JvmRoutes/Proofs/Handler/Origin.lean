import JvmRoutes.Handler.Origin
import JvmRoutes.Proofs.Text.Blank
import Mathlib.Tactic.Common

/-!
Where the value of a formal parameter comes from and what it is called there. Of the annotations
that say so the first one decides, and of the blank names none counts.
-/
namespace JvmRoutes

variable {α β : Type}

/-- The first value that items of a list give, or another one if there is none. -/
inductive FirstGiven (Gives : α → β → Prop) (items : List α) (fallback : β) : β → Prop
  | given {front back : List α} {a : α} {b : β} (hitems : items = front ++ a :: back)
    (hgives : Gives a b) (hfront : ∀ a' ∈ front, ∀ b', ¬ Gives a' b') :
    FirstGiven Gives items fallback b
  | fallback (hnone : ∀ a ∈ items, ∀ b, ¬ Gives a b) : FirstGiven Gives items fallback fallback

theorem firstGiven_iff {Gives : α → β → Prop} {f : α → Option β}
    (hf : ∀ a b, f a = some b ↔ Gives a b) {items : List α} {fallback b : β} :
    FirstGiven Gives items fallback b ↔ (items.findSome? f).getD fallback = b := by
  have hnone : ∀ a, f a = none ↔ ∀ b, ¬ Gives a b := by
    intro a
    simp only [← hf, Option.eq_none_iff_forall_ne_some, ne_eq]
  constructor
  · intro h
    cases h with
    | @given front back a _ hitems hgives hfront =>
      have hfind : items.findSome? f = some b := by
        apply List.findSome?_eq_some_iff.2
        exact ⟨front, a, back, hitems, (hf a b).2 hgives, fun a' ha' => (hnone a').2 (hfront a' ha')⟩
      rw [hfind, Option.getD_some]
    | fallback h =>
      have hfind : items.findSome? f = none :=
        List.findSome?_eq_none_iff.2 fun a ha => (hnone a).2 (h a ha)
      rw [hfind, Option.getD_none]
  · intro h
    cases hfind : items.findSome? f with
    | none =>
      rw [hfind, Option.getD_none] at h
      subst h
      exact .fallback fun a ha => (hnone a).1 (List.findSome?_eq_none_iff.1 hfind a ha)
    | some b' =>
      rw [hfind, Option.getD_some] at h
      subst h
      obtain ⟨front, a, back, hitems, ha, hfront⟩ := List.findSome?_eq_some_iff.1 hfind
      exact .given hitems ((hf a b').1 ha) fun a' ha' => (hnone a').1 (hfront a' ha')

namespace Location

private theorem mem_all (l : Location) : l ∈ all := by cases l <;> decide

/-- No annotation type stands for two locations. -/
theorem eq_of_mem_markers {l l' : Location} {type : String} (h : type ∈ l.markers)
    (h' : type ∈ l'.markers) : l = l' := by
  have hdisjoint : ∀ l ∈ all, ∀ l' ∈ all, l ≠ l' → ∀ type ∈ l.markers, type ∉ l'.markers := by
    decide +kernel
  by_contra hne
  exact hdisjoint l (mem_all l) l' (mem_all l') hne type h h'

theorem ofAnnotation?_eq_some_iff (a : Annotation) (l : Location) :
    ofAnnotation? a = some l ↔ a.typeName ∈ l.markers := by
  unfold ofAnnotation?
  constructor
  · intro h
    simpa using List.find?_some h
  · intro h
    have hsome : (all.find? fun l => l.markers.contains a.typeName).isSome :=
      List.find?_isSome.2 ⟨l, mem_all l, by simpa using h⟩
    obtain ⟨l', hl'⟩ := Option.isSome_iff_exists.1 hsome
    have hmem : a.typeName ∈ l'.markers := by simpa using List.find?_some hl'
    rw [hl', eq_of_mem_markers hmem h]

end Location

namespace Marker

theorem textValue?_eq_some_iff {a : Annotation} {name : String} : textValue? a = some name ↔
    (∃ text, a.get? "value" = some (.text text) ∧ Text.trim text = name) ∧ name ≠ "" := by
  unfold textValue?
  cases a.get? "value" with
  | none => simp
  | some e => cases e <;> simp [Text.nonBlank?_eq_some_iff]

/-- Of annotations of some types the first text is that of the first one which has any. -/
theorem firstText?_eq (types : List String) (annotations : List Annotation) :
    firstText? types annotations = annotations.findSome? fun a =>
      if types.contains a.typeName then textValue? a else none := by
  unfold firstText? select
  rw [← List.head?_filterMap, ← List.head?_filterMap, List.filterMap_filter]

end Marker

namespace FormalParameter

variable {p : FormalParameter} {l : Location} {name : String}

/-- The annotations of the parameter put it at the location: the first one that stands for any
decides, and without one it is the body. -/
def IsAt (p : FormalParameter) : Location → Prop :=
  FirstGiven (fun a l => a.typeName ∈ l.markers) p.visible .body

/-- The annotation gives a parameter at the location a name, which is not blank. -/
structure IsNamedBy (l : Location) (a : Annotation) (name : String) : Prop where
  type : a.typeName ∈ l.markers ∨ a.typeName ∈ Marker.named
  value : ∃ text, a.get? "value" = some (.text text) ∧ Text.trim text = name
  ne_empty : name ≠ ""

/-- The annotations of the parameter give it the name, or it is the one in the program. -/
def IsNamed (p : FormalParameter) : String → Prop :=
  FirstGiven (IsNamedBy p.location) p.visible p.name

theorem isAt_iff : p.IsAt l ↔ p.location = l := firstGiven_iff Location.ofAnnotation?_eq_some_iff

theorem isNamed_iff : p.IsNamed name ↔ p.inputName = name := by
  unfold inputName
  rw [Marker.firstText?_eq]
  apply firstGiven_iff
  intro a name
  by_cases htype : p.location.nameMarkers.contains a.typeName
  · rw [if_pos htype, Marker.textValue?_eq_some_iff]
    constructor
    · intro h
      exact ⟨by simpa [Location.nameMarkers] using htype, h.1, h.2⟩
    · intro h
      exact ⟨h.value, h.ne_empty⟩
  · rw [if_neg htype]
    constructor
    · intro h
      cases h
    · intro h
      exact absurd (by simpa [Location.nameMarkers] using h.type) htype

end FormalParameter

end JvmRoutes
