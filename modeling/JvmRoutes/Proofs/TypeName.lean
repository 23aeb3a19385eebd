import JvmRoutes.TypeName
import Mathlib.Tactic.Common

/-! Names of classes and what class files spell them as. -/
namespace JvmRoutes.TypeName

/-- The name has no slashes, so that only dots stand between its packages. -/
def IsDotted (name : String) : Prop := '/' ∉ name.toList

instance (name : String) : Decidable (IsDotted name) := inferInstanceAs (Decidable (_ ∉ _))

def classDescriptor (name : String) : String := "L" ++ slashed name ++ ";"

/-- The characters describe the type, or the missing result, that goes by the name. -/
inductive Describes : List Char → List Char → Prop
  | primitive (p : Signature.Primitive) : Describes [p.letter] p.name.toList
  | className {name : String} (h : IsDotted name) :
    Describes (classDescriptor name).toList name.toList
  | array {d name : List Char} (h : Describes d name)
    (hv : d ≠ [Signature.Primitive.void.letter]) : Describes ('[' :: d) (name ++ ['[', ']'])

private theorem swapChars_swapChars {a b : Char} {cs : List Char} (h : a ∉ cs) :
    swapChars a b (swapChars b a cs) = cs := by
  induction cs with
  | nil => rfl
  | cons c rest ih =>
    rw [List.mem_cons, not_or] at h
    have hc : (if (if c = b then a else c) = a then b else if c = b then a else c) = c := by
      by_cases hb : c = b
      · simp [hb]
      · simp [hb, Ne.symm h.1]
    have ih' := ih h.2
    unfold swapChars at ih' ⊢
    rw [List.map_cons, List.map_cons, ih', hc]

theorem dotted_slashed {name : String} (h : IsDotted name) : dotted (slashed name) = name := by
  rw [dotted, slashed, swap, swap, String.toList_ofList, swapChars_swapChars h,
    String.ofList_toList]

theorem slashed_dotted {name : String} (h : '.' ∉ name.toList) : slashed (dotted name) = name := by
  rw [dotted, slashed, swap, swap, String.toList_ofList, swapChars_swapChars h,
    String.ofList_toList]

/-- None of what is replaced is left. -/
theorem notMem_swap {a b : Char} (h : b ≠ a) (s : String) : a ∉ (swap a b s).toList := by
  unfold swap swapChars
  rw [String.toList_ofList, List.mem_map]
  rintro ⟨c, -, hc⟩
  split at hc
  · exact h hc
  · contradiction

theorem isDotted_dotted (name : String) : IsDotted (dotted name) := notMem_swap (by decide) name

theorem dot_notMem_slashed (name : String) : '.' ∉ (slashed name).toList :=
  notMem_swap (by decide) name

theorem dotted_of_isDotted {name : String} (h : IsDotted name) : dotted name = name := by
  have hswap : ∀ c ∈ name.toList, (if c = '/' then '.' else c) = c := by
    intro c hc
    have hne : c ≠ '/' := fun he => h (he ▸ hc)
    exact if_neg hne
  rw [dotted, swap, swapChars, List.map_congr_left hswap, List.map_id', String.ofList_toList]

/-- What stands behind a dot is the simple name if it has no dots itself. -/
theorem simple_append {name : String} (h : '.' ∉ name.toList) (package : String) :
    simple (package ++ "." ++ name) = name := by
  have hall : ∀ c ∈ name.toList.reverse, (c != '.') = true := by
    intro c hc
    have hne : c ≠ '.' := fun he => h (he ▸ List.mem_reverse.1 hc)
    simpa using hne
  have hchars : (package ++ "." ++ name).toList.reverse =
      name.toList.reverse ++ '.' :: package.toList.reverse := by simp
  rw [simple, hchars, List.takeWhile_append_of_pos hall]
  simp

private theorem toList_classDescriptor (name : String) :
    (classDescriptor name).toList = 'L' :: ((slashed name).toList ++ [';']) := by
  simp [classDescriptor]

private theorem classBody?_append (body : List Char) :
    classBody? ('L' :: (body ++ [';'])) = some body := by
  simp [classBody?]

/-- A descriptor is taken for the name that it describes. -/
theorem describedChars_eq {d name : List Char} (h : Describes d name) :
    describedChars d = name := by
  induction h with
  | primitive p => cases p <;> rfl
  | @className name h =>
    have hd := congrArg String.toList (dotted_slashed h)
    rw [dotted, swap, String.toList_ofList] at hd
    rw [toList_classDescriptor, describedChars, classBody?_append]
    · exact hd
    · intro p hr
      simp at hr
  | @array d name _ _ ih =>
    have hb : classBody? ('[' :: d) = none := rfl
    have hl : Signature.Primitive.ofLetter? '[' = none := rfl
    rw [describedChars, hb]
    · simp only [ih, if_true]
    · intro p _ hp
      simp [hl] at hp

theorem described_ofList {d : List Char} {name : String} (h : Describes d name.toList) :
    described (String.ofList d) = name := by
  rw [described, String.toList_ofList, describedChars_eq h, String.ofList_toList]

theorem described_classDescriptor {name : String} (h : IsDotted name) :
    described (classDescriptor name) = name := by
  have hd := described_ofList (.className h)
  rwa [String.ofList_toList] at hd

end JvmRoutes.TypeName
