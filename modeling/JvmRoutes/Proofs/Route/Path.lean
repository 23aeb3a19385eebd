import JvmRoutes.Route.Path
import Mathlib.Data.List.Chain
import Mathlib.Data.List.DropRight

/-! Joined paths are in normal form. -/
namespace JvmRoutes.Route

/-- A path in normal form: a slash in front, none doubled, and none behind unless it is alone. -/
structure IsNormal (path : String) : Prop where
  front : path.toList.head? = some '/'
  single : ¬ ['/', '/'] <:+: path.toList
  back : path.toList.getLast? = some '/' → path = root

theorem isNormal_root : IsNormal root := by
  refine ⟨by decide, ?_, fun _ => rfl⟩
  intro h
  have hlength : 2 ≤ 1 := h.length_le
  omega

private theorem head?_collapseSlashes (cs : List Char) : (collapseSlashes cs).head? = cs.head? := by
  induction cs with
  | nil => rfl
  | cons c rest ih =>
    unfold collapseSlashes
    split
    · rename_i h
      simp only [Bool.and_eq_true, decide_eq_true_eq, beq_iff_eq] at h
      rw [ih, h.1, h.2]
      rfl
    · rfl

private theorem isChain_collapseSlashes (cs : List Char) :
    List.IsChain (fun a b => a = '/' → b ≠ '/') (collapseSlashes cs) := by
  induction cs with
  | nil => exact .nil
  | cons c rest ih =>
    unfold collapseSlashes
    split
    · exact ih
    · rename_i h
      simp only [Bool.and_eq_true, decide_eq_true_eq, beq_iff_eq, not_and] at h
      refine List.isChain_cons.2 ⟨?_, ih⟩
      rintro b hb hc rfl
      rw [head?_collapseSlashes] at hb
      exact h hc hb

private theorem not_infix_of_isChain {cs : List Char}
    (h : List.IsChain (fun a b => a = '/' → b ≠ '/') cs) : ¬ ['/', '/'] <:+: cs := by
  intro hi
  have hpair := h.infix hi
  simp at hpair

theorem dropTrailingSlashes_eq (cs : List Char) :
    dropTrailingSlashes cs = cs.rdropWhile (· == '/') := rfl

theorem isNormal_ofList {cs : List Char}
    (h : dropTrailingSlashes (collapseSlashes ('/' :: cs)) ≠ []) :
    IsNormal (String.ofList (dropTrailingSlashes (collapseSlashes ('/' :: cs)))) := by
  rw [dropTrailingSlashes_eq] at h ⊢
  have hp := List.rdropWhile_prefix (· == '/') (collapseSlashes ('/' :: cs))
  refine ⟨?_, ?_, ?_⟩
  · rw [String.toList_ofList, List.head?_eq_some_head h, hp.head h]
    have hhead := head?_collapseSlashes ('/' :: cs)
    rwa [List.head?_eq_some_head] at hhead
  · rw [String.toList_ofList]
    have hsingle := not_infix_of_isChain (isChain_collapseSlashes ('/' :: cs))
    exact fun hi => hsingle (hi.trans hp.isInfix)
  · rw [String.toList_ofList, List.getLast?_eq_some_getLast h]
    intro hl
    have hnot := List.rdropWhile_last_not (· == '/') _ h
    rw [Option.some.inj hl] at hnot
    exact absurd rfl hnot

theorem isNormal_normalize (path : Option String) : IsNormal (normalize path) := by
  unfold normalize
  split
  · exact isNormal_root
  · split
    · exact isNormal_root
    · split
      · exact isNormal_root
      · rename_i hne
        exact isNormal_ofList hne

theorem isNormal_join (base path : Option String) : IsNormal (join base path) :=
  isNormal_normalize _

end JvmRoutes.Route
