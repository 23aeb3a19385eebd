import JvmRoutes.Loader.Store
import JvmRoutes.Proofs.Route.Segments
import JvmRoutes.Proofs.TypeName

/-!
The names on the way to the file of a class. They are those of its packages and its own with the
suffix of class files, so that each of them goes one directory down.
-/
namespace JvmRoutes

/-- The packages of the class and the class itself each have a name. -/
def TypeName.IsSegmented (name : String) : Prop := [] ∉ (slashed name).toList.splitOn '/'

instance (name : String) : Decidable (TypeName.IsSegmented name) :=
  inferInstanceAs (Decidable (_ ∉ _))

namespace Classpath

/-- What stands between the slashes of the name of a file. -/
def namesOf (fileName : String) : List String := (fileName.toList.splitOn '/').map String.ofList

variable {cs suffix piece : List Char} {className : String}

private theorem subset_of_mem_splitOn (h : piece ∈ cs.splitOn '/') : piece ⊆ cs := by
  induction cs using Route.slashInduction with
  | word word hslash =>
    rw [List.splitOn_eq_singleton hslash, List.mem_singleton] at h
    exact h ▸ List.Subset.refl _
  | slash word rest hslash ih =>
    rw [List.splitOn_append_cons_self_of_not_mem hslash, List.mem_cons] at h
    rcases h with rfl | h
    · exact List.subset_append_left _ _
    · exact List.subset_append_of_subset_right _ (List.subset_cons_of_subset _ (ih h))

/-- All but the slashes is in the pieces. -/
theorem exists_piece_iff {c : Char} (hc : c ≠ '/') :
    (∃ piece ∈ cs.splitOn '/', c ∈ piece) ↔ c ∈ cs := by
  constructor
  · rintro ⟨piece, hp, hm⟩
    exact subset_of_mem_splitOn hp hm
  · intro hm
    induction cs using Route.slashInduction with
    | word word hslash =>
      rw [List.splitOn_eq_singleton hslash]
      exact ⟨word, List.mem_singleton_self word, hm⟩
    | slash word rest hslash ih =>
      rw [List.splitOn_append_cons_self_of_not_mem hslash]
      rcases List.mem_append.1 hm with hm | hm
      · exact ⟨word, List.mem_cons_self, hm⟩
      · obtain ⟨piece, hp, hm⟩ := ih ((List.mem_cons.1 hm).resolve_left hc)
        exact ⟨piece, List.mem_cons_of_mem _ hp, hm⟩

theorem holdsNul_namesOf (fileName : String) :
    (namesOf fileName).any (·.toList.contains '\x00') = decide ('\x00' ∈ fileName.toList) := by
  rw [Bool.eq_iff_iff, List.any_eq_true, decide_eq_true_iff, ← exists_piece_iff (by decide)]
  simp [namesOf]

/-- A suffix becomes part of the last piece. -/
theorem mem_splitOn_append (hs : '/' ∉ suffix) (h : piece ∈ (cs ++ suffix).splitOn '/') :
    piece ∈ cs.splitOn '/' ∨ ∃ last, piece = last ++ suffix := by
  induction cs using Route.slashInduction with
  | word word hslash =>
    have hall : '/' ∉ word ++ suffix := by
      rw [List.mem_append, not_or]
      exact ⟨hslash, hs⟩
    rw [List.splitOn_eq_singleton hall, List.mem_singleton] at h
    exact .inr ⟨word, h⟩
  | slash word rest hslash ih =>
    rw [List.append_assoc, List.cons_append, List.splitOn_append_cons_self_of_not_mem hslash,
      List.mem_cons] at h
    rw [List.splitOn_append_cons_self_of_not_mem hslash, List.mem_cons]
    rcases h with rfl | h
    · exact .inl (.inl rfl)
    · exact (ih h).imp_left .inr

private theorem toList_fileName (className : String) :
    (fileName className).toList = (TypeName.slashed className).toList ++ ".class".toList :=
  String.toList_append

/-- Neither the packages nor the file go by a name that stands for another place. -/
theorem name_of_mem_splitOn (h : TypeName.IsSegmented className)
    (hp : piece ∈ (fileName className).toList.splitOn '/') :
    piece ≠ [] ∧ piece ≠ ['.'] ∧ piece ≠ ['.', '.'] := by
  rw [toList_fileName] at hp
  rcases mem_splitOn_append (by decide) hp with hp | ⟨last, rfl⟩
  · have hdot : '.' ∉ piece := fun hc =>
      TypeName.dot_notMem_slashed className (subset_of_mem_splitOn hp hc)
    refine ⟨fun hn => h (hn ▸ hp), ?_, ?_⟩ <;> rintro rfl <;> simp at hdot
  · have hlength : 6 ≤ (last ++ ".class".toList).length := by
      rw [List.length_append]
      exact Nat.le_add_left _ _
    refine ⟨?_, ?_, ?_⟩ <;> intro he <;> rw [he] at hlength <;> simp at hlength

theorem up_notMem_namesOf (h : TypeName.IsSegmented className) :
    Files.Path.up ∉ namesOf (fileName className) := by
  intro hm
  obtain ⟨piece, hp, hup⟩ := List.mem_map.1 hm
  have hpiece : piece = ['.', '.'] := by
    rw [← String.toList_ofList (l := piece), hup]
    rfl
  exact (name_of_mem_splitOn h hp).2.2 hpiece

private theorem takeWhile_fileName (h : TypeName.IsSegmented className) :
    (fileName className).toList.takeWhile (· == '/') = [] := by
  cases hc : (fileName className).toList with
  | nil => rfl
  | cons c rest =>
    by_cases hs : c = '/'
    · have hempty : [] ∈ (fileName className).toList.splitOn '/' := by
        rw [hc, hs, List.splitOn_cons_eq_if_modifyHead, if_pos (beq_self_eq_true _)]
        exact List.mem_cons_self
      exact absurd rfl (name_of_mem_splitOn h hempty).1
    · rw [List.takeWhile_cons_of_neg]
      simpa using hs

/-- The path that the name of the file spells goes down by all of its names. -/
theorem ofText_fileName (h : TypeName.IsSegmented className) :
    Files.Path.ofText (fileName className) = ⟨0, namesOf (fileName className)⟩ := by
  have hkept : ∀ name ∈ namesOf (fileName className), (name != "" && name != ".") = true := by
    intro name hname
    obtain ⟨piece, hp, rfl⟩ := List.mem_map.1 hname
    obtain ⟨hempty, hdot, -⟩ := name_of_mem_splitOn h hp
    have hempty : String.ofList piece ≠ "" := fun he =>
      hempty (String.ofList_injective (he.trans String.ofList_nil.symm))
    have hdot : String.ofList piece ≠ "." := fun he =>
      hdot (String.ofList_injective he)
    simp [hempty, hdot]
  unfold Files.Path.ofText
  rw [takeWhile_fileName h]
  exact congrArg _ (List.filter_eq_self.2 hkept)

end Classpath

end JvmRoutes
