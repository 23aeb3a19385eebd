import JvmRoutes.Files.Tree
import JvmRoutes.Proofs.Log
import Mathlib.Tactic.Ring

/-! The files below a node, and how much room they take. -/
namespace JvmRoutes.Files

namespace Node

mutual

/-- What the files of a node hold. -/
def contents : Node → List ByteArray
  | file bytes => [bytes]
  | directory ⟨entries⟩ => entryContents entries

def entryContents : List (String × Node) → List ByteArray
  | [] => []
  | (_, node) :: rest => node.contents ++ entryContents rest

end

mutual

theorem size_eq : (node : Node) → node.size = (node.contents.map (·.size + 1)).sum
  | file bytes => by simp [size, contents]
  | directory ⟨entries⟩ => by
    rw [size, contents]
    exact entrySize_eq entries

theorem entrySize_eq : (entries : List (String × Node)) →
    entrySize entries = ((entryContents entries).map (·.size + 1)).sum
  | [] => rfl
  | (_, node) :: rest => by
    rw [entrySize, entryContents, List.map_append, List.sum_append, size_eq node, entrySize_eq rest]

end

private theorem contents_subset {name : String} {node : Node} {entries : List (String × Node)}
    (h : entries.lookup name = some node) : node.contents ⊆ entryContents entries := by
  induction entries with
  | nil => contradiction
  | cons entry rest ih =>
    obtain ⟨key, first⟩ := entry
    rw [OrderedMap.lookup_entry] at h
    rw [entryContents]
    by_cases hk : name = key
    · rw [if_pos hk] at h
      obtain rfl := Option.some.inj h
      exact List.subset_append_left _ _
    · rw [if_neg hk] at h
      exact List.subset_append_of_subset_right _ (ih h)

/-- A file that names lead to is one of those below the node. -/
theorem mem_contents {names : List String} {node found : Node} {bytes : ByteArray}
    (h : node.at? names = some found) (hb : found.bytes? = some bytes) :
    bytes ∈ node.contents := by
  induction names generalizing node with
  | nil =>
    obtain rfl : node = found := by simpa [at?] using h
    cases node with
    | file content =>
      obtain rfl : content = bytes := by simpa [bytes?] using hb
      simp [contents]
    | directory entries => contradiction
  | cons name rest ih =>
    cases node with
    | file content => contradiction
    | directory entries =>
      obtain ⟨entries⟩ := entries
      rw [at?, Option.bind_eq_some_iff] at h
      obtain ⟨inner, hi, hf⟩ := h
      rw [contents]
      exact contents_subset hi (ih hf)

end Node

/-- A file that a path leads to is one of those of the tree. -/
theorem Tree.mem_contents {tree : Tree} {p : Path} {node : Node} {bytes : ByteArray}
    (h : tree.find? p = .ok (some node)) (hb : node.bytes? = some bytes) :
    bytes ∈ tree.root.contents := by
  unfold Tree.find? at h
  by_cases hn : p.holdsNul
  · simp [hn, pure, Except.pure] at h
  by_cases hl : p.isTooLong
  · simp [hn, hl, bind, Except.bind] at h
  simp only [hn, hl, Bool.false_eq_true, if_false] at h
  obtain ⟨place, -, hp⟩ := bind_eq_ok_iff.1 h
  obtain ⟨names, -, hat⟩ := Option.bind_eq_some_iff.1 (Except.ok.inj hp)
  exact Node.mem_contents hat hb

end JvmRoutes.Files
