import JvmRoutes.Files.Tree
import JvmRoutes.Proofs.Log

/-!
Where a path leads that goes on from a directory: to what the directory has below it by the names
that follow, unless one of them is too long for a directory that is asked for it.
-/
namespace JvmRoutes.Files

namespace Node

variable {node : Node} {names rest : List String} {name : String} {entries : OrderedMap Node}

theorem at?_append (node : Node) (front back : List String) :
    node.at? (front ++ back) = (node.at? front).bind (·.at? back) := by
  induction front generalizing node with
  | nil => rfl
  | cons name rest ih =>
    cases node with
    | file bytes => rfl
    | directory entries =>
      rw [List.cons_append, at?, at?]
      cases entries.get? name with
      | none => rfl
      | some inner => exact ih inner

/-- Names lead to a directory that is asked for a name that is too long. -/
def MeetsLong (node : Node) (names : List String) : Prop :=
  ∃ front long rest entries, names = front ++ long :: rest ∧
    node.at? front = some (.directory entries) ∧ Path.longestName < long.utf8ByteSize

theorem not_meetsLong_nil : ¬ node.MeetsLong [] := by
  rintro ⟨front, long, rest, entries, hn, -⟩
  simp at hn

private theorem not_meetsLong_file (bytes : ByteArray) (names : List String) :
    ¬ (file bytes).MeetsLong names := by
  rintro ⟨front, long, rest, entries, -, ha, -⟩
  cases front <;> simp [at?] at ha

theorem not_meetsLong_of_short (h : ∀ name ∈ names, name.utf8ByteSize ≤ Path.longestName) :
    ¬ node.MeetsLong names := by
  rintro ⟨front, long, rest, entries, rfl, -, hl⟩
  exact absurd (h long (List.mem_append_right _ List.mem_cons_self)) (Nat.not_le.2 hl)

theorem meetsLong_cons : (directory entries).MeetsLong (name :: rest) ↔
    Path.longestName < name.utf8ByteSize ∨
      ∃ inner, entries.get? name = some inner ∧ inner.MeetsLong rest := by
  constructor
  · rintro ⟨front, long, back, last, hn, ha, hl⟩
    cases front with
    | nil =>
      obtain ⟨rfl, -⟩ := List.cons.inj hn
      exact .inl hl
    | cons first front =>
      obtain ⟨rfl, rfl⟩ := List.cons.inj hn
      obtain ⟨inner, hi, ha⟩ := Option.bind_eq_some_iff.1 ha
      exact .inr ⟨inner, hi, front, long, back, last, rfl, ha, hl⟩
  · rintro (hl | ⟨inner, hi, front, long, back, last, rfl, ha, hl⟩)
    · exact ⟨[], name, rest, entries, rfl, rfl, hl⟩
    · refine ⟨name :: front, long, back, last, rfl, ?_, hl⟩
      rw [at?, hi]
      exact ha

end Node

namespace Tree

variable {tree : Tree} {place names : List String} {node : Node}

/-- What names lead to from a place. -/
def reach (tree : Tree) (place names : List String) : Except Obstacle (Option Node) :=
  (tree.follow place names).map (·.bind (tree.root.at? ·))

theorem isDirectory_eq (h : tree.root.at? place = some node) :
    tree.isDirectory place = node.isDirectory := by
  unfold isDirectory
  rw [h]
  rfl

private theorem reach_of_none (h : tree.root.at? place = none) (names : List String) :
    tree.reach place names = .ok none := by
  have hd : tree.isDirectory place = false := by
    unfold isDirectory
    rw [h]
    rfl
  unfold reach
  cases names with
  | nil => simp [follow, h, Except.map]
  | cons name rest => simp [follow, hd, Except.map]

private theorem next_of_ne {name : String} (h : name ≠ Path.up) (place : List String) :
    next place name = place ++ [name] := if_neg h

theorem at?_concat (h : tree.root.at? place = some node) (name : String) :
    tree.root.at? (place ++ [name]) = node.at? [name] := by
  rw [Node.at?_append, h]
  rfl

/-- A name that is too long ends a walk. -/
theorem reach_of_meetsLong (h : tree.root.at? place = some node) (hup : Path.up ∉ names)
    (hl : node.MeetsLong names) : tree.reach place names = .error .tooLong := by
  induction names generalizing place node with
  | nil => exact absurd hl Node.not_meetsLong_nil
  | cons name rest ih =>
    rw [List.mem_cons, not_or] at hup
    cases node with
    | file bytes => exact absurd hl (Node.not_meetsLong_file bytes _)
    | directory entries =>
      have hd : tree.isDirectory place = true := isDirectory_eq h
      have hstep : tree.reach place (name :: rest) =
          if Path.longestName < name.utf8ByteSize then .error .tooLong
          else tree.reach (next place name) rest := by
        unfold reach
        rw [follow, hd]
        simp only [Bool.not_true, Bool.false_eq_true, if_false]
        split <;> rfl
      rw [hstep]
      split
      · rfl
      · rename_i hshort
        obtain ⟨inner, hi, hl⟩ := (Node.meetsLong_cons.1 hl).resolve_left hshort
        refine ih ?_ hup.2 hl
        rw [next_of_ne (Ne.symm hup.1), at?_concat h, Node.at?, hi]
        rfl

/-- Names that are short enough lead to what the directory has below it. -/
theorem reach_of_not_meetsLong (h : tree.root.at? place = some node) (hup : Path.up ∉ names)
    (hl : ¬ node.MeetsLong names) : tree.reach place names = .ok (node.at? names) := by
  induction names generalizing place node with
  | nil =>
    rw [reach, follow, Node.at?]
    exact congrArg Except.ok h
  | cons name rest ih =>
    rw [List.mem_cons, not_or] at hup
    have hd : tree.isDirectory place = node.isDirectory := isDirectory_eq h
    cases node with
    | file bytes =>
      rw [reach, follow, hd]
      rfl
    | directory entries =>
      rw [Node.meetsLong_cons, not_or] at hl
      obtain ⟨hshort, hl⟩ := hl
      have hstep : tree.reach place (name :: rest) = tree.reach (place ++ [name]) rest := by
        rw [reach, follow, hd, if_neg (by simp [Node.isDirectory]), if_neg hshort,
          next_of_ne (Ne.symm hup.1), reach]
      have hat := at?_concat h name
      rw [Node.at?] at hat
      rw [hstep, Node.at?]
      cases hi : entries.get? name with
      | none =>
        rw [hi] at hat
        exact reach_of_none hat rest
      | some inner =>
        rw [hi] at hat
        exact ih hat hup.2 fun hlong => hl ⟨inner, hi, hlong⟩

/-- A walk can be interrupted anywhere. -/
theorem reach_append {middle : List String} {front back : List String}
    (h : tree.follow place front = .ok (some middle)) :
    tree.reach place (front ++ back) = tree.reach middle back := by
  induction front generalizing place with
  | nil =>
    obtain rfl := Option.some.inj (Except.ok.inj h)
    rfl
  | cons name rest ih =>
    unfold follow at h
    split at h
    · cases h
    · rename_i hd
      split at h
      · cases h
      · rename_i hshort
        rw [List.cons_append, reach, follow, if_neg hd, if_neg hshort]
        exact ih h

section Below

variable {p : Path}

theorem find?_of_holdsNul (h : p.holdsNul = true) : tree.find? p = .ok none := by
  rw [find?, if_pos h]
  rfl

theorem find?_of_isTooLong (hn : p.holdsNul = false) (hl : p.isTooLong = true) :
    tree.find? p = .error .tooLong := by
  rw [find?, hn, hl]
  rfl

theorem find?_eq_reach (hn : p.holdsNul = false) (hl : p.isTooLong = false) :
    tree.find? p = tree.reach (tree.origin p) p.names := by
  rw [find?, hn, hl, reach]
  cases tree.follow (tree.origin p) p.names <;> rfl

/-- Nothing but a length closes the way to what a path leads to. -/
theorem eq_tooLong_of_find? {obstacle : Obstacle} (h : tree.find? p = .error obstacle) :
    obstacle = .tooLong := by
  have hfollow : ∀ names place, tree.follow place names = .error obstacle →
      obstacle = .tooLong := by
    intro names
    induction names with
    | nil => exact fun _ h => nomatch h
    | cons name rest ih =>
      intro place h
      unfold follow at h
      split at h
      · cases h
      · split at h
        · exact (Except.error.inj h).symm
        · exact ih _ h
  cases hn : p.holdsNul with
  | true =>
    rw [find?_of_holdsNul hn] at h
    cases h
  | false =>
    cases hl : p.isTooLong with
    | true =>
      rw [find?_of_isTooLong hn hl] at h
      exact (Except.error.inj h).symm
    | false =>
      rw [find?_eq_reach hn hl, reach] at h
      exact hfollow _ _ (map_eq_error_iff.1 h)

/-- A path that leads to something can be followed to its place. -/
theorem exists_place_of_find? (h : tree.find? p = .ok (some node)) :
    p.holdsNul = false ∧ ∃ place, tree.follow (tree.origin p) p.names = .ok (some place) ∧
      tree.root.at? place = some node := by
  cases hn : p.holdsNul with
  | true =>
    rw [find?_of_holdsNul hn] at h
    cases h
  | false =>
    cases hl : p.isTooLong with
    | true =>
      rw [find?_of_isTooLong hn hl] at h
      cases h
    | false =>
      rw [find?_eq_reach hn hl, reach] at h
      cases hf : tree.follow (tree.origin p) p.names with
      | error obstacle =>
        rw [hf] at h
        cases h
      | ok found =>
        rw [hf] at h
        obtain ⟨place, rfl, hat⟩ := Option.bind_eq_some_iff.1 (Except.ok.inj h)
        exact ⟨rfl, place, rfl, hat⟩

theorem holdsNul_append (h : tree.find? p = .ok (some node)) (names : List String) :
    (p ++ (⟨0, names⟩ : Path)).holdsNul = names.any (·.toList.contains '\x00') := by
  obtain ⟨hn, -⟩ := exists_place_of_find? h
  show (p.names ++ names).any _ = _
  rw [List.any_append]
  rw [Path.holdsNul] at hn
  rw [hn, Bool.false_or]

/-- A path that goes on behind something goes on from its place. -/
theorem exists_reach_of_find? (h : tree.find? p = .ok (some node))
    (hn : (p ++ (⟨0, names⟩ : Path)).holdsNul = false)
    (hl : (p ++ (⟨0, names⟩ : Path)).isTooLong = false) :
    ∃ place, tree.root.at? place = some node ∧
      tree.find? (p ++ (⟨0, names⟩ : Path)) = tree.reach place names := by
  obtain ⟨-, place, hf, hat⟩ := exists_place_of_find? h
  exact ⟨place, hat, (find?_eq_reach hn hl).trans (reach_append hf)⟩

end Below

end Tree

end JvmRoutes.Files
