import JvmRoutes.Archive.Members
import JvmRoutes.Proofs.Log

/-! How many members an archive can have. -/
namespace JvmRoutes.Archive

private theorem length_entriesFrom {directory : ByteArray} {shift : Int} {place bound : Nat}
    {entries : List Entry} (h : entriesFrom directory shift place bound = .ok entries) :
    entries.length ≤ bound := by
  induction bound generalizing place entries with
  | zero =>
    obtain rfl : [] = entries := Except.ok.inj h
    exact Nat.le_refl 0
  | succ bound ih =>
    unfold entriesFrom at h
    by_cases hs : directory.size ≤ place
    · rw [if_pos hs] at h
      obtain rfl : [] = entries := Except.ok.inj h
      exact Nat.zero_le _
    · rw [if_neg hs] at h
      obtain ⟨first, -, h⟩ := bind_eq_ok_iff.1 h
      obtain ⟨rest, hr, h⟩ := bind_eq_ok_iff.1 h
      obtain rfl := Except.ok.inj h
      have hl := ih hr
      rw [List.length_cons]
      omega

/-- Each entry of a directory takes a byte of the archive at least. -/
theorem Directory.length_entries {bytes : ByteArray} {d : Directory}
    (h : Directory.ofBytes bytes = .ok (some d)) : d.entries.length ≤ bytes.size := by
  unfold Directory.ofBytes at h
  cases hp : endPlace? bytes with
  | none => simp [hp, pure, Except.pure] at h
  | some place =>
    simp only [hp] at h
    obtain ⟨ending, -, h⟩ := bind_eq_ok_iff.1 h
    cases ending with
    | none => simp [pure, Except.pure] at h
    | some ending =>
      by_cases hs : ending.place < ending.size
      · simp [hs, bind, Except.bind] at h
      simp only [hs, if_false] at h
      obtain ⟨entries, he, h⟩ := bind_eq_ok_iff.1 h
      obtain rfl := Option.some.inj (Except.ok.inj h)
      have hl := length_entriesFrom he
      rw [ByteArray.size_extract] at hl
      show entries.length ≤ bytes.size
      omega

/-- What the members of an archive hold, as far as they can be read. -/
def members (archive : Archive) : List ByteArray :=
  archive.directory.entries.filterMap fun e => (archive.find? e.name).toOption.join

private theorem mem_entries_of_find? {d : Directory} {name : String} {e : Entry}
    {earlier : List Entry} (h : d.find? name = some (e, earlier)) : e ∈ d.entries := by
  unfold Directory.find? at h
  split at h
  · contradiction
  · rename_i first rest hs
    obtain ⟨rfl, -⟩ := Prod.mk.inj (Option.some.inj h)
    have hm : first ∈ d.entries.reverse.dropWhile (·.name != name) := by
      rw [hs]
      exact List.mem_cons_self
    exact List.mem_reverse.1 ((List.dropWhile_sublist _).subset hm)

theorem mem_members {archive : Archive} {name : String} {bytes : ByteArray}
    (h : archive.find? name = .ok (some bytes)) : bytes ∈ archive.members := by
  cases hf : archive.directory.find? name with
  | none => simp [find?, hf] at h
  | some found =>
    obtain ⟨e, earlier⟩ := found
    unfold members
    rw [List.mem_filterMap]
    refine ⟨e, mem_entries_of_find? hf, ?_⟩
    rw [Directory.name_of_find? hf, h]
    rfl

theorem length_members {bytes : ByteArray} {archive : Archive}
    (h : ofBytes bytes = .ok (some archive)) : archive.members.length ≤ bytes.size := by
  obtain ⟨directory, hd, h⟩ := bind_eq_ok_iff.1 h
  cases directory with
  | none => simp [pure, Except.pure] at h
  | some d =>
    obtain rfl := Option.some.inj (Except.ok.inj h)
    exact Nat.le_trans (List.length_filterMap_le _ _) (Directory.length_entries hd)

end JvmRoutes.Archive
