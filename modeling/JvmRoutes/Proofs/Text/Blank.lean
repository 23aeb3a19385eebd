import JvmRoutes.Text.Blank
import JvmRoutes.Text.Word
import Mathlib.Data.List.DropRight
import Mathlib.Tactic.Common

/-!
Texts without the blanks around them: nothing but blanks is lost, and none is left at the ends. No
blank character is one of a word.
-/
namespace JvmRoutes.Text

variable {α : Type} {cs ds : List Char} {c : Char}

private theorem exists_range_of_inRanges {code : Nat} {ranges : List (Nat × Nat)}
    (h : inRanges code ranges = true) : ∃ r ∈ ranges, r.1 ≤ code ∧ code ≤ r.2 := by
  induction ranges with
  | nil => cases h
  | cons r rest ih =>
    simp only [inRanges, Bool.and_eq_true, Bool.or_eq_true, decide_eq_true_eq] at h
    obtain ⟨hfirst, hlast | hrest⟩ := h
    · exact ⟨r, List.mem_cons_self, hfirst, hlast⟩
    · obtain ⟨r', hr', hcode⟩ := ih hrest
      exact ⟨r', List.mem_cons_of_mem r hr', hcode⟩

theorem not_isWord_of_isBlank (h : isBlank c = true) : isWord c = false := by
  have hall : ∀ r ∈ blankRanges, ∀ n < r.2 + 1 - r.1, inRanges (r.1 + n) wordRanges = false := by
    decide +kernel
  obtain ⟨r, hr, hfirst, hlast⟩ := exists_range_of_inRanges h
  have hcode := hall r hr (c.toNat - r.1) (by omega)
  rwa [Nat.add_sub_cancel' hfirst] at hcode

/-- What is dropped from the end stands behind the last item that is kept. -/
theorem rdropWhile_append_cons {p : α → Bool} {a : α} (h : p a = false) (front back : List α) :
    (front ++ a :: back).rdropWhile p = front ++ a :: back.rdropWhile p := by
  induction back using List.reverseRecOn with
  | nil =>
    rw [List.rdropWhile_concat_neg _ _ _ (by simp [h]), List.rdropWhile_nil]
  | append_singleton back b ih =>
    rw [← List.cons_append, ← List.append_assoc]
    by_cases hb : p b = true
    · rw [List.rdropWhile_concat_pos _ _ _ hb, List.rdropWhile_concat_pos _ _ _ hb, ih]
    · rw [List.rdropWhile_concat_neg _ _ _ hb, List.rdropWhile_concat_neg _ _ _ hb,
        List.append_assoc, List.cons_append]

theorem trimChars_eq (cs : List Char) :
    trimChars cs = (cs.dropWhile isBlank).rdropWhile isBlank := rfl

/-- No blanks stand around the text. -/
structure IsTrimmed (cs : List Char) : Prop where
  front : ∀ c ∈ cs.head?, isBlank c = false
  back : ∀ c ∈ cs.getLast?, isBlank c = false

theorem isTrimmed_trimChars (cs : List Char) : IsTrimmed (trimChars cs) := by
  rw [trimChars_eq]
  have hp := List.rdropWhile_prefix isBlank (cs.dropWhile isBlank)
  constructor
  · intro c hc
    have hne : (cs.dropWhile isBlank).rdropWhile isBlank ≠ [] := by
      intro he
      simp [he] at hc
    rw [List.head?_eq_some_head hne, Option.mem_some] at hc
    rw [← hc, hp.head hne]
    simpa using List.head_dropWhile_not isBlank (l := cs) (hp.ne_nil hne)
  · intro c hc
    obtain ⟨hne, hlast⟩ := List.mem_getLast?_eq_getLast hc
    rw [hlast]
    simpa using List.rdropWhile_last_not isBlank _ hne

theorem IsTrimmed.trimChars_eq (h : IsTrimmed cs) : trimChars cs = cs := by
  have hfront : cs.dropWhile isBlank = cs := by
    cases cs with
    | nil => rfl
    | cons c rest => rw [List.dropWhile_cons_of_neg (by simp [h.front c rfl])]
  rw [Text.trimChars_eq, hfront, List.rdropWhile_eq_self_iff]
  intro hne
  simp [h.back _ (List.getLast_mem_getLast? hne)]

/-- A text is trimmed as a whole if its first and its last part are. -/
theorem IsTrimmed.append (h : IsTrimmed cs) (hc : cs ≠ []) (h' : IsTrimmed ds) (hd : ds ≠ [])
    (middle : List Char) : IsTrimmed (cs ++ (middle ++ ds)) := by
  constructor
  · rw [List.head?_append_of_ne_nil _ hc]
    exact h.front
  · rw [List.getLast?_append_of_ne_nil _ (by simp [hd]), List.getLast?_append_of_ne_nil _ hd]
    exact h'.back

theorem trimChars_eq_nil_iff : trimChars cs = [] ↔ ∀ c ∈ cs, isBlank c = true := by
  rw [trimChars_eq, List.rdropWhile_eq_nil_iff]
  constructor
  · intro h c hc
    rw [← List.takeWhile_append_dropWhile (p := isBlank) (l := cs), List.mem_append] at hc
    exact hc.elim List.mem_takeWhile_imp (h c)
  · exact fun h c hc => h c (List.dropWhile_subset isBlank hc)

/-- Only blanks are lost by trimming. -/
theorem exists_blanks (cs : List Char) : ∃ front back, cs = front ++ (trimChars cs ++ back) ∧
    (∀ c ∈ front, isBlank c = true) ∧ ∀ c ∈ back, isBlank c = true := by
  refine ⟨cs.takeWhile isBlank, (cs.dropWhile isBlank).rtakeWhile isBlank, ?_, ?_, ?_⟩
  · rw [trimChars_eq, List.rdropWhile_append_rtakeWhile, List.takeWhile_append_dropWhile]
  · exact fun c hc => List.mem_takeWhile_imp hc
  · exact fun c hc => List.mem_rtakeWhile_imp hc

theorem nonBlank?_eq_some_iff {text name : String} :
    nonBlank? text = some name ↔ trim text = name ∧ name ≠ "" := by
  unfold nonBlank?
  dsimp only
  by_cases h : trim text = ""
  · rw [if_pos h]
    constructor
    · intro hnone
      cases hnone
    · intro htrim
      exact absurd (htrim.1.symm.trans h) htrim.2
  · rw [if_neg h, Option.some.injEq]
    constructor
    · intro htrim
      exact ⟨htrim, htrim ▸ h⟩
    · intro htrim
      exact htrim.1

theorem nonBlank?_eq_none_iff {text : String} :
    nonBlank? text = none ↔ ∀ c ∈ text.toList, isBlank c = true := by
  rw [← trimChars_eq_nil_iff]
  unfold nonBlank? trim
  simp

end JvmRoutes.Text
