import JvmRoutes.Proofs.OrderedMap
import Mathlib.Algebra.BigOperators.Group.List.Basic
import Mathlib.Algebra.Ring.Nat
import Mathlib.Data.Finset.Card
import Mathlib.Data.Finset.Dedup

/-! Counts of names, and what becomes of them when lists are put together. -/
namespace JvmRoutes.OrderedMap

/-- The map has each of the names once, in the order in which they come first, and with each how
often it comes. -/
structure Counts (m : OrderedMap Nat) (names : List String) : Prop where
  keys : m.keys = names.eraseDups
  nodup : m.keys.Nodup
  get? : ∀ name, (m.get? name).getD 0 = names.count name
  sum : m.values.sum = names.length

/-- The map has the names of one map and then the new ones of another, with the sums of what both
have with them. -/
structure IsSum (first second m : OrderedMap Nat) : Prop where
  keys : m.keys = first.keys ++ second.keys.filter (· ∉ first.keys)
  get? : ∀ name, (m.get? name).getD 0 = (first.get? name).getD 0 + (second.get? name).getD 0

theorem tally_concat (names : List String) (name : String) :
    tally (names ++ [name]) =
      (tally names).insert name (((tally names).get? name).getD 0 + 1) := by
  unfold tally
  rw [List.foldl_append]
  rfl

private theorem sum_insertEntry (name : String) (entries : List (String × Nat)) :
    ((insertEntry name ((entries.lookup name).getD 0 + 1) entries).map (·.2)).sum =
      (entries.map (·.2)).sum + 1 := by
  induction entries with
  | nil => rfl
  | cons entry rest ih =>
    obtain ⟨key, n⟩ := entry
    by_cases hk : key = name
    · subst hk
      rw [lookup_entry, if_pos rfl, insertEntry, if_pos rfl]
      simp only [Option.getD_some, List.map_cons, List.sum_cons]
      omega
    · rw [lookup_entry, if_neg (Ne.symm hk), insertEntry, if_neg hk]
      simp only [List.map_cons, List.sum_cons, ih]
      omega

theorem counts_tally (names : List String) : Counts (tally names) names := by
  induction names using List.reverseRecOn with
  | nil => exact ⟨rfl, List.nodup_nil, fun _ => rfl, rfl⟩
  | append_singleton front name ih =>
    rw [tally_concat]
    refine ⟨?_, nodup_keys_insert ih.nodup _ _, ?_, ?_⟩
    · rw [keys_insert, ih.keys, eraseDups_concat]
      simp only [List.mem_eraseDups]
    · intro other
      rw [get?_insert, List.count_append, List.count_singleton]
      by_cases ho : other = name
      · subst ho
        simp [ih.get?]
      · simp [ho, Ne.symm ho, ih.get?]
    · have hsum := sum_insertEntry name (tally front).entries
      rw [List.length_append, ← ih.sum]
      exact hsum

private theorem eraseDups_append_eq (front back : List String) :
    (front ++ back).eraseDups = front.eraseDups ++ back.eraseDups.filter (· ∉ front) := by
  induction back using List.reverseRecOn with
  | nil => simp
  | append_singleton back name ih =>
    rw [← List.append_assoc, eraseDups_concat, eraseDups_concat, ih]
    by_cases hf : name ∈ front <;> by_cases hb : name ∈ back <;> simp [hf, hb]

/-- Counting two lists one behind the other adds their counts. -/
theorem Counts.isSum {first second m : OrderedMap Nat} {front back : List String}
    (hf : first.Counts front) (hb : second.Counts back) (h : m.Counts (front ++ back)) :
    IsSum first second m where
  keys := by
    rw [h.keys, hf.keys, hb.keys, eraseDups_append_eq]
    simp only [List.mem_eraseDups]
  get? name := by rw [h.get?, hf.get?, hb.get?, List.count_append]

/-- There are as many names in the counts of two lists as in one or the other. -/
theorem Counts.length_keys {first second m : OrderedMap Nat} {front back : List String}
    (hf : first.Counts front) (hb : second.Counts back) (h : m.Counts (front ++ back)) :
    m.keys.length = (first.keys.toFinset ∪ second.keys.toFinset).card := by
  have hunion : first.keys.toFinset ∪ second.keys.toFinset = m.keys.toFinset := by
    ext name
    simp [hf.keys, hb.keys, h.keys]
  rw [hunion, List.toFinset_card_of_nodup h.nodup]

end JvmRoutes.OrderedMap
