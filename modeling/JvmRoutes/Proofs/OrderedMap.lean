import JvmRoutes.OrderedMap
import Mathlib.Data.List.Induction
import Mathlib.Tactic.Common

/-! Maps that are built from pairs. -/
namespace JvmRoutes.OrderedMap

variable {α : Type}

private theorem insertEntry_of_not_mem {name : String} (value : α) {entries : List (String × α)}
    (h : name ∉ entries.map (·.1)) : insertEntry name value entries = entries ++ [(name, value)] := by
  induction entries with
  | nil => rfl
  | cons entry rest ih =>
    rw [List.map_cons, List.mem_cons, not_or] at h
    rw [insertEntry, if_neg (Ne.symm h.1), ih h.2, List.cons_append]

private theorem entries_foldl_insert (pairs : List (String × α)) (m : OrderedMap α)
    (h : (m.entries ++ pairs).map (·.1) |>.Nodup) :
    (pairs.foldl (fun m (name, value) => m.insert name value) m).entries = m.entries ++ pairs := by
  induction pairs generalizing m with
  | nil => simp
  | cons pair rest ih =>
    obtain ⟨name, value⟩ := pair
    have hn : name ∉ m.entries.map (·.1) := by
      rw [List.map_append, List.nodup_append] at h
      exact fun hm => h.2.2 _ hm _ (by simp) rfl
    have he : (m.insert name value).entries = m.entries ++ [(name, value)] :=
      insertEntry_of_not_mem value hn
    rw [List.foldl_cons, ih, he, List.append_assoc, List.singleton_append]
    rwa [he, List.append_assoc, List.singleton_append]

/-- Pairs with names of their own are the entries of their map. -/
theorem ofList_eq {pairs : List (String × α)} (h : (pairs.map (·.1)).Nodup) :
    ofList pairs = ⟨pairs⟩ := by
  have he := entries_foldl_insert pairs {} (by simpa using h)
  exact congrArg OrderedMap.mk he

/-- Of pairs with one name the last counts, and before all pairs a map may have a value. -/
theorem get?_foldl_insert (pairs : List (String × α)) (m : OrderedMap α) (key : String) :
    (pairs.foldl (fun m (name, value) => m.insert name value) m).get? key =
      ((pairs.reverse.find? (·.1 == key)).map (·.2)).or (m.get? key) := by
  induction pairs generalizing m with
  | nil => simp
  | cons pair rest ih =>
    obtain ⟨name, value⟩ := pair
    rw [List.foldl_cons, ih, get?_insert, List.reverse_cons, List.find?_append, Option.map_or]
    by_cases hk : key = name
    · subst hk
      simp
    · simp [hk, Ne.symm hk]

/-- Of pairs with one name the last counts. -/
theorem get?_ofList (pairs : List (String × α)) (key : String) :
    (ofList pairs).get? key = (pairs.reverse.find? (·.1 == key)).map (·.2) := by
  rw [ofList, get?_foldl_insert]
  cases (pairs.reverse.find? (·.1 == key)).map (·.2) <;> rfl

/-- A name that no pair has is no name of their map. -/
theorem get?_ofList_eq_none {pairs : List (String × α)} {key : String}
    (h : ∀ p ∈ pairs, p.1 ≠ key) : (ofList pairs).get? key = none := by
  have hf : pairs.reverse.find? (·.1 == key) = none := by
    rw [List.find?_eq_none]
    exact fun p hp => by simpa using h p (List.mem_reverse.1 hp)
  rw [get?_ofList, hf, Option.map_none]

/-- A name that one pair alone has goes by the value of that pair. -/
theorem get?_ofList_append {front back : List (String × α)} {key : String} {value : α}
    (h : ∀ p ∈ back, p.1 ≠ key) :
    (ofList (front ++ (key, value) :: back)).get? key = some value := by
  have hf : back.reverse.find? (·.1 == key) = none := by
    rw [List.find?_eq_none]
    exact fun p hp => by simpa using h p (List.mem_reverse.1 hp)
  simp [get?_ofList, hf]

theorem mem_values {m : OrderedMap α} {name : String} {value : α}
    (h : m.get? name = some value) : value ∈ m.values := by
  obtain ⟨front, back, he, -⟩ := List.lookup_eq_some_iff.1 h
  rw [values, he]
  simp

private theorem mem_insertEntry {name : String} {value : α} {entries : List (String × α)}
    {entry : String × α} (h : entry ∈ insertEntry name value entries) :
    entry = (name, value) ∨ entry ∈ entries := by
  induction entries with
  | nil => exact .inl (List.mem_singleton.1 h)
  | cons first rest ih =>
    unfold insertEntry at h
    split at h
    · rcases List.mem_cons.1 h with h | h
      · exact .inl h
      · exact .inr (List.mem_cons_of_mem _ h)
    · rcases List.mem_cons.1 h with rfl | h
      · exact .inr List.mem_cons_self
      · exact (ih h).imp_right (List.mem_cons_of_mem _)

private theorem mem_entries_foldl_insert {pairs : List (String × α)} {entry : String × α}
    (m : OrderedMap α)
    (h : entry ∈ (pairs.foldl (fun m (name, value) => m.insert name value) m).entries) :
    entry ∈ m.entries ∨ entry ∈ pairs := by
  induction pairs generalizing m with
  | nil => exact .inl h
  | cons pair rest ih =>
    rcases ih _ h with hm | hr
    · rcases mem_insertEntry hm with rfl | hm
      · exact .inr List.mem_cons_self
      · exact .inl hm
    · exact .inr (List.mem_cons_of_mem _ hr)

/-- A map that is built from pairs has no others. -/
theorem mem_of_mem_entries_ofList {pairs : List (String × α)} {entry : String × α}
    (h : entry ∈ (ofList pairs).entries) : entry ∈ pairs :=
  (mem_entries_foldl_insert {} h).resolve_left List.not_mem_nil

theorem mem_keys {m : OrderedMap α} {name : String} {value : α}
    (h : m.get? name = some value) : name ∈ m.keys := by
  obtain ⟨front, back, he, -⟩ := List.lookup_eq_some_iff.1 h
  rw [keys, he]
  simp

/-- No name occurs twice in a map that is built from pairs. -/
theorem nodup_keys_ofList (pairs : List (String × α)) : (ofList pairs).keys.Nodup := by
  have hfold : ∀ m : OrderedMap α, m.keys.Nodup →
      (pairs.foldl (fun m (name, value) => m.insert name value) m).keys.Nodup := by
    induction pairs with
    | nil => exact fun _ h => h
    | cons pair rest ih => exact fun m h => ih _ (nodup_keys_insert h pair.1 pair.2)
  exact hfold {} List.nodup_nil

theorem ofList_concat (pairs : List (String × α)) (pair : String × α) :
    ofList (pairs ++ [pair]) = (ofList pairs).insert pair.1 pair.2 := by
  unfold ofList
  rw [List.foldl_append]
  rfl

theorem eraseDups_concat (names : List String) (name : String) :
    (names ++ [name]).eraseDups =
      if name ∈ names then names.eraseDups else names.eraseDups ++ [name] := by
  rw [List.eraseDups_append]
  by_cases h : name ∈ names <;> simp [List.removeAll, List.eraseDups_cons, h]

/-- A map that is built from pairs has each of their names once, in the order in which they come
first. -/
theorem keys_ofList (pairs : List (String × α)) :
    (ofList pairs).keys = (pairs.map (·.1)).eraseDups := by
  induction pairs using List.reverseRecOn with
  | nil => rfl
  | append_singleton front pair ih =>
    rw [ofList_concat, keys_insert, ih, List.map_append, List.map_singleton, eraseDups_concat]
    simp only [List.mem_eraseDups]

theorem get?_of_mem_entries {m : OrderedMap α} (h : m.keys.Nodup) {name : String} {value : α}
    (hm : (name, value) ∈ m.entries) : m.get? name = some value := by
  obtain ⟨front, back, he⟩ := List.append_of_mem hm
  refine List.lookup_eq_some_iff.2 ⟨front, back, he, ?_⟩
  intro entry hentry
  rw [keys, he, List.map_append, List.nodup_append] at h
  have hne := h.2.2 entry.1 (List.mem_map.2 ⟨entry, hentry, rfl⟩) name (by simp)
  simpa using hne.symm

end JvmRoutes.OrderedMap
