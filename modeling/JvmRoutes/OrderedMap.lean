/-! Maps from names to values that remember the order in which names came first. -/
namespace JvmRoutes

/-- Entries in the order of their names' first insertion. -/
structure OrderedMap (α : Type u) where
  entries : List (String × α) := []
  deriving Repr, BEq, DecidableEq

namespace OrderedMap

variable {α : Type u} {β : Type v}

/-- Gives a name a value: in its old place, or at the end when it is new. -/
def insertEntry (name : String) (value : α) : List (String × α) → List (String × α)
  | [] => [(name, value)]
  | (key, old) :: rest =>
    if key = name then (name, value) :: rest else (key, old) :: insertEntry name value rest

def insert (m : OrderedMap α) (name : String) (value : α) : OrderedMap α :=
  ⟨insertEntry name value m.entries⟩

def get? (m : OrderedMap α) (name : String) : Option α := m.entries.lookup name

def contains (m : OrderedMap α) (name : String) : Bool := (m.get? name).isSome

def keys (m : OrderedMap α) : List String := m.entries.map (·.1)

def values (m : OrderedMap α) : List α := m.entries.map (·.2)

def size (m : OrderedMap α) : Nat := m.entries.length

/-- The map that inserting pairs one after another leads to. -/
def ofList (pairs : List (String × α)) : OrderedMap α :=
  pairs.foldl (fun m (name, value) => m.insert name value) {}

def map (f : α → β) (m : OrderedMap α) : OrderedMap β := ⟨m.entries.map fun (k, v) => (k, f v)⟩

/-- How often each name occurs, in the order of first occurrence. -/
def tally (names : List String) : OrderedMap Nat :=
  names.foldl (fun m name => m.insert name ((m.get? name).getD 0 + 1)) {}

theorem keys_insertEntry (name : String) (value : α) (entries : List (String × α)) :
    (insertEntry name value entries).map (·.1) =
      if name ∈ entries.map (·.1) then entries.map (·.1) else entries.map (·.1) ++ [name] := by
  induction entries with
  | nil => rfl
  | cons entry rest ih =>
    obtain ⟨key, old⟩ := entry
    by_cases h : key = name
    · simp [insertEntry, h]
    · have hn : name ≠ key := fun e => h e.symm
      simp only [insertEntry, h, if_false, List.map_cons, ih, List.mem_cons, hn, false_or]
      split <;> simp

theorem lookup_entry (name key : String) (value : α) (rest : List (String × α)) :
    List.lookup key ((name, value) :: rest) =
      if key = name then some value else rest.lookup key := by
  by_cases h : key = name
  · subst h
    rw [List.lookup_cons_self, if_pos rfl]
  · rw [if_neg h, List.lookup_cons, beq_eq_false_iff_ne.2 h]

theorem lookup_insertEntry (name key : String) (value : α) (entries : List (String × α)) :
    (insertEntry name value entries).lookup key =
      if key = name then some value else entries.lookup key := by
  induction entries with
  | nil => exact lookup_entry name key value []
  | cons entry rest ih =>
    obtain ⟨k, old⟩ := entry
    by_cases hk : k = name
    · subst hk
      simp only [insertEntry, if_true, lookup_entry]
      split <;> rfl
    · simp only [insertEntry, hk, if_false, lookup_entry, ih]
      by_cases h : key = name
      · subst h
        simp only [if_true, if_neg (Ne.symm hk)]
      · simp only [h, if_false]

/-- A new name goes to the end, and an old one stays where it is. -/
theorem keys_insert (m : OrderedMap α) (name : String) (value : α) :
    (m.insert name value).keys = if name ∈ m.keys then m.keys else m.keys ++ [name] :=
  keys_insertEntry name value m.entries

theorem get?_insert (m : OrderedMap α) (name key : String) (value : α) :
    (m.insert name value).get? key = if key = name then some value else m.get? key :=
  lookup_insertEntry name key value m.entries

/-- No name occurs twice in a map that has been built by inserting. -/
theorem nodup_keys_insert {m : OrderedMap α} (h : m.keys.Nodup) (name : String) (value : α) :
    (m.insert name value).keys.Nodup := by
  rw [keys_insert]
  split
  · exact h
  · rename_i hn
    refine List.nodup_append.2 ⟨h, by simp, fun a ha b hb e => hn ?_⟩
    rwa [← List.mem_singleton.1 hb, ← e]

end OrderedMap

end JvmRoutes
