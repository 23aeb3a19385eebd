import JvmRoutes.Proofs.Loader.Consistency

/-!
Ways up that a loader holds already. When a lineage has been found, all its classes are kept, so
that later walks up from the same class meet the same classes and change nothing.
-/
namespace JvmRoutes

/-- The name of the superclass, unless it is missing or that of a root type. -/
def Class.above? (rootTypes : List String) (c : Class) : Option String :=
  c.parent?.filter fun superclass => !rootTypes.contains (TypeName.dotted superclass)

namespace Loader

variable {loader next : Loader} {rootTypes : List String} {c : Class} {rest : List Class}

/-- Some classes are the whole way up from another one, and each of them is kept. -/
inductive Holds (loader : Loader) (rootTypes : List String) : Class → List Class → Prop
  | top {c : Class} (h : c.above? rootTypes = none) : Holds loader rootTypes c []
  | child {c d : Class} {superclass : String} {rest : List Class}
    (h : c.above? rootTypes = some superclass)
    (hd : loader.loaded.get? (TypeName.dotted superclass) = some d)
    (hrest : Holds loader rootTypes d rest) : Holds loader rootTypes c (d :: rest)

theorem Holds.grow (h : loader.Holds rootTypes c rest) (hg : loader.Grows next) :
    next.Holds rootTypes c rest := by
  induction h with
  | top h => exact .top h
  | child h hd _ ih => exact .child h (hg _ _ hd) ih

theorem Holds.exists_isChain (h : loader.Holds rootTypes c rest) (hc : loader.IsConsistent)
    {name : String} (hn : loader.loaded.get? name = some c) :
    ∃ names : List String, names.length = rest.length ∧
      List.IsChain loader.hierarchy.Links (name :: names) := by
  induction h generalizing name with
  | top => exact ⟨[], rfl, .singleton name⟩
  | @child c d superclass rest h hd _ ih =>
    obtain ⟨names, hlength, hchain⟩ := ih hd
    have hp := (Option.filter_eq_some_iff.1 h).1
    have hlink := (hc.links_iff name (TypeName.dotted superclass)).2 ⟨c, superclass, hn, hp, rfl⟩
    exact ⟨_ :: names, congrArg (· + 1) hlength, .cons_cons hlink hchain⟩

theorem IsConsistent.length_links_le (h : loader.IsConsistent) :
    loader.hierarchy.links.length ≤ loader.loaded.size := by
  have hsub : loader.hierarchy.links.map (·.1) ⊆ loader.loaded.keys := by
    intro name hm
    obtain ⟨⟨_, superclass⟩, hlink, rfl⟩ := List.mem_map.1 hm
    obtain ⟨c, -, hc, -⟩ := (h.links_iff _ superclass).1 hlink
    exact OrderedMap.mem_keys hc
  have hlength := h.nodup.length_le_of_subset hsub
  rwa [List.length_map, OrderedMap.keys, List.length_map] at hlength

theorem Holds.length_le (h : loader.Holds rootTypes c rest) (hc : loader.IsConsistent) :
    rest.length ≤ loader.loaded.size + 1 := by
  cases h with
  | top => exact Nat.zero_le _
  | child h hd hrest =>
    -- without a cycle the way is no longer than there are links, one for each kept class at most
    obtain ⟨names, hlength, hchain⟩ := hrest.exists_isChain hc hd
    have hway := hc.acyclic.length_le hchain
    have hlinks := hc.length_links_le
    rw [List.length_cons]
    omega

end Loader

namespace Loading

variable {α : Type} {loader next : Loader} {rootTypes : List String} {c d : Class}
  {rest classes : List Class}

theorem loaded_of_outcome_find {name : String}
    (h : outcome (find name) loader = (.ok (some c), next)) :
    next.loaded.get? (TypeName.dotted name) = some c := by
  rcases Loader.outcome_find_cases loader name with ⟨d, hd, ho⟩ | ⟨-, hloads⟩
  · rw [h] at ho
    obtain ⟨hr, rfl⟩ := Prod.mk.inj ho
    obtain rfl := Option.some.inj (Except.ok.inj hr)
    exact hd
  · rw [h] at hloads
    cases hloads with
    | root => rw [OrderedMap.get?_insert, if_pos rfl]
    | child => rw [OrderedMap.get?_insert, if_pos rfl]

theorem loaded_of_outcome_resolve {name : String}
    (h : outcome (resolve name) loader = (.ok c, next)) :
    next.loaded.get? (TypeName.dotted name) = some c := by
  unfold resolve at h
  obtain ⟨found, middle, hf, h⟩ := outcome_bind_eq_ok_iff.1 h
  cases found with
  | none => cases (Prod.mk.inj h).1
  | some d =>
    obtain ⟨hr, rfl⟩ := Prod.mk.inj h
    obtain rfl := Except.ok.inj hr
    exact loaded_of_outcome_find hf

theorem parent?_eq (c : Class) : parent? rootTypes c =
    match c.above? rootTypes with
    | none => pure none
    | some superclass => do return some (← resolve superclass) := by
  unfold parent? Class.above?
  cases c.parent? with
  | none => rfl
  | some superclass =>
    rw [Option.filter_some]
    cases hr : rootTypes.contains (TypeName.dotted superclass) <;> simp only [hr] <;> rfl

theorem outcome_parent_of_top (h : c.above? rootTypes = none) (loader : Loader) :
    outcome (parent? rootTypes c) loader = (.ok none, loader) := by
  rw [parent?_eq, h]
  exact outcome_pure none loader

theorem outcome_parent_of_loaded {superclass : String}
    (h : c.above? rootTypes = some superclass)
    (hd : loader.loaded.get? (TypeName.dotted superclass) = some d) :
    outcome (parent? rootTypes c) loader = (.ok (some d), loader) := by
  rw [parent?_eq, h]
  exact outcome_bind_ok (outcome_resolve_of_loaded hd)

theorem above_of_outcome_parent
    (h : outcome (parent? rootTypes c) loader = (.ok (some d), next)) :
    ∃ superclass, c.above? rootTypes = some superclass ∧
      next.loaded.get? (TypeName.dotted superclass) = some d := by
  rw [parent?_eq] at h
  cases ha : c.above? rootTypes with
  | none =>
    rw [ha] at h
    cases (Prod.mk.inj h).1
  | some superclass =>
    rw [ha] at h
    obtain ⟨e, middle, hr, h⟩ := outcome_bind_eq_ok_iff.1 h
    obtain ⟨hd, rfl⟩ := Prod.mk.inj h
    obtain rfl := Option.some.inj (Except.ok.inj hd)
    exact ⟨superclass, rfl, loaded_of_outcome_resolve hr⟩

theorem top_of_outcome_parent (h : outcome (parent? rootTypes c) loader = (.ok none, next)) :
    c.above? rootTypes = none := by
  rw [parent?_eq] at h
  cases ha : c.above? rootTypes with
  | none => rfl
  | some superclass =>
    rw [ha] at h
    obtain ⟨d, middle, -, h⟩ := outcome_bind_eq_ok_iff.1 h
    cases (Prod.mk.inj h).1

/-- A walk up along kept classes changes nothing, and meets all of them if it has room. -/
theorem outcome_ancestryWithin_of_holds (h : loader.Holds rootTypes c rest) {height : Nat}
    (hh : rest.length < height) :
    outcome (ancestryWithin rootTypes height c) loader =
      (.ok { classes := c :: rest }, loader) := by
  induction h generalizing height with
  | @top c h =>
    obtain ⟨height, rfl⟩ : ∃ n, height = n + 1 := ⟨height - 1, by omega⟩
    have hp := outcome_parent_of_top h loader
    have ha := outcome_attempt (parent? rootTypes c) loader
    rw [hp] at ha
    exact outcome_bind_ok ha
  | @child c d superclass rest h hd _ ih =>
    rw [List.length_cons] at hh
    obtain ⟨height, rfl⟩ : ∃ n, height = n + 1 := ⟨height - 1, by omega⟩
    have hp := outcome_parent_of_loaded h hd
    have ha := outcome_attempt (parent? rootTypes c) loader
    rw [hp] at ha
    have habove : outcome (ancestryWithin rootTypes height d) loader = _ := ih (by omega)
    exact (outcome_bind_ok ha).trans (outcome_bind_ok habove)

theorem outcome_lineage_of_holds (h : loader.Holds rootTypes c rest)
    (hc : loader.IsConsistent) :
    outcome (lineage rootTypes c) loader = (.ok (c :: rest), loader) := by
  have hroom := h.length_le hc
  have hway := outcome_ancestryWithin_of_holds h
    (show rest.length < loader.loaded.size + loader.store.size + 2 by omega)
  exact outcome_bind_ok hway

theorem outcome_searchAboveWithin_of_holds (h : loader.Holds rootTypes c rest)
    (f : Class → Option α) {height : Nat} (hh : rest.length < height) :
    outcome (searchAboveWithin rootTypes f height c) loader =
      (.ok (rest.findSome? f), loader) := by
  induction h generalizing height with
  | top h =>
    obtain ⟨height, rfl⟩ : ∃ n, height = n + 1 := ⟨height - 1, by omega⟩
    exact outcome_bind_ok (outcome_parent_of_top h loader)
  | @child c d superclass rest h hd _ ih =>
    rw [List.length_cons] at hh
    obtain ⟨height, rfl⟩ : ∃ n, height = n + 1 := ⟨height - 1, by omega⟩
    unfold searchAboveWithin
    rw [outcome_bind_ok (outcome_parent_of_loaded h hd), List.findSome?_cons]
    cases hf : f d with
    | some a => simp only [hf, outcome_pure]
    | none =>
      simp only [hf]
      exact ih (by omega)

theorem outcome_searchAbove_of_holds (h : loader.Holds rootTypes c rest)
    (hc : loader.IsConsistent) (f : Class → Option α) :
    outcome (searchAbove rootTypes f c) loader = (.ok (rest.findSome? f), loader) := by
  have hroom := h.length_le hc
  exact outcome_searchAboveWithin_of_holds h f
    (show rest.length < loader.loaded.size + loader.store.size + 2 by omega)

theorem holds_of_outcome_ancestryWithin {height : Nat} {way : Ancestry}
    (hc : loader.IsConsistent)
    (h : outcome (ancestryWithin rootTypes height c) loader = (.ok way, next))
    (hf : way.fault = none) :
    ∃ rest, way.classes = c :: rest ∧ next.Holds rootTypes c rest := by
  induction height generalizing loader c way with
  | zero =>
    obtain rfl := Except.ok.inj (Prod.mk.inj h).1
    cases hf
  | succ height ih =>
    obtain ⟨r, middle, ha, h⟩ := outcome_bind_eq_ok_iff.1 h
    have hp : outcome (parent? rootTypes c) loader = (r, middle) := by
      rw [outcome_attempt] at ha
      obtain ⟨hr, hl⟩ := Prod.mk.inj ha
      exact Prod.ext (Except.ok.inj hr) hl
    match r, hp, h with
    | .error fault, _, h =>
      obtain rfl := Except.ok.inj (Prod.mk.inj h).1
      cases hf
    | .ok none, hp, h =>
      obtain ⟨hr, rfl⟩ := Prod.mk.inj h
      obtain rfl := Except.ok.inj hr
      exact ⟨[], rfl, .top (top_of_outcome_parent hp)⟩
    | .ok (some d), hp, h =>
      obtain ⟨superclass, habove, hd⟩ := above_of_outcome_parent hp
      obtain ⟨above, last, hw, h⟩ := outcome_bind_eq_ok_iff.1 h
      obtain ⟨hr, rfl⟩ := Prod.mk.inj h
      obtain rfl := Except.ok.inj hr
      -- the rest of the walk starts from what the step has left, and keeps the class above
      have hmiddle := (hc.after (onlyFinds_parent c) hp).1
      obtain ⟨rest, hclasses, hrest⟩ := ih hmiddle hw hf
      have hgrows := (hmiddle.after (onlyFinds_ancestryWithin height d) hw).2
      exact ⟨d :: rest, by rw [hclasses], .child habove (hgrows _ _ hd) hrest⟩

/-- When a lineage has been found, the loader holds it. -/
theorem holds_of_outcome_lineage (hc : loader.IsConsistent)
    (h : outcome (lineage rootTypes c) loader = (.ok classes, next)) :
    ∃ rest, classes = c :: rest ∧ next.Holds rootTypes c rest := by
  obtain ⟨way, middle, hw, h⟩ := outcome_bind_eq_ok_iff.1 h
  cases hf : way.fault with
  | some fault =>
    simp only [hf] at h
    cases (Prod.mk.inj h).1
  | none =>
    simp only [hf] at h
    obtain ⟨hr, rfl⟩ := Prod.mk.inj h
    obtain rfl := Except.ok.inj hr
    have hwithin : outcome (ancestryWithin rootTypes
        (loader.loaded.size + loader.store.size + 2) c) loader = (.ok way, middle) := hw
    exact holds_of_outcome_ancestryWithin hc hwithin hf

end Loading

end JvmRoutes
