import JvmRoutes.Proofs.Loader.WayUp

/-!
Walks up from any class with any loader that calls have led to, also where its store has been
exchanged meanwhile. What is kept after some lookups has been kept before or is of the store, so
that there are not enough classes for a walk without an end.
-/
namespace JvmRoutes

namespace Loader

variable {loader next last : Loader} {name : String} {c : Class} {rest : List Class}
  {rootTypes : List String}

/-- What one loader keeps, another one has kept before or its store has. -/
structure Draws (loader next : Loader) : Prop where
  unopened : next.store.unopened = loader.store.unopened
  faithful : next.store.IsFaithful
  loaded : ∀ name c, next.loaded.get? name = some c →
    loader.loaded.get? name = some c ∨ loader.store.answer name = .ok (some c)

theorem draws_refl (h : loader.store.IsFaithful) : loader.Draws loader := ⟨rfl, h, fun _ _ => .inl⟩

theorem Draws.trans (h : loader.Draws next) (h' : next.Draws last) : loader.Draws last where
  unopened := h'.unopened.trans h.unopened
  faithful := h'.faithful
  loaded name c hc := by
    have hanswer : next.store.answer name = loader.store.answer name := by
      rw [← ClassStore.answer_unopened, h.unopened, ClassStore.answer_unopened]
    rcases h'.loaded name c hc with hn | hn
    · exact h.loaded name c hn
    · exact .inr (hanswer ▸ hn)

theorem draws_fetch (h : loader.store.IsFaithful) (name : String) :
    loader.Draws (Loading.fetch name loader).2 where
  unopened := ClassStore.unopened_find loader.store name
  faithful := ClassStore.isFaithful_find h name
  loaded _ _ := .inl

theorem link_eq (name : String) (superclass : Option String) (loader : Loader) :
    ∃ hierarchy, (Loading.link name superclass loader).2 = { loader with hierarchy } := by
  cases superclass with
  | none => exact ⟨_, rfl⟩
  | some superclass =>
    unfold Loading.link
    dsimp only
    split <;> exact ⟨_, rfl⟩

theorem Draws.link (h : loader.Draws next) (name : String) (superclass : Option String) :
    loader.Draws (Loading.link name superclass next).2 := by
  obtain ⟨hierarchy, he⟩ := link_eq name superclass next
  rw [he]
  exact ⟨h.unopened, h.faithful, h.loaded⟩

theorem Draws.keep (h : loader.Draws next) (hc : loader.store.answer name = .ok (some c)) :
    loader.Draws (Loading.keep name c next).2 where
  unopened := h.unopened
  faithful := h.faithful
  loaded other d hd := by
    have hget : (next.loaded.insert name c).get? other = some d := hd
    rw [OrderedMap.get?_insert] at hget
    by_cases he : other = name
    · rw [if_pos he] at hget
      have hcd : c = d := Option.some.inj hget
      exact .inr (he ▸ hcd ▸ hc)
    · rw [if_neg he] at hget
      exact h.loaded other d hget

theorem draws_load (h : loader.store.IsFaithful) (name : String) :
    loader.Draws (Loading.outcome (Loading.load name) loader).2 := by
  have hfetched := draws_fetch h name
  have hanswer : (Loading.outcome (Loading.fetch name) loader).1 = loader.store.answer name :=
    ClassStore.result_find h name
  unfold Loading.load
  rw [Loading.outcome_log_bind]
  rcases ho : Loading.outcome (Loading.fetch name) loader with ⟨r, fetched⟩
  obtain rfl : fetched = (Loading.fetch name loader).2 := (congrArg Prod.snd ho).symm
  rw [ho] at hanswer
  match r, ho with
  | .error fault, ho =>
    rw [Loading.outcome_bind_error ho]
    exact hfetched
  | .ok none, ho =>
    rw [Loading.outcome_bind_ok ho]
    exact hfetched
  | .ok (some c), ho =>
    rw [Loading.outcome_bind_ok ho]
    -- linking changes nothing but the hierarchy, also where it fails
    have hlinked := hfetched.link name (c.parent?.map TypeName.dotted)
    dsimp only
    rcases hl : Loading.outcome (Loading.link name (c.parent?.map TypeName.dotted))
      (Loading.fetch name loader).2 with ⟨r, linked⟩
    obtain rfl : linked = _ := (congrArg Prod.snd hl).symm
    cases r with
    | error fault =>
      rw [Loading.outcome_bind_error hl]
      exact hlinked
    | ok _ =>
      rw [Loading.outcome_bind_ok hl]
      exact hlinked.keep hanswer.symm

theorem draws_find (h : loader.store.IsFaithful) (name : String) :
    loader.Draws (Loading.find name loader).2 := by
  cases hl : loader.loaded.get? (TypeName.dotted name) with
  | some c =>
    rw [Loading.find_of_loaded hl]
    exact draws_refl h
  | none =>
    rw [Loading.find_of_not_loaded hl]
    exact draws_load h _

theorem draws_afterFinds (h : loader.store.IsFaithful) (names : List String) :
    loader.Draws (loader.afterFinds names) := by
  induction names generalizing loader with
  | nil => exact draws_refl h
  | cons name rest ih =>
    have hfirst := draws_find h name
    exact hfirst.trans (ih hfirst.faithful)

/-- The classes that a loader keeps or can come to keep. -/
def reserve (loader : Loader) : List Class := loader.loaded.values ++ loader.store.candidates

theorem length_reserve (loader : Loader) :
    loader.reserve.length ≤ loader.loaded.size + loader.store.size := by
  have hstore := ClassStore.length_candidates loader.store
  unfold reserve OrderedMap.size OrderedMap.values
  rw [List.length_append, List.length_map]
  omega

theorem Draws.mem_reserve (h : loader.Draws next) (hc : next.loaded.get? name = some c) :
    c ∈ loader.reserve := by
  rcases h.loaded name c hc with hl | ha
  · exact List.mem_append_left _ (OrderedMap.mem_values hl)
  · exact List.mem_append_right _ (ClassStore.mem_candidates ha)

theorem Climbs.subset_reserve (h : next.Climbs rootTypes c rest) (hd : loader.Draws next) :
    rest ⊆ loader.reserve := by
  induction h with
  | here c => exact List.nil_subset _
  | up _ hkept _ ih => exact List.cons_subset.2 ⟨hd.mem_reserve hkept, ih⟩

/-- The classes above another one are no more than the loader can come to keep. -/
theorem Climbs.length_le_reserve (h : next.Climbs rootTypes c rest) (hn : next.IsConsistent)
    (hd : loader.Draws next) : rest.length ≤ loader.loaded.size + loader.store.size := by
  have hnodup : rest.Nodup := by
    cases h with
    | here c => exact List.nodup_nil
    | up _ hkept hrest => exact hrest.nodup hn hkept
  have hlength := hnodup.length_le_of_subset (h.subset_reserve hd)
  exact Nat.le_trans hlength (length_reserve loader)

end Loader

namespace Loading

variable {loader next : Loader} {rootTypes : List String} {c : Class} {way : Ancestry}

/-- A walk up from any class ends. -/
theorem exists_walks_of_isFaithful (rootTypes : List String) (hl : loader.IsConsistent)
    (hs : loader.store.IsFaithful) (c : Class) :
    ∃ way next, Walks rootTypes c loader way next := by
  rcases walks_or_climbs hl c (loader.loaded.size + loader.store.size + 1) with
    h | ⟨rest, names, hlength, h⟩
  · exact h
  · have hle := h.length_le_reserve (hl.afterFinds names).1 (Loader.draws_afterFinds hs names)
    omega

theorem Walks.exists_names (h : Walks rootTypes c loader way next) :
    ∃ names, next = loader.afterFinds names := by
  induction h with
  | failed h => exact (onlyFinds_parent _).exists_eq h
  | top h => exact (onlyFinds_parent _).exists_eq h
  | child h _ ih =>
    obtain ⟨front, rfl⟩ := (onlyFinds_parent _).exists_eq h
    obtain ⟨back, rfl⟩ := ih
    exact ⟨front ++ back, (Loader.afterFinds_append _ front back).symm⟩

/-- The room that a walk is given is enough. -/
theorem Walks.length_le (h : Walks rootTypes c loader way next) (hl : loader.IsConsistent)
    (hs : loader.store.IsFaithful) :
    way.classes.length ≤ loader.loaded.size + loader.store.size + 1 := by
  obtain ⟨rest, hclasses, hclimbs, hn, -⟩ := h.exists_climbs hl
  obtain ⟨names, rfl⟩ := h.exists_names
  have hle := hclimbs.length_le_reserve hn (Loader.draws_afterFinds hs names)
  rw [hclasses, List.length_cons]
  omega

theorem Walks.outcome_ancestry (h : Walks rootTypes c loader way next) (hl : loader.IsConsistent)
    (hs : loader.store.IsFaithful) :
    outcome (ancestry rootTypes c) loader = (.ok way, next) := by
  have hroom := h.length_le hl hs
  unfold ancestry height
  rw [outcome_ask_bind]
  exact h.outcome_ancestryWithin (by omega)

end Loading

/-- Whether a store that the loader is given has what has been opened of it. -/
def LoaderCall.IsFaithful : LoaderCall → Prop
  | exchange store => store.IsFaithful
  | _ => True

namespace Loader

variable {loader : Loader}

theorem isFaithful_after {α : Type} {x : Loading α} (h : loader.store.IsFaithful)
    (hx : Loading.OnlyFinds x) : (x loader).2.store.IsFaithful := by
  obtain ⟨names, hn⟩ := hx loader
  have hlast : (x loader).2 = loader.afterFinds names := hn
  rw [hlast]
  exact (draws_afterFinds h names).faithful

theorem isFaithful_afterCall (h : loader.store.IsFaithful) {call : LoaderCall}
    (hc : call.IsFaithful) : (call.after loader).store.IsFaithful := by
  cases call with
  | find name => exact isFaithful_after h (Loading.onlyFinds_find name)
  | resolve name => exact isFaithful_after h (Loading.onlyFinds_resolve name)
  | contains name => exact h
  | ancestry rootTypes c => exact isFaithful_after h (Loading.onlyFinds_ancestry c)
  | ancestryWithin rootTypes steps c =>
    exact isFaithful_after h (Loading.onlyFinds_ancestryWithin steps c)
  | exchange store => exact hc

theorem isFaithful_afterCalls (h : loader.store.IsFaithful) {calls : List LoaderCall}
    (hc : ∀ call ∈ calls, call.IsFaithful) : (loader.afterCalls calls).store.IsFaithful := by
  induction calls generalizing loader with
  | nil => exact h
  | cons call rest ih =>
    obtain ⟨hcall, hrest⟩ := List.forall_mem_cons.1 hc
    exact ih (isFaithful_afterCall h hcall) hrest

end Loader

end JvmRoutes
