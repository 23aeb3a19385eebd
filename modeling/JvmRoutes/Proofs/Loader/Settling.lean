import JvmRoutes.Loader.Basic
import JvmRoutes.Proofs.Loader.Hierarchy
import JvmRoutes.Proofs.Loader.Lookups
import JvmRoutes.Proofs.Loader.Source

/-!
What a loader keeps makes no difference to what is loaded. It holds nothing but answers of its
store, so an activity comes to the result that it has with a loader that holds nothing.
-/
namespace JvmRoutes

/-- A loader takes classes from a source, keeps them as the source gives them, and notes of
superclasses what those classes say. -/
structure Loader.Follows (source : ClassStore) (loader : Loader) : Prop where
  store : loader.store.unopened = source.unopened
  faithful : loader.store.IsFaithful
  loaded : ∀ name c, loader.loaded.get? name = some c → source.answer name = .ok (some c)
  links : ∀ link ∈ loader.hierarchy.links, source.Extends link.1 link.2

namespace Loader

variable {source : ClassStore} {loader : Loader}

theorem follows_fresh (h : source.IsFaithful) : Follows source { store := source } where
  store := rfl
  faithful := h
  loaded := nofun
  links := nofun

theorem Follows.answer_eq (h : Follows source loader) (name : String) :
    loader.store.answer name = source.answer name := by
  rw [← ClassStore.answer_unopened, h.store, ClassStore.answer_unopened]

theorem Follows.size_eq (h : Follows source loader) : loader.store.size = source.size := by
  rw [← ClassStore.size_unopened, h.store, ClassStore.size_unopened]

end Loader

namespace Loading

variable {α β : Type} {source : ClassStore} {x : Loading α} {f : α → Loading β}

/-- With every loader that follows a source, an activity has the same result, and the loader
follows the source afterwards. -/
def Settles (source : ClassStore) (x : Loading α) (r : Except Fault α) : Prop :=
  ∀ loader : Loader, loader.Follows source →
    (x loader).1.result = r ∧ (x loader).2.Follows source

/-- An activity has a result that no loader changes. -/
def IsSettled (source : ClassStore) (x : Loading α) : Prop := ∃ r, Settles source x r

theorem settles_ofTraced (x : Traced Fault α) : Settles source (ofTraced x) x.result :=
  fun _ h => ⟨rfl, h⟩

theorem settles_pure (a : α) : Settles source (pure a) (.ok a) := fun _ h => ⟨rfl, h⟩

theorem Settles.bind {a : α} {r : Except Fault β} (hx : Settles source x (.ok a))
    (hf : Settles source (f a) r) : Settles source (x >>= f) r := by
  intro loader h
  obtain ⟨hr, hn⟩ := hx loader h
  show (x.andThen f loader).1.result = r ∧ (x.andThen f loader).2.Follows source
  unfold andThen
  simp only [hr]
  exact hf _ hn

theorem Settles.bind_error {e : Fault} (hx : Settles source x (.error e)) :
    Settles source (x >>= f) (.error e) := by
  intro loader h
  obtain ⟨hr, hn⟩ := hx loader h
  show (x.andThen f loader).1.result = _ ∧ (x.andThen f loader).2.Follows source
  unfold andThen
  simp only [hr]
  exact ⟨trivial, hn⟩

/-- The results of two steps make up the result of both. -/
theorem Settles.andThen {r : Except Fault α} {g : α → Except Fault β}
    (hx : Settles source x r) (hf : ∀ a, Settles source (f a) (g a)) :
    Settles source (x >>= f) (r >>= g) := by
  cases r with
  | error e => exact hx.bind_error
  | ok a => exact hx.bind (hf a)

theorem Settles.attempt {r : Except Fault α} (hx : Settles source x r) :
    Settles source (attempt x) (.ok r) := by
  intro loader h
  obtain ⟨hr, hn⟩ := hx loader h
  exact ⟨congrArg Except.ok hr, hn⟩

theorem isSettled_pure (a : α) : IsSettled source (pure a) := ⟨_, settles_pure a⟩

theorem isSettled_ofTraced (x : Traced Fault α) : IsSettled source (ofTraced x) :=
  ⟨_, settles_ofTraced x⟩

theorem isSettled_fail (fault : Fault) : IsSettled source (fail fault : Loading α) :=
  isSettled_ofTraced _

theorem IsSettled.bind (hx : IsSettled source x) (hf : ∀ a, IsSettled source (f a)) :
    IsSettled source (x >>= f) := by
  obtain ⟨r, hr⟩ := hx
  cases r with
  | error e => exact ⟨.error e, hr.bind_error⟩
  | ok a =>
    obtain ⟨r, hf⟩ := hf a
    exact ⟨r, hr.bind hf⟩

theorem settles_fetch (name : String) : Settles source (fetch name) (source.answer name) := by
  intro loader h
  refine ⟨?_, ?_, ?_, h.loaded, h.links⟩
  · rw [← h.answer_eq]
    exact ClassStore.result_find h.faithful name
  · rw [← h.store]
    exact ClassStore.unopened_find loader.store name
  · exact ClassStore.isFaithful_find h.faithful name

theorem settles_keep {name : String} {c : Class} (hc : source.answer name = .ok (some c)) :
    Settles source (keep name c) (.ok ()) := by
  intro loader h
  refine ⟨rfl, h.store, h.faithful, ?_, h.links⟩
  intro other found hf
  have hg : (loader.loaded.insert name c).get? other = some found := hf
  rw [OrderedMap.get?_insert] at hg
  by_cases he : other = name
  · rw [if_pos he] at hg
    obtain rfl := Option.some.inj hg
    rw [he, hc]
  · rw [if_neg he] at hg
    exact h.loaded other found hg

/-- The fault of a class that is above itself. -/
def ClosesCycle (source : ClassStore) (name : String) (r : Except Fault α) : Prop :=
  Relation.TransGen source.Extends name name ∧
    ∃ superclass, r = .error (.cyclicHierarchy name superclass)

/-- A link is refused only where the source has a cycle. -/
theorem follows_link {name : String} {c : Class} (hc : source.answer name = .ok (some c))
    {loader : Loader} (h : loader.Follows source) :
    (outcome (link name (c.parent?.map TypeName.dotted)) loader).2.Follows source ∧
      ((outcome (link name (c.parent?.map TypeName.dotted)) loader).1 = .ok () ∨
        ClosesCycle source name
          (outcome (link name (c.parent?.map TypeName.dotted)) loader).1) := by
  have hl : ∀ l ∈ (loader.hierarchy.addNode name).links, source.Extends l.1 l.2 := by
    rw [Hierarchy.links_addNode]
    exact h.links
  cases hp : c.parent? with
  | none => exact ⟨⟨h.store, h.faithful, h.loaded, hl⟩, .inl rfl⟩
  | some spelled =>
    have he : source.Extends name (TypeName.dotted spelled) := ⟨c, spelled, hc, hp, rfl⟩
    unfold outcome link
    simp only [Option.map_some]
    split
    · rename_i hr
      have hw := Hierarchy.reflTransGen_of_leads hl (Bool.and_eq_true_iff.1 hr).2
      exact ⟨⟨h.store, h.faithful, h.loaded, hl⟩, .inr ⟨.head' he hw, _, rfl⟩⟩
    · refine ⟨⟨h.store, h.faithful, h.loaded, ?_⟩, .inl rfl⟩
      intro l hm
      rcases Hierarchy.mem_links_addLink hm with hm | rfl
      · exact hl l hm
      · exact he

theorem follows_load (name : String) {loader : Loader} (h : loader.Follows source) :
    (outcome (load name) loader).2.Follows source ∧
      ((outcome (load name) loader).1 = source.answer name ∨
        ClosesCycle source name (outcome (load name) loader).1) := by
  unfold load
  rw [outcome_log_bind]
  obtain ⟨hr, hn⟩ : (outcome (fetch name) loader).1 = source.answer name ∧
    (outcome (fetch name) loader).2.Follows source := settles_fetch name loader h
  rcases ho : outcome (fetch name) loader with ⟨r, next⟩
  rw [ho] at hr hn
  cases r with
  | error fault =>
    rw [outcome_bind_error ho]
    exact ⟨hn, .inl hr⟩
  | ok found =>
    rw [outcome_bind_ok ho]
    cases found with
    | none => exact ⟨hn, .inl hr⟩
    | some c =>
      obtain ⟨hlast, hlink | ⟨hcycle, superclass, hlink⟩⟩ := follows_link hr.symm hn
      · dsimp only
        rw [outcome_bind_ok (Prod.ext hlink rfl)]
        exact ⟨(settles_keep hr.symm _ hlast).2, .inl hr⟩
      · dsimp only
        rw [outcome_bind_error (Prod.ext hlink rfl)]
        exact ⟨hlast, .inr ⟨hcycle, superclass, rfl⟩⟩

/-- A class is found as the source has it, unless it is above itself there. -/
theorem follows_find (name : String) {loader : Loader} (h : loader.Follows source) :
    (outcome (find name) loader).2.Follows source ∧
      ((outcome (find name) loader).1 = source.answer (TypeName.dotted name) ∨
        ClosesCycle source (TypeName.dotted name) (outcome (find name) loader).1) := by
  unfold outcome
  cases hl : loader.loaded.get? (TypeName.dotted name) with
  | some c =>
    rw [find_of_loaded hl, h.loaded _ c hl]
    exact ⟨h, .inl rfl⟩
  | none =>
    rw [find_of_not_loaded hl]
    exact follows_load _ h

theorem settles_ask_bind {r : Except Fault β} {g : Loader → α}
    (hf : ∀ a, Settles source (f a) r) : Settles source (ask g >>= f) r := by
  intro loader h
  rw [ask_bind]
  exact hf (g loader) loader h

/-- A class is found as the source has it, whether it has been loaded or not. -/
theorem settles_find (ha : source.IsAcyclic) (name : String) :
    Settles source (find name) (source.answer (TypeName.dotted name)) := by
  intro loader h
  obtain ⟨hn, hr | hr⟩ := follows_find name h
  · exact ⟨hr, hn⟩
  · exact absurd hr.1 (ha _)

theorem isSettled_find (ha : source.IsAcyclic) (name : String) : IsSettled source (find name) :=
  ⟨_, settles_find ha name⟩

end Loading

def ClassStore.existing (source : ClassStore) (name : String) : Except Fault Class := do
  match ← source.answer (TypeName.dotted name) with
  | some c => return c
  | none => throw (.typeNotFound (TypeName.dotted name))

theorem Loading.settles_resolve {source : ClassStore} (ha : source.IsAcyclic) (name : String) :
    Settles source (resolve name) (source.existing name) := by
  refine (settles_find ha name).andThen fun found => ?_
  cases found with
  | none => exact settles_ofTraced _
  | some c => exact settles_pure c

end JvmRoutes
