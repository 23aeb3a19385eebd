import JvmRoutes.Loader.Ancestry
import Mathlib.Tactic.Common

/-!
What an activity comes to and what it leaves behind, whatever messages it writes. All that an
activity leaves behind, a row of lookups could have left.
-/
namespace JvmRoutes

namespace Loading

variable {α β : Type} {x : Loading α} {f : α → Loading β} {loader next last : Loader}

/-- The result or the failure of an activity, and the loader afterwards. -/
def outcome (x : Loading α) (loader : Loader) : Except Fault α × Loader :=
  ((x loader).1.result, (x loader).2)

theorem outcome_pure (a : α) (loader : Loader) :
    outcome (pure a) loader = (.ok a, loader) := rfl

theorem outcome_ofTraced (x : Traced Fault α) (loader : Loader) :
    outcome (ofTraced x) loader = (x.result, loader) := rfl

theorem outcome_attempt (x : Loading α) (loader : Loader) :
    outcome (attempt x) loader = (.ok (outcome x loader).1, (outcome x loader).2) := rfl

theorem outcome_bind_ok {a : α} (h : outcome x loader = (.ok a, next)) :
    outcome (x >>= f) loader = outcome (f a) next := by
  obtain ⟨hr, hl⟩ := Prod.mk.inj h
  show ((x.andThen f loader).1.result, (x.andThen f loader).2) = _
  unfold andThen
  simp only [hr, hl]
  rfl

theorem outcome_bind_error {e : Fault} (h : outcome x loader = (.error e, next)) :
    outcome (x >>= f) loader = (.error e, next) := by
  obtain ⟨hr, hl⟩ := Prod.mk.inj h
  show ((x.andThen f loader).1.result, (x.andThen f loader).2) = _
  unfold andThen
  simp only [hr, hl]

/-- A sequence succeeds exactly when both of its steps do. -/
theorem outcome_bind_eq_ok_iff {b : β} : outcome (x >>= f) loader = (.ok b, last) ↔
    ∃ a next, outcome x loader = (.ok a, next) ∧ outcome (f a) next = (.ok b, last) := by
  constructor
  · intro h
    rcases hx : outcome x loader with ⟨r, next⟩
    cases r with
    | error e =>
      rw [outcome_bind_error hx] at h
      cases h
    | ok a =>
      rw [outcome_bind_ok hx] at h
      exact ⟨a, next, rfl, h⟩
  · rintro ⟨a, next, hx, hf⟩
    rw [outcome_bind_ok hx, hf]

theorem outcome_map_ok {a : α} (h : outcome x loader = (.ok a, next)) (g : α → β) :
    outcome (g <$> x) loader = (.ok (g a), next) := by
  rw [map_eq_pure_bind, outcome_bind_ok h, outcome_pure]

theorem outcome_log_bind (level : Level) (text : String) (f : Unit → Loading β)
    (loader : Loader) : outcome (log level text >>= f) loader = outcome (f ()) loader :=
  outcome_bind_ok (outcome_ofTraced _ loader)

theorem outcome_ask_bind (g : Loader → α) (f : α → Loading β) (loader : Loader) :
    outcome (ask g >>= f) loader = outcome (f (g loader)) loader := rfl

theorem ask_bind (g : Loader → α) (f : α → Loading β) (loader : Loader) :
    (ask g >>= f) loader = f (g loader) loader := rfl

theorem find_of_loaded {name : String} {c : Class}
    (h : loader.loaded.get? (TypeName.dotted name) = some c) :
    find name loader = (pure (some c), loader) := by
  unfold find
  rw [ask_bind, h]
  rfl

theorem find_of_not_loaded {name : String}
    (h : loader.loaded.get? (TypeName.dotted name) = none) :
    find name loader = load (TypeName.dotted name) loader := by
  unfold find
  rw [ask_bind, h]

theorem outcome_resolve_of_loaded {name : String} {c : Class}
    (h : loader.loaded.get? (TypeName.dotted name) = some c) :
    outcome (resolve name) loader = (.ok c, loader) := by
  unfold resolve
  have hf : outcome (find name) loader = (.ok (some c), loader) := by
    unfold outcome
    rw [find_of_loaded h]
    rfl
  exact outcome_bind_ok hf

end Loading

namespace Loader

variable {loader : Loader} {name : String} {c : Class}

/-- What loading a class by its name with dots can come to. A class is kept only after its link to
its superclass, and of a class with a link that would close a cycle only the name is noted. -/
inductive Loads (loader : Loader) (name : String) : Except Fault (Option Class) × Loader → Prop
  | failed (store : ClassStore) (fault : Fault) :
    Loads loader name (.error fault, { loader with store })
  | missing (store : ClassStore) : Loads loader name (.ok none, { loader with store })
  | cyclic (store : ClassStore) (superclass : String)
    (hr : (loader.hierarchy.addNode name).reaches superclass name = true) :
    Loads loader name (.error (.cyclicHierarchy name superclass),
      { loader with store, hierarchy := loader.hierarchy.addNode name })
  | root (store : ClassStore) {c : Class} (hp : c.parent? = none) :
    Loads loader name (.ok (some c),
      { store, hierarchy := loader.hierarchy.addNode name, loaded := loader.loaded.insert name c })
  | child (store : ClassStore) {c : Class} {spelled : String} (hp : c.parent? = some spelled)
    (hr : ¬ (TypeName.dotted spelled ∈ (loader.hierarchy.addNode name).nodes ∧
      (loader.hierarchy.addNode name).reaches (TypeName.dotted spelled) name = true)) :
    Loads loader name (.ok (some c),
      { store
        hierarchy := (loader.hierarchy.addNode name).addLink name (TypeName.dotted spelled)
        loaded := loader.loaded.insert name c })

theorem loads_link_keep (store : ClassStore) (c : Class) :
    Loads loader name (Loading.outcome (do
      Loading.link name (c.parent?.map TypeName.dotted)
      Loading.keep name c
      return some c) { loader with store }) := by
  cases hp : c.parent? with
  | none => exact .root store hp
  | some spelled =>
    by_cases hr : TypeName.dotted spelled ∈ (loader.hierarchy.addNode name).nodes ∧
        (loader.hierarchy.addNode name).reaches (TypeName.dotted spelled) name = true
    · have hlink : Loading.outcome (Loading.link name (some (TypeName.dotted spelled)))
          { loader with store } = (.error (.cyclicHierarchy name (TypeName.dotted spelled)),
            { loader with store, hierarchy := loader.hierarchy.addNode name }) := by
        simp [Loading.outcome, Loading.link, hr, Traced.ofExcept]
      rw [Option.map_some, Loading.outcome_bind_error hlink]
      exact .cyclic store _ hr.2
    · have hlink : Loading.outcome (Loading.link name (some (TypeName.dotted spelled)))
          { loader with store } = (.ok (),
            { loader with
              store
              hierarchy := (loader.hierarchy.addNode name).addLink name
                (TypeName.dotted spelled) }) := by
        simp [Loading.outcome, Loading.link, hr, pure, Traced.ofExcept]
      rw [Option.map_some, Loading.outcome_bind_ok hlink]
      exact .child store hp hr

theorem loads_load (loader : Loader) (name : String) :
    Loads loader name (Loading.outcome (Loading.load name) loader) := by
  unfold Loading.load
  have hfetch : Loading.outcome (Loading.fetch name) loader =
      ((loader.store.find name).1.result, { loader with store := (loader.store.find name).2 }) :=
    rfl
  have hlog : Loading.outcome (Loading.log .debug ("Loading class " ++ name)) loader =
      (.ok (), loader) := rfl
  rw [Loading.outcome_bind_ok hlog]
  cases hf : (loader.store.find name).1.result with
  | error fault =>
    rw [hf] at hfetch
    rw [Loading.outcome_bind_error hfetch]
    exact .failed _ fault
  | ok found =>
    rw [hf] at hfetch
    rw [Loading.outcome_bind_ok hfetch]
    cases found with
    | none => exact .missing _
    | some c => exact loads_link_keep _ c

/-- A lookup leaves the loader alone, or loads the class. -/
theorem outcome_find_cases (loader : Loader) (name : String) :
    (∃ c, loader.loaded.get? (TypeName.dotted name) = some c ∧
      Loading.outcome (Loading.find name) loader = (.ok (some c), loader)) ∨
    loader.loaded.get? (TypeName.dotted name) = none ∧
      Loads loader (TypeName.dotted name) (Loading.outcome (Loading.find name) loader) := by
  cases hl : loader.loaded.get? (TypeName.dotted name) with
  | some c =>
    refine .inl ⟨c, rfl, ?_⟩
    unfold Loading.outcome
    rw [Loading.find_of_loaded hl]
    rfl
  | none =>
    refine .inr ⟨rfl, ?_⟩
    have hf := loads_load loader (TypeName.dotted name)
    unfold Loading.outcome at hf ⊢
    rwa [Loading.find_of_not_loaded hl]

/-- A lookup keeps the class that it has found, and nothing else. -/
theorem get?_loaded_of_find {last : Loader} {found : Option Class}
    (h : Loading.outcome (Loading.find name) loader = (.ok found, last)) (key : String) :
    last.loaded.get? key = some c ↔ loader.loaded.get? key = some c ∨
      TypeName.dotted name = key ∧ found = some c := by
  obtain ⟨kept, hk, ho⟩ | ⟨hn, hl⟩ := outcome_find_cases loader name
  · obtain ⟨rfl, rfl⟩ : kept = found ∧ loader = last := by simpa [h] using ho.symm
    grind
  · rw [h] at hl
    cases hl with
    | missing => simp
    | root => grind [OrderedMap.get?_insert]
    | child => grind [OrderedMap.get?_insert]

/-- The loader after classes have been looked for, whether they have been found or not. -/
def afterFinds (loader : Loader) (names : List String) : Loader :=
  names.foldl (fun loader name => (Loading.find name loader).2) loader

theorem afterFinds_append (loader : Loader) (front back : List String) :
    loader.afterFinds (front ++ back) = (loader.afterFinds front).afterFinds back :=
  List.foldl_append

end Loader

namespace Loading

variable {α β : Type} {x : Loading α} {f : α → Loading β}

/-- What the activity leaves behind, a row of lookups could have left. -/
def OnlyFinds (x : Loading α) : Prop :=
  ∀ loader, ∃ names, (outcome x loader).2 = loader.afterFinds names

theorem OnlyFinds.exists_eq (hx : OnlyFinds x) {loader next : Loader} {r : Except Fault α}
    (ho : outcome x loader = (r, next)) : ∃ names, next = loader.afterFinds names := by
  obtain ⟨names, hnext⟩ := hx loader
  rw [ho] at hnext
  exact ⟨names, hnext⟩

theorem onlyFinds_ofTraced (x : Traced Fault α) : OnlyFinds (ofTraced x) := fun _ => ⟨[], rfl⟩

theorem onlyFinds_pure (a : α) : OnlyFinds (pure a : Loading α) := fun _ => ⟨[], rfl⟩

theorem onlyFinds_ask (g : Loader → α) : OnlyFinds (ask g) := fun _ => ⟨[], rfl⟩

theorem onlyFinds_find (name : String) : OnlyFinds (find name) := fun _ => ⟨[name], rfl⟩

theorem OnlyFinds.attempt (hx : OnlyFinds x) : OnlyFinds (attempt x) := hx

theorem OnlyFinds.bind (hx : OnlyFinds x) (hf : ∀ a, OnlyFinds (f a)) :
    OnlyFinds (x >>= f) := by
  intro loader
  rcases ho : outcome x loader with ⟨r, next⟩
  obtain ⟨front, rfl⟩ := hx.exists_eq ho
  cases r with
  | error e => exact ⟨front, by rw [outcome_bind_error ho]⟩
  | ok a =>
    obtain ⟨back, hback⟩ := hf a (loader.afterFinds front)
    refine ⟨front ++ back, ?_⟩
    rw [outcome_bind_ok ho, hback, Loader.afterFinds_append]

theorem onlyFinds_resolve (name : String) : OnlyFinds (resolve name) := by
  refine (onlyFinds_find name).bind fun found => ?_
  cases found with
  | none => exact onlyFinds_ofTraced _
  | some c => exact onlyFinds_pure c

variable {rootTypes : List String}

theorem onlyFinds_parent (c : Class) : OnlyFinds (parent? rootTypes c) := by
  unfold parent?
  cases c.parent? with
  | none => exact onlyFinds_pure none
  | some superclass =>
    dsimp only
    split
    · exact onlyFinds_pure none
    · exact (onlyFinds_resolve superclass).bind fun _ => onlyFinds_pure _

theorem onlyFinds_ancestryWithin (height : Nat) (c : Class) :
    OnlyFinds (ancestryWithin rootTypes height c) := by
  induction height generalizing c with
  | zero => exact onlyFinds_pure _
  | succ height ih =>
    refine (onlyFinds_parent c).attempt.bind fun r => ?_
    match r with
    | .error fault => exact onlyFinds_pure _
    | .ok none => exact onlyFinds_pure _
    | .ok (some parent) => exact (ih parent).bind fun _ => onlyFinds_pure _

theorem onlyFinds_ancestry (c : Class) : OnlyFinds (ancestry rootTypes c) :=
  (onlyFinds_ask _).bind fun _ => onlyFinds_ancestryWithin _ c

theorem onlyFinds_lineage (c : Class) : OnlyFinds (lineage rootTypes c) := by
  refine (onlyFinds_ancestry c).bind fun way => ?_
  cases way.fault with
  | none => exact onlyFinds_pure _
  | some fault => exact onlyFinds_ofTraced _

theorem onlyFinds_searchAboveWithin (g : Class → Option α) (height : Nat) (c : Class) :
    OnlyFinds (searchAboveWithin rootTypes g height c) := by
  induction height generalizing c with
  | zero => exact onlyFinds_ofTraced _
  | succ height ih =>
    refine (onlyFinds_parent c).bind fun parent => ?_
    cases parent with
    | none => exact onlyFinds_pure none
    | some parent =>
      cases hg : g parent with
      | some a =>
        simp only [hg]
        exact onlyFinds_pure (some a)
      | none =>
        simp only [hg]
        exact ih parent

theorem onlyFinds_searchAbove (g : Class → Option α) (c : Class) :
    OnlyFinds (searchAbove rootTypes g c) :=
  (onlyFinds_ask _).bind fun _ => onlyFinds_searchAboveWithin g _ c

end Loading

end JvmRoutes
