import JvmRoutes.Proofs.Loader.Consistency

/-!
What a lookup that fails leaves behind. The kept classes and the links stay as they were, and so do
the names of the hierarchy, unless the store has a class that is its own superclass: its name stays
in the hierarchy although the class is refused.
-/
namespace JvmRoutes

namespace Hierarchy

variable {h : Hierarchy} {name superclass : String}

/-- Links end at classes of the hierarchy. -/
def HasEnds (h : Hierarchy) : Prop := ∀ a b, h.Links a b → b ∈ h.nodes

theorem hasEnds_empty : HasEnds {} := fun _ _ hl => absurd hl List.not_mem_nil

theorem HasEnds.addNode (he : h.HasEnds) (name : String) : (h.addNode name).HasEnds := by
  intro a b hl
  have hold : h.Links a b := by
    unfold Links at hl ⊢
    rwa [links_addNode] at hl
  exact mem_nodes_addNode.2 (.inl (he a b hold))

theorem HasEnds.addLink (he : h.HasEnds) (name superclass : String) :
    (h.addLink name superclass).HasEnds := by
  intro a b hl
  rw [nodes_addLink, mem_nodes_addNode, mem_nodes_addNode]
  rcases mem_links_addLink hl with hold | hnew
  · exact .inl (.inl (he a b hold))
  · exact .inr (congrArg Prod.snd hnew)

private theorem addNode_of_mem (hn : name ∈ h.nodes) : h.addNode name = h := by
  unfold addNode
  rw [if_pos (List.contains_iff_mem.2 hn)]

theorem nodes_addNode_of_not_mem (hn : name ∉ h.nodes) :
    (h.addNode name).nodes = h.nodes ++ [name] := by
  unfold addNode
  rw [if_neg (by simpa using hn)]

theorem reaches_addNode (h : Hierarchy) (name a b : String) :
    (h.addNode name).reaches a b = h.reaches a b := by
  unfold reaches
  rw [links_addNode]

/-- A class that another one leads to is one of the hierarchy. -/
theorem HasEnds.mem_of_reaches (he : h.HasEnds) (hr : h.reaches superclass name = true)
    (hne : superclass ≠ name) : name ∈ h.nodes := by
  have hway := reflTransGen_of_leads (r := h.Links) (fun _ hl => hl) hr
  rcases hway.cases_tail with rfl | ⟨lower, -, hlink⟩
  · contradiction
  · exact he lower name hlink

end Hierarchy

/-- The store has a class of this name which is its own superclass. -/
def ClassStore.HasSelfExtending (store : ClassStore) (name : String) : Prop :=
  ∃ c spelled, (store.find name).1.result = .ok (some c) ∧ c.parent? = some spelled ∧
    TypeName.dotted spelled = name

namespace Loader

variable {loader next : Loader} {name : String}

theorem Loads.hasEnds {o : Except Fault (Option Class) × Loader} (h : loader.Loads name o)
    (he : loader.hierarchy.HasEnds) : o.2.hierarchy.HasEnds := by
  cases h with
  | failed | missing => exact he
  | cyclic | root => exact he.addNode name
  | child => exact (he.addNode name).addLink _ _

theorem hasEnds_find (he : loader.hierarchy.HasEnds) (name : String) :
    (Loading.find name loader).2.hierarchy.HasEnds := by
  have hnext : (Loading.outcome (Loading.find name) loader).2 = (Loading.find name loader).2 := rfl
  rw [← hnext]
  rcases outcome_find_cases loader name with ⟨c, -, ho⟩ | ⟨-, hl⟩
  · rw [ho]
    exact he
  · exact hl.hasEnds he

/-- What lookups keep and what does not depend on the store holds after any calls. -/
theorem afterCalls_induction {P : Loader → Prop}
    (hfind : ∀ loader name, P loader → P (Loading.find name loader).2)
    (hstore : ∀ loader store, P loader → P { loader with store }) (hl : P loader)
    (calls : List LoaderCall) : P (loader.afterCalls calls) := by
  have hfinds : ∀ names loader, P loader → P (loader.afterFinds names) := by
    intro names
    induction names with
    | nil => exact fun _ h => h
    | cons name rest ih => exact fun loader h => ih _ (hfind loader name h)
  have hx : ∀ {α : Type} {x : Loading α} (loader : Loader), Loading.OnlyFinds x → P loader →
      P (x loader).2 := by
    intro α x loader hx h
    obtain ⟨names, hn⟩ := hx.exists_eq rfl
    exact hn ▸ hfinds names loader h
  induction calls generalizing loader with
  | nil => exact hl
  | cons call rest ih =>
    apply ih
    cases call with
    | find name => exact hfind loader name hl
    | resolve name => exact hx loader (Loading.onlyFinds_resolve name) hl
    | contains name => exact hl
    | ancestry rootTypes c => exact hx loader (Loading.onlyFinds_ancestry c) hl
    | ancestryWithin rootTypes steps c =>
      exact hx loader (Loading.onlyFinds_ancestryWithin steps c) hl
    | exchange store => exact hstore loader store hl

theorem hasEnds_afterCalls (store : ClassStore) (calls : List LoaderCall) :
    (afterCalls { store } calls).hierarchy.HasEnds :=
  afterCalls_induction (P := fun loader => loader.hierarchy.HasEnds)
    (fun _ name he => hasEnds_find he name) (fun _ _ he => he) Hierarchy.hasEnds_empty calls

/-- What a failed lookup of a name leaves behind: the kept classes and the links of before, and the
hierarchy of before exactly if there was no new name of a class that is its own superclass. -/
structure IsLeftBehind (loader : Loader) (name : String) (next : Loader) : Prop where
  loaded : next.loaded = loader.loaded
  links : next.hierarchy.links = loader.hierarchy.links
  nodes_of_self : loader.store.HasSelfExtending name → name ∉ loader.hierarchy.nodes →
    next.hierarchy.nodes = loader.hierarchy.nodes ++ [name]
  hierarchy_iff : next.hierarchy = loader.hierarchy ↔
    ¬ (loader.store.HasSelfExtending name ∧ name ∉ loader.hierarchy.nodes)

theorem isLeftBehind_noted (store : ClassStore) (hs : loader.store.HasSelfExtending name) :
    loader.IsLeftBehind name { loader with store, hierarchy := loader.hierarchy.addNode name } where
  loaded := rfl
  links := Hierarchy.links_addNode loader.hierarchy name
  nodes_of_self _ hn := Hierarchy.nodes_addNode_of_not_mem hn
  hierarchy_iff := by
    constructor
    · rintro he ⟨-, hn⟩
      have hmem : name ∈ (loader.hierarchy.addNode name).nodes :=
        Hierarchy.mem_nodes_addNode.2 (.inr rfl)
      exact hn (congrArg Hierarchy.nodes he ▸ hmem)
    · intro hn
      exact Hierarchy.addNode_of_mem (by_contra fun h => hn ⟨hs, h⟩)

theorem isLeftBehind_same (hn : next.hierarchy = loader.hierarchy)
    (hl : next.loaded = loader.loaded)
    (hs : ¬ (loader.store.HasSelfExtending name ∧ name ∉ loader.hierarchy.nodes)) :
    loader.IsLeftBehind name next where
  loaded := hl
  links := congrArg Hierarchy.links hn
  nodes_of_self h h' := absurd ⟨h, h'⟩ hs
  hierarchy_iff := ⟨fun _ => hs, fun _ => hn⟩

/-- A link is noted, or else refused since its upper end is below its lower one. -/
theorem outcome_link_some (loader : Loader) (name superclass : String) :
    (∃ linked, Loading.outcome (Loading.link name (some superclass)) loader = (.ok (), linked)) ∨
      loader.hierarchy.reaches superclass name = true ∧
        Loading.outcome (Loading.link name (some superclass)) loader =
          (.error (.cyclicHierarchy name superclass),
            { loader with hierarchy := loader.hierarchy.addNode name }) := by
  unfold Loading.outcome Loading.link
  dsimp only
  split
  · rename_i hr
    rw [Bool.and_eq_true, Hierarchy.reaches_addNode] at hr
    exact .inr ⟨hr.2, rfl⟩
  · exact .inl ⟨_, rfl⟩

/-- A class that the store has is kept, or else refused since its superclass is below it. -/
theorem outcome_load_of_found {c : Class} (hf : (loader.store.find name).1.result = .ok (some c)) :
    (Loading.outcome (Loading.load name) loader).1 = .ok (some c) ∨
      ∃ spelled store, c.parent? = some spelled ∧
        loader.hierarchy.reaches (TypeName.dotted spelled) name = true ∧
        (Loading.outcome (Loading.load name) loader).2 =
          { loader with store, hierarchy := loader.hierarchy.addNode name } := by
  have hfetch : Loading.outcome (Loading.fetch name) loader =
      (.ok (some c), { loader with store := (loader.store.find name).2 }) :=
    congrArg (·, _) hf
  unfold Loading.load
  rw [Loading.outcome_log_bind, Loading.outcome_bind_ok hfetch]
  dsimp only
  cases c.parent? with
  | none => exact .inl rfl
  | some spelled =>
    rw [Option.map_some]
    rcases outcome_link_some { loader with store := (loader.store.find name).2 } name
      (TypeName.dotted spelled) with ⟨linked, hl⟩ | ⟨hr, hl⟩
    · rw [Loading.outcome_bind_ok hl]
      exact .inl rfl
    · rw [Loading.outcome_bind_error hl]
      exact .inr ⟨spelled, _, rfl, hr, rfl⟩

/-- Without a class in the store there is nothing to note. -/
theorem outcome_load_of_not_found
    (hf : ∀ c, (loader.store.find name).1.result ≠ .ok (some c)) :
    (Loading.outcome (Loading.load name) loader).2 =
      { loader with store := (loader.store.find name).2 } := by
  have hfetch : Loading.outcome (Loading.fetch name) loader =
      ((loader.store.find name).1.result, { loader with store := (loader.store.find name).2 }) :=
    rfl
  unfold Loading.load
  rw [Loading.outcome_log_bind]
  match hr : (loader.store.find name).1.result with
  | .error fault =>
    rw [hr] at hfetch
    rw [Loading.outcome_bind_error hfetch]
  | .ok none =>
    rw [hr] at hfetch
    rw [Loading.outcome_bind_ok hfetch]
    rfl
  | .ok (some c) => exact absurd hr (hf c)

theorem isLeftBehind_load (he : loader.hierarchy.HasEnds)
    (hr : ∀ c, (Loading.outcome (Loading.load name) loader).1 ≠ .ok (some c)) :
    loader.IsLeftBehind name (Loading.outcome (Loading.load name) loader).2 := by
  by_cases hf : ∃ c, (loader.store.find name).1.result = .ok (some c)
  · obtain ⟨c, hf⟩ := hf
    rcases outcome_load_of_found hf with hok | ⟨spelled, store, hp, hreaches, hnext⟩
    · exact absurd hok (hr c)
    · rw [hnext]
      by_cases hs : TypeName.dotted spelled = name
      · exact isLeftBehind_noted store ⟨c, spelled, hf, hp, hs⟩
      · -- the superclass is below the class, so that the class is the end of a link already
        have hmem := he.mem_of_reaches hreaches hs
        exact isLeftBehind_same (Hierarchy.addNode_of_mem hmem) rfl fun h => h.2 hmem
  · rw [outcome_load_of_not_found (not_exists.1 hf)]
    refine isLeftBehind_same rfl rfl ?_
    rintro ⟨⟨c, spelled, hc, -⟩, -⟩
    exact hf ⟨c, hc⟩

theorem isLeftBehind_find {r : Except Fault (Option Class)} (he : loader.hierarchy.HasEnds)
    (h : Loading.outcome (Loading.find name) loader = (r, next)) (hr : ∀ c, r ≠ .ok (some c)) :
    loader.IsLeftBehind (TypeName.dotted name) next := by
  obtain ⟨rfl, rfl⟩ := Prod.mk.inj h
  cases hl : loader.loaded.get? (TypeName.dotted name) with
  | some c =>
    refine absurd ?_ (hr c)
    rw [Loading.find_of_loaded hl]
    rfl
  | none =>
    rw [Loading.find_of_not_loaded hl] at hr ⊢
    exact isLeftBehind_load he hr

/-- A class that must be there fails to be found only if its lookup gives none. -/
theorem isLeftBehind_resolve {fault : Fault} (he : loader.hierarchy.HasEnds)
    (h : Loading.outcome (Loading.resolve name) loader = (.error fault, next)) :
    loader.IsLeftBehind (TypeName.dotted name) next := by
  rcases ho : Loading.outcome (Loading.find name) loader with ⟨r, found⟩
  unfold Loading.resolve at h
  match r, ho with
  | .error other, ho =>
    rw [Loading.outcome_bind_error ho] at h
    obtain ⟨-, rfl⟩ := Prod.mk.inj h
    exact isLeftBehind_find he ho nofun
  | .ok none, ho =>
    rw [Loading.outcome_bind_ok ho] at h
    obtain ⟨-, rfl⟩ := Prod.mk.inj h
    exact isLeftBehind_find he ho nofun
  | .ok (some c), ho =>
    rw [Loading.outcome_bind_ok ho] at h
    cases (Prod.mk.inj h).1

/-- Whatever calls have gone before, a lookup that gives no class leaves the loader as it was, but
for the name of a class that is its own superclass. -/
theorem isLeftBehind_of_failure (store : ClassStore) (calls : List LoaderCall) (name : String) :
    let loader := afterCalls { store } calls
    (∀ r next, Loading.outcome (Loading.find name) loader = (r, next) →
      (∀ c, r ≠ .ok (some c)) → loader.IsLeftBehind (TypeName.dotted name) next) ∧
    ∀ fault next, Loading.outcome (Loading.resolve name) loader = (.error fault, next) →
      loader.IsLeftBehind (TypeName.dotted name) next := by
  have he := hasEnds_afterCalls store calls
  constructor
  · intro r next h hr
    exact isLeftBehind_find he h hr
  · intro fault next h
    exact isLeftBehind_resolve he h

/-- Two classes that extend each other, and one that extends itself. -/
def cycles : ClassStore :=
  .memory ⟨[("a.A", { name := "a.A", superclass := "a/A" }),
    ("b.B", { name := "b.B", superclass := "c/C" }),
    ("c.C", { name := "c.C", superclass := "b/B" })]⟩

theorem isLeftBehind_of_failure_cycles :
    let loader := afterCalls { store := cycles } [.find "b/B"]
    loader.hierarchy = ⟨["b.B", "c.C"], [("b.B", "c.C")]⟩ ∧
    (∃ next, Loading.outcome (Loading.find "c.C") loader =
        (.error (.cyclicHierarchy "c.C" "b.B"), next) ∧
      next.loaded = loader.loaded ∧ next.hierarchy = loader.hierarchy) ∧
    ∃ next, Loading.outcome (Loading.resolve "a/A") loader =
        (.error (.cyclicHierarchy "a.A" "a.A"), next) ∧
      next.loaded = loader.loaded ∧ next.hierarchy.links = loader.hierarchy.links ∧
        next.hierarchy.nodes = ["b.B", "c.C", "a.A"] := by
  have h := isLeftBehind_of_failure cycles [.find "b/B"]
  have hb : (afterCalls { store := cycles } [.find "b/B"]).hierarchy =
      ⟨["b.B", "c.C"], [("b.B", "c.C")]⟩ := rfl
  have hc := (h "c.C").1 _ _ rfl nofun
  have ha := (h "a/A").2 _ _ rfl
  refine ⟨hb, ⟨_, rfl, hc.loaded, hc.hierarchy_iff.2 ?_⟩, _, rfl, ha.loaded, ha.links, ?_⟩
  · rw [hb]
    rintro ⟨-, hn⟩
    exact hn (by decide)
  · rw [ha.nodes_of_self ⟨_, "a/A", rfl, rfl, by decide⟩ (by rw [hb]; decide), hb]
    rfl

/-- A lookup of a class that extends itself fails, and leaves its name behind. -/
theorem nodes_ne_of_failure :
    let loader := afterCalls { store := oneClass (some "a.B") } []
    ∃ next, Loading.outcome (Loading.find "a.B") loader =
        (.error (.cyclicHierarchy "a.B" "a.B"), next) ∧
      loader.hierarchy.nodes = [] ∧ next.hierarchy.nodes = ["a.B"] :=
  ⟨_, rfl, rfl, rfl⟩

end Loader

end JvmRoutes
