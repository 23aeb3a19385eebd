import JvmRoutes.Proofs.Loader.Hierarchy
import JvmRoutes.Proofs.Loader.Lookups
import JvmRoutes.Proofs.OrderedMap
import JvmRoutes.Proofs.TypeName

/-!
What holds of a loader and its hierarchy whatever has been asked of it, also when its store has
changed meanwhile and when calls have failed: the links have no cycle and are those of the classes
that are kept, and what has once been kept is found again for ever.
-/
namespace JvmRoutes

namespace Loader

variable {loader next : Loader} {name : String} {c : Class}

/-- The class kept under a name says that its superclass goes by another one. -/
def Extends (loader : Loader) (name superclass : String) : Prop :=
  ∃ c spelled, loader.loaded.get? name = some c ∧ c.parent? = some spelled ∧
    superclass = TypeName.dotted spelled

/-- The hierarchy has no cycle, at most one link from each class, and the links of the kept classes
only. Of every kept class it has the name, which is spelled with dots. -/
structure IsConsistent (loader : Loader) : Prop where
  acyclic : loader.hierarchy.IsAcyclic
  nodup : (loader.hierarchy.links.map (·.1)).Nodup
  links_iff : ∀ name superclass,
    loader.hierarchy.Links name superclass ↔ loader.Extends name superclass
  nodes : ∀ name c, loader.loaded.get? name = some c → name ∈ loader.hierarchy.nodes
  dotted : ∀ name c, loader.loaded.get? name = some c → TypeName.IsDotted name

/-- What one loader keeps, the other one keeps. -/
def Grows (loader next : Loader) : Prop :=
  ∀ name c, loader.loaded.get? name = some c → next.loaded.get? name = some c

theorem grows_refl (loader : Loader) : loader.Grows loader := fun _ _ h => h

theorem Grows.trans {last : Loader} (h : loader.Grows next) (h' : next.Grows last) :
    loader.Grows last := fun name c hc => h' name c (h name c hc)

theorem isConsistent_fresh (store : ClassStore) : IsConsistent { store } where
  acyclic name hn := by
    obtain ⟨_, hl, -⟩ := Relation.TransGen.head'_iff.1 hn
    exact absurd hl List.not_mem_nil
  nodup := List.nodup_nil
  links_iff name superclass := by
    constructor
    · intro hl
      exact absurd hl List.not_mem_nil
    · rintro ⟨c, spelled, hc, -⟩
      cases hc
  nodes := nofun
  dotted := nofun

theorem IsConsistent.withStore (h : loader.IsConsistent) (store : ClassStore) :
    IsConsistent { loader with store } := ⟨h.acyclic, h.nodup, h.links_iff, h.nodes, h.dotted⟩

theorem IsConsistent.noted (h : loader.IsConsistent) (store : ClassStore) (name : String) :
    IsConsistent { loader with store, hierarchy := loader.hierarchy.addNode name } where
  acyclic := h.acyclic.addNode name
  nodup := by
    rw [Hierarchy.links_addNode]
    exact h.nodup
  links_iff lower upper := by
    unfold Hierarchy.Links
    rw [Hierarchy.links_addNode]
    exact h.links_iff lower upper
  nodes other c hc := Hierarchy.mem_nodes_addNode.2 (.inl (h.nodes other c hc))
  dotted := h.dotted

theorem IsConsistent.not_mem_links (h : loader.IsConsistent)
    (hl : loader.loaded.get? name = none) : name ∉ loader.hierarchy.links.map (·.1) := by
  intro hm
  obtain ⟨⟨_, superclass⟩, hlink, rfl⟩ := List.mem_map.1 hm
  obtain ⟨c, spelled, hc, -⟩ := (h.links_iff _ superclass).1 hlink
  rw [hl] at hc
  cases hc

/-- A new class can be kept once its link is there and has closed no cycle. -/
theorem IsConsistent.kept (h : loader.IsConsistent) (hn : TypeName.IsDotted name)
    (hl : loader.loaded.get? name = none) (store : ClassStore) {hierarchy : Hierarchy}
    (ha : hierarchy.IsAcyclic)
    (hlinks : hierarchy.links = loader.hierarchy.links ++
      (c.parent?.map fun spelled => (name, TypeName.dotted spelled)).toList)
    (hnodes : ∀ other, other ∈ loader.hierarchy.nodes ∨ other = name → other ∈ hierarchy.nodes) :
    IsConsistent { store, hierarchy, loaded := loader.loaded.insert name c } where
  acyclic := ha
  nodup := by
    have hnew := h.not_mem_links hl
    rw [hlinks, List.map_append]
    cases c.parent? with
    | none => simpa using h.nodup
    | some spelled =>
      refine List.nodup_append.2 ⟨h.nodup, by simp, ?_⟩
      rintro a ha b hb rfl
      obtain rfl : a = name := by simpa using hb
      exact hnew ha
  links_iff lower upper := by
    -- the only new link is that of the new class, which had none before
    have hold := h.links_iff lower upper
    have hmem : hierarchy.Links lower upper ↔ loader.hierarchy.Links lower upper ∨
        ∃ spelled, c.parent? = some spelled ∧ (name, TypeName.dotted spelled) = (lower, upper) := by
      unfold Hierarchy.Links
      rw [hlinks, List.mem_append, Option.mem_toList, Option.map_eq_some_iff]
    rw [hmem]
    constructor
    · rintro (hlink | ⟨spelled, hp, he⟩)
      · obtain ⟨d, spelled, hd, hp, rfl⟩ := hold.1 hlink
        have hne : lower ≠ name := by
          rintro rfl
          rw [hl] at hd
          cases hd
        refine ⟨d, spelled, ?_, hp, rfl⟩
        show (loader.loaded.insert name c).get? lower = some d
        rw [OrderedMap.get?_insert, if_neg hne, hd]
      · obtain ⟨rfl, rfl⟩ := Prod.mk.inj he
        refine ⟨c, spelled, ?_, hp, rfl⟩
        show (loader.loaded.insert name c).get? name = some c
        rw [OrderedMap.get?_insert, if_pos rfl]
    · rintro ⟨d, spelled, hd, hp, rfl⟩
      change (loader.loaded.insert name c).get? lower = some d at hd
      rw [OrderedMap.get?_insert] at hd
      split at hd
      · rename_i he
        obtain rfl := Option.some.inj hd
        exact .inr ⟨spelled, hp, by rw [he]⟩
      · exact .inl (hold.2 ⟨d, spelled, hd, hp, rfl⟩)
  nodes other d hd := by
    change (loader.loaded.insert name c).get? other = some d at hd
    rw [OrderedMap.get?_insert] at hd
    split at hd
    · rename_i he
      exact hnodes other (.inr he)
    · exact hnodes other (.inl (h.nodes other d hd))
  dotted other d hd := by
    change (loader.loaded.insert name c).get? other = some d at hd
    rw [OrderedMap.get?_insert] at hd
    split at hd
    · rename_i he
      exact he ▸ hn
    · exact h.dotted other d hd

/-- The check in front of a new link sees every way that leads back. -/
theorem IsConsistent.not_reflTransGen (h : loader.IsConsistent) {superclass : String}
    (hr : ¬ (superclass ∈ (loader.hierarchy.addNode name).nodes ∧
      (loader.hierarchy.addNode name).reaches superclass name = true)) :
    ¬ Relation.ReflTransGen (loader.hierarchy.addNode name).Links superclass name := by
  intro hw
  have hreaches := (h.acyclic.addNode name).reaches_iff.2 hw
  have hnode : superclass ∈ (loader.hierarchy.addNode name).nodes := by
    rw [Hierarchy.mem_nodes_addNode]
    rcases hw.cases_head with rfl | ⟨upper, hlink, -⟩
    · exact .inr rfl
    · -- a class with a link is kept, so it is one of the classes of the hierarchy
      have hold : loader.hierarchy.Links superclass upper := by
        unfold Hierarchy.Links at hlink ⊢
        rwa [Hierarchy.links_addNode] at hlink
      obtain ⟨c, spelled, hc, -⟩ := (h.links_iff superclass upper).1 hold
      exact .inl (h.nodes superclass c hc)
  exact hr ⟨hnode, hreaches⟩

theorem Loads.isConsistent {o : Except Fault (Option Class) × Loader} (h : loader.Loads name o)
    (hc : loader.IsConsistent) (hn : TypeName.IsDotted name)
    (hl : loader.loaded.get? name = none) : o.2.IsConsistent := by
  cases h with
  | failed store fault => exact hc.withStore store
  | missing store => exact hc.withStore store
  | cyclic store superclass hr => exact hc.noted store name
  | @root store c hp =>
    refine hc.kept hn hl store (hc.acyclic.addNode name) ?_ ?_
    · rw [hp, Hierarchy.links_addNode]
      simp
    · intro other ho
      exact Hierarchy.mem_nodes_addNode.2 ho
  | @child store c spelled hp hr =>
    have hnew : (name, TypeName.dotted spelled) ∉ loader.hierarchy.links :=
      fun hm => hc.not_mem_links hl (List.mem_map.2 ⟨_, hm, rfl⟩)
    refine hc.kept hn hl store ((hc.acyclic.addNode name).addLink (hc.not_reflTransGen hr)) ?_ ?_
    · rw [hp, Hierarchy.links_addLink, Hierarchy.links_addNode, if_neg hnew]
      rfl
    · intro other ho
      rw [Hierarchy.nodes_addLink, Hierarchy.mem_nodes_addNode, Hierarchy.mem_nodes_addNode,
        Hierarchy.mem_nodes_addNode]
      exact .inl (.inl ho)

theorem grows_insert (hl : loader.loaded.get? name = none) (store : ClassStore)
    (hierarchy : Hierarchy) (c : Class) :
    loader.Grows { store, hierarchy, loaded := loader.loaded.insert name c } := by
  intro other d hd
  show (loader.loaded.insert name c).get? other = some d
  have hne : other ≠ name := by
    rintro rfl
    rw [hl] at hd
    cases hd
  rw [OrderedMap.get?_insert, if_neg hne, hd]

theorem Loads.grows {o : Except Fault (Option Class) × Loader} (h : loader.Loads name o)
    (hl : loader.loaded.get? name = none) : loader.Grows o.2 := by
  cases h with
  | failed | missing | cyclic => exact grows_refl loader
  | root store hp => exact grows_insert hl _ _ _
  | child store hp hr => exact grows_insert hl _ _ _

theorem IsConsistent.find (h : loader.IsConsistent) (name : String) :
    (Loading.find name loader).2.IsConsistent ∧ loader.Grows (Loading.find name loader).2 := by
  have hnext : (Loading.outcome (Loading.find name) loader).2 = (Loading.find name loader).2 := rfl
  rcases outcome_find_cases loader name with ⟨c, -, ho⟩ | ⟨hl, hloads⟩
  · rw [← hnext, ho]
    exact ⟨h, grows_refl loader⟩
  · rw [← hnext]
    exact ⟨hloads.isConsistent h (TypeName.isDotted_dotted name) hl, hloads.grows hl⟩

theorem IsConsistent.afterFinds (h : loader.IsConsistent) (names : List String) :
    (loader.afterFinds names).IsConsistent ∧ loader.Grows (loader.afterFinds names) := by
  induction names generalizing loader with
  | nil => exact ⟨h, grows_refl loader⟩
  | cons name rest ih =>
    obtain ⟨hnext, hgrows⟩ := h.find name
    obtain ⟨hlast, hrest⟩ := ih hnext
    exact ⟨hlast, hgrows.trans hrest⟩

theorem IsConsistent.after {α : Type} {x : Loading α} (h : loader.IsConsistent)
    (hx : Loading.OnlyFinds x) {r : Except Fault α} (ho : Loading.outcome x loader = (r, next)) :
    next.IsConsistent ∧ loader.Grows next := by
  obtain ⟨names, rfl⟩ := hx.exists_eq ho
  exact h.afterFinds names

end Loader

/-- What can be asked of a loader, and what can happen to its store between two calls. Of a walk
upwards, any number of steps can be taken. -/
inductive LoaderCall
  | find (name : String)
  | resolve (name : String)
  | contains (name : String)
  | ancestry (rootTypes : List String) (c : Class)
  | ancestryWithin (rootTypes : List String) (steps : Nat) (c : Class)
  | exchange (store : ClassStore)

namespace LoaderCall

/-- The loader after a call, whether it has failed or not. -/
def after : LoaderCall → Loader → Loader
  | find name, loader => (Loading.find name loader).2
  | resolve name, loader => (Loading.resolve name loader).2
  | contains _, loader => loader
  | ancestry rootTypes c, loader => (Loading.ancestry rootTypes c loader).2
  | ancestryWithin rootTypes steps c, loader =>
    (Loading.ancestryWithin rootTypes steps c loader).2
  | exchange store, loader => { loader with store }

theorem isConsistent_after (call : LoaderCall) {loader : Loader} (h : loader.IsConsistent) :
    (call.after loader).IsConsistent ∧ loader.Grows (call.after loader) := by
  cases call with
  | find name => exact h.after (Loading.onlyFinds_find name) rfl
  | resolve name => exact h.after (Loading.onlyFinds_resolve name) rfl
  | contains name => exact ⟨h, loader.grows_refl⟩
  | ancestry rootTypes c => exact h.after (Loading.onlyFinds_ancestry c) rfl
  | ancestryWithin rootTypes steps c => exact h.after (Loading.onlyFinds_ancestryWithin steps c) rfl
  | exchange store => exact ⟨h.withStore store, loader.grows_refl⟩

end LoaderCall

namespace Loader

def afterCalls (loader : Loader) (calls : List LoaderCall) : Loader :=
  calls.foldl (fun loader call => call.after loader) loader

theorem IsConsistent.afterCalls {loader : Loader} (h : loader.IsConsistent)
    (calls : List LoaderCall) :
    (loader.afterCalls calls).IsConsistent ∧ loader.Grows (loader.afterCalls calls) := by
  induction calls generalizing loader with
  | nil => exact ⟨h, loader.grows_refl⟩
  | cons call rest ih =>
    obtain ⟨hnext, hgrows⟩ := call.isConsistent_after h
    obtain ⟨hlast, hrest⟩ := ih hnext
    exact ⟨hlast, hgrows.trans hrest⟩

/-- After any calls a loader is consistent. A class that it keeps then is found under its name,
with dots or with slashes, after any further calls, and without a change of the loader. -/
theorem isConsistent_afterCalls (store : ClassStore) (calls : List LoaderCall) :
    (afterCalls { store } calls).IsConsistent ∧
    ∀ name c, (afterCalls { store } calls).loaded.get? name = some c →
      ∀ further spelled, spelled = name ∨ TypeName.dotted spelled = name →
        let last := (afterCalls { store } calls).afterCalls further
        last.loaded.get? name = some c ∧ last.contains spelled = true ∧
          Loading.outcome (Loading.find spelled) last = (.ok (some c), last) ∧
          Loading.outcome (Loading.resolve spelled) last = (.ok c, last) := by
  have hnow := ((isConsistent_fresh store).afterCalls calls).1
  refine ⟨hnow, ?_⟩
  intro name c hc further spelled hs
  have hspelled : TypeName.dotted spelled = name := by
    rcases hs with rfl | hs
    · exact TypeName.dotted_of_isDotted (hnow.dotted spelled c hc)
    · exact hs
  have hlast := (hnow.afterCalls further).2 name c hc
  rw [← hspelled] at hlast
  have hfind := Loading.find_of_loaded hlast
  refine ⟨hspelled ▸ hlast, ?_, ?_, Loading.outcome_resolve_of_loaded hlast⟩
  · unfold contains OrderedMap.contains
    rw [hlast]
    rfl
  · unfold Loading.outcome
    rw [hfind]
    rfl

/-- A store with one class of a name, once with a superclass and once without one. -/
def oneClass (superclass : Option String) : ClassStore :=
  .memory ⟨[("a.B", { name := "a.B", superclass })]⟩

theorem isConsistent_afterCalls_replaced :
    let loader := afterCalls { store := oneClass (some "a/C") } [.find "a/B", .resolve "a/C"]
    loader.IsConsistent ∧ loader.loaded.get? "a.B" = some { name := "a.B", superclass := "a/C" } ∧
      let last := loader.afterCalls [.exchange (oneClass none), .contains "a.C"]
      Loading.outcome (Loading.find "a/B") last =
        (.ok (some { name := "a.B", superclass := "a/C" }), last) := by
  have h := isConsistent_afterCalls (oneClass (some "a/C")) [.find "a/B", .resolve "a/C"]
  have hc : (afterCalls { store := oneClass (some "a/C") }
      [.find "a/B", .resolve "a/C"]).loaded.get? "a.B" =
        some { name := "a.B", superclass := "a/C" } := by rfl
  have hs : TypeName.dotted "a/B" = "a.B" := by decide
  exact ⟨h.1, hc, (h.2 "a.B" _ hc [.exchange (oneClass none), .contains "a.C"] "a/B"
    (.inr hs)).2.2.1⟩

end Loader

end JvmRoutes
