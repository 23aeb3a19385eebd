import JvmRoutes.Proofs.Extraction
import JvmRoutes.Proofs.Loader.Results
import JvmRoutes.Proofs.Log
import JvmRoutes.Proofs.Route.Pattern
import JvmRoutes.Proofs.Route.Verb

/-!
What an extraction that succeeds has found out: the controller of each mount with the classes above
it, its handlers, and what the operations of a handler have in common.
-/
namespace JvmRoutes

namespace Handler

variable {config : Config} {classes : List Class} {handlers : OrderedMap Method} {m : Method}

theorem keyed_eq_ok {pair : String × Method} (h : keyed m = .ok pair) : m = pair.2 := by
  unfold keyed at h
  split at h
  · obtain rfl := Except.ok.inj h
    rfl
  · contradiction

private theorem map_snd_of_mapM_keyed {methods : List Method} {pairs : List (String × Method)}
    (h : methods.mapM keyed = .ok pairs) : methods = pairs.map (·.2) := by
  have heach := (mapM_eq_ok_iff.1 h).imp fun _ _ => keyed_eq_ok
  exact List.forall₂_eq_eq_eq ▸ List.forall₂_map_right_iff.2 heach

private theorem keyed_eq_of_key {key : String} (h : m.key? = some key) :
    keyed m = .ok (key, m) := by
  unfold keyed
  rw [h]

theorem exists_pairs {methods : List Method} (h : ∀ m ∈ methods, ∃ key, m.key? = some key) :
    ∃ pairs, methods.mapM keyed = .ok pairs := by
  induction methods with
  | nil => exact ⟨[], rfl⟩
  | cons m rest ih =>
    rw [List.forall_mem_cons] at h
    obtain ⟨key, hkey⟩ := h.1
    obtain ⟨pairs, hpairs⟩ := ih h.2
    exact ⟨_, mapM_eq_ok_iff.2 (.cons (keyed_eq_of_key hkey) (mapM_eq_ok_iff.1 hpairs))⟩

theorem exists_declared_of_mem_values (h : ofLineage config classes = .ok handlers)
    (hm : m ∈ handlers.values) : ∃ c ∈ classes, m ∈ declared config c := by
  unfold ofLineage at h
  obtain ⟨pairs, hpairs, h⟩ := bind_eq_ok_iff.1 h
  obtain rfl := Except.ok.inj h
  obtain ⟨entry, hentry, rfl⟩ := List.mem_map.1 hm
  have hmethods := map_snd_of_mapM_keyed hpairs
  have hmethod : entry.2 ∈ pairs.map (·.2) :=
    List.mem_map.2 ⟨entry, OrderedMap.mem_of_mem_entries_ofList hentry, rfl⟩
  rw [← hmethods] at hmethod
  obtain ⟨c, hc, hdeclared⟩ := List.mem_flatMap.1 hmethod
  exact ⟨c, List.mem_reverse.1 hc, hdeclared⟩

theorem isRoute_of_mem_values (h : ofLineage config classes = .ok handlers)
    (hm : m ∈ handlers.values) : Route.isRoute config m = true := by
  obtain ⟨c, -, hdeclared⟩ := exists_declared_of_mem_values h hm
  exact (List.mem_filter.1 hdeclared).2

variable {loader next : Loader} {c : Class} {above : List Class}

private theorem exists_holds_of_outcome_effective (hc : loader.IsConsistent)
    (h : Loading.outcome (effective config c) loader = (.ok handlers, next)) :
    ∃ above, next.Holds config.rootTypes c above ∧
      ofLineage config (c :: above) = .ok handlers := by
  obtain ⟨classes, middle, hl, h⟩ := Loading.outcome_bind_eq_ok_iff.1 h
  obtain ⟨_, _, hh, h⟩ := Loading.outcome_bind_eq_ok_iff.1 h
  obtain ⟨above, rfl, hw⟩ := Loading.holds_of_outcome_lineage hc hl
  obtain ⟨hr, rfl⟩ := Prod.mk.inj hh
  obtain ⟨ht, rfl⟩ := Prod.mk.inj h
  obtain rfl := Except.ok.inj ht
  exact ⟨above, hw, hr⟩

theorem outcome_effective_of_holds (hw : loader.Holds config.rootTypes c above)
    (hc : loader.IsConsistent) (h : ofLineage config (c :: above) = .ok handlers) :
    Loading.outcome (effective config c) loader = (.ok handlers, loader) := by
  unfold effective
  rw [Loading.outcome_bind_ok (Loading.outcome_lineage_of_holds hw hc), h]
  rfl

end Handler

namespace Extraction

open Loading

variable {config : Config} {first last : Loader} {controller : Class} {above : List Class}
  {base : Option String} {m : Method} {all : List Operation}

/-- What the operations of a handler have in common is what has been found out about it. -/
structure IsHandling (config : Config) (first : Loader) (controller : Class)
    (h : Operation.Handling) : Prop where
  controller_eq : h.controller = controller
  arguments : ComesTo first (Handler.arguments config Handler.isLoadedEnum h.method) h.arguments
  results : ∃ result, Handler.result config h.method = .ok result ∧ h.results = [result]
  produces : ComesTo first (Route.mediaTypes config Marker.produces controller h.method) h.produces
  consumes : ComesTo first (Route.mediaTypes config Marker.consumes controller h.method) h.consumes

theorem IsHandling.mono {names : List String} {h : Operation.Handling}
    (hh : IsHandling config (first.afterFinds names) controller h) :
    IsHandling config first controller h :=
  ⟨hh.controller_eq, hh.arguments.mono, hh.results, hh.produces.mono, hh.consumes.mono⟩

/-- The operations of a handler: for each verb, one for each of the paths on a way up. -/
def operationsOn (config : Config) (way : List Class) (base : Option String)
    (h : Operation.Handling) : List Operation :=
  (Route.verbs config h.method).flatMap fun verb =>
    (Route.pathsOn way h.method verb).map (h.operation base verb)

private theorem operations_one {h : Operation.Handling} {verb : String} {paths : List String}
    (hp : paths ≠ []) : h.operations base [verb] paths = paths.map (h.operation base verb) := by
  cases paths with
  | nil => contradiction
  | cons path rest => exact List.append_nil _

private theorem exists_of_collect {α β γ : Type} {f : α → Loading (List β)} {k : γ → α}
    {g : γ → List β} {P : γ → Prop} (hf : ∀ a, IsSearch (f a))
    (hpart : ∀ a part, ComesTo first (f a) part → ∃ c, k c = a ∧ P c ∧ part = g c)
    {items : List α} {all : List β} (h : ComesTo first (collect f items) all) :
    ∃ cs : List γ, cs.map k = items ∧ (∀ c ∈ cs, P c) ∧ all = cs.flatMap g := by
  induction items generalizing all with
  | nil => exact ⟨[], rfl, nofun, h.eq_of_pure.symm⟩
  | cons a rest ih =>
    obtain ⟨part, ha, h⟩ := h.bind (hf a).onlyFinds
    obtain ⟨others, hrest, h⟩ := h.bind (isSearch_collect hf rest).onlyFinds
    obtain rfl := h.eq_of_pure
    obtain ⟨c, rfl, hc, rfl⟩ := hpart a part ha
    obtain ⟨cs, rfl, hcs, rfl⟩ := ih hrest
    exact ⟨c :: cs, rfl, List.forall_mem_cons.2 ⟨hc, hcs⟩, rfl⟩

private theorem eq_flatMap_of_collect {α β : Type} {f : α → Loading (List β)} {g : α → List β}
    (hf : ∀ a, IsSearch (f a)) (hpart : ∀ a part, ComesTo first (f a) part → part = g a)
    {items : List α} {all : List β} (h : ComesTo first (collect f items) all) :
    all = items.flatMap g := by
  have heach : ∀ a part, ComesTo first (f a) part → ∃ c, id c = a ∧ True ∧ part = g c :=
    fun a part ha => ⟨a, rfl, trivial, hpart a part ha⟩
  obtain ⟨cs, rfl, -, hall⟩ := exists_of_collect hf heach h
  rw [List.map_id, hall]

theorem exists_handling_of_ofHandler (hf : first.IsConsistent)
    (hw : first.Holds config.rootTypes controller above)
    (h : ComesTo first (ofHandler config controller base m) all) :
    ∃ handling : Operation.Handling, handling.method = m ∧
      IsHandling config first controller handling ∧
      all = operationsOn config (controller :: above) base handling := by
  have hsearch := Handler.isReporting_arguments Handler.isReporting_isLoadedEnum config m
  have hmedia := fun types => Route.isReporting_mediaTypes config types controller m
  unfold ofHandler at h
  -- one step after another: what each has come to is a part of the handling
  obtain ⟨_, -, h⟩ := h.bind (isSearch_log _ _).onlyFinds
  obtain ⟨arguments, harguments, h⟩ :=
    h.bind hsearch.isSearch.onlyFinds
  obtain ⟨result, hresult, h⟩ := h.bind (isSearch_ofExcept _).onlyFinds
  obtain ⟨produces, hproduces, h⟩ := h.bind (hmedia _).isSearch.onlyFinds
  obtain ⟨consumes, hconsumes, h⟩ := h.bind (hmedia _).isSearch.onlyFinds
  let handling : Operation.Handling :=
    { controller, method := m, arguments, results := [result], produces, consumes }
  refine ⟨handling, rfl, ?_, ?_⟩
  · exact ⟨rfl, harguments, ⟨result, hresult.eq_of_ofExcept, rfl⟩, hproduces, hconsumes⟩
  · have hpatterns := fun verb => (Route.isReporting_patterns config controller m verb).isSearch
    have hsearch : ∀ verb, IsSearch (do
        return handling.operations base [verb] (← Route.patterns config controller m verb)) :=
      fun verb => (hpatterns verb).bind fun _ => isSearch_pure _
    refine eq_flatMap_of_collect hsearch ?_ h
    -- the classes above the controller are kept, so that all paths are known beforehand
    intro verb part hpart
    obtain ⟨paths, hpaths, hpart⟩ := hpart.bind (hpatterns verb).onlyFinds
    obtain rfl := hpart.eq_of_pure
    have hway := hpaths.eq_of_holds hf hw fun loader hw hc =>
      Route.outcome_patterns_of_holds hw hc m verb
    rw [hway]
    exact operations_one (Route.pathsOn_ne_nil _ m verb)

structure Finding where
  mount : Mount
  controller : Class
  above : List Class
  handlers : OrderedMap Method
  handlings : List Operation.Handling

/-- The operations of a mount: those of its handlers in their order. -/
def Finding.operations (config : Config) (found : Finding) : List Operation :=
  found.handlings.flatMap (operationsOn config (found.controller :: found.above) found.mount.base)

/-- A finding is right about a mount: the last loader keeps the controller and the classes above
it, the handlers are those of these classes, and about each handler there is what has been found
out on the way from the first loader. -/
structure IsFound (config : Config) (first last : Loader) (found : Finding) : Prop where
  controller : last.loaded.get? (TypeName.dotted found.mount.controller) = some found.controller
  holds : last.Holds config.rootTypes found.controller found.above
  handlers : Handler.ofLineage config (found.controller :: found.above) = .ok found.handlers
  methods : found.handlings.map (·.method) = found.handlers.values
  handlings : ∀ h ∈ found.handlings, IsHandling config first found.controller h

theorem IsFound.mono {n : List String} {next : Loader} {found : Finding}
    (h : IsFound config (first.afterFinds n) last found) (hg : last.Grows next) :
    IsFound config first next found :=
  ⟨hg _ _ h.controller, h.holds.grow hg, h.handlers, h.methods,
    fun handling hm => (h.handlings handling hm).mono⟩

theorem exists_finding_of_ofMount (hc : first.IsConsistent) {mount : Mount}
    (h : outcome (ofMount config mount) first = (.ok all, last)) :
    ∃ found : Finding, found.mount = mount ∧ IsFound config first last found ∧
      all = found.operations config := by
  unfold ofMount at h
  obtain ⟨controller, resolved, hr, h⟩ := outcome_bind_eq_ok_iff.1 h
  obtain ⟨handlers, ready, he, h⟩ := outcome_bind_eq_ok_iff.1 h
  have hsearch := isSearch_ofHandler config controller mount.base
  have hcollect := (isSearch_collect hsearch handlers.values).onlyFinds
  have hresolved := (hc.after (onlyFinds_resolve _) hr).1
  have heffective := (Handler.isSearch_effective config controller).onlyFinds
  obtain ⟨hready, hgrows⟩ := hresolved.after heffective he
  have hlast := (hready.after hcollect h).2
  -- to find the handlers has loaded the whole way up, and nothing takes it away again
  obtain ⟨above, hw, hhandlers⟩ := Handler.exists_holds_of_outcome_effective hresolved he
  obtain ⟨handlings, hmethods, hfound, hall⟩ := exists_of_collect hsearch
    (fun m part hpart => exists_handling_of_ofHandler hready hw hpart) (comesTo_of_outcome h)
  refine ⟨⟨mount, controller, above, handlers, handlings⟩, rfl, ?_, hall⟩
  have hkept := (hgrows.trans hlast) _ _ (loaded_of_outcome_resolve hr)
  refine ⟨hkept, hw.grow hlast, hhandlers, hmethods, ?_⟩
  intro handling hm
  obtain ⟨front, rfl⟩ := (onlyFinds_resolve mount.controller).exists_eq hr
  obtain ⟨back, rfl⟩ := heffective.exists_eq he
  exact (hfound handling hm).mono.mono

theorem exists_findings_of_ofMountsFrom (hc : first.IsConsistent) {mounts : List Mount}
    {position count : Nat}
    (h : outcome (ofMountsFrom config position count mounts) first = (.ok all, last)) :
    ∃ findings : List Finding, findings.map (·.mount) = mounts ∧
      (∀ found ∈ findings, IsFound config first last found) ∧
      all = findings.flatMap (·.operations config) := by
  induction mounts generalizing first position all with
  | nil =>
    obtain rfl := Except.ok.inj (Prod.mk.inj h).1
    exact ⟨[], rfl, nofun, rfl⟩
  | cons mount rest ih =>
    unfold ofMountsFrom at h
    rw [outcome_log_bind] at h
    obtain ⟨part, middle, hm, h⟩ := outcome_bind_eq_ok_iff.1 h
    obtain ⟨others, next, hrest, h⟩ := outcome_bind_eq_ok_iff.1 h
    rw [outcome_pure] at h
    cases h
    have hmount := (isSearch_ofMount config mount).onlyFinds
    have hothers := (isSearch_ofMountsFrom config (position + 1) count rest).onlyFinds
    have hmiddle := (hc.after hmount hm).1
    have hgrows := (hmiddle.after hothers hrest).2
    obtain ⟨names, rfl⟩ := hmount.exists_eq hm
    obtain ⟨found, rfl, hfound, rfl⟩ := exists_finding_of_ofMount hc hm
    obtain ⟨findings, rfl, hfindings, rfl⟩ := ih hmiddle hrest
    have hfirst : IsFound config first last found := IsFound.mono (n := []) hfound hgrows
    have hall : ∀ other ∈ findings, IsFound config first last other := by
      intro other ho
      exact (hfindings other ho).mono last.grows_refl
    exact ⟨found :: findings, rfl, List.forall_mem_cons.2 ⟨hfirst, hall⟩, rfl⟩

theorem onlyFinds_ofMounts (config : Config) (mounts : List Mount) :
    OnlyFinds (ofMounts config mounts) := by
  unfold ofMounts
  refine (isSearch_log _ _).onlyFinds.bind fun _ => ?_
  have hmounts := isSearch_ofMountsFrom config 1 mounts.length mounts
  refine hmounts.onlyFinds.bind fun operations => ?_
  refine (onlyFinds_ask _).bind fun classes => ?_
  exact (isSearch_log _ _).onlyFinds.bind fun _ => onlyFinds_pure operations

/-- When an extraction succeeds, it has found its operations mount by mount. -/
theorem exists_findings {mounts : List Mount} {store : ClassStore}
    (h : (run config mounts store).1.result = .ok all) :
    ∃ findings : List Finding, findings.map (·.mount) = mounts ∧
      (∀ found ∈ findings,
        IsFound config { store } (ofMounts config mounts { store }).2 found) ∧
      all = findings.flatMap (·.operations config) := by
  have ho : outcome (ofMounts config mounts) { store } =
      (.ok all, (ofMounts config mounts { store }).2) := Prod.ext h rfl
  revert ho
  generalize (ofMounts config mounts { store }).2 = last
  intro ho
  unfold ofMounts announce at ho
  rw [outcome_log_bind] at ho
  obtain ⟨operations, next, hm, ho⟩ := outcome_bind_eq_ok_iff.1 ho
  rw [outcome_ask_bind, outcome_log_bind, outcome_pure] at ho
  cases ho
  exact exists_findings_of_ofMountsFrom (Loader.isConsistent_fresh store) hm

end Extraction

end JvmRoutes
