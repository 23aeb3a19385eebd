import JvmRoutes.Proofs.Extraction.Findings

/-!
No route is lost, invented or doubled: the operations of a mount are those of its handlers, for
each of their verbs and each of their paths for that verb.
-/
namespace JvmRoutes

namespace Route

/-- The verbs of a method are at least one, none comes twice, and the name of path markers is none
of them. Path markers alone stand for the default verb. -/
structure HasVerbs (config : Config) (m : Method) : Prop where
  isRoute : isRoute config m = true
  ne_nil : verbs config m ≠ []
  nodup : (verbs config m).Nodup
  pathName_not_mem : Marker.pathName ∉ verbs config m
  pathMarkers :
    (∀ a ∈ m.visible, a.typeName ∈ Marker.ofRoutes config.verbs → a.typeName ∈ pathMarkers) →
      verbs config m = [defaultVerb]

theorem hasVerbs_of_isRoute {config : Config} {m : Method} (h : isRoute config m = true) :
    HasVerbs config m :=
  ⟨h, verbs_ne_nil h, nodup_verbs config m, pathName_not_mem_verbs config m,
    verbs_of_pathMarkers h⟩

end Route

namespace Extraction

open Loading

variable {config : Config} {first last : Loader} {found : Finding}

/-- A handler, one of its verbs, and one of its paths for that verb. -/
structure Triple where
  handling : Operation.Handling
  verb : String
  path : String

/-- The triples of a handler: verb by verb, and path by path. -/
def triples (config : Config) (paths : Method → String → List String) (h : Operation.Handling) :
    List Triple :=
  (Route.verbs config h.method).flatMap fun verb => (paths h.method verb).map (⟨h, verb, ·⟩)

def Triple.operation (base : Option String) (t : Triple) : Operation :=
  t.handling.operation base t.verb t.path

/-- The operations of a mount are those of the triples of its handlers, in their order and one for
each. What the controller, its handlers and their paths are, the last loader knows. -/
structure Corresponds (config : Config) (first last : Loader) (found : Finding)
    (pathsOf : Method → String → List String) (operations : List Operation) : Prop where
  controller : outcome (resolve found.mount.controller) last = (.ok found.controller, last)
  handlers :
    outcome (Handler.effective config found.controller) last = (.ok found.handlers, last)
  methods : found.handlings.map (·.method) = found.handlers.values
  handlings : ∀ h ∈ found.handlings, IsHandling config first found.controller h
  verbs : ∀ m ∈ found.handlers.values, Route.HasVerbs config m
  paths : ∀ m ∈ found.handlers.values, ∀ verb ∈ Route.verbs config m, pathsOf m verb ≠ [] ∧
    outcome (Route.patterns config found.controller m verb) last = (.ok (pathsOf m verb), last)
  operations_eq : operations =
    (found.handlings.flatMap (triples config pathsOf)).map (·.operation found.mount.base)
  count : ∀ h ∈ found.handlings, 0 < (triples config pathsOf h).length ∧
    (triples config pathsOf h).length =
      ((Route.verbs config h.method).map fun verb => (pathsOf h.method verb).length).sum
  shared : ∀ h ∈ found.handlings, ∀ t ∈ triples config pathsOf h,
    (t.operation found.mount.base).arguments = h.arguments ∧
      (t.operation found.mount.base).results = h.results ∧
      (t.operation found.mount.base).produces = h.produces ∧
      (t.operation found.mount.base).consumes = h.consumes ∧
      (t.operation found.mount.base).deprecated = Route.isDeprecated h.method

private theorem length_triples (config : Config) (paths : Method → String → List String)
    (h : Operation.Handling) : (triples config paths h).length =
      ((Route.verbs config h.method).map fun verb => (paths h.method verb).length).sum := by
  simp [triples, List.length_flatMap]

private theorem handling_of_mem_triples {paths : Method → String → List String}
    {h : Operation.Handling} {t : Triple} (ht : t ∈ triples config paths h) : t.handling = h := by
  obtain ⟨verb, -, ht⟩ := List.mem_flatMap.1 ht
  obtain ⟨path, -, rfl⟩ := List.mem_map.1 ht
  rfl

private theorem map_operation_triples (config : Config) (way : List Class) (base : Option String)
    (h : Operation.Handling) : (triples config (Route.pathsOn way) h).map (·.operation base) =
      operationsOn config way base h := by
  unfold triples operationsOn
  rw [List.map_flatMap]
  simp only [List.map_map]
  rfl

theorem triples_ne_nil (way : List Class) {h : Operation.Handling}
    (hv : Route.verbs config h.method ≠ []) : triples config (Route.pathsOn way) h ≠ [] := by
  obtain ⟨verb, hverb⟩ := List.exists_mem_of_ne_nil _ hv
  obtain ⟨path, hpath⟩ := List.exists_mem_of_ne_nil _ (Route.pathsOn_ne_nil way h.method verb)
  have ht : (⟨h, verb, path⟩ : Triple) ∈ triples config (Route.pathsOn way) h :=
    List.mem_flatMap.2 ⟨verb, hverb, List.mem_map.2 ⟨path, hpath, rfl⟩⟩
  exact List.ne_nil_of_mem ht

theorem corresponds_of_isFound (hc : last.IsConsistent) (h : IsFound config first last found) :
    Corresponds config first last found (Route.pathsOn (found.controller :: found.above))
      (found.operations config) where
  controller := outcome_resolve_of_loaded h.controller
  handlers := Handler.outcome_effective_of_holds h.holds hc h.handlers
  methods := h.methods
  handlings := h.handlings
  verbs m hm := Route.hasVerbs_of_isRoute (Handler.isRoute_of_mem_values h.handlers hm)
  paths m hm verb hv :=
    ⟨Route.pathsOn_ne_nil _ m verb, Route.outcome_patterns_of_holds h.holds hc m verb⟩
  operations_eq := by
    unfold Finding.operations
    rw [List.map_flatMap]
    simp only [map_operation_triples]
  count handling hm := by
    have hmethod : handling.method ∈ found.handlers.values :=
      h.methods ▸ List.mem_map.2 ⟨handling, hm, rfl⟩
    have hroute := Handler.isRoute_of_mem_values h.handlers hmethod
    have hne := triples_ne_nil (found.controller :: found.above) (Route.verbs_ne_nil hroute)
    exact ⟨List.length_pos_iff.2 hne, length_triples config _ handling⟩
  shared handling hm t ht := by
    obtain rfl := handling_of_mem_triples ht
    exact ⟨rfl, rfl, rfl, rfl, rfl⟩

/-- When an extraction succeeds, its operations are those of its mounts one after another, and
those of each mount correspond to the triples of handlers, verbs and paths. -/
theorem corresponds_of_run (config : Config) (mounts : List Mount) (store : ClassStore)
    {operations : List Operation} (h : (run config mounts store).1.result = .ok operations) :
    ∃ parts : List (List Operation), operations = parts.flatten ∧
      List.Forall₂ (fun mount part => ∃ found pathsOf, found.mount = mount ∧
        Corresponds config { store } (ofMounts config mounts { store }).2 found pathsOf part)
        mounts parts := by
  obtain ⟨findings, rfl, hfound, rfl⟩ := exists_findings h
  -- all questions are put to the last loader, which is consistent as every loader of a pass is
  have hfresh := Loader.isConsistent_fresh store
  have hlast := (hfresh.after (onlyFinds_ofMounts config (findings.map (·.mount))) rfl).1
  refine ⟨findings.map (·.operations config), List.flatMap_def .., ?_⟩
  rw [List.forall₂_map_left_iff, List.forall₂_map_right_iff, List.forall₂_same]
  intro found hm
  exact ⟨found, _, rfl, corresponds_of_isFound hlast (hfound found hm)⟩

/-- A controller with one handler, which has two paths for its only verb. -/
def oneController : ClassStore :=
  .memory ⟨[("A",
    { name := "A"
      methods := [
        { name := "f"
          descriptor := "()V"
          visible := [
            { typeName := "io.jooby.annotations.GET"
              values := ⟨[("value", .array [.text "/b", .text "c/"])]⟩ }] }] })]⟩

def operationOn (pattern : String) : Operation :=
  { verb := "GET", pattern, results := ["void"], name := "f", controller := "A", method := "f()V" }

theorem corresponds_of_run_oneController :
    (run {} [{ controller := "A", base := some "x" }] oneController).1.result =
      .ok [operationOn "/x/b", operationOn "/x/c"] ∧
    ∃ found pathsOf, found.mount = { controller := "A", base := some "x" } ∧
      Corresponds {} { store := oneController }
        (ofMounts {} [{ controller := "A", base := some "x" }] { store := oneController }).2
        found pathsOf [operationOn "/x/b", operationOn "/x/c"] := by
  have h : (run {} [{ controller := "A", base := some "x" }] oneController).1.result =
      .ok [operationOn "/x/b", operationOn "/x/c"] := by rfl
  refine ⟨h, ?_⟩
  obtain ⟨parts, hall, hparts⟩ := corresponds_of_run {} _ oneController h
  obtain ⟨part, rest, hpart, hrest, rfl⟩ := List.forall₂_cons_left_iff.1 hparts
  obtain rfl := List.forall₂_nil_left_iff.1 hrest
  obtain rfl : part = _ := (List.append_nil part).symm.trans hall.symm
  exact hpart

end Extraction

end JvmRoutes
