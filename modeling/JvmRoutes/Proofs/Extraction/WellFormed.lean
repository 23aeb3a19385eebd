import JvmRoutes.Proofs.Extraction.Findings
import JvmRoutes.Proofs.Handler.Inputs
import JvmRoutes.Proofs.Route.Path

/-!
What holds of every operation that an extraction comes to, whatever annotations its classes have.
-/
namespace JvmRoutes

namespace Extraction

open Loading Handler

variable {config : Config} {first last : Loader} {controller : Class} {o : Operation}

/-- An operation has a path in normal form with its keys, a known verb, and inputs that stem from a
method. Each parameter stands where the name of one can stand, and is required in the path and
with a primitive type. -/
structure IsWellFormed (config : Config) (controller : Class) (m : Method) (o : Operation) :
    Prop where
  controller_eq : o.controller = controller.name
  method_eq : o.method = m.name ++ m.descriptor
  pattern : Route.IsNormal o.pattern
  keys : o.keys = Route.keys o.pattern
  verb : o.verb = Route.defaultVerb ∨ ∃ verb ∈ config.verbs, o.verb = Text.upper verb
  location : ∀ q ∈ o.parameters, q.location ∈ namedLocations
  required : ∀ q ∈ o.parameters, q.location = .path ∨ q.type ∈ config.primitiveTypes →
    q.required = true
  stems : ∃ hasContinuation asked, StemsFrom config m o.arguments hasContinuation asked

private theorem upper_defaultVerb : Text.upper Route.defaultVerb = Route.defaultVerb := by
  decide +kernel

theorem keys_operation (h : Operation.Handling) (base : Option String) (verb path : String) :
    (h.operation base verb path).keys = Route.keys (h.operation base verb path).pattern := by
  unfold Operation.Handling.operation
  dsimp only

theorem isWellFormed_operation (hv : ∀ verb ∈ config.verbs, '.' ∉ verb.toList)
    {h : Operation.Handling} (hh : IsHandling config first controller h) {base : Option String}
    {verb path : String} (hverb : verb ∈ Route.verbs config h.method) :
    IsWellFormed config controller h.method (h.operation base verb path) := by
  obtain ⟨hasContinuation, asked, hc, hasked, harguments⟩ :=
    exists_asked_of_arguments isReporting_isLoadedEnum hh.arguments
  have hstems := stemsFrom_of_askedOf hc hasked
  rw [← harguments] at hstems
  have hasks : ∀ q ∈ h.arguments.parameters, ∃ p t, Asks config p t (some (.parameter q)) := by
    intro q hq
    obtain ⟨a, ha, hi, -⟩ := hstems.parameter q hq
    exact ⟨a.formal, a.type, hi ▸ hasked.asks a ha⟩
  exact
    { controller_eq := congrArg Class.name hh.controller_eq
      method_eq := rfl
      pattern := Route.isNormal_join base (some path)
      keys := keys_operation h base verb path
      verb := by
        rcases Route.eq_default_or_mem_of_mem_verbs hv hverb with rfl | hm
        · exact .inl upper_defaultVerb
        · exact .inr ⟨verb, hm, rfl⟩
      location := by
        intro q hq
        obtain ⟨p, t, ha⟩ := hasks q hq
        obtain ⟨hl, rfl⟩ := ha.eq_of_parameter
        exact hl
      required := by
        intro q hq hr
        obtain ⟨p, t, ha⟩ := hasks q hq
        exact ha.required hr
      stems := ⟨hasContinuation, asked, hstems⟩ }

/-- Every operation of an extraction that succeeds is well formed. It belongs to a handler of the
controller of one of the mounts. -/
theorem isWellFormed_of_run (config : Config) (mounts : List Mount) (store : ClassStore)
    (hv : ∀ verb ∈ config.verbs, '.' ∉ verb.toList) {operations : List Operation}
    (h : (run config mounts store).1.result = .ok operations) :
    let last := (ofMounts config mounts { store }).2
    ∀ o ∈ operations, ∃ mount ∈ mounts, ∃ controller handlers,
      outcome (resolve mount.controller) last = (.ok controller, last) ∧
      outcome (effective config controller) last = (.ok handlers, last) ∧
      ∃ m ∈ handlers.values, IsWellFormed config controller m o := by
  intro last o ho
  have hlast : last.IsConsistent :=
    ((Loader.isConsistent_fresh store).after (onlyFinds_ofMounts config mounts) rfl).1
  obtain ⟨findings, hmounts, hfound, rfl⟩ := exists_findings h
  obtain ⟨found, hm, ho⟩ := List.mem_flatMap.1 ho
  obtain ⟨handling, hh, ho⟩ := List.mem_flatMap.1 ho
  obtain ⟨verb, hverb, ho⟩ := List.mem_flatMap.1 ho
  obtain ⟨path, -, rfl⟩ := List.mem_map.1 ho
  have hf := hfound found hm
  refine ⟨found.mount, hmounts ▸ List.mem_map.2 ⟨found, hm, rfl⟩, found.controller,
    found.handlers, outcome_resolve_of_loaded hf.controller,
    outcome_effective_of_holds hf.holds hlast hf.handlers, handling.method,
    hf.methods ▸ List.mem_map.2 ⟨handling, hh, rfl⟩, ?_⟩
  exact isWellFormed_operation hv (hf.handlings handling hh) hverb

/-- A controller with a handler that takes a key of the path, the context of the request, and its
body. -/
def oneHandler : ClassStore :=
  .memory ⟨[("A",
    { name := "A"
      methods := [
        { name := "f"
          descriptor := "(ILio/jooby/Context;La/B;)V"
          parameters := [
            { name := "id", visible := [{ typeName := "javax.ws.rs.PathParam" }] },
            { name := "context" },
            { name := "b" }]
          locals := [
            { name := "id", descriptor := "I" },
            { name := "context", descriptor := "Lio/jooby/Context;" },
            { name := "b", descriptor := "La/B;" }]
          visible := [
            { typeName := "javax.ws.rs.POST" },
            { typeName := "javax.ws.rs.Path", values := ⟨[("value", .text "b//\x7bid\x7d/")]⟩ }] }] })]⟩

theorem isWellFormed_of_run_oneHandler :
    (∀ verb ∈ ({} : Config).verbs, '.' ∉ verb.toList) ∧
    ∃ operations, (run {} [{ controller := "A" }] oneHandler).1.result = .ok operations ∧
      operations.map (fun o => (o.verb, o.pattern, o.keys)) = [("POST", "/b/\x7bid\x7d", ["id"])] ∧
      ∀ o ∈ operations, ∃ controller m, IsWellFormed {} controller m o := by
  have hv : ∀ verb ∈ ({} : Config).verbs, '.' ∉ verb.toList := by decide
  have hsome : (run {} [{ controller := "A" }] oneHandler).1.result.toOption.map
      (·.map fun o => (o.verb, o.pattern, o.keys)) = some [("POST", "/b/\x7bid\x7d", ["id"])] := by
    decide +kernel
  refine ⟨hv, ?_⟩
  cases hr : (run {} [{ controller := "A" }] oneHandler).1.result with
  | error fault =>
    rw [hr] at hsome
    contradiction
  | ok operations =>
    rw [hr] at hsome
    refine ⟨operations, rfl, Option.some.inj hsome, ?_⟩
    intro o ho
    obtain ⟨mount, -, controller, handlers, -, -, m, -, hm⟩ :=
      isWellFormed_of_run {} [{ controller := "A" }] oneHandler hv hr o ho
    exact ⟨controller, m, hm⟩

end Extraction

end JvmRoutes
