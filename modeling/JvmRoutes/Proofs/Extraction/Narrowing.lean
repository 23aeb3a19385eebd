import JvmRoutes.Proofs.Handler.Overriding
import JvmRoutes.Proofs.Loader.Agreement

/-!
An extraction that knows fewer verbs. Its operations are some of those with all verbs, except where
a handler has only such verbs as it does not know: such a method gives way to the one it overrides,
and with a path marker it is served for the default verb.
-/
namespace JvmRoutes

/-- An operation with fewer verbs that the same method need not have with all of them: another
method has taken its place, or the method is served for the default verb, although its markers name
others. -/
inductive Operation.IsSubstitute (config : Config) (narrow : List String)
    (handlers : OrderedMap Method) (m : Method) (o : Operation) : Prop
  | replaced (n : Method) (h : Handler.IsReplaced config narrow handlers m n)
  | default (verb_eq : o.verb = Text.upper Route.defaultVerb)
    (h : Route.IsDefaulted config narrow m)

namespace Handler

theorem inputs_narrow (config : Config) (narrow : List String) (isEnum : String → Loading Bool)
    (m : Method) (hasContinuation : Bool) (parameters : List FormalParameter) :
    inputs { config with verbs := narrow } isEnum m hasContinuation parameters =
      inputs config isEnum m hasContinuation parameters := by
  induction parameters with
  | nil => rfl
  | cons p rest ih =>
    unfold inputs
    rw [ih]
    rfl

theorem arguments_narrow (config : Config) (narrow : List String)
    (isEnum : String → Loading Bool) (m : Method) :
    arguments { config with verbs := narrow } isEnum m = arguments config isEnum m := by
  unfold arguments
  simp only [inputs_narrow]
  rfl

end Handler

namespace Extraction

open Loading

variable {config : Config} {narrow : List String} {store source : ClassStore}
  {first last last' : Loader} {mounts : List Mount}

/-- Nothing that is found out about a handler depends on the verbs. -/
theorem IsHandling.of_narrow {c : Class} {h : Operation.Handling}
    (hh : IsHandling { config with verbs := narrow } first c h) : IsHandling config first c h where
  controller_eq := hh.controller_eq
  arguments := Handler.arguments_narrow config narrow _ h.method ▸ hh.arguments
  results := hh.results
  produces := hh.produces
  consumes := hh.consumes

theorem IsHandling.unique {c : Class} {h h' : Operation.Handling} (hh : IsHandling config first c h)
    (hh' : IsHandling config first c h') (hm : h.method = h'.method) (hf : first.Follows source)
    (hc : first.IsConsistent) : h = h' := by
  have hmedia := fun types => (Route.isReporting_mediaTypes config types c h.method).isSearch
  have harguments := Handler.isReporting_arguments Handler.isReporting_isLoadedEnum config h.method
  obtain ⟨⟨result, hresult, hresults⟩, ⟨result', hresult', hresults'⟩⟩ := hh.results, hh'.results
  obtain ⟨controller, method, arguments, results, produces, consumes⟩ := h
  obtain ⟨controller', _, arguments', results', produces', consumes'⟩ := h'
  obtain rfl : method = _ := hm
  obtain rfl : controller = controller' := hh.controller_eq.trans hh'.controller_eq.symm
  obtain rfl : arguments = arguments' :=
    hh.arguments.unique hh'.arguments harguments.isSearch hf hc
  obtain rfl : produces = produces' := hh.produces.unique hh'.produces (hmedia _) hf hc
  obtain rfl : consumes = consumes' := hh.consumes.unique hh'.consumes (hmedia _) hf hc
  obtain rfl : result = result' := Except.ok.inj (hresult.symm.trans hresult')
  obtain rfl : results = results' := hresults.trans hresults'.symm
  rfl

/-- Two extractions over one source find the same controller and the same classes above it. -/
theorem IsFound.unique_way {config config' : Config} {found found' : Finding}
    (h : IsFound config first last found) (h' : IsFound config' first last' found')
    (hroots : config'.rootTypes = config.rootTypes) (hm : found'.mount = found.mount)
    (hf : last.Follows source) (hf' : last'.Follows source) :
    found'.controller = found.controller ∧ found'.above = found.above := by
  have hanswer := hf.loaded _ _ h.controller
  have hanswer' := hf'.loaded _ _ h'.controller
  rw [hm] at hanswer'
  have hc := Option.some.inj (Except.ok.inj (hanswer'.symm.trans hanswer))
  have hholds := h'.holds
  rw [hroots, hc] at hholds
  exact ⟨hc, hholds.unique h.holds hf' hf⟩

private theorem mem_operationsOn {way : List Class} {base : Option String} {h : Operation.Handling}
    {verb path : String} (hv : verb ∈ Route.verbs config h.method)
    (hp : path ∈ Route.pathsOn way h.method verb) :
    h.operation base verb path ∈ operationsOn config way base h :=
  List.mem_flatMap.2 ⟨verb, hv, List.mem_map.2 ⟨path, hp, rfl⟩⟩

/-- The operations of a mount with fewer verbs are among those with all, or they are substitutes. -/
theorem IsFound.mem_operations (hsub : narrow ⊆ config.verbs) {found few : Finding}
    (h : IsFound config first last found)
    (h' : IsFound { config with verbs := narrow } first last' few) (hm : few.mount = found.mount)
    (hf : first.Follows source) (hc : first.IsConsistent) (hlast : last.Follows source)
    (hlast' : last'.Follows source) {o : Operation}
    (ho : o ∈ few.operations { config with verbs := narrow }) :
    o ∈ found.operations config ∨ ∃ m ∈ few.handlers.values,
      o.controller = found.controller.name ∧ o.method = m.name ++ m.descriptor ∧
        o.IsSubstitute config narrow found.handlers m := by
  obtain ⟨hcontroller, habove⟩ := h.unique_way h' rfl hm hlast hlast'
  have hhandlers' := h'.handlers
  rw [hcontroller, habove] at hhandlers'
  unfold Finding.operations at ho ⊢
  rw [hcontroller, habove, hm] at ho
  obtain ⟨handling, hh, ho⟩ := List.mem_flatMap.1 ho
  obtain ⟨verb, hverb, ho⟩ := List.mem_flatMap.1 ho
  obtain ⟨path, hpath, rfl⟩ := List.mem_map.1 ho
  have hname : handling.controller.name = found.controller.name :=
    hcontroller ▸ congrArg Class.name (h'.handlings handling hh).controller_eq
  have hvalue : handling.method ∈ few.handlers.values :=
    h'.methods ▸ List.mem_map.2 ⟨handling, hh, rfl⟩
  have hroute := Route.isRoute_of_narrow hsub (Handler.isRoute_of_mem_values hhandlers' hvalue)
  rcases Handler.mem_values_of_narrow hsub hhandlers' h.handlers hvalue with hkept | ⟨n, hn⟩
  · rcases Route.mem_verbs_of_narrow hsub hroute hverb with hv | ⟨rfl, hdefault⟩
    · -- the method is a handler with all verbs, and what has been found out about it is the same
      left
      rw [← h.methods] at hkept
      obtain ⟨other, hother, hmethod⟩ := List.mem_map.1 hkept
      have hhandling := (h'.handlings handling hh).of_narrow
      rw [hcontroller] at hhandling
      obtain rfl := (h.handlings other hother).unique hhandling hmethod hf hc
      exact List.mem_flatMap.2 ⟨other, hother, mem_operationsOn hv hpath⟩
    · exact .inr ⟨handling.method, hvalue, hname, rfl, .default rfl hdefault⟩
  · exact .inr ⟨handling.method, hvalue, hname, rfl, .replaced n hn⟩

/-- What an extraction has found is known after some lookups. -/
theorem exists_findings_after {all : List Operation}
    (h : (run config mounts store).1.result = .ok all) :
    ∃ (names : List String) (findings : List Finding), findings.map (·.mount) = mounts ∧
      (∀ found ∈ findings,
        IsFound config { store } (Loader.afterFinds { store } names) found) ∧
      all = findings.flatMap (·.operations config) := by
  obtain ⟨findings, hmounts, hfound, hall⟩ := exists_findings h
  obtain ⟨names, hlast⟩ := onlyFinds_ofMounts config mounts { store }
  refine ⟨names, findings, hmounts, ?_, hall⟩
  rw [← hlast]
  exact hfound

theorem IsFound.comesTo {found : Finding} {names : List String}
    (h : IsFound config first (first.afterFinds names) found) (hc : first.IsConsistent) :
    ComesTo first (resolve found.mount.controller) found.controller ∧
      ComesTo first (Handler.effective config found.controller) found.handlers := by
  have hlast := (hc.afterFinds names).1
  constructor
  · exact (comesTo_of_outcome (outcome_resolve_of_loaded h.controller)).mono
  · exact (comesTo_of_outcome (Handler.outcome_effective_of_holds h.holds hlast h.handlers)).mono

/-- When extractions of the same mounts succeed with all verbs and with fewer ones, each operation
with the fewer verbs is one with all. The exceptions are the methods that the source has marked with
verbs that are not known any more: those that such a method overrides come in its place, and such a
method with a path marker is served for the default verb. -/
theorem mem_run_of_narrow (config : Config) {narrow : List String} (hsub : narrow ⊆ config.verbs)
    (mounts : List Mount) {store : ClassStore} (hf : store.IsFaithful)
    {few all : List Operation}
    (hfew : (run { config with verbs := narrow } mounts store).1.result = .ok few)
    (hall : (run config mounts store).1.result = .ok all) :
    ∀ o ∈ few, o ∈ all ∨ ∃ mount ∈ mounts, ∃ controller fewHandlers handlers,
      ComesTo { store } (resolve mount.controller) controller ∧
      ComesTo { store } (Handler.effective { config with verbs := narrow } controller)
        fewHandlers ∧
      ComesTo { store } (Handler.effective config controller) handlers ∧
      ∃ m ∈ fewHandlers.values, o.controller = controller.name ∧
        o.method = m.name ++ m.descriptor ∧ o.IsSubstitute config narrow handlers m := by
  intro o ho
  have hc := Loader.isConsistent_fresh store
  have hfollows := Loader.follows_fresh hf
  obtain ⟨names, findings, hmounts, hfound, rfl⟩ := exists_findings_after hall
  obtain ⟨names', others, hmounts', hothers, rfl⟩ := exists_findings_after hfew
  obtain ⟨other, hother, ho⟩ := List.mem_flatMap.1 ho
  have hmount : other.mount ∈ mounts := hmounts' ▸ List.mem_map.2 ⟨other, hother, rfl⟩
  obtain ⟨found, hm, hsame⟩ := List.mem_map.1 (hmounts ▸ hmount)
  have hlast := hfollows.afterFinds names
  have hlast' := hfollows.afterFinds names'
  rcases (hfound found hm).mem_operations hsub (hothers other hother) hsame.symm hfollows hc hlast
    hlast' ho with hkept | ⟨m, hvalue, hname, hmethod, hsubstitute⟩
  · exact .inl (List.mem_flatMap.2 ⟨found, hm, hkept⟩)
  · obtain ⟨hresolve, heffective⟩ := (hfound found hm).comesTo hc
    obtain ⟨-, heffective'⟩ := (hothers other hother).comesTo hc
    have hway := (hfound found hm).unique_way (hothers other hother) rfl hsame.symm hlast hlast'
    have hcontroller := hway.1
    rw [hcontroller] at heffective'
    rw [hsame] at hresolve
    exact .inr ⟨other.mount, hmount, found.controller, other.handlers, found.handlers, hresolve,
      heffective', heffective, m, hvalue, hname, hmethod, hsubstitute⟩

/-- A class that overrides one handler of its superclass for another verb, has one with a path
marker beside its verb, and one with a verb alone. -/
def markedClasses : ClassStore :=
  .memory ⟨[("A",
    { name := "A"
      superclass := some "B"
      methods := [
        { name := "f", descriptor := "()V"
          visible := [{ typeName := "io.jooby.annotations.POST" }] },
        { name := "g", descriptor := "()V"
          visible := [
            { typeName := "io.jooby.annotations.Path", values := ⟨[("value", .text "/g")]⟩ },
            { typeName := "io.jooby.annotations.POST" }] },
        { name := "h", descriptor := "()V"
          visible := [
            { typeName := "io.jooby.annotations.GET", values := ⟨[("value", .text "/h")]⟩ }] }] }),
    ("B",
      { name := "B"
        methods := [
          { name := "f", descriptor := "()V"
            visible := [{ typeName := "io.jooby.annotations.GET" }] }] })]⟩

def servedBy (name verb pattern : String) : Operation :=
  { verb, pattern, results := ["void"], name, controller := "A", method := name ++ "()V" }

private theorem result_run_markedClasses :
    (run {} [{ controller := "A" }] markedClasses).1.result =
      .ok [servedBy "f" "POST" "/", servedBy "g" "POST" "/g", servedBy "h" "GET" "/h"] := by
  rfl

private theorem result_run_markedClasses_narrow :
    (run { verbs := ["GET"] } [{ controller := "A" }] markedClasses).1.result =
      .ok [servedBy "f" "GET" "/", servedBy "g" "GET" "/g", servedBy "h" "GET" "/h"] := by
  rfl

/-- With fewer verbs there can be operations that there are not with all of them: one of a method
that is overridden with all verbs, and one for the default verb. -/
theorem exceeds_run_of_narrow :
    ["GET"] ⊆ ({} : Config).verbs ∧
    ∃ few all : List Operation,
      (run { verbs := ["GET"] } [{ controller := "A" }] markedClasses).1.result = .ok few ∧
      (run {} [{ controller := "A" }] markedClasses).1.result = .ok all ∧
      ∀ o ∈ [servedBy "f" "GET" "/", servedBy "g" "GET" "/g"], o ∈ few ∧
        ∀ o' ∈ all, ¬ (o'.controller = o.controller ∧ o'.method = o.method ∧ o'.verb = o.verb ∧
          o'.pattern = o.pattern) := by
  refine ⟨by decide, _, _, result_run_markedClasses_narrow, result_run_markedClasses, ?_⟩
  simp [servedBy]

theorem mem_run_of_narrow_markedClasses :
    ["GET"] ⊆ ({} : Config).verbs ∧ markedClasses.IsFaithful ∧
    ∀ o ∈ [servedBy "f" "GET" "/", servedBy "g" "GET" "/g", servedBy "h" "GET" "/h"],
      o ∈ [servedBy "f" "POST" "/", servedBy "g" "POST" "/g", servedBy "h" "GET" "/h"] ∨
        ∃ handlers m, o.method = m.name ++ m.descriptor ∧ o.IsSubstitute {} ["GET"] handlers m := by
  have hsub : ["GET"] ⊆ ({} : Config).verbs := by decide
  have hf : markedClasses.IsFaithful := trivial
  refine ⟨hsub, hf, ?_⟩
  intro o ho
  apply (mem_run_of_narrow {} hsub _ hf result_run_markedClasses_narrow result_run_markedClasses
    o ho).imp_right
  rintro ⟨-, -, -, -, handlers, -, -, -, m, -, -, hmethod, hsubstitute⟩
  exact ⟨handlers, m, hmethod, hsubstitute⟩

end Extraction

end JvmRoutes
