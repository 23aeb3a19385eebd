import JvmRoutes.Proofs.Extraction.Findings
import JvmRoutes.Proofs.Handler.Continuation
import JvmRoutes.Proofs.Loader.Reporting
import JvmRoutes.Proofs.Signature.ParameterList

/-!
Where an extraction from classes in memory fails for a fault that is not told as a message: at a
handler that takes a continuation by its descriptor, and has no parameter by its signature.
-/
namespace JvmRoutes

open Loading

variable {source : ClassStore} {config : Config} {fault : Fault}

/-- Each method of the class has a descriptor that is the type of one. -/
def Class.IsDescribed (c : Class) : Prop :=
  ∀ m ∈ c.methods, ∃ type, Signature.MethodSignature.parse m.descriptor = .ok type

namespace Handler

private theorem exists_ofLineage (config : Config) {classes : List Class}
    (h : ∀ c ∈ classes, c.IsDescribed) : ∃ handlers, ofLineage config classes = .ok handlers := by
  have hall : ∀ m ∈ classes.reverse.flatMap (declared config), ∃ key, m.key? = some key := by
    intro m hm
    obtain ⟨c, hc, hdeclared⟩ := List.mem_flatMap.1 hm
    obtain ⟨type, htype⟩ := h c (List.mem_reverse.1 hc) m (List.mem_filter.1 hdeclared).1
    exact Method.exists_key htype
  obtain ⟨pairs, hpairs⟩ := exists_pairs hall
  unfold ofLineage
  rw [hpairs]
  exact ⟨_, rfl⟩

/-- The handlers of a controller are methods of the source. -/
theorem yields_effective (config : Config) (hs : source.IsReporting)
    (hd : ∀ c ∈ source.candidates, c.IsDescribed) {controller : Class}
    (hc : controller ∈ source.candidates) :
    Yields source (effective config controller)
      fun handlers => ∀ m ∈ handlers.values, ∃ c ∈ source.candidates, m ∈ c.methods := by
  unfold effective
  apply (yields_lineage hs controller).bind
  intro classes hclasses
  have hsub : classes ⊆ source.candidates :=
    List.Subset.trans hclasses (List.cons_subset.2 ⟨hc, List.Subset.refl _⟩)
  obtain ⟨handlers, hhandlers⟩ := exists_ofLineage config fun c h => hd c (hsub h)
  have hmethods : ∀ m ∈ handlers.values, ∃ c ∈ source.candidates, m ∈ c.methods := by
    intro m hm
    obtain ⟨c, hmem, hdeclared⟩ := exists_declared_of_mem_values hhandlers hm
    exact ⟨c, hsub hmem, (List.mem_filter.1 hdeclared).1⟩
  have hfound : Yields source (ofExcept (.ok handlers)) (· = handlers) := yields_pure rfl
  rw [hhandlers]
  apply hfound.bind
  rintro _ rfl
  apply (yields_log _ _).bind
  exact fun _ _ => yields_pure hmethods

end Handler

namespace Extraction

/-- An activity that goes through items fails at one of them, behind others for which it
succeeds. -/
inductive StopsAt {α β : Type} (f : α → Loading (List β)) (Misses : α → Loader → Fault → Prop) :
    List α → Loader → Fault → Prop
  | here {a : α} {rest : List α} {loader : Loader} {fault : Fault} (h : Misses a loader fault) :
    StopsAt f Misses (a :: rest) loader fault
  | behind {a : α} {rest : List α} {part : List β} {loader next : Loader} {fault : Fault}
    (ha : outcome (f a) loader = (.ok part, next)) (h : StopsAt f Misses rest next fault) :
    StopsAt f Misses (a :: rest) loader fault

/-- The inputs of a handler are found, and then it lacks a continuation. -/
def HandlerMisses (config : Config) (m : Method) (loader : Loader) (fault : Fault) : Prop :=
  ∃ arguments next,
    outcome (Handler.arguments config Handler.isLoadedEnum m) loader = (.ok arguments, next) ∧
    ∃ signature, Handler.LacksContinuation config m signature ∧ fault = .noContinuation signature

/-- The handlers of a mount are found, and one of them lacks a continuation, behind others that have
operations. -/
def MountMisses (config : Config) (mount : Mount) (loader : Loader) (fault : Fault) : Prop :=
  ∃ controller middle, outcome (resolve mount.controller) loader = (.ok controller, middle) ∧
    ∃ handlers next,
      outcome (Handler.effective config controller) middle = (.ok handlers, next) ∧
      StopsAt (ofHandler config controller mount.base) (HandlerMisses config) handlers.values next
        fault

private theorem stopsAt_cons_iff {α β : Type} {f : α → Loading (List β)}
    {Misses : α → Loader → Fault → Prop} {a : α} {rest : List α} {loader : Loader} :
    StopsAt f Misses (a :: rest) loader fault ↔ Misses a loader fault ∨
      ∃ part next, outcome (f a) loader = (.ok part, next) ∧ StopsAt f Misses rest next fault := by
  constructor
  · intro h
    cases h with
    | here h => exact .inl h
    | behind ha h => exact .inr ⟨_, _, ha, h⟩
  · rintro (h | ⟨part, next, ha, h⟩)
    · exact .here h
    · exact .behind ha h

/-- Two lists are put together: the second one is looked for with what the first one has left. -/
theorem escapes_append_iff {β : Type} {x y : Loading (List β)} {loader : Loader} :
    Escapes (do
      let first ← x
      return first ++ (← y)) loader fault ↔ Escapes x loader fault ∨
        ∃ first next, outcome x loader = (.ok first, next) ∧ Escapes y next fault := by
  rw [escapes_bind_iff]
  simp only [escapes_bind_pure]

/-- An activity that goes through items escapes from one of them. -/
theorem escapes_collect_iff {α β : Type} {f : α → Loading (List β)}
    {Misses : α → Loader → Fault → Prop} (hf : ∀ a, OnlyFinds (f a))
    (hm : ∀ a loader, loader.Follows source →
      (Escapes (f a) loader fault ↔ Misses a loader fault)) (items : List α) {loader : Loader}
    (hl : loader.Follows source) :
    Escapes (collect f items) loader fault ↔ StopsAt f Misses items loader fault := by
  induction items generalizing loader with
  | nil =>
    apply iff_of_false (not_escapes_pure [])
    rintro ⟨⟩
  | cons a rest ih =>
    rw [stopsAt_cons_iff, ← hm a loader hl, collect, escapes_append_iff]
    refine or_congr Iff.rfl (exists_congr fun part => exists_congr fun next => ?_)
    apply and_congr_right
    intro ha
    exact ih (hl.after (hf a) ha)

theorem isReporting_collect {α β : Type} {f : α → Loading (List β)} (hf : ∀ a, IsReporting (f a))
    (items : List α) : IsReporting (collect f items) := by
  induction items with
  | nil => exact isReporting_pure []
  | cons a rest ih => exact (hf a).bind fun _ => ih.bind fun _ => isReporting_pure _

theorem escapes_ofHandler_iff (hs : source.IsReporting) (controller : Class) (base : Option String)
    (m : Method) (loader : Loader) (hl : loader.Follows source) :
    Escapes (ofHandler config controller base m) loader fault ↔
      HandlerMisses config m loader fault := by
  have harguments :=
    Handler.isReporting_arguments Handler.isReporting_isLoadedEnum config m
  have hmedia := fun types => Route.isReporting_mediaTypes config types controller m
  have hpatterns := Route.isReporting_patterns config controller m
  unfold ofHandler
  rw [escapes_log_bind, (harguments.yields hs).escapes_bind_iff hl]
  refine exists_congr fun arguments => exists_congr fun next => ?_
  apply and_congr_right
  intro ha
  have hnext := hl.after harguments.isSearch.onlyFinds ha
  rw [escapes_bind_left (isSearch_ofExcept _).onlyFinds hnext]
  · exact Handler.result_escapes_iff
  · -- what comes after the type of the result does not escape
    intro result
    apply IsReporting.yields hs
    refine (hmedia _).bind fun produces => (hmedia _).bind fun consumes => ?_
    exact isReporting_collect (fun verb => (hpatterns verb).bind fun _ => isReporting_pure _) _

theorem escapes_ofMount_iff (hs : source.IsReporting)
    (hd : ∀ c ∈ source.candidates, c.IsDescribed) (mount : Mount) (loader : Loader)
    (hl : loader.Follows source) :
    Escapes (ofMount config mount) loader fault ↔ MountMisses config mount loader fault := by
  have hresolve := yields_resolve hs mount.controller
  unfold ofMount
  rw [hresolve.escapes_bind_iff hl]
  refine exists_congr fun controller => exists_congr fun middle => ?_
  apply and_congr_right
  intro hc
  obtain ⟨hmem, hmiddle⟩ := hresolve.of_outcome hl hc
  have heffective := Handler.yields_effective config hs hd hmem
  rw [heffective.escapes_bind_iff hmiddle]
  refine exists_congr fun handlers => exists_congr fun next => ?_
  apply and_congr_right
  intro hh
  have hnext := (heffective.of_outcome hmiddle hh).2
  exact escapes_collect_iff (fun m => (isSearch_ofHandler config controller mount.base m).onlyFinds)
    (escapes_ofHandler_iff hs controller mount.base) handlers.values hnext

theorem escapes_ofMountsFrom_iff (hs : source.IsReporting)
    (hd : ∀ c ∈ source.candidates, c.IsDescribed) (count : Nat) (mounts : List Mount)
    (position : Nat) {loader : Loader} (hl : loader.Follows source) :
    Escapes (ofMountsFrom config position count mounts) loader fault ↔
      StopsAt (ofMount config) (MountMisses config) mounts loader fault := by
  induction mounts generalizing position loader with
  | nil =>
    apply iff_of_false (not_escapes_pure [])
    rintro ⟨⟩
  | cons mount rest ih =>
    rw [stopsAt_cons_iff, ← escapes_ofMount_iff hs hd mount loader hl, ofMountsFrom,
      escapes_log_bind, escapes_append_iff]
    refine or_congr Iff.rfl (exists_congr fun part => exists_congr fun next => ?_)
    apply and_congr_right
    intro ha
    exact ih (position + 1) (hl.after (isSearch_ofMount config mount).onlyFinds ha)

theorem escapes_ofMounts_iff (hs : source.IsReporting)
    (hd : ∀ c ∈ source.candidates, c.IsDescribed) (mounts : List Mount) {loader : Loader}
    (hl : loader.Follows source) :
    Escapes (ofMounts config mounts) loader fault ↔
      StopsAt (ofMount config) (MountMisses config) mounts loader fault := by
  unfold ofMounts announce
  rw [escapes_log_bind, escapes_bind_iff, escapes_ofMountsFrom_iff hs hd _ _ _ hl]
  apply or_iff_left
  rintro ⟨operations, next, -, h⟩
  rw [Escapes, outcome_ask_bind, outcome_log_bind] at h
  exact not_escapes_pure operations h

theorem StopsAt.exists_mem {α β : Type} {f : α → Loading (List β)}
    {Misses : α → Loader → Fault → Prop} (hf : ∀ a, OnlyFinds (f a)) {items : List α}
    {loader : Loader} (h : StopsAt f Misses items loader fault) (hl : loader.Follows source) :
    ∃ a ∈ items, ∃ next : Loader, next.Follows source ∧ Misses a next fault := by
  induction h with
  | here h => exact ⟨_, List.mem_cons_self, _, hl, h⟩
  | behind ha _ ih =>
    obtain ⟨a, hm, h⟩ := ih (hl.after (hf _) ha)
    exact ⟨a, List.mem_cons_of_mem _ hm, h⟩

/-- What lacks a continuation is a method of a class of the source. -/
theorem exists_lacking (hs : source.IsReporting) (hd : ∀ c ∈ source.candidates, c.IsDescribed)
    {mounts : List Mount} {loader : Loader} (hl : loader.Follows source)
    (h : StopsAt (ofMount config) (MountMisses config) mounts loader fault) :
    ∃ c ∈ source.candidates, ∃ m ∈ c.methods, ∃ signature,
      Handler.LacksContinuation config m signature ∧ fault = .noContinuation signature := by
  obtain ⟨mount, -, first, hfirst, controller, middle, hc, handlers, next, hh, h⟩ :=
    h.exists_mem (fun mount => (isSearch_ofMount config mount).onlyFinds) hl
  obtain ⟨hmem, hmiddle⟩ := (yields_resolve hs mount.controller).of_outcome hfirst hc
  obtain ⟨hmethods, hnext⟩ := (Handler.yields_effective config hs hd hmem).of_outcome hmiddle hh
  obtain ⟨m, hm, last, -, arguments, _, -, hlacks⟩ :=
    h.exists_mem (fun m => (isSearch_ofHandler config controller mount.base m).onlyFinds) hnext
  obtain ⟨c, hmem, hmethod⟩ := hmethods m hm
  exact ⟨c, hmem, m, hmethod, hlacks⟩

private theorem mem_of_mem_candidates {classes : List Class} {c : Class}
    (h : c ∈ (ClassStore.ofClasses classes).candidates) : c ∈ classes := by
  obtain ⟨entry, hentry, rfl⟩ := List.mem_map.1 h
  obtain ⟨d, hd, rfl⟩ := List.mem_map.1 (OrderedMap.mem_of_mem_entries_ofList hentry)
  exact hd

/-- An extraction from classes in memory, whose methods have descriptors that are types of methods,
fails for faults that are told as messages, or since a method of theirs lacks a continuation. The
latter it does exactly if it meets such a method among the handlers of a mount, behind mounts and
handlers that have operations. -/
theorem run_escapes_iff (config : Config) (mounts : List Mount) {classes : List Class}
    (hd : ∀ c ∈ classes, c.IsDescribed) (fault : Fault) :
    ((run config mounts (.ofClasses classes)).1.result = .error fault →
      fault.isReported = true ∨ ∃ c ∈ classes, ∃ m ∈ c.methods, ∃ signature,
        Handler.LacksContinuation config m signature ∧ fault = .noContinuation signature) ∧
    ((run config mounts (.ofClasses classes)).1.result = .error fault ∧ fault.isReported = false ↔
      StopsAt (ofMount config) (MountMisses config) mounts { store := .ofClasses classes }
        fault) := by
  have hs : (ClassStore.ofClasses classes).IsReporting := nofun
  have hdescribed : ∀ c ∈ (ClassStore.ofClasses classes).candidates, c.IsDescribed :=
    fun c hc => hd c (mem_of_mem_candidates hc)
  have hl : Loader.Follows (.ofClasses classes) { store := .ofClasses classes } :=
    Loader.follows_fresh trivial
  have hiff : (run config mounts (.ofClasses classes)).1.result = .error fault ∧
      fault.isReported = false ↔
        StopsAt (ofMount config) (MountMisses config) mounts { store := .ofClasses classes }
          fault :=
    escapes_ofMounts_iff hs hdescribed mounts hl
  refine ⟨?_, hiff⟩
  intro h
  cases hf : fault.isReported with
  | true => exact .inl rfl
  | false =>
    obtain ⟨c, hc, hlacks⟩ := exists_lacking hs hdescribed hl (hiff.1 ⟨h, hf⟩)
    exact .inr ⟨c, mem_of_mem_candidates hc, hlacks⟩

/-- A class with a handler that takes a continuation by its descriptor only. -/
def suspending : Class where
  name := "A"
  methods := [
    { name := "f"
      descriptor := "(Lkotlin/coroutines/Continuation;)Ljava/lang/Object;"
      signature := some "()Ljava/lang/String;"
      parameters := [{ name := "c" }]
      locals := [{ name := "c", descriptor := "Lkotlin/coroutines/Continuation;", slot := 1 }]
      visible := [
        { typeName := "io.jooby.annotations.GET", values := ⟨[("value", .text "/f")]⟩ }] }]

theorem run_escapes_suspending :
    (run {} [{ controller := "A" }] (.ofClasses [suspending])).1.result =
      .error (.noContinuation "()Ljava/lang/String;") ∧
    StopsAt (ofMount {}) (MountMisses {}) [{ controller := "A" }]
      { store := .ofClasses [suspending] } (.noContinuation "()Ljava/lang/String;") := by
  have hd : ∀ c ∈ [suspending], c.IsDescribed := by
    intro c hc m hm
    obtain rfl := List.mem_singleton.1 hc
    obtain rfl := List.mem_singleton.1 hm
    exact ⟨_, rfl⟩
  have hmap :
      (run {} [{ controller := "A" }] (.ofClasses [suspending])).1.result.map (fun _ => ()) =
        .error (.noContinuation "()Ljava/lang/String;") := by decide +kernel
  have h := map_eq_error_iff.1 hmap
  exact ⟨h, (run_escapes_iff {} [{ controller := "A" }] hd _).2.1 ⟨h, rfl⟩⟩

end Extraction

end JvmRoutes
