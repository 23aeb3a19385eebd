import JvmRoutes.Proofs.Handler.Overriding
import JvmRoutes.Proofs.Loader.Reserve

/-!
Which methods are the handlers of a controller, and in which order. A key has the place of the first
method that has it from the root down, and stands for the last one; methods without a marker of a
route make no difference to either.
-/
namespace JvmRoutes.Handler

open Loading

variable {config : Config} {classes : List Class} {handlers : OrderedMap Method} {m : Method}
  {methods front back : List Method} {key : String}

/-- The methods of classes of which the last is the one farthest up: those of that one first, and
those of each class in their order. -/
def methodsDown (classes : List Class) : List Method := classes.reverse.flatMap (·.methods)

/-- A method is marked if programs see an annotation of a path or of a verb on it. -/
def IsMarked (config : Config) (m : Method) : Prop :=
  ∃ a ∈ m.visible, a.typeName ∈ Route.pathMarkers ∨
    ∃ verb ∈ config.verbs, ∃ package ∈ Marker.allPackages, a.typeName = package ++ "." ++ verb

instance (config : Config) (m : Method) : Decidable (IsMarked config m) :=
  inferInstanceAs (Decidable (∃ _ ∈ m.visible, _))

theorem mem_ofRoutes_iff {verbs : List String} {type : String} :
    type ∈ Marker.ofRoutes verbs ↔ type ∈ Route.pathMarkers ∨
      ∃ verb ∈ verbs, ∃ package ∈ Marker.allPackages, type = package ++ "." ++ verb := by
  unfold Marker.ofRoutes
  rw [List.mem_append, List.mem_flatMap]
  simp only [Marker.inAllPackages, Marker.within, List.mem_map, eq_comm, Route.pathMarkers]

theorem isRoute_eq_isMarked (config : Config) (m : Method) :
    Route.isRoute config m = decide (IsMarked config m) := by
  rw [Bool.eq_iff_iff, decide_eq_true_iff]
  unfold Route.isRoute Marker.present IsMarked
  simp only [List.any_eq_true, List.contains_iff_mem, mem_ofRoutes_iff]

private theorem flatMap_declared (config : Config) (classes : List Class) :
    classes.reverse.flatMap (declared config) =
      (methodsDown classes).filter fun m => IsMarked config m := by
  unfold methodsDown declared
  rw [List.filter_flatMap]
  apply List.flatMap_congr
  intro c _
  exact List.filter_congr fun m _ => isRoute_eq_isMarked config m

/-- Handlers are the marked ones among methods from the root down. Their keys come in the order in
which these methods have them first, and each stands for the last marked method that has it. -/
structure AreMostDerived (config : Config) (methods : List Method) (handlers : OrderedMap Method) :
    Prop where
  keys : handlers.keys =
    ((methods.filter fun m => IsMarked config m).filterMap (·.key?)).eraseDups
  get?_iff : ∀ key m, handlers.get? key = some m ↔
    ∃ front back, methods = front ++ m :: back ∧ IsMarked config m ∧ m.key? = some key ∧
      ∀ n ∈ back, IsMarked config n → n.key? ≠ some key

private theorem map_fst_pairs {pairs : List (String × Method)}
    (h : List.Forall₂ (fun m pair => keyed m = .ok pair) methods pairs) :
    pairs.map (·.1) = methods.filterMap (·.key?) := by
  induction h with
  | nil => rfl
  | cons hkeyed _ ih => rw [List.map_cons, List.filterMap_cons_some (key?_of_keyed hkeyed), ih]

/-- The last item that fits is the first one from behind. -/
theorem find?_reverse_eq_some_iff {α : Type} {p : α → Bool} {items : List α} {a : α} :
    items.reverse.find? p = some a ↔
      ∃ front back, items = front ++ a :: back ∧ p a = true ∧ ∀ b ∈ back, p b = false := by
  rw [List.find?_eq_some_iff_append]
  constructor
  · rintro ⟨ha, back, front, hitems, hback⟩
    refine ⟨front.reverse, back.reverse, ?_, ha, ?_⟩
    · rw [← List.reverse_reverse items, hitems]
      simp
    · intro b hb
      simpa using hback b (List.mem_reverse.1 hb)
  · rintro ⟨front, back, rfl, ha, hback⟩
    refine ⟨ha, back.reverse, front.reverse, by simp, ?_⟩
    intro b hb
    simpa using hback b (List.mem_reverse.1 hb)

theorem areMostDerived_of_ofLineage (h : ofLineage config classes = .ok handlers) :
    AreMostDerived config (methodsDown classes) handlers where
  keys := by
    have hlineage := h
    unfold ofLineage at hlineage
    obtain ⟨pairs, hpairs, hmap⟩ := bind_eq_ok_iff.1 hlineage
    have hhandlers : OrderedMap.ofList pairs = handlers := Except.ok.inj hmap
    rw [← hhandlers, OrderedMap.keys_ofList, map_fst_pairs (mapM_eq_ok_iff.1 hpairs),
      flatMap_declared]
  get?_iff key m := by
    rw [get?_ofLineage h, flatMap_declared, ← List.filter_reverse, List.find?_filter,
      find?_reverse_eq_some_iff]
    simp [and_assoc]

private theorem exists_ofLineage_of_keys
    (h : ∀ m ∈ methodsDown classes, IsMarked config m → m.key? ≠ none) :
    ∃ handlers, ofLineage config classes = .ok handlers := by
  have hkeys : ∀ m ∈ classes.reverse.flatMap (declared config), ∃ key, m.key? = some key := by
    intro m hm
    rw [flatMap_declared, List.mem_filter, decide_eq_true_iff] at hm
    exact Option.ne_none_iff_exists'.1 (h m hm.1 hm.2)
  obtain ⟨pairs, hpairs⟩ := exists_pairs hkeys
  unfold ofLineage
  rw [hpairs]
  exact ⟨_, rfl⟩

private theorem keyed_of_key_eq_none (h : m.key? = none) :
    keyed m = .error (.openDescriptor m.descriptor) := by
  unfold keyed
  rw [h]

/-- The first marked method without a key is the one that is told of. -/
theorem ofLineage_of_key_eq_none (hmethods : methodsDown classes = front ++ m :: back)
    (hm : IsMarked config m) (hkey : m.key? = none)
    (hfront : ∀ n ∈ front, IsMarked config n → n.key? ≠ none) :
    ofLineage config classes = .error (.openDescriptor m.descriptor) := by
  have hkeys : ∀ n ∈ front.filter fun n => IsMarked config n, ∃ key, n.key? = some key := by
    intro n hn
    rw [List.mem_filter, decide_eq_true_iff] at hn
    exact Option.ne_none_iff_exists'.1 (hfront n hn.1 hn.2)
  obtain ⟨pairs, hpairs⟩ := exists_pairs hkeys
  unfold ofLineage
  rw [flatMap_declared, hmethods, List.filter_append, List.filter_cons_of_pos (by simpa using hm),
    List.mapM_append, hpairs, List.mapM_cons, keyed_of_key_eq_none hkey]
  rfl

theorem outcome_effective_of_walks {loader next : Loader} {c : Class}
    (h : Walks config.rootTypes c loader { classes } next) (hl : loader.IsConsistent)
    (hs : loader.store.IsFaithful) :
    outcome (effective config c) loader = (ofLineage config classes, next) := by
  have hlineage : outcome (lineage config.rootTypes c) loader = (.ok classes, next) :=
    outcome_bind_ok (h.outcome_ancestry hl hs)
  unfold effective
  rw [outcome_bind_ok hlineage]
  cases hhandlers : ofLineage config classes with
  | error fault => exact outcome_bind_error (outcome_ofTraced _ next)
  | ok handlers => exact outcome_bind_ok (outcome_ofTraced _ next)

/-- After any calls, the handlers of a class with a whole way up are the most derived ones among the
methods of its classes. A marked method without a key, of which there is no handler, is told of. -/
theorem areMostDerived_of_walks {store : ClassStore} (hs : store.IsFaithful)
    {calls : List LoaderCall} (hcalls : ∀ call ∈ calls, call.IsFaithful) (config : Config)
    {c : Class} {classes : List Class} {next : Loader}
    (hw : Walks config.rootTypes c (Loader.afterCalls { store } calls) { classes } next) :
    ((∀ m ∈ methodsDown classes, IsMarked config m → m.key? ≠ none) →
      ∃ handlers, outcome (effective config c) (Loader.afterCalls { store } calls) =
        (.ok handlers, next) ∧ AreMostDerived config (methodsDown classes) handlers) ∧
    ∀ front m back, methodsDown classes = front ++ m :: back →
      IsMarked config m → m.key? = none → (∀ n ∈ front, IsMarked config n → n.key? ≠ none) →
      outcome (effective config c) (Loader.afterCalls { store } calls) =
        (.error (.openDescriptor m.descriptor), next) := by
  have hl := ((Loader.isConsistent_fresh store).afterCalls calls).1
  have hfaithful : (Loader.afterCalls { store } calls).store.IsFaithful :=
    Loader.isFaithful_afterCalls hs hcalls
  have heffective := outcome_effective_of_walks hw hl hfaithful
  constructor
  · intro hkeys
    obtain ⟨handlers, hhandlers⟩ := exists_ofLineage_of_keys hkeys
    rw [hhandlers] at heffective
    exact ⟨handlers, heffective, areMostDerived_of_ofLineage hhandlers⟩
  · intro front m back hmethods hm hkey hfront
    rw [heffective, ofLineage_of_key_eq_none hmethods hm hkey hfront]

def verbMethod (name verb : String) : Method :=
  { name, descriptor := "()V", visible := [{ typeName := "io.jooby.annotations." ++ verb }] }

def upperClass : Class := { name := "B", methods := [verbMethod "f" "GET", verbMethod "g" "GET"] }

/-- It overrides both methods of its superclass, the second one without a marker, and has another
handler. -/
def lowerClass : Class :=
  { name := "A", superclass := "B"
    methods := [{ name := "g", descriptor := "()V" }, verbMethod "h" "PUT", verbMethod "f" "POST"] }

theorem areMostDerived_of_walks_lowerClass :
    let loader := Loader.afterCalls { store := .memory ⟨[("B", upperClass)]⟩ } []
    ∃ handlers next, Walks [] lowerClass loader { classes := [lowerClass, upperClass] } next ∧
      outcome (effective { rootTypes := [] } lowerClass) loader = (.ok handlers, next) ∧
      handlers.keys = ["f()", "g()", "h()"] ∧
      handlers.get? "f()" = some (verbMethod "f" "POST") ∧
      handlers.get? "g()" = some (verbMethod "g" "GET") := by
  intro loader
  have hw : ∃ next, Walks [] lowerClass loader { classes := [lowerClass, upperClass] } next :=
    ⟨_, .child rfl (.top rfl)⟩
  obtain ⟨next, hw⟩ := hw
  have hs : (ClassStore.memory ⟨[("B", upperClass)]⟩).IsFaithful := trivial
  have hkeys : ∀ m ∈ methodsDown [lowerClass, upperClass], IsMarked { rootTypes := [] } m →
      m.key? ≠ none := by decide
  have hderived := areMostDerived_of_walks hs (by nofun) { rootTypes := [] } hw
  obtain ⟨handlers, heffective, hhandlers⟩ := hderived.1 hkeys
  refine ⟨handlers, next, hw, heffective, ?_, ?_, ?_⟩
  · rw [hhandlers.keys]
    decide
  · have hlast := hhandlers.get?_iff "f()" (verbMethod "f" "POST")
    exact hlast.2 ⟨(methodsDown [lowerClass, upperClass]).dropLast, [], rfl, by decide, by decide,
      nofun⟩
  · have hinherited := hhandlers.get?_iff "g()" (verbMethod "g" "GET")
    exact hinherited.2 ⟨[verbMethod "f" "GET"], _, rfl, by decide, by decide, by decide⟩

end JvmRoutes.Handler
