import JvmRoutes.Proofs.Loader.Nearest
import JvmRoutes.Proofs.Route.Pattern
import Mathlib.Data.List.ProdSigma

/-!
The paths of a route with any loader: each of those of the nearest class that has any, with each of
the method's own below it. Classes above that one are not asked for.
-/
namespace JvmRoutes.Route

open Loading

section Values

def isNull : Element → Bool
  | .null => true
  | _ => false

/-- What an annotation has under a name: the items of a list, or a value by itself. -/
def itemsOf (a : Annotation) (name : String) : List Element :=
  match a.get? name with
  | none | some .null => []
  | some (.array items) => items
  | some e => [e]

/-- The texts of the items without the blanks around them. Neither null nor a blank text is one. -/
def literals (a : Annotation) (name : String) : List String :=
  (((itemsOf a name).filter fun e => !isNull e).map fun e => Text.trim e.display).filter (· ≠ "")

/-- The paths that are written at a verb, in the value of its annotation or else as its path. -/
def verbLiterals (verb : String) (annotations : List Annotation) : List String :=
  let ofVerb := annotations.filter fun a =>
    a.typeName ∈ ["io.jooby.annotations." ++ verb, "javax.ws.rs." ++ verb, "jakarta.ws.rs." ++ verb]
  ofVerb.flatMap fun a => if literals a "value" = [] then literals a "path" else literals a "value"

def pathLiterals (types : List String) (annotations : List Annotation) : List String :=
  (annotations.filter fun a => a.typeName ∈ types).flatMap (literals · "value")

/-- The paths for a verb: those written at the verb itself, or else those for all verbs, where the
annotation of the framework comes before the standard ones. -/
def writtenPaths (verb : String) (annotations : List Annotation) : List String :=
  if verbLiterals verb annotations ≠ [] then verbLiterals verb annotations
  else if pathLiterals ["io.jooby.annotations.Path"] annotations ≠ [] then
    pathLiterals ["io.jooby.annotations.Path"] annotations
  else pathLiterals ["javax.ws.rs.Path", "jakarta.ws.rs.Path"] annotations

theorem textsOf_eq (a : Annotation) (name : String) : Marker.textsOf a name = literals a name := by
  have hitems : ((a.get? name).getD .null).listed = itemsOf a name := by
    unfold itemsOf
    rcases a.get? name with _ | e
    · rfl
    · cases e <;> rfl
  unfold Marker.textsOf literals
  rw [hitems]
  induction itemsOf a name with
  | nil => rfl
  | cons e rest ih =>
    rw [List.filterMap_cons, ih]
    cases he : isNull e with
    | true =>
      have hnull : e = .null := by
        cases e <;> first | rfl | cases he
      rw [List.filter_cons_of_neg (by simp [he]), hnull]
      rfl
    | false =>
      have hitem : Marker.itemText? e = Text.nonBlank? e.display := by
        cases e <;> first | rfl | cases he
      rw [List.filter_cons_of_pos (by simp [he]), List.map_cons, hitem, List.filter_cons]
      unfold Text.nonBlank?
      by_cases ht : Text.trim e.display = ""
      · simp [ht]
      · simp [ht]

theorem firstTexts_value (a : Annotation) :
    Marker.firstTexts a ["value"] = literals a "value" := by
  unfold Marker.firstTexts
  rw [List.map_singleton, textsOf_eq, List.find?_cons]
  by_cases h : literals a "value" = []
  · simp [h]
  · rw [bne_iff_ne.2 h]
    rfl

theorem firstTexts_value_path (a : Annotation) : Marker.firstTexts a ["value", "path"] =
    if literals a "value" = [] then literals a "path" else literals a "value" := by
  unfold Marker.firstTexts
  rw [List.map_cons, List.map_singleton, textsOf_eq, textsOf_eq, List.find?_cons]
  by_cases h : literals a "value" = []
  · by_cases h' : literals a "path" = []
    · simp [h, h']
    · rw [List.find?_cons, bne_iff_ne.2 h']
      simp [h]
  · rw [bne_iff_ne.2 h, if_neg h]
    rfl

theorem texts_value (types : List String) (annotations : List Annotation) :
    Marker.texts types ["value"] annotations = pathLiterals types annotations := by
  unfold Marker.texts Marker.select pathLiterals
  simp only [firstTexts_value, List.contains_eq_mem]

theorem texts_verb (verb : String) (annotations : List Annotation) :
    Marker.texts (Marker.inAllPackages verb) ["value", "path"] annotations =
      verbLiterals verb annotations := by
  have htypes : Marker.inAllPackages verb =
      ["io.jooby.annotations." ++ verb, "javax.ws.rs." ++ verb, "jakarta.ws.rs." ++ verb] := rfl
  unfold Marker.texts Marker.select verbLiterals
  simp only [htypes, firstTexts_value_path, List.contains_eq_mem]

theorem pathValues_eq (verb : String) (annotations : List Annotation) :
    pathValues verb annotations = writtenPaths verb annotations := by
  have hframework : Marker.frameworkPath = ["io.jooby.annotations.Path"] := by decide
  have hstandard : Marker.standardPath = ["javax.ws.rs.Path", "jakarta.ws.rs.Path"] := by decide
  unfold pathValues writtenPaths
  rw [texts_verb, texts_value, texts_value, hframework, hstandard]

end Values

variable {config : Config} {controller : Class} {m : Method} {verb : String} {loader next : Loader}
  {way : Ancestry}

/-- The paths that all those of a method stand below: those of a class, or the root. -/
def prefixes (verb : String) : Option Class → List String
  | none => ["/"]
  | some c => (writtenPaths verb c.visible).map fun path => join none (some path)

/-- The method's own paths, or a missing one. -/
def ownPaths (verb : String) (m : Method) : List (Option String) :=
  if writtenPaths verb m.visible = [] then [none] else (writtenPaths verb m.visible).map some

/-- The paths are those of a method, each below each of those of a class. -/
structure IsProduct (verb : String) (m : Method) (nearest : Option Class) (paths : List String) :
    Prop where
  eq : paths =
    (prefixes verb nearest ×ˢ ownPaths verb m).map fun pair => join (some pair.1) pair.2
  length : paths.length = (prefixes verb nearest).length * (ownPaths verb m).length
  ne_nil : paths ≠ []

theorem classPaths?_eq (verb : String) (c : Class) : classPaths? verb c =
    if writtenPaths verb c.visible = [] then none else some (prefixes verb (some c)) := by
  unfold classPaths?
  rw [pathValues_eq]
  cases h : writtenPaths verb c.visible with
  | nil => rfl
  | cons path rest =>
    have hprefixes : prefixes verb (some c) =
        (writtenPaths verb c.visible).map fun path => join none (some path) := rfl
    rw [if_neg (List.cons_ne_nil path rest), hprefixes, h]

private theorem findSome?_classPaths (verb : String) (classes : List Class) :
    classes.findSome? (classPaths? verb) =
      (classes.find? fun c => writtenPaths verb c.visible ≠ []).map (prefixes verb ∘ some) := by
  induction classes with
  | nil => rfl
  | cons c rest ih =>
    rw [List.findSome?_cons, List.find?_cons, classPaths?_eq]
    by_cases h : writtenPaths verb c.visible = []
    · simp [h, ih]
    · simp [h]

private theorem isNone_classPaths? (verb : String) (c : Class) :
    (classPaths? verb c).isNone = decide (writtenPaths verb c.visible = []) := by
  rw [classPaths?_eq]
  by_cases h : writtenPaths verb c.visible = [] <;> simp [h]

private theorem flatMap_pathsBelow (verb : String) (m : Method) (bases : List String) :
    bases.flatMap (pathsBelow verb m) =
      (bases ×ˢ ownPaths verb m).map fun pair => join (some pair.1) pair.2 := by
  have hbelow : pathsBelow verb m = fun base => (ownPaths verb m).map (join (some base)) := by
    funext base
    unfold pathsBelow ownPaths
    rw [pathValues_eq]
    cases writtenPaths verb m.visible with
    | nil => rfl
    | cons path rest =>
      simp only [if_neg (List.cons_ne_nil path rest), List.map_map, Function.comp_def]
  have hproduct : bases ×ˢ ownPaths verb m =
      bases.flatMap fun base => (ownPaths verb m).map (Prod.mk base) := rfl
  rw [hbelow, hproduct, List.map_flatMap]
  simp only [List.map_map, Function.comp_def]

theorem ownPaths_ne_nil (verb : String) (m : Method) : ownPaths verb m ≠ [] := by
  unfold ownPaths
  split
  · exact List.cons_ne_nil none []
  · rename_i h
    simpa using h

theorem isProduct_flatMap {nearest : Option Class}
    (h : ∀ c ∈ nearest, writtenPaths verb c.visible ≠ []) :
    IsProduct verb m nearest ((prefixes verb nearest).flatMap (pathsBelow verb m)) := by
  have hprefixes : prefixes verb nearest ≠ [] := by
    cases nearest with
    | none => exact List.cons_ne_nil "/" []
    | some c => simpa [prefixes] using h c rfl
  have hlength := List.length_product (prefixes verb nearest) (ownPaths verb m)
  have hbases := List.length_pos_of_ne_nil hprefixes
  have hown := List.length_pos_of_ne_nil (ownPaths_ne_nil verb m)
  rw [flatMap_pathsBelow]
  refine ⟨rfl, by rw [List.length_map, hlength], ?_⟩
  apply List.ne_nil_of_length_pos
  rw [List.length_map, hlength]
  exact Nat.mul_pos hbases hown

/-- What the search for the paths of a class comes to on a way up. -/
def foundOn (way : Ancestry) (verb : String) : Except Fault (List String) :=
  match way.classes.findSome? (classPaths? verb), way.fault with
  | some paths, _ => .ok paths
  | none, none => .ok [root]
  | none, some fault => .error fault

private theorem foundOn_eq_ok {nearest : Option Class}
    (hn : way.classes.find? (fun c => writtenPaths verb c.visible ≠ []) = nearest)
    (h : nearest ≠ none ∨ way.fault = none) : foundOn way verb = .ok (prefixes verb nearest) := by
  unfold foundOn
  rw [findSome?_classPaths, hn]
  cases nearest with
  | some c => rfl
  | none =>
    have hfault : way.fault = none := h.resolve_left fun hne => hne rfl
    rw [hfault]
    rfl

private theorem foundOn_eq_error {fault : Fault}
    (hn : way.classes.find? (fun c => writtenPaths verb c.visible ≠ []) = none)
    (hf : way.fault = some fault) : foundOn way verb = .error fault := by
  unfold foundOn
  rw [findSome?_classPaths, hn, hf]
  rfl

/-- The superclasses of the classes of a way up to the first that has paths for a verb. -/
def askedOn (rootTypes : List String) (way : Ancestry) (verb : String) : List String :=
  (way.classes.takeWhile fun c => (classPaths? verb c).isNone).filterMap (·.above? rootTypes)

theorem outcome_basePaths_of_walks (h : Walks config.rootTypes controller loader way next)
    (hl : loader.IsConsistent) (hs : loader.store.IsFaithful) (verb : String) :
    outcome (basePaths config verb controller) loader =
      (foundOn way verb, loader.afterFinds (askedOn config.rootTypes way verb)) := by
  unfold basePaths foundOn askedOn
  rw [h.classes_eq, List.findSome?_cons]
  cases hc : classPaths? verb controller with
  | some paths =>
    rw [List.takeWhile_cons_of_neg (by simp [hc])]
    exact outcome_pure paths loader
  | none =>
    -- the search is for a class with its name, which makes no difference to what is found
    rw [List.takeWhile_cons_of_pos (by simp [hc])]
    have hsearch := h.outcome_searchAbove hl hs fun c => (classPaths? verb c).map (c.name, ·)
    have hfound := findSome?_map_snd (classPaths? verb) way.classes.tail
    unfold Ancestry.nearest at hsearch
    simp only [Option.isNone_map] at hsearch
    dsimp only
    rw [← hfound]
    cases hn : way.classes.tail.findSome? fun c => (classPaths? verb c).map (c.name, ·) with
    | some found =>
      rw [hn] at hsearch
      rw [outcome_bind_ok hsearch]
      exact outcome_bind_ok (outcome_ofTraced _ _)
    | none =>
      rw [hn] at hsearch
      cases hf : way.fault with
      | none =>
        rw [hf] at hsearch
        rw [outcome_bind_ok hsearch]
        exact outcome_pure [root] _
      | some fault =>
        rw [hf] at hsearch
        exact outcome_bind_error hsearch

/-- After any calls, the way up from a controller ends, at its top or with a fault. The paths of a
route are the product of those of the nearest class on it that has any, or of the root, and of
those of the method. A fault counts only where no class has paths, and the classes that are asked
for are those up to the nearest one. -/
theorem patterns_of_walks {store : ClassStore} (hs : store.IsFaithful) {calls : List LoaderCall}
    (hcalls : ∀ call ∈ calls, call.IsFaithful) (config : Config) (controller : Class) (m : Method)
    (verb : String) :
    let loader := Loader.afterCalls { store } calls
    let resolved := outcome (patterns config controller m verb) loader
    (∃ way last, Walks config.rootTypes controller loader way last) ∧
    ∀ way last, Walks config.rootTypes controller loader way last →
      let passed := way.classes.takeWhile fun c => writtenPaths verb c.visible = []
      let nearest := way.classes.find? fun c => writtenPaths verb c.visible ≠ []
      (nearest ≠ none ∨ way.fault = none →
        ∃ paths, resolved.1 = .ok paths ∧ IsProduct verb m nearest paths) ∧
      (∀ fault, nearest = none → way.fault = some fault → resolved.1 = .error fault) ∧
      resolved.2 = loader.afterFinds (passed.filterMap (·.above? config.rootTypes)) := by
  intro loader resolved
  have hl : loader.IsConsistent := ((Loader.isConsistent_fresh store).afterCalls calls).1
  have hfaithful : loader.store.IsFaithful := Loader.isFaithful_afterCalls hs hcalls
  refine ⟨exists_walks_of_isFaithful config.rootTypes hl hfaithful controller, ?_⟩
  intro way last hw passed nearest
  have hbases := outcome_basePaths_of_walks hw hl hfaithful verb
  have hasked : askedOn config.rootTypes way verb =
      passed.filterMap (·.above? config.rootTypes) := by
    unfold askedOn
    simp only [isNone_classPaths?]
    rfl
  refine ⟨?_, ?_, ?_⟩
  · intro h
    have hvalues : ∀ c ∈ nearest, writtenPaths verb c.visible ≠ [] := by
      intro c hc
      simpa using List.find?_some hc
    rw [foundOn_eq_ok rfl h] at hbases
    have hpaths := outcome_bind_ok
      (f := fun bases => pure (bases.flatMap (pathsBelow verb m))) hbases
    exact ⟨_, congrArg Prod.fst hpaths, isProduct_flatMap hvalues⟩
  · intro fault hn hf
    rw [foundOn_eq_error hn hf] at hbases
    exact congrArg Prod.fst (outcome_bind_error hbases)
  · rw [← hasked]
    cases hfound : foundOn way verb with
    | error fault =>
      rw [hfound] at hbases
      exact congrArg Prod.snd (outcome_bind_error hbases)
    | ok paths =>
      rw [hfound] at hbases
      exact congrArg Prod.snd (outcome_bind_ok hbases)

def pathClass : Class :=
  { name := "B", superclass := "X"
    visible := [{ typeName := "jakarta.ws.rs.Path", values := ⟨[("value", .text "b")]⟩ }] }

def listedPaths : Method :=
  { name := "f", descriptor := "()V"
    visible := [
      { typeName := "io.jooby.annotations.GET"
        values := ⟨[("value", .array [.text " x ", .null, .text " ", .text "/y/"])]⟩ }] }

theorem patterns_of_walks_pathClass :
    let loader := Loader.afterCalls { store := .memory ⟨[("B", pathClass)]⟩ } []
    let controller : Class := { name := "C", superclass := "B" }
    (∃ last, Walks [] controller loader
      { classes := [controller, pathClass], fault := some (.typeNotFound "X") } last) ∧
    outcome (patterns { rootTypes := [] } controller listedPaths "GET") loader =
      (.ok ["/b/x", "/b/y"], loader.afterFinds ["B"]) := by
  intro loader controller
  have hw : ∃ last, Walks [] controller loader
      { classes := [controller, pathClass], fault := some (.typeNotFound "X") } last :=
    ⟨_, .child rfl (.failed rfl)⟩
  have hs : (ClassStore.memory ⟨[("B", pathClass)]⟩).IsFaithful := trivial
  have hcalls : ∀ call ∈ ([] : List LoaderCall), call.IsFaithful := nofun
  have hpatterns := patterns_of_walks hs hcalls { rootTypes := [] } controller listedPaths "GET"
  obtain ⟨last, hwalks⟩ := hw
  obtain ⟨hok, -, hloader⟩ := hpatterns.2 _ last hwalks
  obtain ⟨paths, hpaths, hproduct⟩ := hok (.inl (by decide))
  refine ⟨⟨last, hwalks⟩, Prod.ext ?_ ?_⟩
  · rw [hpaths, hproduct.eq]
    decide
  · rw [hloader]
    rfl

end JvmRoutes.Route
