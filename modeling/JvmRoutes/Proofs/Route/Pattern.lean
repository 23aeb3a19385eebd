import JvmRoutes.Proofs.Loader.Lineage
import JvmRoutes.Route.Pattern

/-!
The paths of a route, once all classes above its controller are loaded: at least one, and each of
them is one joined to another.
-/
namespace JvmRoutes.Route

open Loading

variable {loader : Loader} {config : Config} {controller : Class} {above : List Class}

/-- The paths of the nearest class on a way up that has any for a verb; without one, the root. -/
def basesOn (way : List Class) (verb : String) : List String :=
  (way.findSome? (classPaths? verb)).getD [root]

def pathsOn (way : List Class) (m : Method) (verb : String) : List String :=
  (basesOn way verb).flatMap (pathsBelow verb m)

theorem classPaths?_ne_nil {verb : String} {c : Class} {paths : List String}
    (h : classPaths? verb c = some paths) : paths ≠ [] := by
  unfold classPaths? at h
  split at h
  · contradiction
  · rename_i hne
    obtain rfl := Option.some.inj h
    simpa using hne

theorem basesOn_ne_nil (way : List Class) (verb : String) : basesOn way verb ≠ [] := by
  unfold basesOn
  cases hf : way.findSome? (classPaths? verb) with
  | none => exact List.cons_ne_nil _ _
  | some paths =>
    obtain ⟨c, -, hc⟩ := List.exists_of_findSome?_eq_some hf
    exact classPaths?_ne_nil hc

theorem pathsBelow_ne_nil (verb : String) (m : Method) (base : String) :
    pathsBelow verb m base ≠ [] := by
  unfold pathsBelow
  split
  · exact List.cons_ne_nil _ _
  · rename_i hne
    simpa using hne

theorem pathsOn_ne_nil (way : List Class) (m : Method) (verb : String) :
    pathsOn way m verb ≠ [] := by
  obtain ⟨base, hbase⟩ := List.exists_mem_of_ne_nil _ (basesOn_ne_nil way verb)
  obtain ⟨path, hpath⟩ := List.exists_mem_of_ne_nil _ (pathsBelow_ne_nil verb m base)
  have hm : path ∈ pathsOn way m verb := List.mem_flatMap.2 ⟨base, hbase, hpath⟩
  exact List.ne_nil_of_mem hm

/-- Every path of a route is one below another. -/
theorem exists_join_of_mem_pathsBelow {verb path base : String} {m : Method}
    (h : path ∈ pathsBelow verb m base) : ∃ below, path = join (some base) below := by
  unfold pathsBelow at h
  split at h
  · exact ⟨none, List.mem_singleton.1 h⟩
  · obtain ⟨value, -, rfl⟩ := List.mem_map.1 h
    exact ⟨some value, rfl⟩

theorem exists_join_of_patterns {m : Method} {verb : String} {paths : List String} {last : Loader}
    (h : outcome (patterns config controller m verb) loader = (.ok paths, last)) {path : String}
    (hp : path ∈ paths) : ∃ base below, path = join (some base) below := by
  obtain ⟨bases, next, -, hpure⟩ := outcome_bind_eq_ok_iff.1 h
  rw [outcome_pure, Prod.mk.injEq, Except.ok.injEq] at hpure
  obtain ⟨rfl, rfl⟩ := hpure
  obtain ⟨base, -, hbelow⟩ := List.mem_flatMap.1 hp
  exact ⟨base, exists_join_of_mem_pathsBelow hbelow⟩

theorem findSome?_map_snd (f : Class → Option (List String)) (way : List Class) :
    (way.findSome? fun c => (f c).map (c.name, ·)).map (·.2) = way.findSome? f := by
  induction way with
  | nil => rfl
  | cons c rest ih =>
    rw [List.findSome?_cons, List.findSome?_cons]
    cases f c with
    | none => exact ih
    | some paths => rfl

theorem outcome_basePaths_of_holds (h : loader.Holds config.rootTypes controller above)
    (hc : loader.IsConsistent) (verb : String) :
    outcome (basePaths config verb controller) loader =
      (.ok (basesOn (controller :: above) verb), loader) := by
  unfold basePaths basesOn
  rw [List.findSome?_cons]
  cases hp : classPaths? verb controller with
  | some paths => exact outcome_pure paths loader
  | none =>
    have hsearch := outcome_searchAbove_of_holds h hc fun c =>
      (classPaths? verb c).map (c.name, ·)
    dsimp only
    rw [outcome_bind_ok hsearch, ← findSome?_map_snd (classPaths? verb) above]
    cases above.findSome? fun c => (classPaths? verb c).map (c.name, ·) with
    | none => exact outcome_pure [root] loader
    | some found => exact outcome_bind_ok (outcome_ofTraced _ loader)

/-- The paths are those on the way up, and to look for them changes nothing. -/
theorem outcome_patterns_of_holds (h : loader.Holds config.rootTypes controller above)
    (hc : loader.IsConsistent) (m : Method) (verb : String) :
    outcome (patterns config controller m verb) loader =
      (.ok (pathsOn (controller :: above) m verb), loader) := by
  unfold patterns
  rw [outcome_bind_ok (outcome_basePaths_of_holds h hc verb)]
  exact outcome_pure _ loader

end JvmRoutes.Route
