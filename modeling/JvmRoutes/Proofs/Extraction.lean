import JvmRoutes.Extraction
import JvmRoutes.Proofs.Handler.Search

/-!
Mounts of one extraction do not influence each other, although they share a loader: each comes to
the operations, or to the fault, that it comes to by itself.
-/
namespace JvmRoutes.Extraction

open Loading

variable {source : ClassStore}

/-- Loaders over a store: with nothing loaded, after a class has been looked for, or after mounts
have been extracted, whether that has failed or not. -/
inductive Reaches (store : ClassStore) : Loader → Prop
  | fresh : Reaches store { store }
  | found {loader : Loader} (h : Reaches store loader) (name : String) :
    Reaches store (find name loader).2
  | extracted {loader : Loader} (h : Reaches store loader) (config : Config)
    (mounts : List Mount) : Reaches store (ofMounts config mounts loader).2

/-- What a mount comes to by itself, with nothing loaded before. -/
def alone (config : Config) (store : ClassStore) (mount : Mount) :
    Except Fault (List Operation) := (run config [mount] store).1.result

theorem isSearch_collect {α β : Type} {f : α → Loading (List β)} (hf : ∀ a, IsSearch (f a))
    (items : List α) : IsSearch (collect f items) := by
  induction items with
  | nil => exact isSearch_pure []
  | cons a rest ih => exact (hf a).bind fun _ => ih.bind fun _ => isSearch_pure _

theorem isSearch_ofHandler (config : Config) (controller : Class) (base : Option String)
    (m : Method) : IsSearch (ofHandler config controller base m) := by
  have harguments := Handler.isReporting_arguments Handler.isReporting_isLoadedEnum config m
  have hmedia := fun types => (Route.isReporting_mediaTypes config types controller m).isSearch
  have hpatterns := fun verb => (Route.isReporting_patterns config controller m verb).isSearch
  unfold ofHandler
  refine (isSearch_log _ _).bind fun _ => ?_
  refine harguments.isSearch.bind fun arguments => ?_
  refine (isSearch_ofExcept _).bind fun result => ?_
  refine (hmedia _).bind fun produces => ?_
  refine (hmedia _).bind fun consumes => ?_
  exact isSearch_collect (fun verb => (hpatterns verb).bind fun _ => isSearch_pure _) _

theorem isSearch_ofMount (config : Config) (mount : Mount) : IsSearch (ofMount config mount) := by
  unfold ofMount
  refine (isSearch_resolve mount.controller).bind fun controller => ?_
  have hhandlers := Handler.isSearch_effective config controller
  have hhandler := isSearch_ofHandler config controller mount.base
  exact hhandlers.bind fun handlers => isSearch_collect hhandler handlers.values

theorem isSearch_ofMountsFrom (config : Config) (position count : Nat) (mounts : List Mount) :
    IsSearch (ofMountsFrom config position count mounts) := by
  induction mounts generalizing position with
  | nil => exact isSearch_pure []
  | cons mount rest ih =>
    refine (isSearch_log _ _).bind fun _ => ?_
    refine (isSearch_ofMount config mount).bind fun first => ?_
    exact (ih (position + 1)).bind fun _ => isSearch_pure _

/-- An extraction of one mount comes to what the mount comes to. -/
theorem result_ofMounts_one (config : Config) (mount : Mount) (loader : Loader) :
    (ofMounts config [mount] loader).1.result = (outcome (ofMount config mount) loader).1 := by
  change (outcome (ofMounts config [mount]) loader).1 = _
  unfold ofMounts announce ofMountsFrom
  rw [outcome_log_bind, bind_assoc, outcome_log_bind, bind_assoc]
  rcases ho : outcome (ofMount config mount) loader with ⟨r, next⟩
  cases r with
  | error fault => rw [outcome_bind_error ho]
  | ok operations =>
    rw [outcome_bind_ok ho]
    exact congrArg Except.ok (List.append_nil operations)

theorem isSettled_ofMount (ha : source.IsAcyclic) (config : Config) (mount : Mount) :
    IsSettled source (ofMount config mount) := (isSearch_ofMount config mount).isSettled ha

/-- The results of mounts one after another are those of each, put together. -/
theorem settles_ofMountsFrom {config : Config} {r : Mount → Except Fault (List Operation)}
    (hr : ∀ mount, Settles source (ofMount config mount) (r mount)) (count : Nat)
    (mounts : List Mount) (position : Nat) :
    Settles source (ofMountsFrom config position count mounts)
      ((mounts.mapM r).map List.flatten) := by
  induction mounts generalizing position with
  | nil => exact settles_pure []
  | cons mount rest ih =>
    unfold ofMountsFrom
    refine (settles_ofTraced _).bind ?_
    have hm := hr mount
    rw [List.mapM_cons]
    cases hc : r mount with
    | error fault =>
      rw [hc] at hm
      exact hm.bind_error
    | ok first =>
      rw [hc] at hm
      refine hm.bind ?_
      have ht := ih (position + 1)
      cases hd : rest.mapM r with
      | error fault =>
        rw [hd] at ht
        exact ht.bind_error
      | ok others =>
        rw [hd] at ht
        exact ht.bind (settles_pure _)

theorem settles_ofMounts {config : Config} {r : Mount → Except Fault (List Operation)}
    (hr : ∀ mount, Settles source (ofMount config mount) (r mount)) (mounts : List Mount) :
    Settles source (ofMounts config mounts) ((mounts.mapM r).map List.flatten) := by
  unfold ofMounts
  refine (settles_ofTraced _).bind ?_
  have hm := settles_ofMountsFrom hr mounts.length mounts 1
  cases hc : (mounts.mapM r).map List.flatten with
  | error fault =>
    rw [hc] at hm
    exact hm.bind_error
  | ok operations =>
    rw [hc] at hm
    refine hm.bind (settles_ask_bind fun classes => ?_)
    exact (settles_ofTraced _).bind (settles_pure operations)

theorem Reaches.follows {store : ClassStore} {loader : Loader} (h : Reaches store loader)
    (hf : store.IsFaithful) (ha : store.IsAcyclic) : loader.Follows store := by
  induction h with
  | fresh => exact Loader.follows_fresh hf
  | found _ name ih => exact (settles_find ha name _ ih).2
  | extracted _ config mounts ih =>
    choose r hr using isSettled_ofMount ha config
    exact (settles_ofMounts hr mounts _ ih).2

theorem map_flatten_singleton {ε α : Type} (r : Except ε (List α)) :
    Except.map List.flatten (do return [← r]) = r := by
  cases r with
  | error e => rfl
  | ok a => simp [Except.map, pure, Except.pure, bind, Except.bind]

theorem map_flatten_mapM_append {ε α β : Type} (r : α → Except ε (List β)) (front back : List α) :
    ((front ++ back).mapM r).map List.flatten = (do
      let first ← (front.mapM r).map List.flatten
      let second ← (back.mapM r).map List.flatten
      return first ++ second) := by
  rw [List.mapM_append]
  cases front.mapM r with
  | error e => rfl
  | ok first =>
    cases back.mapM r with
    | error e => rfl
    | ok second => simp [Except.map, pure, Except.pure, bind, Except.bind]

/-- From every loader that a store without a cycle among its classes leads to, mounts come to the
operations of each by itself, in their order, or to the fault of the first that fails by itself.
So it makes no difference if some of them are left to another extraction. -/
theorem result_ofMounts (config : Config) {store : ClassStore} (hf : store.IsFaithful)
    (ha : store.IsAcyclic) {loader : Loader} (h : Reaches store loader) :
    (∀ mounts, (ofMounts config mounts loader).1.result =
      (mounts.mapM (alone config store)).map List.flatten) ∧
    ∀ front back, (ofMounts config (front ++ back) loader).1.result = (do
      let first ← (run config front store).1.result
      let second ← (run config back store).1.result
      return first ++ second) := by
  choose r hr using isSettled_ofMount ha config
  have hall : ∀ {loader : Loader}, Reaches store loader → ∀ mounts,
      (ofMounts config mounts loader).1.result = (mounts.mapM r).map List.flatten :=
    fun h mounts => (settles_ofMounts hr mounts _ (h.follows hf ha)).1
  have hrun : ∀ mounts, (run config mounts store).1.result = (mounts.mapM r).map List.flatten :=
    hall .fresh
  have halone : alone config store = r := by
    funext mount
    rw [alone, hrun]
    exact map_flatten_singleton (r mount)
  constructor
  · intro mounts
    rw [halone]
    exact hall h mounts
  · intro front back
    rw [hall h, hrun, hrun]
    exact map_flatten_mapM_append r front back

def childOf (b : Class) : ClassStore :=
  .memory ⟨[("A", { name := "A", superclass := some "B" }), ("B", b)]⟩

private theorem extends_childOf {b : Class} (hb : b.parent? = none) {name superclass : String}
    (h : (childOf b).Extends name superclass) :
    TypeName.dotted name = "A" ∧ superclass = "B" := by
  obtain ⟨c, spelled, hc, hp, rfl⟩ := h
  have hl : List.lookup (TypeName.dotted name)
      [("A", { name := "A", superclass := some "B" }), ("B", b)] = some c := Except.ok.inj hc
  rw [OrderedMap.lookup_entry, OrderedMap.lookup_entry] at hl
  split at hl
  · rename_i hn
    obtain rfl := Option.some.inj hl
    obtain rfl : "B" = spelled := Option.some.inj hp
    exact ⟨hn, by decide⟩
  · split at hl
    · obtain rfl := Option.some.inj hl
      rw [hb] at hp
      contradiction
    · contradiction

theorem isAcyclic_childOf {b : Class} (hb : b.parent? = none) : (childOf b).IsAcyclic := by
  intro name h
  obtain ⟨_, hfirst, -⟩ := Relation.TransGen.head'_iff.1 h
  obtain ⟨_, -, hlast⟩ := Relation.TransGen.tail'_iff.1 h
  have hn := (extends_childOf hb hfirst).1
  rw [(extends_childOf hb hlast).2] at hn
  exact absurd hn (by decide)

def twoClasses : ClassStore :=
  .memory ⟨[("A", { name := "A", superclass := some "B" }), ("B", { name := "B" })]⟩

private theorem isAcyclic_twoClasses : twoClasses.IsAcyclic :=
  isAcyclic_childOf (show Class.parent? { name := "B" } = none from rfl)

theorem result_ofMounts_twoClasses :
    twoClasses.IsFaithful ∧ twoClasses.IsAcyclic ∧
    (ofMounts {} [{ controller := "A" }, { controller := "C" }]
      (find "B" { store := twoClasses }).2).1.result =
        ([{ controller := "A" }, { controller := "C" }].mapM (alone {} twoClasses)).map
          List.flatten := by
  have hf : twoClasses.IsFaithful := trivial
  refine ⟨hf, isAcyclic_twoClasses, ?_⟩
  exact (result_ofMounts {} hf isAcyclic_twoClasses (.found .fresh "B")).1 _

end JvmRoutes.Extraction
