import JvmRoutes.Proofs.Extraction

/-!
A class with nothing in it has the routes of its superclass. Every walk upwards passes through it as
if it were not there.
-/
namespace JvmRoutes

namespace Loading

variable {α β γ δ : Type} {source : ClassStore} {rootTypes : List String}

/-- Two activities settle on the same fault, or on results in a relation. -/
def SettlesAlike (source : ClassStore) (R : α → β → Prop) (x : Loading α) (y : Loading β) : Prop :=
  (∃ fault, Settles source x (.error fault) ∧ Settles source y (.error fault)) ∨
    ∃ a b, Settles source x (.ok a) ∧ Settles source y (.ok b) ∧ R a b

variable {R : α → β → Prop} {Q : γ → δ → Prop}

theorem settlesAlike_pure {a : α} {b : β} (h : R a b) : SettlesAlike source R (pure a) (pure b) :=
  .inr ⟨a, b, settles_pure a, settles_pure b, h⟩

theorem IsSettled.alike {x : Loading α} (h : IsSettled source x) : SettlesAlike source Eq x x := by
  obtain ⟨r, hr⟩ := h
  cases r with
  | error fault => exact .inl ⟨fault, hr, hr⟩
  | ok a => exact .inr ⟨a, a, hr, hr, rfl⟩

theorem SettlesAlike.bind {x : Loading α} {y : Loading β} {f : α → Loading γ} {g : β → Loading δ}
    (h : SettlesAlike source R x y) (hfg : ∀ a b, R a b → SettlesAlike source Q (f a) (g b)) :
    SettlesAlike source Q (x >>= f) (y >>= g) := by
  rcases h with ⟨fault, hx, hy⟩ | ⟨a, b, hx, hy, hab⟩
  · exact .inl ⟨fault, hx.bind_error, hy.bind_error⟩
  · rcases hfg a b hab with ⟨fault, hf, hg⟩ | ⟨c, d, hf, hg, hcd⟩
    · exact .inl ⟨fault, hx.bind hf, hy.bind hg⟩
    · exact .inr ⟨c, d, hx.bind hf, hy.bind hg, hcd⟩

/-- Behind a message of each, the activities settle as before. -/
theorem SettlesAlike.log {f : Unit → Loading α} {g : Unit → Loading β}
    (h : SettlesAlike source R (f ()) (g ())) (level : Level) (text other : String) :
    SettlesAlike source R (log level text >>= f) (log level other >>= g) := by
  have hlog : SettlesAlike source Eq (Loading.log level text) (Loading.log level other) :=
    .inr ⟨(), (), settles_ofTraced _, settles_ofTraced _, rfl⟩
  exact hlog.bind fun _ _ _ => h

variable {c b : Class}

theorem settlesAlike_lineage (ha : source.IsAcyclic) (h : source.IsAbove rootTypes c b) :
    SettlesAlike source (fun below above => below = c :: above) (lineage rootTypes c)
      (lineage rootTypes b) := by
  obtain ⟨way, hway⟩ := settles_ancestryWithin ha (ha.endsWithin rootTypes b)
  have hupper : Settles source (ancestry rootTypes b) (.ok way) := settles_height (by omega) hway
  have hlower : Settles source (ancestry rootTypes c)
      (.ok { way with classes := c :: way.classes }) := by
    apply settles_height le_rfl
    intro room
    have hp := (settles_parent ha rootTypes c).attempt
    rw [h] at hp
    exact hp.bind ((hway room).bind (settles_pure _))
  unfold lineage
  cases hfault : way.fault with
  | none =>
    right
    refine ⟨c :: way.classes, way.classes, hlower.bind ?_, hupper.bind ?_, rfl⟩
    · simp only [hfault]
      exact settles_pure _
    · simp only [hfault]
      exact settles_pure _
  | some fault =>
    left
    refine ⟨fault, hlower.bind ?_, hupper.bind ?_⟩
    · simp only [hfault]
      exact settles_ofTraced _
    · simp only [hfault]
      exact settles_ofTraced _

theorem settles_searchAbove_of_some (ha : source.IsAcyclic) (h : source.IsAbove rootTypes c b)
    {f : Class → Option α} {a : α} (hf : f b = some a) :
    Settles source (searchAbove rootTypes f c) (.ok (some a)) := by
  apply settles_height le_rfl
  intro room
  have hp := settles_parent ha rootTypes c
  rw [h] at hp
  apply hp.bind
  simp only [hf]
  exact settles_pure (some a)

theorem settlesAlike_searchAbove (ha : source.IsAcyclic) (h : source.IsAbove rootTypes c b)
    {f : Class → Option α} (hf : f b = none) :
    SettlesAlike source Eq (searchAbove rootTypes f c) (searchAbove rootTypes f b) := by
  obtain ⟨r, hr⟩ := settles_searchAboveWithin ha f (ha.endsWithin rootTypes b)
  have hupper : Settles source (searchAbove rootTypes f b) r := settles_height (by omega) hr
  have hlower : Settles source (searchAbove rootTypes f c) r := by
    apply settles_height le_rfl
    intro room
    have hp := settles_parent ha rootTypes c
    rw [h] at hp
    apply hp.bind
    simp only [hf]
    exact hr room
  cases r with
  | error fault => exact .inl ⟨fault, hlower, hupper⟩
  | ok found => exact .inr ⟨found, found, hlower, hupper, rfl⟩

end Loading

open Loading

variable {source : ClassStore} {config : Config} {c b : Class}

namespace Handler

theorem ofLineage_cons (hm : c.methods = []) (classes : List Class) :
    ofLineage config (c :: classes) = ofLineage config classes := by
  have hdeclared : declared config c = [] := by rw [declared, hm, List.filter_nil]
  unfold ofLineage
  rw [List.reverse_cons, List.flatMap_append, List.flatMap_singleton, hdeclared, List.append_nil]

theorem settlesAlike_effective (ha : source.IsAcyclic) (h : source.IsAbove config.rootTypes c b)
    (hm : c.methods = []) :
    SettlesAlike source Eq (effective config c) (effective config b) := by
  unfold effective
  apply (settlesAlike_lineage ha h).bind
  rintro _ classes rfl
  rw [ofLineage_cons hm]
  apply (IsSettled.alike (isSettled_ofTraced _)).bind
  rintro handlers _ rfl
  apply SettlesAlike.log
  exact settlesAlike_pure rfl

end Handler

namespace Route

/-- What a class without annotations lacks, its superclass has or lacks as well. -/
theorem settlesAlike_mediaTypes (ha : source.IsAcyclic) (h : source.IsAbove config.rootTypes c b)
    (hv : c.visible = []) (types : List String) (m : Method) :
    SettlesAlike source Eq (mediaTypes config types c m) (mediaTypes config types b m) := by
  have hc : mediaTypes? types c.visible = none := by
    rw [hv]
    rfl
  unfold mediaTypes
  rw [hc]
  cases mediaTypes? types m.visible with
  | some values => exact settlesAlike_pure rfl
  | none =>
    cases hb : mediaTypes? types b.visible with
    | some values =>
      have hs := settles_searchAbove_of_some ha h (f := fun d => mediaTypes? types d.visible) hb
      exact .inr ⟨values, values, hs.bind (settles_pure _), settles_pure values, rfl⟩
    | none =>
      apply (settlesAlike_searchAbove ha h hb).bind
      rintro found _ rfl
      exact settlesAlike_pure rfl

theorem settlesAlike_basePaths (ha : source.IsAcyclic) (h : source.IsAbove config.rootTypes c b)
    (hv : c.visible = []) (verb : String) :
    SettlesAlike source Eq (basePaths config verb c) (basePaths config verb b) := by
  have hc : classPaths? verb c = none := by
    rw [classPaths?, hv]
    rfl
  unfold basePaths
  rw [hc]
  cases hb : classPaths? verb b with
  | some paths =>
    have hs := settles_searchAbove_of_some ha h
      (f := fun d => (classPaths? verb d).map (d.name, ·)) (by rw [hb]; rfl)
    right
    refine ⟨paths, paths, hs.bind ?_, settles_pure paths, rfl⟩
    exact (settles_ofTraced _).bind (settles_pure paths)
  | none =>
    apply (settlesAlike_searchAbove ha h (by rw [hb]; rfl)).bind
    rintro found _ rfl
    cases found with
    | none => exact settlesAlike_pure rfl
    | some found =>
      apply SettlesAlike.log
      exact settlesAlike_pure rfl

theorem settlesAlike_patterns (ha : source.IsAcyclic) (h : source.IsAbove config.rootTypes c b)
    (hv : c.visible = []) (m : Method) (verb : String) :
    SettlesAlike source Eq (patterns config c m verb) (patterns config b m verb) := by
  unfold patterns
  apply (settlesAlike_basePaths ha h hv verb).bind
  rintro paths _ rfl
  exact settlesAlike_pure rfl

end Route

/-- The operation is that of another controller, apart from the controller. -/
structure Operation.IsInherited (c b : Class) (o inherited : Operation) : Prop where
  controller_eq : inherited.controller = b.name
  eq : o = { inherited with controller := c.name }

namespace Extraction

open Operation

theorem settlesAlike_collect {α β : Type} {R : β → β → Prop} {f g : α → Loading (List β)}
    (h : ∀ a, SettlesAlike source (List.Forall₂ R) (f a) (g a)) (items : List α) :
    SettlesAlike source (List.Forall₂ R) (collect f items) (collect g items) := by
  induction items with
  | nil => exact settlesAlike_pure .nil
  | cons a rest ih =>
    apply (h a).bind
    intro first first' hfirst
    apply ih.bind
    intro others others' hothers
    exact settlesAlike_pure (List.rel_append hfirst hothers)

private theorem forall₂_isInherited_operations (h : Handling) (base : Option String)
    (verbs paths : List String) : List.Forall₂ (IsInherited c b)
      ({ h with controller := c }.operations base verbs paths)
      ({ h with controller := b }.operations base verbs paths) := by
  unfold Handling.operations
  have hverbs {items : List String} : List.Forall₂ Eq items items :=
    List.forall₂_same.2 fun _ _ => rfl
  apply List.rel_flatMap hverbs
  rintro verb _ rfl
  rw [List.forall₂_map_left_iff, List.forall₂_map_right_iff, List.forall₂_same]
  exact fun path _ => ⟨rfl, rfl⟩

theorem settlesAlike_ofHandler (ha : source.IsAcyclic) (h : source.IsAbove config.rootTypes c b)
    (hv : c.visible = []) (base : Option String) (m : Method) :
    SettlesAlike source (List.Forall₂ (IsInherited c b)) (ofHandler config c base m)
      (ofHandler config b base m) := by
  have harguments := Handler.isReporting_arguments Handler.isReporting_isLoadedEnum config m
  have hmedia := fun types => Route.settlesAlike_mediaTypes ha h hv types m
  have hpatterns := Route.settlesAlike_patterns ha h hv m
  unfold ofHandler
  apply SettlesAlike.log
  apply (harguments.isSearch.isSettled ha).alike.bind
  rintro arguments _ rfl
  apply (IsSettled.alike (isSettled_ofTraced _)).bind
  rintro result _ rfl
  apply (hmedia Marker.produces).bind
  rintro produces _ rfl
  apply (hmedia Marker.consumes).bind
  rintro consumes _ rfl
  apply settlesAlike_collect
  intro verb
  apply (hpatterns verb).bind
  rintro paths _ rfl
  apply settlesAlike_pure
  exact forall₂_isInherited_operations
    { controller := c, method := m, arguments, results := [result], produces, consumes } base _ _

theorem settlesAlike_ofMount (ha : source.IsAcyclic) {lower upper : String}
    (hc : source.answer (TypeName.dotted lower) = .ok (some c))
    (hb : source.answer (TypeName.dotted upper) = .ok (some b))
    (h : source.IsAbove config.rootTypes c b) (hm : c.methods = []) (hv : c.visible = [])
    (base : Option String) :
    SettlesAlike source (List.Forall₂ (IsInherited c b))
      (ofMount config { controller := lower, base })
      (ofMount config { controller := upper, base }) := by
  have hresolve :
      SettlesAlike source (fun x y => x = c ∧ y = b) (resolve lower) (resolve upper) := by
    have hlower := settles_resolve ha lower
    have hupper := settles_resolve ha upper
    unfold ClassStore.existing at hlower hupper
    rw [hc] at hlower
    rw [hb] at hupper
    exact .inr ⟨c, b, hlower, hupper, rfl, rfl⟩
  unfold ofMount
  apply hresolve.bind
  rintro _ _ ⟨rfl, rfl⟩
  apply (Handler.settlesAlike_effective ha h hm).bind
  rintro handlers _ rfl
  exact settlesAlike_collect (settlesAlike_ofHandler ha h hv base) handlers.values

/-- A class without methods and visible annotations comes to the fault that its superclass comes to,
or to the same operations, of which it is the controller. -/
theorem result_of_empty_subclass {config : Config} {source : ClassStore} (hf : source.IsFaithful)
    (ha : source.IsAcyclic) {lower upper : String} {c b : Class}
    (hc : source.answer (TypeName.dotted lower) = .ok (some c))
    (hb : source.answer (TypeName.dotted upper) = .ok (some b))
    (hp : c.parent?.map TypeName.dotted = some (TypeName.dotted upper))
    (hr : TypeName.dotted upper ∉ config.rootTypes) (hm : c.methods = []) (hv : c.visible = [])
    {loader other : Loader} (hl : Reaches source loader) (ho : Reaches source other)
    (base : Option String) :
    (∃ fault,
      (ofMounts config [{ controller := lower, base }] loader).1.result = .error fault ∧
      (ofMounts config [{ controller := upper, base }] other).1.result = .error fault) ∨
    ∃ operations inherited,
      (ofMounts config [{ controller := lower, base }] loader).1.result = .ok operations ∧
      (ofMounts config [{ controller := upper, base }] other).1.result = .ok inherited ∧
      List.Forall₂ (IsInherited c b) operations inherited := by
  have h : source.IsAbove config.rootTypes c b := by
    obtain ⟨superclass, hs, hdotted⟩ := Option.map_eq_some_iff.1 hp
    unfold ClassStore.IsAbove ClassStore.above ClassStore.existing
    rw [hs]
    dsimp only
    rw [hdotted, if_neg (by simpa using hr), hb]
    rfl
  have hlower := hl.follows hf ha
  have hupper := ho.follows hf ha
  rw [result_ofMounts_one, result_ofMounts_one]
  rcases settlesAlike_ofMount ha hc hb h hm hv base with
    ⟨fault, hx, hy⟩ | ⟨operations, inherited, hx, hy, hi⟩
  · exact .inl ⟨fault, (hx loader hlower).1, (hy other hupper).1⟩
  · exact .inr ⟨operations, inherited, (hx loader hlower).1, (hy other hupper).1, hi⟩

/-- A class with a handler, for a path of its own below that of the class. -/
def served : Class where
  name := "B"
  methods := [
    { name := "f"
      descriptor := "()V"
      visible := [
        { typeName := "io.jooby.annotations.GET", values := ⟨[("value", .text "/f")]⟩ }] }]
  visible := [{ typeName := "io.jooby.annotations.Path", values := ⟨[("value", .text "/b")]⟩ }]

def servedOperation (controller : String) : Operation :=
  { verb := "GET", pattern := "/x/b/f", results := ["void"], name := "f", controller
    method := "f()V" }

theorem result_of_empty_subclass_served :
    (run {} [{ controller := "A", base := some "x" }] (childOf served)).1.result =
      .ok [servedOperation "A"] ∧
    ((∃ fault,
      (run {} [{ controller := "A", base := some "x" }] (childOf served)).1.result = .error fault ∧
      (run {} [{ controller := "B", base := some "x" }] (childOf served)).1.result = .error fault) ∨
    ∃ operations inherited,
      (run {} [{ controller := "A", base := some "x" }] (childOf served)).1.result =
        .ok operations ∧
      (run {} [{ controller := "B", base := some "x" }] (childOf served)).1.result =
        .ok inherited ∧
      List.Forall₂ (IsInherited { name := "A", superclass := some "B" } served)
        operations inherited) := by
  refine ⟨rfl, ?_⟩
  have hf : (childOf served).IsFaithful := trivial
  have ha : (childOf served).IsAcyclic := isAcyclic_childOf rfl
  have hlower : (childOf served).answer (TypeName.dotted "A") =
      .ok (some { name := "A", superclass := some "B" }) := rfl
  have hupper : (childOf served).answer (TypeName.dotted "B") = .ok (some served) := rfl
  have hroot : TypeName.dotted "B" ∉ ({} : Config).rootTypes := by decide
  exact result_of_empty_subclass hf ha hlower hupper rfl hroot rfl rfl .fresh .fresh (some "x")

end Extraction

end JvmRoutes
