import JvmRoutes.Proofs.Extraction.Routes

/-!
What the base of a mount is good for. Whatever it is, the same routes are found in the same way, and
it stands in front of each of their paths once.
-/
namespace JvmRoutes

/-- The operation is that of a path below a base. -/
structure Operation.IsBelow (base : Option String) (path : String) (o : Operation) : Prop where
  pattern_eq : o.pattern = Route.join base (some path)
  keys_eq : o.keys = Route.keys o.pattern

/-- The operations have nothing different but their paths, and the keys in these. -/
def Operation.AgreesBesidePath (o other : Operation) : Prop :=
  other = { o with pattern := other.pattern, keys := other.keys }

namespace Extraction

open Loading Operation

/-- The activity gives the operations of triples, in the search for which the base has no part. -/
def IsRebased (f : Option String → Loading (List Operation)) : Prop :=
  ∃ routes : Loading (List Triple), ∀ base, f base = do
    return (← routes).map (·.operation base)

theorem isRebased_operations (h : Handling) (verb : String) (paths : List String) :
    IsRebased fun base => pure (h.operations base [verb] paths) := by
  refine ⟨pure ((Handling.orElse Route.root paths).map (⟨h, verb, ·⟩)), fun base => ?_⟩
  rw [pure_bind, List.map_map]
  exact congrArg pure (List.append_nil _)

theorem IsRebased.after {α : Type} {f : α → Option String → Loading (List Operation)}
    (h : ∀ a, IsRebased (f a)) (x : Loading α) : IsRebased fun base => x >>= (f · base) := by
  choose routes hroutes using h
  refine ⟨x >>= routes, fun base => ?_⟩
  rw [bind_assoc]
  exact congrArg (x >>= ·) (funext fun a => hroutes a base)

theorem IsRebased.collect {α : Type} {f : Option String → α → Loading (List Operation)}
    (h : ∀ a, IsRebased (f · a)) (items : List α) :
    IsRebased fun base => Extraction.collect (f base) items := by
  induction items with
  | nil => exact ⟨pure [], fun base => (pure_bind _ _).symm⟩
  | cons a rest ih =>
    obtain ⟨first, hfirst⟩ := h a
    obtain ⟨others, hothers⟩ := ih
    refine ⟨do return (← first) ++ (← others), fun base => ?_⟩
    simp only [Extraction.collect, hfirst, hothers, bind_assoc, pure_bind, List.map_append]

theorem isRebased_ofHandler (config : Config) (controller : Class) (m : Method) :
    IsRebased (ofHandler config controller · m) := by
  unfold ofHandler
  refine IsRebased.after (fun _ => ?_) _
  refine IsRebased.after (fun arguments => ?_) _
  refine IsRebased.after (fun result => ?_) _
  refine IsRebased.after (fun produces => ?_) _
  refine IsRebased.after (fun consumes => ?_) _
  apply IsRebased.collect
  intro verb
  exact IsRebased.after (fun paths => isRebased_operations _ verb paths) _

theorem isRebased_ofMount (config : Config) (controller : String) :
    IsRebased fun base => ofMount config { controller, base } := by
  show IsRebased fun base => do
    let c ← resolve controller
    let handlers ← Handler.effective config c
    collect (ofHandler config c base) handlers.values
  refine IsRebased.after (fun c => ?_) _
  refine IsRebased.after (fun handlers => ?_) _
  exact IsRebased.collect (isRebased_ofHandler config c) handlers.values

private theorem isBelow_operation (base : Option String) (t : Triple) :
    IsBelow base t.path (t.operation base) := ⟨rfl, rfl⟩

private theorem agreesBesidePath_operation (base other : Option String) (t : Triple) :
    AgreesBesidePath (t.operation base) (t.operation other) := rfl

/-- A controller that is mounted at any base, or at none, comes to the same fault, or to operations
that have nothing different but their paths. For these there are paths that do not depend on the
base, and each has it in front. -/
theorem result_of_base (config : Config) (controller : String) (loader : Loader) :
    (∃ fault, ∀ base,
      (ofMounts config [{ controller, base }] loader).1.result = .error fault) ∨
    ∃ (paths : List String) (operations : Option String → List Operation), ∀ base,
      (ofMounts config [{ controller, base }] loader).1.result = .ok (operations base) ∧
      List.Forall₂ (IsBelow base) paths (operations base) ∧
      ∀ other, List.Forall₂ AgreesBesidePath (operations base) (operations other) := by
  obtain ⟨routes, hroutes⟩ := isRebased_ofMount config controller
  simp only [result_ofMounts_one, hroutes]
  rcases ho : outcome routes loader with ⟨r, next⟩
  cases r with
  | error fault =>
    left
    refine ⟨fault, fun base => ?_⟩
    rw [outcome_bind_error ho]
  | ok triples =>
    right
    refine ⟨triples.map (·.path), fun base => triples.map (·.operation base), fun base => ?_⟩
    rw [outcome_bind_ok ho]
    refine ⟨rfl, ?_, fun other => ?_⟩
    · rw [List.forall₂_map_left_iff, List.forall₂_map_right_iff, List.forall₂_same]
      exact fun t _ => isBelow_operation base t
    · rw [List.forall₂_map_left_iff, List.forall₂_map_right_iff, List.forall₂_same]
      exact fun t _ => agreesBesidePath_operation base other t

end Extraction

end JvmRoutes
