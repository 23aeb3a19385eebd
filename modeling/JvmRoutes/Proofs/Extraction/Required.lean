import JvmRoutes.Proofs.Extraction.Findings
import JvmRoutes.Proofs.Handler.Required

/-!
An extraction with and without the setting that a value of which nothing is known must be given.
Both look for the same classes, and their operations have nothing different but what must be given.
-/
namespace JvmRoutes

/-- The operations of a method without and with the setting. -/
structure Operation.Weakens (config : Config) (m : Method) (off on : Operation) : Prop where
  method_eq : off.method = m.name ++ m.descriptor
  eq : on = { off with arguments := on.arguments }
  arguments : ∃ hasContinuation asked asked',
    Arguments.Weakens config m hasContinuation asked asked' off.arguments on.arguments

namespace Extraction

open Loading

variable {config : Config} {first : Loader} {m : Method}

theorem inStep_collect {α β : Type} {f g : α → Loading (List β)} {R : β → β → Prop}
    {items : List α} (h : ∀ a ∈ items, InStep first (List.Forall₂ R) (f a) (g a)) :
    InStep first (List.Forall₂ R) (collect f items) (collect g items) := by
  induction items with
  | nil => exact inStep_pure .nil
  | cons a rest ih =>
    obtain ⟨ha, hrest⟩ := List.forall_mem_cons.1 h
    apply ha.bind
    intro part part' hpart
    apply (ih hrest).bind
    intro others others' hothers
    exact inStep_pure (List.rel_append hpart hothers)

private theorem forall₂_operations {R : Operation → Operation → Prop} {h h' : Operation.Handling}
    {base : Option String}
    (hr : ∀ verb path, R (h.operation base verb path) (h'.operation base verb path))
    (verbs paths : List String) :
    List.Forall₂ R (h.operations base verbs paths) (h'.operations base verbs paths) := by
  refine List.rel_flatMap (R := Eq) (List.forall₂_refl _) ?_
  rintro verb _ rfl
  rw [List.forall₂_map_left_iff, List.forall₂_map_right_iff, List.forall₂_same]
  exact fun path _ => hr verb path

theorem inStep_ofHandler (config : Config) (controller : Class) (base : Option String)
    (m : Method) :
    InStep first (List.Forall₂ (Operation.Weakens config m))
      (ofHandler (config.withUnmarked false) controller base m)
      (ofHandler (config.withUnmarked true) controller base m) := by
  have hmedia := fun types => (Route.isReporting_mediaTypes config types controller m).isSearch
  have hpatterns := fun verb => (Route.isReporting_patterns config controller m verb).isSearch
  unfold ofHandler
  refine (isSearch_log _ _).onlyFinds.inStep_bind fun _ _ => ?_
  apply (Handler.inStep_arguments Handler.isReporting_isLoadedEnum config m).bind
  intro arguments arguments' harguments
  -- nothing else that is found out about the handler depends on the setting
  refine (isSearch_ofExcept (Handler.result config m)).onlyFinds.inStep_bind fun result _ => ?_
  refine (hmedia Marker.produces).onlyFinds.inStep_bind fun produces _ => ?_
  refine (hmedia Marker.consumes).onlyFinds.inStep_bind fun consumes _ => ?_
  apply inStep_collect
  intro verb _
  refine (hpatterns verb).onlyFinds.inStep_bind fun paths _ => ?_
  exact inStep_pure (forall₂_operations (fun _ _ => ⟨rfl, rfl, harguments⟩) [verb] paths)

/-- A method is a handler of the controller of one of some mounts. -/
def IsHandler (config : Config) (first : Loader) (mounts : List Mount) (m : Method) : Prop :=
  ∃ mount ∈ mounts, ∃ controller handlers, ComesTo first (resolve mount.controller) controller ∧
    ComesTo first (Handler.effective config controller) handlers ∧ m ∈ handlers.values

theorem inStep_ofMount {mounts : List Mount} {mount : Mount} (hm : mount ∈ mounts) :
    InStep first
      (List.Forall₂ fun off on =>
        ∃ m, IsHandler config first mounts m ∧ Operation.Weakens config m off on)
      (ofMount (config.withUnmarked false) mount) (ofMount (config.withUnmarked true) mount) := by
  have heffective := fun controller => (Handler.isSearch_effective config controller).onlyFinds
  unfold ofMount
  refine (isSearch_resolve mount.controller).onlyFinds.inStep_bind fun controller hc => ?_
  refine (heffective controller).inStep_bind fun handlers hh => ?_
  apply inStep_collect
  intro m hv
  apply (inStep_ofHandler config controller mount.base m).mono
  intro off on h
  exact h.imp fun _ _ hw => ⟨m, ⟨mount, hm, controller, handlers, hc, hh, hv⟩, hw⟩

theorem inStep_ofMountsFrom {all mounts : List Mount} (h : ∀ mount ∈ mounts, mount ∈ all)
    (position count : Nat) :
    InStep first
      (List.Forall₂ fun off on =>
        ∃ m, IsHandler config first all m ∧ Operation.Weakens config m off on)
      (ofMountsFrom (config.withUnmarked false) position count mounts)
      (ofMountsFrom (config.withUnmarked true) position count mounts) := by
  induction mounts generalizing position with
  | nil => exact inStep_pure .nil
  | cons mount rest ih =>
    obtain ⟨hm, hrest⟩ := List.forall_mem_cons.1 h
    unfold ofMountsFrom
    refine (isSearch_log _ _).onlyFinds.inStep_bind fun _ _ => ?_
    apply (inStep_ofMount hm).bind
    intro part part' hpart
    apply (ih hrest (position + 1)).bind
    intro others others' hothers
    exact inStep_pure (List.rel_append hpart hothers)

theorem inStep_ofMounts (first : Loader) (config : Config) (mounts : List Mount) :
    InStep first
      (List.Forall₂ fun off on =>
        ∃ m, IsHandler config first mounts m ∧ Operation.Weakens config m off on)
      (ofMounts (config.withUnmarked false) mounts)
      (ofMounts (config.withUnmarked true) mounts) := by
  unfold ofMounts
  refine (isSearch_log _ _).onlyFinds.inStep_bind fun _ _ => ?_
  apply (inStep_ofMountsFrom (fun _ hm => hm) 1 mounts.length).bind
  intro off on h
  refine (onlyFinds_ask _).inStep_bind fun classes _ => ?_
  rw [h.length_eq]
  exact (isSearch_log _ _).onlyFinds.inStep_bind fun _ _ => inStep_pure h

/-- Without and with the setting, an extraction fails for the same fault, or it comes to as many
operations in the same order. They have nothing different but what must be given: with the setting
nothing of it is given up, and what is added goes back to formal parameters whose values may be
missing as far as their types, their locations and their markers say. -/
theorem weakens_run (config : Config) (mounts : List Mount) (store : ClassStore) :
    (∃ fault, (run (config.withUnmarked false) mounts store).1.result = .error fault ∧
      (run (config.withUnmarked true) mounts store).1.result = .error fault) ∨
    ∃ off on, (run (config.withUnmarked false) mounts store).1.result = .ok off ∧
      (run (config.withUnmarked true) mounts store).1.result = .ok on ∧
      List.Forall₂ (fun o o' => ∃ m, IsHandler config { store } mounts m ∧
        Operation.Weakens config m o o') off on := by
  obtain ⟨names, ⟨fault, hoff, hon⟩ | ⟨off, on, hoff, hon, h⟩⟩ :=
    inStep_ofMounts { store } config mounts []
  · exact .inl ⟨fault, congrArg Prod.fst hoff, congrArg Prod.fst hon⟩
  · exact .inr ⟨off, on, congrArg Prod.fst hoff, congrArg Prod.fst hon, h⟩

end Extraction

end JvmRoutes
