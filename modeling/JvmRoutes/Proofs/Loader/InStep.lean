import JvmRoutes.Proofs.Loader.Results

/-!
Two activities that look for the same classes in the same order. They fail for the same fault, or
both succeed, and what they have loaded is the same at each step.
-/
namespace JvmRoutes.Loading

variable {α β γ δ : Type} {first : Loader} {R : α → β → Prop} {Q : γ → δ → Prop}

/-- From every loader that lookups lead to, two activities come to the same fault, or to results in
a relation, and they leave the same loader behind. -/
def InStep (first : Loader) (R : α → β → Prop) (x : Loading α) (y : Loading β) : Prop :=
  ∀ names, ∃ more,
    (∃ fault, outcome x (first.afterFinds names) = (.error fault, first.afterFinds more) ∧
      outcome y (first.afterFinds names) = (.error fault, first.afterFinds more)) ∨
    ∃ a b, outcome x (first.afterFinds names) = (.ok a, first.afterFinds more) ∧
      outcome y (first.afterFinds names) = (.ok b, first.afterFinds more) ∧ R a b

theorem inStep_pure {a : α} {b : β} (h : R a b) : InStep first R (pure a) (pure b) :=
  fun names => ⟨names, .inr ⟨a, b, rfl, rfl, h⟩⟩

/-- What both activities come to is a result of each. -/
theorem InStep.comesTo {x : Loading α} {y : Loading β} (h : InStep first R x y) :
    InStep first (fun a b => R a b ∧ ComesTo first x a ∧ ComesTo first y b) x y := by
  intro names
  obtain ⟨more, h | ⟨a, b, hx, hy, hab⟩⟩ := h names
  · exact ⟨more, .inl h⟩
  · have hxa : ComesTo first x a := ⟨names, congrArg Prod.fst hx⟩
    have hyb : ComesTo first y b := ⟨names, congrArg Prod.fst hy⟩
    exact ⟨more, .inr ⟨a, b, hx, hy, hab, hxa, hyb⟩⟩

theorem InStep.mono {x : Loading α} {y : Loading β} {R' : α → β → Prop} (h : InStep first R x y)
    (hR : ∀ a b, R a b → R' a b) : InStep first R' x y := by
  intro names
  obtain ⟨more, h | ⟨a, b, hx, hy, hab⟩⟩ := h names
  · exact ⟨more, .inl h⟩
  · exact ⟨more, .inr ⟨a, b, hx, hy, hR a b hab⟩⟩

theorem InStep.bind {x : Loading α} {y : Loading β} {f : α → Loading γ} {g : β → Loading δ}
    (h : InStep first R x y) (hfg : ∀ a b, R a b → InStep first Q (f a) (g b)) :
    InStep first Q (x >>= f) (y >>= g) := by
  intro names
  obtain ⟨middle, ⟨fault, hx, hy⟩ | ⟨a, b, hx, hy, hab⟩⟩ := h names
  · exact ⟨middle, .inl ⟨fault, outcome_bind_error hx, outcome_bind_error hy⟩⟩
  · rw [outcome_bind_ok hx, outcome_bind_ok hy]
    exact hfg a b hab middle

/-- An activity is in step with itself. -/
theorem OnlyFinds.inStep {x : Loading α} (hx : OnlyFinds x) : InStep first Eq x x := by
  intro names
  rcases ho : outcome x (first.afterFinds names) with ⟨r, next⟩
  obtain ⟨more, rfl⟩ := hx.exists_eq ho
  refine ⟨names ++ more, ?_⟩
  rw [Loader.afterFinds_append]
  cases r with
  | error fault => exact .inl ⟨fault, rfl, rfl⟩
  | ok a => exact .inr ⟨a, a, rfl, rfl, rfl⟩

/-- Behind an activity that both have in common, two others stay in step. -/
theorem OnlyFinds.inStep_bind {x : Loading α} {f : α → Loading γ} {g : α → Loading δ}
    (hx : OnlyFinds x) (h : ∀ a, ComesTo first x a → InStep first Q (f a) (g a)) :
    InStep first Q (x >>= f) (x >>= g) := by
  apply hx.inStep.comesTo.bind
  rintro a _ ⟨rfl, ha, -⟩
  exact h a ha

end JvmRoutes.Loading
