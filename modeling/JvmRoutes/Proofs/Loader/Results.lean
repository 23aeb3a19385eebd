import JvmRoutes.Proofs.Loader.Lineage

/-!
Results that activities come to after some lookups. What a sequence comes to is made of what its
steps come to.
-/
namespace JvmRoutes.Loading

variable {α β : Type} {x : Loading α} {f : α → Loading β} {first last : Loader} {a : α} {b : β}

/-- After some lookups, an activity comes to a result. -/
def ComesTo (first : Loader) (x : Loading α) (a : α) : Prop :=
  ∃ names, (outcome x (first.afterFinds names)).1 = .ok a

theorem ComesTo.mono {names : List String} (h : ComesTo (first.afterFinds names) x a) :
    ComesTo first x a := by
  obtain ⟨more, h⟩ := h
  rw [← Loader.afterFinds_append] at h
  exact ⟨names ++ more, h⟩

theorem comesTo_of_outcome (h : outcome x first = (.ok a, last)) : ComesTo first x a :=
  ⟨[], congrArg Prod.fst h⟩

theorem ComesTo.bind (h : ComesTo first (x >>= f) b) (hx : OnlyFinds x) :
    ∃ a, ComesTo first x a ∧ ComesTo first (f a) b := by
  obtain ⟨names, hb⟩ := h
  obtain ⟨a, next, hxa, hfa⟩ := outcome_bind_eq_ok_iff.1 (Prod.ext hb rfl)
  obtain ⟨more, rfl⟩ := hx.exists_eq hxa
  rw [← Loader.afterFinds_append] at hfa
  exact ⟨a, ⟨names, congrArg Prod.fst hxa⟩, ⟨names ++ more, congrArg Prod.fst hfa⟩⟩

theorem ComesTo.eq_of_ofExcept {r : Except Fault α} (h : ComesTo first (ofExcept r) a) :
    r = .ok a := by
  obtain ⟨names, h⟩ := h
  exact h

theorem ComesTo.eq_of_pure {a' : α} (h : ComesTo first (pure a : Loading α) a') : a = a' := by
  obtain ⟨names, h⟩ := h
  exact Except.ok.inj h

/-- An activity that comes to one result wherever a way up is kept, comes to no other one. -/
theorem ComesTo.eq_of_holds {rootTypes : List String} {c : Class} {rest : List Class} {a' : α}
    (h : ComesTo first x a) (hf : first.IsConsistent) (hw : first.Holds rootTypes c rest)
    (hx : ∀ loader, loader.Holds rootTypes c rest → loader.IsConsistent →
      outcome x loader = (.ok a', loader)) : a = a' := by
  obtain ⟨names, h⟩ := h
  obtain ⟨hc, hgrows⟩ := hf.afterFinds names
  rw [hx _ (hw.grow hgrows) hc] at h
  exact (Except.ok.inj h).symm

end JvmRoutes.Loading
