import JvmRoutes.Proofs.Loader.Reserve

/-!
What a search above a class comes to, with any loader. It asks for the superclasses of the classes
below its end and for no other one, so that a fault farther up makes no difference to it.
-/
namespace JvmRoutes

variable {α : Type}

/-- What the nearest class above the first one of a way has to say. Where none of them has, the
fault that ended the way is told. -/
def Ancestry.nearest (way : Ancestry) (f : Class → Option α) : Except Fault (Option α) :=
  match way.classes.tail.findSome? f, way.fault with
  | some a, _ => .ok (some a)
  | none, none => .ok none
  | none, some fault => .error fault

namespace Loading

variable {loader next : Loader} {rootTypes : List String} {c : Class} {way : Ancestry}

theorem afterFinds_resolve (name : String) (loader : Loader) :
    (outcome (resolve name) loader).2 = loader.afterFinds [name] := by
  have hfind : (outcome (find name) loader).2 = loader.afterFinds [name] := rfl
  unfold resolve
  rcases ho : outcome (find name) loader with ⟨r, next⟩
  rw [ho] at hfind
  cases r with
  | error fault => rw [outcome_bind_error ho, hfind]
  | ok found =>
    rw [outcome_bind_ok ho, ← hfind]
    cases found <;> rfl

/-- A step up asks for the superclass and for no other class. -/
theorem afterFinds_parent (rootTypes : List String) (c : Class) (loader : Loader) :
    (outcome (parent? rootTypes c) loader).2 = loader.afterFinds (c.above? rootTypes).toList := by
  rw [parent?_eq]
  cases c.above? rootTypes with
  | none => rfl
  | some superclass =>
    have hresolve := afterFinds_resolve superclass loader
    rcases ho : outcome (resolve superclass) loader with ⟨r, next⟩
    rw [ho] at hresolve
    dsimp only
    cases r with
    | error fault =>
      rw [outcome_bind_error ho]
      exact hresolve
    | ok d =>
      rw [outcome_bind_ok ho]
      exact hresolve

theorem Walks.classes_eq (h : Walks rootTypes c loader way next) :
    way.classes = c :: way.classes.tail := by
  cases h <;> rfl

/-- With room for all classes of a walk, a search above its first one gets what the nearest of them
has to say. It leaves the loader as the lookups of the superclasses do that it has come to. -/
theorem Walks.outcome_searchAboveWithin (h : Walks rootTypes c loader way next)
    (f : Class → Option α) {height : Nat} (hh : way.classes.length ≤ height) :
    outcome (searchAboveWithin rootTypes f height c) loader =
      (way.nearest f, loader.afterFinds
        ((c :: way.classes.tail.takeWhile fun d => (f d).isNone).filterMap
          (·.above? rootTypes))) := by
  have hasked (c : Class) (rest : List Class) : (c :: rest).filterMap (·.above? rootTypes) =
      (c.above? rootTypes).toList ++ rest.filterMap (·.above? rootTypes) := by
    rw [List.filterMap_cons]
    cases c.above? rootTypes <;> rfl
  induction h generalizing height with
  | @failed c loader next fault h =>
    obtain ⟨height, rfl⟩ := Nat.exists_eq_add_of_le' hh
    have hnext := afterFinds_parent rootTypes c loader
    rw [h] at hnext
    rw [hasked, List.tail_cons, List.takeWhile_nil, List.filterMap_nil, List.append_nil, ← hnext]
    exact outcome_bind_error h
  | @top c loader next h =>
    obtain ⟨height, rfl⟩ := Nat.exists_eq_add_of_le' hh
    have hnext := afterFinds_parent rootTypes c loader
    rw [h] at hnext
    rw [hasked, List.tail_cons, List.takeWhile_nil, List.filterMap_nil, List.append_nil, ← hnext]
    exact outcome_bind_ok h
  | @child c d loader middle next way h hrest ih =>
    rw [List.length_cons] at hh
    obtain ⟨height, rfl⟩ : ∃ n, height = n + 1 := ⟨height - 1, by omega⟩
    have hmiddle := afterFinds_parent rootTypes c loader
    rw [h] at hmiddle
    have habove : outcome (searchAboveWithin rootTypes f height d) middle = _ := ih (by omega)
    have hstep : outcome (searchAboveWithin rootTypes f (height + 1) c) loader = _ :=
      outcome_bind_ok h
    rw [hstep, hasked, List.tail_cons, hrest.classes_eq, Loader.afterFinds_append, ← hmiddle]
    unfold Ancestry.nearest
    dsimp only
    rw [List.tail_cons, List.findSome?_cons]
    -- the class above answers, or the rest of the walk does with what the step has left
    cases hf : f d with
    | some a =>
      rw [List.takeWhile_cons_of_neg (by simp [hf])]
      exact outcome_pure (some a) middle
    | none =>
      rw [List.takeWhile_cons_of_pos (by simp [hf])]
      exact habove

theorem Walks.outcome_searchAbove (h : Walks rootTypes c loader way next)
    (hl : loader.IsConsistent) (hs : loader.store.IsFaithful) (f : Class → Option α) :
    outcome (searchAbove rootTypes f c) loader =
      (way.nearest f, loader.afterFinds
        ((c :: way.classes.tail.takeWhile fun d => (f d).isNone).filterMap
          (·.above? rootTypes))) := by
  have hroom := h.length_le hl hs
  unfold searchAbove height
  rw [outcome_ask_bind]
  exact h.outcome_searchAboveWithin f (by omega)

end Loading

end JvmRoutes
