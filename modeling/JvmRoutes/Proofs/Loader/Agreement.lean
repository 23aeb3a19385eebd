import JvmRoutes.Proofs.Loader.Results
import JvmRoutes.Proofs.Loader.WayUp

/-!
Searches come to one result at most, whatever has been looked up before. What they have been told
by a loader is what its source has, also where the source has a cycle.
-/
namespace JvmRoutes

namespace Loader

variable {source : ClassStore} {loader other : Loader} {rootTypes : List String} {c : Class}
  {rest rest' : List Class}

/-- Over one source there is one way up. -/
theorem Holds.unique (h : loader.Holds rootTypes c rest) (h' : other.Holds rootTypes c rest')
    (hf : loader.Follows source) (hf' : other.Follows source) : rest = rest' := by
  induction h generalizing rest' with
  | top ha =>
    cases h' with
    | top _ => rfl
    | child ha' => rw [ha] at ha'; cases ha'
  | @child c d superclass rest ha hd _ ih =>
    cases h' with
    | top ha' => rw [ha] at ha'; cases ha'
    | @child _ d' superclass' rest' ha' hd' hrest' =>
      obtain rfl := Option.some.inj (ha.symm.trans ha')
      have hanswer := (hf.loaded _ d hd).symm.trans (hf'.loaded _ d' hd')
      obtain rfl := Option.some.inj (Except.ok.inj hanswer)
      rw [ih hrest']

end Loader

namespace Loading

variable {α : Type} {source : ClassStore} {first : Loader} {rootTypes : List String}
  {c : Class}

theorem ComesTo.exists_outcome {x : Loading α} {a : α} (h : ComesTo first x a)
    (hf : first.Follows source) (hc : first.IsConsistent) :
    ∃ loader next : Loader, loader.Follows source ∧ loader.IsConsistent ∧
      outcome x loader = (.ok a, next) := by
  obtain ⟨names, h⟩ := h
  exact ⟨_, _, hf.afterFinds names, (hc.afterFinds names).1, Prod.ext h rfl⟩

/-- A class that has been found is the one of the source. -/
theorem ComesTo.answer_of_find {name : String} {found : Option Class}
    (h : ComesTo first (find name) found) (hf : first.Follows source) :
    source.answer (TypeName.dotted name) = .ok found := by
  obtain ⟨names, h⟩ := h
  rcases (follows_find name (hf.afterFinds names)).2 with hr | ⟨-, superclass, hr⟩
  · exact hr.symm.trans h
  · rw [hr] at h
    cases h

theorem ComesTo.above_of_parent {found : Option Class}
    (h : ComesTo first (parent? rootTypes c) found) (hf : first.Follows source) :
    source.above rootTypes c = .ok found := by
  obtain ⟨names, h⟩ := h
  have hr := (settlesOrCloses_parent rootTypes c _ (hf.afterFinds names)).2
  rcases hr with hr | ⟨name, -, superclass, hr⟩
  · exact hr.symm.trans h
  · rw [hr] at h
    cases h

theorem ComesTo.exists_holds {classes : List Class}
    (h : ComesTo first (lineage rootTypes c) classes) (hf : first.Follows source)
    (hc : first.IsConsistent) :
    ∃ (next : Loader) (rest : List Class), classes = c :: rest ∧ next.Holds rootTypes c rest ∧
      next.Follows source := by
  obtain ⟨loader, next, hloader, hconsistent, ho⟩ := h.exists_outcome hf hc
  obtain ⟨rest, hclasses, hholds⟩ := holds_of_outcome_lineage hconsistent ho
  exact ⟨next, rest, hclasses, hholds, hloader.after (onlyFinds_lineage c) ho⟩

theorem ComesTo.unique_lineage {classes classes' : List Class}
    (h : ComesTo first (lineage rootTypes c) classes)
    (h' : ComesTo first (lineage rootTypes c) classes') (hf : first.Follows source)
    (hc : first.IsConsistent) : classes = classes' := by
  obtain ⟨next, rest, rfl, hholds, hfollows⟩ := h.exists_holds hf hc
  obtain ⟨next', rest', rfl, hholds', hfollows'⟩ := h'.exists_holds hf hc
  rw [hholds.unique hholds' hfollows hfollows']

/-- Two searches that both end meet the same classes, whatever room they have. -/
theorem ComesTo.unique_searchAboveWithin {f : Class → Option α} {height height' : Nat}
    {a a' : Option α} (h : ComesTo first (searchAboveWithin rootTypes f height c) a)
    (h' : ComesTo first (searchAboveWithin rootTypes f height' c) a')
    (hf : first.Follows source) : a = a' := by
  induction height generalizing height' c with
  | zero => cases h.eq_of_ofExcept
  | succ height ih =>
    cases height' with
    | zero => cases h'.eq_of_ofExcept
    | succ height' =>
      unfold searchAboveWithin at h h'
      obtain ⟨parent, hp, h⟩ := h.bind (onlyFinds_parent c)
      obtain ⟨parent', hp', h'⟩ := h'.bind (onlyFinds_parent c)
      obtain rfl := Except.ok.inj ((hp.above_of_parent hf).symm.trans (hp'.above_of_parent hf))
      cases parent with
      | none =>
        obtain rfl := h.eq_of_pure
        exact h'.eq_of_pure
      | some d =>
        cases hd : f d with
        | some b =>
          simp only [hd] at h h'
          obtain rfl := h.eq_of_pure
          exact h'.eq_of_pure
        | none =>
          simp only [hd] at h h'
          exact ih h h'

theorem ComesTo.unique_searchAbove {f : Class → Option α} {a a' : Option α}
    (h : ComesTo first (searchAbove rootTypes f c) a)
    (h' : ComesTo first (searchAbove rootTypes f c) a') (hf : first.Follows source) : a = a' := by
  unfold searchAbove at h h'
  obtain ⟨height, -, h⟩ := h.bind (onlyFinds_ask _)
  obtain ⟨height', -, h'⟩ := h'.bind (onlyFinds_ask _)
  exact h.unique_searchAboveWithin h' hf

/-- After whatever lookups, a search comes to no two results. -/
theorem ComesTo.unique {x : Loading α} {a a' : α} (h : ComesTo first x a)
    (h' : ComesTo first x a') (hx : IsSearch x) (hf : first.Follows source)
    (hc : first.IsConsistent) : a = a' := by
  induction hx with
  | ofTraced x =>
    obtain ⟨_, h⟩ := h
    obtain ⟨_, h'⟩ := h'
    exact Except.ok.inj (h.symm.trans h')
  | find name =>
    exact Except.ok.inj ((h.answer_of_find hf).symm.trans (h'.answer_of_find hf))
  | lineage rootTypes c => exact h.unique_lineage h' hf hc
  | searchAbove rootTypes f c => exact h.unique_searchAbove h' hf
  | bind hx _ ihx ihf =>
    obtain ⟨b, hb, h⟩ := h.bind hx.onlyFinds
    obtain ⟨b', hb', h'⟩ := h'.bind hx.onlyFinds
    obtain rfl := ihx hb hb'
    exact ihf b h h'

end Loading

end JvmRoutes
