import JvmRoutes.Loader.Ancestry
import JvmRoutes.Proofs.Loader.Candidates
import JvmRoutes.Proofs.Loader.Settling

/-!
Ways up from a class. Without a cycle among classes no class is met twice, so that a way up takes
no more steps than its store has classes, and where it leads does not depend on the loader.
-/
namespace JvmRoutes

namespace ClassStore

variable {source : ClassStore} {rootTypes : List String} {c d : Class}

/-- The class above another one, unless that has none or is a child of a root type. -/
def above (source : ClassStore) (rootTypes : List String) (c : Class) :
    Except Fault (Option Class) :=
  match c.parent? with
  | none => return none
  | some superclass =>
    if rootTypes.contains (TypeName.dotted superclass) then return none
    else do return some (← source.existing superclass)

def IsAbove (source : ClassStore) (rootTypes : List String) (c d : Class) : Prop :=
  source.above rootTypes c = .ok (some d)

/-- A way up takes fewer than some number of steps. -/
def EndsWithin (source : ClassStore) (rootTypes : List String) : (steps : Nat) → Class → Prop
  | 0, _ => False
  | steps + 1, c => ∀ d, source.IsAbove rootTypes c d → source.EndsWithin rootTypes steps d

theorem existing_eq_ok {name : String} (h : source.existing name = .ok d) :
    source.answer (TypeName.dotted name) = .ok (some d) := by
  unfold existing at h
  obtain ⟨found, hf, h⟩ := bind_eq_ok_iff.1 h
  cases found with
  | none => contradiction
  | some found =>
    obtain rfl : found = d := Except.ok.inj h
    exact hf

theorem IsAbove.answer_eq (h : source.IsAbove rootTypes c d) :
    ∃ spelled, c.parent? = some spelled ∧
      source.answer (TypeName.dotted spelled) = .ok (some d) := by
  unfold IsAbove above at h
  split at h
  · simp [pure, Except.pure] at h
  · rename_i spelled hp
    split at h
    · simp [pure, Except.pure] at h
    · obtain ⟨found, hf, h⟩ := bind_eq_ok_iff.1 h
      obtain rfl : found = d := Option.some.inj (Except.ok.inj h)
      exact ⟨spelled, hp, existing_eq_ok hf⟩

theorem IsAbove.mem_candidates (h : source.IsAbove rootTypes c d) : d ∈ source.candidates := by
  obtain ⟨spelled, -, ha⟩ := h.answer_eq
  exact ClassStore.mem_candidates ha

/-- The names of superclasses on a way up are on a way up themselves. -/
theorem transGen_extends (h : Relation.TransGen (source.IsAbove rootTypes) c d)
    {lower upper : String} (hc : c.parent? = some lower) (hd : d.parent? = some upper) :
    Relation.TransGen source.Extends (TypeName.dotted lower) (TypeName.dotted upper) := by
  induction h generalizing upper with
  | single h =>
    obtain ⟨spelled, hs, ha⟩ := h.answer_eq
    obtain rfl : lower = spelled := Option.some.inj (hc.symm.trans hs)
    exact .single ⟨_, upper, ha, hd, rfl⟩
  | tail _ h ih =>
    obtain ⟨spelled, hs, ha⟩ := h.answer_eq
    exact (ih hs).tail ⟨_, upper, ha, hd, rfl⟩

/-- No way up comes back to where it starts. -/
theorem IsAcyclic.not_transGen (ha : source.IsAcyclic) (c : Class) :
    ¬ Relation.TransGen (source.IsAbove rootTypes) c c := by
  intro h
  obtain ⟨d, hd, -⟩ := Relation.TransGen.head'_iff.1 h
  obtain ⟨spelled, hs, -⟩ := hd.answer_eq
  exact ha _ (transGen_extends h hs hs)

/-- A way up that takes too many steps meets as many classes. -/
theorem exists_isChain {steps : Nat} (h : ¬ source.EndsWithin rootTypes steps c) :
    ∃ classes : List Class, classes.length = steps ∧
      List.IsChain (source.IsAbove rootTypes) (c :: classes) := by
  induction steps generalizing c with
  | zero => exact ⟨[], rfl, .singleton c⟩
  | succ steps ih =>
    rw [EndsWithin] at h
    push Not at h
    obtain ⟨d, hd, he⟩ := h
    obtain ⟨classes, hl, hc⟩ := ih he
    exact ⟨d :: classes, by rw [List.length_cons, hl], .cons_cons hd hc⟩

theorem IsAcyclic.length_le (ha : source.IsAcyclic) {classes : List Class}
    (h : List.IsChain (source.IsAbove rootTypes) (c :: classes)) :
    classes.length ≤ source.size := by
  have ht : List.Pairwise (Relation.TransGen (source.IsAbove rootTypes)) (c :: classes) :=
    List.isChain_iff_pairwise.1 (h.imp fun _ _ => Relation.TransGen.single)
  have hn : classes.Nodup := by
    refine (List.pairwise_cons.1 ht).2.imp ?_
    intro a b hab he
    subst he
    exact ha.not_transGen a hab
  have hs : classes ⊆ source.candidates := by
    intro d hd
    have hcd := (List.pairwise_cons.1 ht).1 d hd
    obtain ⟨b, -, hb⟩ := Relation.TransGen.tail'_iff.1 hcd
    exact hb.mem_candidates
  exact Nat.le_trans (hn.length_le_of_subset hs) (length_candidates source)

/-- Without a cycle, no way up takes more steps than the store has classes. -/
theorem IsAcyclic.endsWithin (ha : source.IsAcyclic) (rootTypes : List String) (c : Class) :
    source.EndsWithin rootTypes (source.size + 1) c := by
  by_contra h
  obtain ⟨classes, hl, hc⟩ := exists_isChain h
  have hs := ha.length_le hc
  omega

end ClassStore

namespace Loading

variable {α : Type} {source : ClassStore} {rootTypes : List String}

theorem settles_parent (ha : source.IsAcyclic) (rootTypes : List String) (c : Class) :
    Settles source (parent? rootTypes c) (source.above rootTypes c) := by
  unfold parent? ClassStore.above
  cases c.parent? with
  | none => exact settles_pure none
  | some superclass =>
    dsimp only
    split
    · exact settles_pure none
    · exact (settles_resolve ha superclass).andThen fun d => settles_pure (some d)

/-- Once the bound on a walk is as long as the way up, it makes no difference. -/
theorem settles_ancestryWithin (ha : source.IsAcyclic) {steps : Nat} {c : Class}
    (he : source.EndsWithin rootTypes steps c) :
    ∃ way, ∀ room, Settles source (ancestryWithin rootTypes (room + steps) c) (.ok way) := by
  induction steps generalizing c with
  | zero => exact he.elim
  | succ steps ih =>
    have hp := (settles_parent ha rootTypes c).attempt
    cases hc : source.above rootTypes c with
    | error fault =>
      rw [hc] at hp
      refine ⟨{ classes := [c], fault := some fault }, fun room => ?_⟩
      exact hp.bind (settles_pure _)
    | ok parent =>
      rw [hc] at hp
      cases parent with
      | none =>
        refine ⟨{ classes := [c] }, fun room => ?_⟩
        exact hp.bind (settles_pure _)
      | some parent =>
        obtain ⟨way, hw⟩ := ih (he parent hc)
        refine ⟨{ way with classes := c :: way.classes }, fun room => ?_⟩
        exact hp.bind ((hw room).bind (settles_pure _))

theorem settles_searchAboveWithin (ha : source.IsAcyclic) (f : Class → Option α) {steps : Nat}
    {c : Class} (he : source.EndsWithin rootTypes steps c) :
    ∃ r, ∀ room, Settles source (searchAboveWithin rootTypes f (room + steps) c) r := by
  induction steps generalizing c with
  | zero => exact he.elim
  | succ steps ih =>
    have hp := settles_parent ha rootTypes c
    cases hc : source.above rootTypes c with
    | error fault =>
      rw [hc] at hp
      refine ⟨.error fault, fun room => ?_⟩
      exact hp.bind_error
    | ok parent =>
      rw [hc] at hp
      cases parent with
      | none =>
        refine ⟨.ok none, fun room => ?_⟩
        exact hp.bind (settles_pure none)
      | some parent =>
        cases hf : f parent with
        | some a =>
          refine ⟨.ok (some a), fun room => ?_⟩
          refine hp.bind ?_
          simp only [hf]
          exact settles_pure (some a)
        | none =>
          obtain ⟨r, hr⟩ := ih (he parent hc)
          refine ⟨r, fun room => ?_⟩
          refine hp.bind ?_
          simp only [hf]
          exact hr room

/-- A loader gives a walk more room than all classes of its source take. -/
theorem settles_height {f : Nat → Loading α} {r : Except Fault α} {steps : Nat}
    (hs : steps ≤ source.size + 2) (h : ∀ room, Settles source (f (room + steps)) r) :
    Settles source (do f (← height)) r := by
  intro loader hl
  obtain ⟨room, hroom⟩ := Nat.exists_eq_add_of_le' hs
  have hheight : loader.loaded.size + loader.store.size + 2 =
      loader.loaded.size + room + steps := by
    rw [hl.size_eq]
    omega
  unfold height
  rw [ask_bind, hheight]
  exact h _ loader hl

theorem isSettled_height {f : Nat → Loading α}
    (h : ∃ r, ∀ room, Settles source (f (room + (source.size + 1))) r) :
    IsSettled source (do f (← height)) := by
  obtain ⟨r, hr⟩ := h
  exact ⟨r, settles_height (by omega) hr⟩

theorem isSettled_lineage (ha : source.IsAcyclic) (c : Class) :
    IsSettled source (lineage rootTypes c) := by
  unfold lineage
  refine IsSettled.bind ?_ fun way => ?_
  · obtain ⟨way, hw⟩ := settles_ancestryWithin ha (ha.endsWithin rootTypes c)
    exact isSettled_height ⟨.ok way, hw⟩
  · cases way.fault with
    | none => exact isSettled_pure _
    | some fault => exact isSettled_fail fault

theorem isSettled_searchAbove (ha : source.IsAcyclic) (f : Class → Option α) (c : Class) :
    IsSettled source (searchAbove rootTypes f c) :=
  isSettled_height (settles_searchAboveWithin ha f (ha.endsWithin rootTypes c))

end Loading

end JvmRoutes
