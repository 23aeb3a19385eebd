import JvmRoutes.Proofs.Loader.Lineage
import JvmRoutes.Proofs.Loader.Reporting
import Mathlib.Data.List.Duplicate

/-!
Walks up from a class, whatever has been asked of the loader before. Nothing bounds their steps but
the hierarchy, and they end nevertheless: each step leaves a link, and the links have no cycle.
-/
namespace JvmRoutes

open Relation

namespace ClassStore

variable {source : ClassStore} {rootTypes : List String} {c d : Class} {name : String}
  {classes : List Class} {fault : Option Fault}

/-- The classes from another one up to the one that has no superclass or is a child of a root type,
by what the source has. Where a superclass is missing or cannot be read, the way breaks off. -/
inductive WayUp (source : ClassStore) (rootTypes : List String) :
    Class → List Class → Option Fault → Prop
  | top {c : Class} (h : c.above? rootTypes = none) : WayUp source rootTypes c [c] none
  | missing {c : Class} {superclass : String} (h : c.above? rootTypes = some superclass)
    (hm : source.answer (TypeName.dotted superclass) = .ok none) :
    WayUp source rootTypes c [c] (some (.typeNotFound (TypeName.dotted superclass)))
  | unreadable {c : Class} {superclass : String} {fault : Fault}
    (h : c.above? rootTypes = some superclass)
    (hf : source.answer (TypeName.dotted superclass) = .error fault) :
    WayUp source rootTypes c [c] (some fault)
  | child {c d : Class} {superclass : String} {rest : List Class} {fault : Option Fault}
    (h : c.above? rootTypes = some superclass)
    (hd : source.answer (TypeName.dotted superclass) = .ok (some d))
    (hrest : WayUp source rootTypes d rest fault) : WayUp source rootTypes c (c :: rest) fault

/-- The class of one name has a superclass that goes by the other and is no root type. -/
def LeadsTo (source : ClassStore) (rootTypes : List String) (name upper : String) : Prop :=
  ∃ c superclass, source.answer name = .ok (some c) ∧ c.above? rootTypes = some superclass ∧
    upper = TypeName.dotted superclass

/-- The names of superclasses that follow a name come to one of them again. -/
def Revisits (source : ClassStore) (rootTypes : List String) (name : String) : Prop :=
  ∃ names, List.IsChain (source.LeadsTo rootTypes) (name :: names) ∧ ¬ (name :: names).Nodup

theorem LeadsTo.eq_of_answer {upper superclass : String} (h : source.LeadsTo rootTypes name upper)
    (hc : source.answer name = .ok (some c)) (hs : c.above? rootTypes = some superclass) :
    upper = TypeName.dotted superclass := by
  obtain ⟨d, spelled, hd, ha, rfl⟩ := h
  obtain rfl := Option.some.inj (Except.ok.inj (hc.symm.trans hd))
  rw [Option.some.inj (hs.symm.trans ha)]

/-- No way along superclasses comes back to a name behind a given one. -/
def NeverReturns (source : ClassStore) (rootTypes : List String) (name : String) : Prop :=
  ∀ other, ReflTransGen (source.LeadsTo rootTypes) name other →
    ¬ TransGen (source.LeadsTo rootTypes) other other

private theorem neverReturns_of_above
    (h : ∀ upper, source.LeadsTo rootTypes name upper → source.NeverReturns rootTypes upper) :
    source.NeverReturns rootTypes name := by
  intro other hto hback
  rcases hto.cases_head with rfl | ⟨upper, hstep, hrest⟩
  · -- a way back to the name is one back to what comes right behind it
    obtain ⟨upper, hstep, hrest⟩ := TransGen.head'_iff.1 hback
    exact h upper hstep upper .refl (TransGen.tail' hrest hstep)
  · exact h upper hstep other hrest hback

private theorem neverReturns_of_answer (h : ∀ c, source.answer name ≠ .ok (some c)) :
    source.NeverReturns rootTypes name := by
  apply neverReturns_of_above
  rintro upper ⟨c, superclass, hc, -⟩
  exact absurd hc (h c)

/-- What holds behind the superclass of a class holds behind the class. -/
theorem neverReturns_of_child {superclass : String} (hc : source.answer name = .ok (some c))
    (hs : c.above? rootTypes = some superclass)
    (h : source.NeverReturns rootTypes (TypeName.dotted superclass)) :
    source.NeverReturns rootTypes name := by
  apply neverReturns_of_above
  intro upper hstep
  obtain rfl := hstep.eq_of_answer hc hs
  exact h

/-- A way up that ends meets no name twice. -/
theorem WayUp.neverReturns (h : source.WayUp rootTypes c classes fault)
    (hc : source.answer name = .ok (some c)) : source.NeverReturns rootTypes name := by
  induction h generalizing name with
  | top h =>
    apply neverReturns_of_above
    rintro upper ⟨d, superclass, hd, ha, -⟩
    obtain rfl := Option.some.inj (Except.ok.inj (hc.symm.trans hd))
    rw [h] at ha
    cases ha
  | missing h hm =>
    exact neverReturns_of_child hc h (neverReturns_of_answer fun d hd => by simp [hm] at hd)
  | unreadable h hf =>
    exact neverReturns_of_child hc h (neverReturns_of_answer fun d hd => by simp [hf] at hd)
  | child h hd _ ih => exact neverReturns_of_child hc h (ih hd)

theorem Revisits.not_neverReturns (h : source.Revisits rootTypes name) :
    ¬ source.NeverReturns rootTypes name := by
  intro hn
  obtain ⟨names, hchain, hdup⟩ := h
  obtain ⟨other, hother⟩ := List.exists_duplicate_iff_not_nodup.2 hdup
  have hpairs : List.Pairwise (TransGen (source.LeadsTo rootTypes)) (name :: names) :=
    List.isChain_iff_pairwise.1 (hchain.imp fun _ _ => TransGen.single)
  have htwice := hpairs.sublist (List.duplicate_iff_sublist.1 hother)
  have hback : TransGen (source.LeadsTo rootTypes) other other := by
    simpa using htwice
  have hto : ReflTransGen (source.LeadsTo rootTypes) name other := by
    rcases List.mem_cons.1 hother.mem with rfl | hm
    · exact .refl
    · exact ((List.pairwise_cons.1 hpairs).1 other hm).to_reflTransGen
  exact hn other hto hback

private theorem above_eq (source : ClassStore) (rootTypes : List String) (c : Class) :
    source.above rootTypes c = match c.above? rootTypes with
      | none => .ok none
      | some superclass => do return some (← source.existing superclass) := by
  unfold above Class.above?
  cases c.parent? with
  | none => rfl
  | some superclass =>
    rw [Option.filter_some]
    cases hr : rootTypes.contains (TypeName.dotted superclass) <;> simp only [hr] <;> rfl

private theorem wayUp_of_error {e : Fault} (h : source.above rootTypes c = .error e) :
    source.WayUp rootTypes c [c] (some e) := by
  rw [above_eq] at h
  cases ha : c.above? rootTypes with
  | none =>
    rw [ha] at h
    cases h
  | some superclass =>
    rw [ha] at h
    rcases bind_eq_error_iff.1 h with h | ⟨d, -, h⟩
    · rcases bind_eq_error_iff.1 h with h | ⟨found, hs, h⟩
      · exact .unreadable ha h
      · cases found with
        | none =>
          obtain rfl := Except.error.inj h
          exact .missing ha hs
        | some d => cases h
    · cases h

private theorem wayUp_of_top (h : source.above rootTypes c = .ok none) :
    source.WayUp rootTypes c [c] none := by
  rw [above_eq] at h
  cases ha : c.above? rootTypes with
  | none => exact .top ha
  | some superclass =>
    rw [ha] at h
    obtain ⟨d, -, h⟩ := bind_eq_ok_iff.1 h
    cases h

theorem WayUp.of_isAbove (h : source.IsAbove rootTypes c d)
    (hrest : source.WayUp rootTypes d classes fault) :
    source.WayUp rootTypes c (c :: classes) fault := by
  unfold IsAbove at h
  rw [above_eq] at h
  cases ha : c.above? rootTypes with
  | none =>
    rw [ha] at h
    cases Except.ok.inj h
  | some superclass =>
    rw [ha] at h
    obtain ⟨e, he, h⟩ := bind_eq_ok_iff.1 h
    obtain rfl := Option.some.inj (Except.ok.inj h)
    exact .child ha (existing_eq_ok he) hrest

end ClassStore

namespace Loader

variable {source : ClassStore} {loader next : Loader} {rootTypes : List String} {name : String}
  {c d : Class} {rest : List Class}

/-- Some classes stand one above the other over a first one, and each of them is kept. -/
inductive Climbs (loader : Loader) (rootTypes : List String) : Class → List Class → Prop
  | here (c : Class) : Climbs loader rootTypes c []
  | up {c d : Class} {superclass : String} {rest : List Class}
    (h : c.above? rootTypes = some superclass)
    (hd : loader.loaded.get? (TypeName.dotted superclass) = some d)
    (hrest : Climbs loader rootTypes d rest) : Climbs loader rootTypes c (d :: rest)

theorem Climbs.exists_name (h : loader.Climbs rootTypes c rest) (hl : loader.IsConsistent)
    (hn : loader.loaded.get? name = some c) (hd : d ∈ c :: rest) :
    ∃ upper, loader.loaded.get? upper = some d ∧
      ReflTransGen loader.hierarchy.Links name upper := by
  induction h generalizing name with
  | here c =>
    obtain rfl := List.mem_singleton.1 hd
    exact ⟨name, hn, .refl⟩
  | @up c e superclass rest h he _ ih =>
    rcases List.mem_cons.1 hd with rfl | hd
    · exact ⟨name, hn, .refl⟩
    · obtain ⟨upper, hupper, hway⟩ := ih he hd
      have hp := (Option.filter_eq_some_iff.1 h).1
      have hlink := (hl.links_iff name (TypeName.dotted superclass)).2 ⟨c, superclass, hn, hp, rfl⟩
      exact ⟨upper, hupper, .head hlink hway⟩

/-- The links between kept classes have no cycle, so that none of these classes comes twice. -/
theorem Climbs.nodup (h : loader.Climbs rootTypes c rest) (hl : loader.IsConsistent)
    (hn : loader.loaded.get? name = some c) : (c :: rest).Nodup := by
  induction h generalizing name with
  | here c => exact List.nodup_singleton c
  | @up c d superclass rest h hd hrest ih =>
    refine List.nodup_cons.2 ⟨fun hc => ?_, ih hd⟩
    -- met again, the class would link to the superclass that it has led to
    obtain ⟨upper, hupper, hway⟩ := hrest.exists_name hl hd hc
    have hp := (Option.filter_eq_some_iff.1 h).1
    have hlink := (hl.links_iff upper (TypeName.dotted superclass)).2
      ⟨c, superclass, hupper, hp, rfl⟩
    exact hl.acyclic _ (TransGen.tail' hway hlink)

theorem Climbs.subset_candidates (h : loader.Climbs rootTypes c rest)
    (hf : loader.Follows source) : rest ⊆ source.candidates := by
  induction h with
  | here c => exact List.nil_subset _
  | up h hd _ ih => exact List.cons_subset.2 ⟨ClassStore.mem_candidates (hf.loaded _ _ hd), ih⟩

theorem Climbs.length_le (h : loader.Climbs rootTypes c rest) (hl : loader.IsConsistent)
    (hf : loader.Follows source) (hn : loader.loaded.get? name = some c) :
    rest.length ≤ source.size := by
  have hnodup := (List.nodup_cons.1 (h.nodup hl hn)).2
  have hlength := hnodup.length_le_of_subset (h.subset_candidates hf)
  exact Nat.le_trans hlength (ClassStore.length_candidates source)

end Loader

namespace Loading

variable {source : ClassStore} {loader middle next : Loader} {rootTypes : List String}
  {name : String} {c d : Class} {way : Ancestry}

/-- A walk up step by step, until it ends by itself. Nothing bounds its length. -/
inductive Walks (rootTypes : List String) : Class → Loader → Ancestry → Loader → Prop
  | failed {c : Class} {loader next : Loader} {fault : Fault}
    (h : outcome (parent? rootTypes c) loader = (.error fault, next)) :
    Walks rootTypes c loader { classes := [c], fault := some fault } next
  | top {c : Class} {loader next : Loader}
    (h : outcome (parent? rootTypes c) loader = (.ok none, next)) :
    Walks rootTypes c loader { classes := [c] } next
  | child {c d : Class} {loader middle next : Loader} {way : Ancestry}
    (h : outcome (parent? rootTypes c) loader = (.ok (some d), middle))
    (hrest : Walks rootTypes d middle way next) :
    Walks rootTypes c loader { way with classes := c :: way.classes } next

theorem outcome_attempt_of_outcome {α : Type} {x : Loading α} {r : Except Fault α}
    (h : outcome x loader = (r, next)) : outcome (attempt x) loader = (.ok r, next) := by
  rw [outcome_attempt, h]

/-- With room for all classes that a walk meets, the bound on its steps makes no difference. -/
theorem Walks.outcome_ancestryWithin (h : Walks rootTypes c loader way next) {height : Nat}
    (hh : way.classes.length ≤ height) :
    outcome (ancestryWithin rootTypes height c) loader = (.ok way, next) := by
  induction h generalizing height with
  | failed h =>
    obtain ⟨height, rfl⟩ := Nat.exists_eq_add_of_le' hh
    exact outcome_bind_ok (outcome_attempt_of_outcome h)
  | top h =>
    obtain ⟨height, rfl⟩ := Nat.exists_eq_add_of_le' hh
    exact outcome_bind_ok (outcome_attempt_of_outcome h)
  | @child c d loader middle next way h _ ih =>
    rw [List.length_cons] at hh
    obtain ⟨height, rfl⟩ : ∃ n, height = n + 1 := ⟨height - 1, by omega⟩
    have habove : outcome (ancestryWithin rootTypes height d) middle = (.ok way, next) :=
      ih (by omega)
    exact (outcome_bind_ok (outcome_attempt_of_outcome h)).trans (outcome_bind_ok habove)

theorem Walks.exists_climbs (h : Walks rootTypes c loader way next) (hl : loader.IsConsistent) :
    ∃ rest, way.classes = c :: rest ∧ next.Climbs rootTypes c rest ∧ next.IsConsistent ∧
      loader.Grows next := by
  induction h with
  | @failed c loader next fault h =>
    obtain ⟨hn, hg⟩ := hl.after (onlyFinds_parent c) h
    exact ⟨[], rfl, .here c, hn, hg⟩
  | @top c loader next h =>
    obtain ⟨hn, hg⟩ := hl.after (onlyFinds_parent c) h
    exact ⟨[], rfl, .here c, hn, hg⟩
  | @child c d loader middle next way h _ ih =>
    obtain ⟨hm, hg⟩ := hl.after (onlyFinds_parent c) h
    obtain ⟨rest, hclasses, hrest, hn, hg'⟩ := ih hm
    obtain ⟨superclass, ha, hd⟩ := above_of_outcome_parent h
    exact ⟨d :: rest, by rw [hclasses], .up ha (hg' _ _ hd) hrest, hn, hg.trans hg'⟩

/-- A walk ends, or it takes as many steps as one likes and keeps a class with each. -/
theorem walks_or_climbs (hl : loader.IsConsistent) (c : Class) (steps : Nat) :
    (∃ way next, Walks rootTypes c loader way next) ∨
      ∃ rest names, rest.length = steps ∧ (loader.afterFinds names).Climbs rootTypes c rest := by
  induction steps generalizing loader c with
  | zero => exact .inr ⟨[], [], rfl, .here c⟩
  | succ steps ih =>
    rcases hp : outcome (parent? rootTypes c) loader with ⟨r, middle⟩
    match r, hp with
    | .error fault, hp => exact .inl ⟨_, middle, .failed hp⟩
    | .ok none, hp => exact .inl ⟨_, middle, .top hp⟩
    | .ok (some d), hp =>
      obtain ⟨front, rfl⟩ := (onlyFinds_parent c).exists_eq hp
      obtain ⟨superclass, ha, hd⟩ := above_of_outcome_parent hp
      have hm := (hl.afterFinds front).1
      rcases ih hm d with ⟨way, next, hw⟩ | ⟨rest, back, rfl, hrest⟩
      · exact .inl ⟨_, next, .child hp hw⟩
      · have hkept := (hm.afterFinds back).2 _ _ hd
        rw [← Loader.afterFinds_append] at hrest hkept
        exact .inr ⟨d :: rest, front ++ back, rfl, .up ha hkept hrest⟩

/-- A walk up from a class that is kept ends, also where the source has a cycle. -/
theorem exists_walks (rootTypes : List String) (hl : loader.IsConsistent)
    (hf : loader.Follows source) (hn : loader.loaded.get? name = some c) :
    ∃ way next, Walks rootTypes c loader way next := by
  rcases walks_or_climbs hl c (source.size + 1) with h | ⟨rest, names, hlength, h⟩
  · exact h
  · obtain ⟨hlast, hg⟩ := hl.afterFinds names
    have hle := h.length_le hlast (hf.afterFinds names) (hg _ _ hn)
    omega

section SettlesOrCloses

variable {α β : Type} {x : Loading α} {f : α → Loading β} {r : Except Fault α}

/-- With every loader that follows a source, an activity comes to one result, or to the fault of a
class that is above itself there. -/
def SettlesOrCloses (source : ClassStore) (x : Loading α) (r : Except Fault α) : Prop :=
  ∀ loader : Loader, loader.Follows source → (outcome x loader).2.Follows source ∧
    ((outcome x loader).1 = r ∨ ∃ name, ClosesCycle source name (outcome x loader).1)

theorem Settles.orCloses (h : Settles source x r) : SettlesOrCloses source x r :=
  fun loader hl => ⟨(h loader hl).2, .inl (h loader hl).1⟩

theorem SettlesOrCloses.bind {g : α → Except Fault β} (hx : SettlesOrCloses source x r)
    (hf : ∀ a, SettlesOrCloses source (f a) (g a)) :
    SettlesOrCloses source (x >>= f) (r >>= g) := by
  intro loader hl
  obtain ⟨hn, hr⟩ := hx loader hl
  rcases ho : outcome x loader with ⟨r', next⟩
  rw [ho] at hn hr
  cases r' with
  | error fault =>
    rw [outcome_bind_error ho]
    refine ⟨hn, ?_⟩
    rcases hr with rfl | ⟨name, hcycle, superclass, hr⟩
    · exact .inl rfl
    · obtain rfl := Except.error.inj hr
      exact .inr ⟨name, hcycle, superclass, rfl⟩
  | ok a =>
    rw [outcome_bind_ok ho]
    rcases hr with rfl | ⟨name, -, superclass, hr⟩
    · exact hf a next hn
    · cases hr

theorem settlesOrCloses_find (name : String) :
    SettlesOrCloses source (find name) (source.answer (TypeName.dotted name)) :=
  fun _ hl => (follows_find name hl).imp_right (·.imp_right fun hcycle => ⟨_, hcycle⟩)

theorem settlesOrCloses_resolve (name : String) :
    SettlesOrCloses source (resolve name) (source.existing name) := by
  apply (settlesOrCloses_find name).bind
  intro found
  cases found with
  | none => exact (settles_ofTraced _).orCloses
  | some c => exact (settles_pure c).orCloses

/-- One step up goes to the class above as the source has it, unless it notices a cycle there. -/
theorem settlesOrCloses_parent (rootTypes : List String) (c : Class) :
    SettlesOrCloses source (parent? rootTypes c) (source.above rootTypes c) := by
  rw [parent?_eq, ClassStore.above_eq]
  cases c.above? rootTypes with
  | none => exact (settles_pure none).orCloses
  | some superclass =>
    exact (settlesOrCloses_resolve superclass).bind fun d => (settles_pure (some d)).orCloses

end SettlesOrCloses

/-- A walk goes the way that the source has, or it ends where a cycle of the source is noticed. -/
theorem Walks.wayUp_or_cyclic (h : Walks rootTypes c loader way next)
    (hf : loader.Follows source) : source.WayUp rootTypes c way.classes way.fault ∨
      ∃ lower upper, TransGen source.Extends lower lower ∧
        way.fault = some (.cyclicHierarchy lower upper) := by
  induction h with
  | @failed c loader next fault h =>
    have hr := (settlesOrCloses_parent rootTypes c loader hf).2
    rw [h] at hr
    rcases hr with hr | ⟨lower, hcycle, upper, hr⟩
    · exact .inl (ClassStore.wayUp_of_error hr.symm)
    · obtain rfl := Except.error.inj hr
      exact .inr ⟨lower, upper, hcycle, rfl⟩
  | @top c loader next h =>
    have hr := (settlesOrCloses_parent rootTypes c loader hf).2
    rw [h] at hr
    rcases hr with hr | ⟨lower, -, upper, hr⟩
    · exact .inl (ClassStore.wayUp_of_top hr.symm)
    · cases hr
  | @child c d loader middle next way h _ ih =>
    obtain ⟨hm, hr⟩ := settlesOrCloses_parent rootTypes c loader hf
    rw [h] at hm hr
    rcases hr with hr | ⟨lower, -, upper, hr⟩
    · rcases ih hm with hw | hcycle
      · exact .inl (hw.of_isAbove hr.symm)
      · exact .inr hcycle
    · cases hr

end Loading

def LoaderCall.isExchange : LoaderCall → Bool
  | exchange _ => true
  | _ => false

namespace Loader

open Loading

variable {source : ClassStore} {loader : Loader}

theorem Follows.afterCall {call : LoaderCall} (h : loader.Follows source)
    (hc : call.isExchange = false) : (call.after loader).Follows source := by
  cases call with
  | find name => exact h.after (onlyFinds_find name) rfl
  | resolve name => exact h.after (onlyFinds_resolve name) rfl
  | contains name => exact h
  | ancestry rootTypes c => exact h.after (onlyFinds_ancestry c) rfl
  | ancestryWithin rootTypes steps c => exact h.after (onlyFinds_ancestryWithin steps c) rfl
  | exchange store => cases hc

theorem Follows.afterCalls {calls : List LoaderCall} (h : loader.Follows source)
    (hc : ∀ call ∈ calls, call.isExchange = false) : (loader.afterCalls calls).Follows source := by
  induction calls generalizing loader with
  | nil => exact h
  | cons call rest ih =>
    obtain ⟨hcall, hrest⟩ := List.forall_mem_cons.1 hc
    exact ih (h.afterCall hcall) hrest

/-- After any lookups in a source that does not change, the walk up from a class that is kept ends
by itself and meets no class twice. Without a cycle in the source, it goes the way that the source
has and breaks off where that does. Where the names of superclasses come to one of them again, it
ends with the fault of a cycle. -/
theorem walks_afterCalls {source : ClassStore} (hf : source.IsFaithful) {calls : List LoaderCall}
    (hcalls : ∀ call ∈ calls, call.isExchange = false) (rootTypes : List String) {name : String}
    {c : Class} (hc : (afterCalls { store := source } calls).loaded.get? name = some c) :
    let loader := afterCalls { store := source } calls
    ∃ way next, Walks rootTypes c loader way next ∧
      outcome (ancestry rootTypes c) loader = (.ok way, next) ∧
      way.classes.Nodup ∧ way.classes.length ≤ source.size + 1 ∧
      (source.IsAcyclic → source.WayUp rootTypes c way.classes way.fault) ∧
      (source.Revisits rootTypes name →
        ∃ lower upper, way.fault = some (.cyclicHierarchy lower upper)) := by
  intro loader
  have hl : loader.IsConsistent := ((isConsistent_fresh source).afterCalls calls).1
  have hfollows : loader.Follows source := (follows_fresh hf).afterCalls hcalls
  obtain ⟨way, next, hw⟩ := exists_walks rootTypes hl hfollows hc
  obtain ⟨rest, hclasses, hclimbs, hn, hg⟩ := hw.exists_climbs hl
  have hlast := hfollows.after (onlyFinds_ancestryWithin _ c) (hw.outcome_ancestryWithin le_rfl)
  have hlength : way.classes.length ≤ source.size + 1 := by
    rw [hclasses]
    exact Nat.succ_le_succ (hclimbs.length_le hn hlast (hg _ _ hc))
  refine ⟨way, next, hw, ?_, ?_, hlength, ?_, ?_⟩
  · have hsize := hfollows.size_eq
    exact hw.outcome_ancestryWithin
      (show way.classes.length ≤ loader.loaded.size + loader.store.size + 2 by omega)
  · rw [hclasses]
    exact hclimbs.nodup hn (hg _ _ hc)
  · intro ha
    rcases hw.wayUp_or_cyclic hfollows with h | ⟨lower, upper, hcycle, -⟩
    · exact h
    · exact absurd hcycle (ha lower)
  · intro hr
    rcases hw.wayUp_or_cyclic hfollows with h | ⟨lower, upper, -, hfault⟩
    · exact absurd (h.neverReturns (hfollows.loaded _ _ hc)) hr.not_neverReturns
    · exact ⟨lower, upper, hfault⟩

/-- Two classes each of which says that the other one is its superclass. -/
def eachOther : ClassStore :=
  .memory ⟨[("A", { name := "A", superclass := "B" }), ("B", { name := "B", superclass := "A" })]⟩

theorem walks_afterCalls_eachOther :
    (afterCalls { store := eachOther } [.resolve "A"]).loaded.get? "A" =
      some { name := "A", superclass := "B" } ∧
    eachOther.Revisits [] "A" ∧
    ∃ way next, outcome (ancestry [] { name := "A", superclass := "B" })
        (afterCalls { store := eachOther } [.resolve "A"]) = (.ok way, next) ∧
      way.classes.Nodup ∧ ∃ lower upper, way.fault = some (.cyclicHierarchy lower upper) := by
  have hf : eachOther.IsFaithful := trivial
  have hc : (afterCalls { store := eachOther } [.resolve "A"]).loaded.get? "A" =
      some { name := "A", superclass := "B" } := by rfl
  have hr : eachOther.Revisits [] "A" := by
    refine ⟨["B", "A"], ?_, by decide⟩
    have hup : eachOther.LeadsTo [] "A" "B" := ⟨_, "B", rfl, by decide, by decide⟩
    have hback : eachOther.LeadsTo [] "B" "A" := ⟨_, "A", rfl, by decide, by decide⟩
    exact .cons_cons hup (.cons_cons hback (.singleton "A"))
  have hcalls : ∀ call ∈ [LoaderCall.resolve "A"], call.isExchange = false := by decide
  obtain ⟨way, next, -, ho, hnodup, -, -, hcycle⟩ := walks_afterCalls hf hcalls [] hc
  exact ⟨hc, hr, way, next, ho, hnodup, hcycle hr⟩

end Loader

end JvmRoutes
