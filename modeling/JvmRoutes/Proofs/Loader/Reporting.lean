import JvmRoutes.Proofs.Loader.Ancestry
import JvmRoutes.Proofs.Loader.Search

/-!
Searches in sources with any hierarchy, also one with cycles. What they find is of the source, and
when they fail, it is for a fault that is told as a message.
-/
namespace JvmRoutes

/-- The source has no other faults than those that are told as messages. -/
def ClassStore.IsReporting (source : ClassStore) : Prop :=
  ∀ name fault, source.answer name = .error fault → fault.isReported = true

namespace Loader

variable {source : ClassStore} {loader next : Loader}

theorem Follows.afterFinds (h : loader.Follows source) (names : List String) :
    (loader.afterFinds names).Follows source := by
  induction names generalizing loader with
  | nil => exact h
  | cons name rest ih => exact ih (Loading.follows_find name h).1

theorem Follows.after {α : Type} {x : Loading α} (h : loader.Follows source)
    (hx : Loading.OnlyFinds x) {r : Except Fault α} (ho : Loading.outcome x loader = (r, next)) :
    next.Follows source := by
  obtain ⟨names, rfl⟩ := hx.exists_eq ho
  exact h.afterFinds names

end Loader

namespace Loading

variable {α β : Type} {source : ClassStore} {x : Loading α} {f : α → Loading β} {P : α → Prop}
  {Q : β → Prop} {rootTypes : List String}

/-- A result of some kind, or a fault that is told as a message. -/
def IsReply (P : α → Prop) : Except Fault α → Prop
  | .ok a => P a
  | .error fault => fault.isReported = true

/-- With every loader that follows a source, an activity comes to a reply, and the loader follows
the source afterwards. -/
def Yields (source : ClassStore) (x : Loading α) (P : α → Prop) : Prop :=
  ∀ loader : Loader, loader.Follows source →
    IsReply P (outcome x loader).1 ∧ (outcome x loader).2.Follows source

theorem yields_ofTraced {x : Traced Fault α} (h : IsReply P x.result) :
    Yields source (ofTraced x) P := fun _ hl => ⟨h, hl⟩

theorem yields_pure {a : α} (h : P a) : Yields source (pure a) P := fun _ hl => ⟨h, hl⟩

theorem yields_log (level : Level) (text : String) :
    Yields source (log level text) fun _ => True := fun _ hl => ⟨trivial, hl⟩

theorem Yields.bind (hx : Yields source x P) (hf : ∀ a, P a → Yields source (f a) Q) :
    Yields source (x >>= f) Q := by
  intro loader hl
  obtain ⟨hr, hn⟩ := hx loader hl
  rcases ho : outcome x loader with ⟨r, next⟩
  rw [ho] at hr hn
  cases r with
  | error fault =>
    rw [outcome_bind_error ho]
    exact ⟨hr, hn⟩
  | ok a =>
    rw [outcome_bind_ok ho]
    exact hf a hr next hn

theorem Yields.mono {P' : α → Prop} (h : Yields source x P) (hp : ∀ a, P a → P' a) :
    Yields source x P' := by
  intro loader hl
  obtain ⟨hr, hn⟩ := h loader hl
  refine ⟨?_, hn⟩
  cases hc : (outcome x loader).1 with
  | error fault =>
    rw [hc] at hr
    exact hr
  | ok a =>
    rw [hc] at hr
    exact hp a hr

theorem Yields.attempt (h : Yields source x P) :
    Yields source (attempt x) (IsReply P) := by
  intro loader hl
  rw [outcome_attempt]
  exact h loader hl

theorem yields_ask_bind {g : Loader → α} (hf : ∀ a, Yields source (f a) Q) :
    Yields source (ask g >>= f) Q := by
  intro loader hl
  rw [outcome_ask_bind]
  exact hf (g loader) loader hl

/-- A class that is found is one of the source. -/
theorem yields_find (hs : source.IsReporting) (name : String) :
    Yields source (find name) fun found => ∀ c ∈ found, c ∈ source.candidates := by
  intro loader hl
  obtain ⟨hn, hr | ⟨-, superclass, hr⟩⟩ := follows_find name hl
  · refine ⟨?_, hn⟩
    rw [hr]
    cases ha : source.answer (TypeName.dotted name) with
    | error fault => exact hs _ fault ha
    | ok found =>
      rintro c rfl
      exact ClassStore.mem_candidates ha
  · refine ⟨?_, hn⟩
    rw [hr]
    rfl

theorem yields_resolve (hs : source.IsReporting) (name : String) :
    Yields source (resolve name) (· ∈ source.candidates) := by
  apply (yields_find hs name).bind
  intro found hfound
  cases found with
  | none => exact yields_ofTraced rfl
  | some c => exact yields_pure (hfound c rfl)

theorem yields_parent (hs : source.IsReporting) (c : Class) :
    Yields source (parent? rootTypes c) fun found => ∀ d ∈ found, d ∈ source.candidates := by
  unfold parent?
  cases c.parent? with
  | none => exact yields_pure nofun
  | some superclass =>
    dsimp only
    split
    · exact yields_pure nofun
    · apply (yields_resolve hs superclass).bind
      intro d hd
      apply yields_pure
      rintro _ ⟨⟩
      exact hd

/-- The classes that have been met on the way up are of the source, and the fault that has ended it
is told as a message. -/
structure IsWayIn (source : ClassStore) (c : Class) (way : Ancestry) : Prop where
  classes : way.classes ⊆ c :: source.candidates
  fault : ∀ fault ∈ way.fault, fault.isReported = true

theorem yields_ancestryWithin (hs : source.IsReporting) (height : Nat) (c : Class) :
    Yields source (ancestryWithin rootTypes height c) (IsWayIn source c) := by
  induction height generalizing c with
  | zero =>
    apply yields_pure
    refine ⟨List.nil_subset _, ?_⟩
    rintro _ ⟨⟩
    rfl
  | succ height ih =>
    apply (yields_parent hs c).attempt.bind
    intro r hr
    match r with
    | .error fault =>
      apply yields_pure
      refine ⟨by simp, ?_⟩
      rintro _ ⟨⟩
      exact hr
    | .ok none => exact yields_pure ⟨by simp, nofun⟩
    | .ok (some parent) =>
      apply (ih parent).bind
      intro way hway
      apply yields_pure
      refine ⟨?_, hway.fault⟩
      have hparent : parent ∈ source.candidates := hr parent rfl
      have habove : way.classes ⊆ source.candidates :=
        List.Subset.trans hway.classes (List.cons_subset.2 ⟨hparent, List.Subset.refl _⟩)
      exact List.cons_subset_cons c habove

theorem yields_lineage (hs : source.IsReporting) (c : Class) :
    Yields source (lineage rootTypes c) (· ⊆ c :: source.candidates) := by
  unfold lineage
  have hancestry : Yields source (ancestry rootTypes c) (IsWayIn source c) :=
    yields_ask_bind fun height => yields_ancestryWithin hs height c
  apply hancestry.bind
  intro way hway
  cases hf : way.fault with
  | none => exact yields_pure hway.classes
  | some fault => exact yields_ofTraced (hway.fault fault hf)

theorem yields_searchAboveWithin (hs : source.IsReporting) (g : Class → Option α) (height : Nat)
    (c : Class) : Yields source (searchAboveWithin rootTypes g height c) fun _ => True := by
  induction height generalizing c with
  | zero => exact yields_ofTraced rfl
  | succ height ih =>
    apply (yields_parent hs c).bind
    intro parent _
    cases parent with
    | none => exact yields_pure trivial
    | some parent =>
      cases hg : g parent with
      | some a =>
        simp only [hg]
        exact yields_pure trivial
      | none =>
        simp only [hg]
        exact ih parent

theorem IsReporting.yields (hs : source.IsReporting) (h : IsReporting x) :
    Yields source x fun _ => True := by
  induction h with
  | ofTraced h =>
    apply yields_ofTraced
    rename_i x
    cases hx : x.result with
    | error fault => exact h fault hx
    | ok a => trivial
  | find name => exact (yields_find hs name).mono fun _ _ => trivial
  | lineage rootTypes c => exact (yields_lineage hs c).mono fun _ _ => trivial
  | searchAbove rootTypes g c =>
    exact yields_ask_bind fun height => yields_searchAboveWithin hs g height c
  | bind _ _ hx hf => exact hx.bind fun a _ => hf a

/-- The activity fails for a fault that is not told as a message. -/
def Escapes (x : Loading α) (loader : Loader) (fault : Fault) : Prop :=
  (outcome x loader).1 = .error fault ∧ fault.isReported = false

variable {loader : Loader} {fault : Fault}

theorem escapes_bind_iff : Escapes (x >>= f) loader fault ↔
    Escapes x loader fault ∨
      ∃ a next, outcome x loader = (.ok a, next) ∧ Escapes (f a) next fault := by
  unfold Escapes
  rcases ho : outcome x loader with ⟨r, next⟩
  cases r with
  | error e =>
    rw [outcome_bind_error ho]
    simp
  | ok a =>
    rw [outcome_bind_ok ho]
    simp

theorem not_escapes_pure (a : α) : ¬ Escapes (pure a) loader fault := by
  rintro ⟨h, -⟩
  cases h

theorem escapes_bind_pure {g : α → β} :
    Escapes (do return g (← x)) loader fault ↔ Escapes x loader fault := by
  rw [escapes_bind_iff]
  apply or_iff_left
  rintro ⟨a, next, -, h⟩
  exact not_escapes_pure _ h

theorem escapes_log_bind {g : Unit → Loading β} (level : Level) (text : String) :
    Escapes (log level text >>= g) loader fault ↔ Escapes (g ()) loader fault := by
  unfold Escapes
  rw [outcome_log_bind]

theorem Yields.of_outcome (h : Yields source x P) (hl : loader.Follows source) {a : α}
    {next : Loader} (ho : outcome x loader = (.ok a, next)) : P a ∧ next.Follows source := by
  have hx := h loader hl
  rw [ho] at hx
  exact hx

theorem Yields.not_escapes (h : Yields source x P) (hl : loader.Follows source) :
    ¬ Escapes x loader fault := by
  rintro ⟨hr, hf⟩
  have hreply := (h loader hl).1
  rw [hr] at hreply
  exact Bool.false_ne_true (hf.symm.trans hreply)

/-- Behind an activity that comes to a reply, another one escapes with what that one has left. -/
theorem Yields.escapes_bind_iff (h : Yields source x P) (hl : loader.Follows source) :
    Escapes (x >>= f) loader fault ↔
      ∃ a next, outcome x loader = (.ok a, next) ∧ Escapes (f a) next fault := by
  rw [Loading.escapes_bind_iff]
  exact or_iff_right (h.not_escapes hl)

/-- In front of activities that come to replies, another one escapes where it does so alone. -/
theorem escapes_bind_left (hx : OnlyFinds x) (hl : loader.Follows source)
    (hf : ∀ a, Yields source (f a) Q) :
    Escapes (x >>= f) loader fault ↔ Escapes x loader fault := by
  rw [Loading.escapes_bind_iff]
  apply or_iff_left
  rintro ⟨a, next, ha, h⟩
  exact (hf a).not_escapes (hl.after hx ha) h

end Loading

end JvmRoutes
