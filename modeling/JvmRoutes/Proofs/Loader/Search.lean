import JvmRoutes.Proofs.Loader.Ancestry

/-!
Activities that are put together from lookups and walks upwards. What holds of these and of
sequences holds of all of them.
-/
namespace JvmRoutes.Loading

/-- An activity that reaches the loader by lookups and walks upwards alone. -/
inductive IsSearch : {α : Type} → Loading α → Prop
  | ofTraced {α : Type} (x : Traced Fault α) : IsSearch (ofTraced x)
  | find (name : String) : IsSearch (find name)
  | lineage (rootTypes : List String) (c : Class) : IsSearch (lineage rootTypes c)
  | searchAbove {α : Type} (rootTypes : List String) (f : Class → Option α) (c : Class) :
    IsSearch (searchAbove rootTypes f c)
  | bind {α β : Type} {x : Loading α} {f : α → Loading β} (hx : IsSearch x)
    (hf : ∀ a, IsSearch (f a)) : IsSearch (x >>= f)

variable {α : Type} {x : Loading α}

theorem isSearch_pure (a : α) : IsSearch (pure a : Loading α) := .ofTraced (pure a)

theorem isSearch_ofExcept (r : Except Fault α) : IsSearch (ofExcept r) := .ofTraced _

theorem isSearch_log (level : Level) (text : String) : IsSearch (log level text) := .ofTraced _

theorem isSearch_resolve (name : String) : IsSearch (resolve name) := by
  refine (IsSearch.find name).bind fun found => ?_
  cases found with
  | none => exact isSearch_ofExcept _
  | some c => exact isSearch_pure c

theorem IsSearch.isSettled {source : ClassStore} (ha : source.IsAcyclic) (h : IsSearch x) :
    IsSettled source x := by
  induction h with
  | ofTraced x => exact isSettled_ofTraced x
  | find name => exact isSettled_find ha name
  | lineage rootTypes c => exact isSettled_lineage ha c
  | searchAbove rootTypes f c => exact isSettled_searchAbove ha f c
  | bind _ _ hx hf => exact hx.bind hf

theorem IsSearch.onlyFinds (h : IsSearch x) : OnlyFinds x := by
  induction h with
  | ofTraced x => exact onlyFinds_ofTraced x
  | find name => exact onlyFinds_find name
  | lineage rootTypes c => exact onlyFinds_lineage c
  | searchAbove rootTypes f c => exact onlyFinds_searchAbove f c
  | bind _ _ hx hf => exact hx.bind hf

/-- A search that brings up no faults of its own but those that are told as messages. -/
inductive IsReporting : {α : Type} → Loading α → Prop
  | ofTraced {α : Type} {x : Traced Fault α}
    (h : ∀ fault, x.result = .error fault → fault.isReported = true) : IsReporting (ofTraced x)
  | find (name : String) : IsReporting (find name)
  | lineage (rootTypes : List String) (c : Class) : IsReporting (lineage rootTypes c)
  | searchAbove {α : Type} (rootTypes : List String) (f : Class → Option α) (c : Class) :
    IsReporting (searchAbove rootTypes f c)
  | bind {α β : Type} {x : Loading α} {f : α → Loading β} (hx : IsReporting x)
    (hf : ∀ a, IsReporting (f a)) : IsReporting (x >>= f)

theorem IsReporting.isSearch (h : IsReporting x) : IsSearch x := by
  induction h with
  | ofTraced _ => exact .ofTraced _
  | find name => exact .find name
  | lineage rootTypes c => exact .lineage rootTypes c
  | searchAbove rootTypes f c => exact .searchAbove rootTypes f c
  | bind _ _ hx hf => exact hx.bind hf

theorem isReporting_pure (a : α) : IsReporting (pure a : Loading α) :=
  .ofTraced (x := pure a) nofun

theorem isReporting_log (level : Level) (text : String) : IsReporting (log level text) :=
  .ofTraced (x := Traced.log level text) nofun

theorem isReporting_ofExcept {r : Except Fault α}
    (h : ∀ fault, r = .error fault → fault.isReported = true) : IsReporting (ofExcept r) :=
  .ofTraced h

/-- A property of activities that results and messages have, and sequences of those that have it. -/
structure IsClosed (P : (α : Type) → Loading α → Prop) : Prop where
  pure {α : Type} (a : α) : P α (pure a)
  log (level : Level) (text : String) : P Unit (log level text)
  bind {α β : Type} {x : Loading α} {f : α → Loading β} (hx : P α x) (hf : ∀ a, P β (f a)) :
    P β (x >>= f)

theorem isClosed_isReporting : IsClosed fun _ => IsReporting :=
  ⟨isReporting_pure, isReporting_log, .bind⟩

end JvmRoutes.Loading
