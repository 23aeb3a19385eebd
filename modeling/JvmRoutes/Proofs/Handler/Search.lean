import JvmRoutes.Handler.Effective
import JvmRoutes.Handler.Inputs
import JvmRoutes.Proofs.Loader.Search
import JvmRoutes.Route.Media
import JvmRoutes.Route.Pattern

/-!
What handlers are made of is found by searches, and what these cannot find or read is told as a
message.
-/
namespace JvmRoutes

open Loading

variable {α : Type} {isEnum : String → Loading Bool}

namespace Schema

open Signature

variable {P : (α : Type) → Loading α → Prop}

theorem closed_ofNamed (hP : IsClosed P) (he : ∀ name, P Bool (isEnum name)) {name : String}
    {arguments : List (Loading Schema)} (ha : ∀ a ∈ arguments, P Schema a) :
    P Schema (ofNamed isEnum name arguments) := by
  unfold ofNamed
  cases family? name with
  | none =>
    refine hP.bind (he name) fun known => ?_
    cases known <;> exact hP.pure _
  | some family =>
    cases family with
    | single s => exact hP.pure s
    | collection =>
      cases arguments with
      | nil => exact hP.pure _
      | cons items rest => exact hP.bind (ha items List.mem_cons_self) fun _ => hP.pure _
    | mapping =>
      dsimp only
      split
      · rename_i keys values
        have hm : values ∈ [keys, values] := by simp
        exact hP.bind (ha values hm) fun _ => hP.pure _
      · exact hP.pure _
    | optional fallback =>
      cases arguments with
      | nil => exact hP.pure fallback
      | cons wrapped rest => exact ha wrapped List.mem_cons_self

mutual

theorem closed_ofType (hP : IsClosed P) (he : ∀ name, P Bool (isEnum name)) :
    (t : JavaType) → P Schema (ofType isEnum t)
  | .primitive p => closed_ofNamed hP he nofun
  | .variable name => hP.pure anyObject
  | .array component => by
    unfold ofType
    split
    · exact hP.pure binary
    · exact hP.bind (closed_ofType hP he component) fun _ => hP.pure _
  | .object c => closed_ofClass hP he c

theorem closed_ofClass (hP : IsClosed P) (he : ∀ name, P Bool (isEnum name)) :
    (c : ClassType) → P Schema (ofClass isEnum c)
  | .outermost name none => by
    rw [ofClass]
    exact closed_ofNamed hP he nofun
  | .outermost name (some arguments) => by
    rw [ofClass]
    exact closed_ofNamed hP he (closed_ofArguments hP he arguments)
  | .inner enclosing name none => by
    rw [ofClass]
    exact closed_ofNamed hP he nofun
  | .inner enclosing name (some arguments) => by
    rw [ofClass]
    exact closed_ofNamed hP he (closed_ofArguments hP he arguments)

theorem closed_ofArguments (hP : IsClosed P) (he : ∀ name, P Bool (isEnum name)) :
    (arguments : List TypeArgument) → ∀ a ∈ ofArguments isEnum arguments, P Schema a
  | [], _, h => nomatch h
  | a :: rest, x, h => by
    rw [ofArguments, List.mem_cons] at h
    rcases h with rfl | h
    · exact closed_ofArgument hP he a
    · exact closed_ofArguments hP he rest x h

theorem closed_ofArgument (hP : IsClosed P) (he : ∀ name, P Bool (isEnum name)) :
    (a : TypeArgument) → P Schema (ofArgument isEnum a)
  | .any => hP.pure anyObject
  | .exactly t => closed_ofType hP he t
  | .upTo t => closed_ofType hP he t
  | .downTo t => closed_ofType hP he t

end

theorem closed_isBean (hP : IsClosed P) (he : ∀ name, P Bool (isEnum name)) (t : JavaType) :
    P Bool (isBean isEnum t) := hP.bind (closed_ofType hP he t) fun _ => hP.pure _

theorem isReporting_ofType (he : ∀ name, IsReporting (isEnum name)) (t : JavaType) :
    IsReporting (ofType isEnum t) := closed_ofType isClosed_isReporting he t

theorem isReporting_isBean (he : ∀ name, IsReporting (isEnum name)) (t : JavaType) :
    IsReporting (isBean isEnum t) := closed_isBean isClosed_isReporting he t

end Schema

namespace Handler

open Signature

theorem isReporting_isLoadedEnum (name : String) : IsReporting (isLoadedEnum name) :=
  (IsReporting.find name).bind fun _ => isReporting_pure _

theorem isReported_of_malformed {x : Except Malformed α} {fault : Fault}
    (h : x.mapError Fault.malformedSignature = .error fault) : fault.isReported = true := by
  cases x with
  | error malformed =>
    obtain rfl := Except.error.inj h
    rfl
  | ok a => cases h

theorem isReported_of_takesContinuation {config : Config} {m : Method} {fault : Fault}
    (h : takesContinuation config m = .error fault) : fault.isReported = true := by
  rcases bind_eq_error_iff.1 h with h | ⟨type, -, h⟩
  · exact isReported_of_malformed h
  · cases h

theorem isReported_of_typeOf {m : Method} {p : FormalParameter} {isContinuation : Bool}
    {fault : Fault} (h : typeOf m p isContinuation = .error fault) : fault.isReported = true := by
  rcases bind_eq_error_iff.1 h with h | ⟨v, -, h⟩
  · simp only [variableOf] at h
    split at h <;> cases h
    rfl
  · exact isReported_of_malformed h

section Closed

variable {P : (α : Type) → Loading α → Prop} (hP : IsClosed P) (he : ∀ name, P Bool (isEnum name))
include hP he

theorem closed_inputOfType (config : Config) (p : FormalParameter) (t : JavaType) :
    P (Option Input) (inputOfType config isEnum p t) := by
  unfold inputOfType
  by_cases hs : isSupplied config t
  · simp only [hs, if_true]
    exact hP.bind (hP.log _ _) fun _ => hP.pure none
  · simp only [hs, Bool.false_eq_true, if_false]
    cases p.location with
    | form =>
      have hschema := Schema.closed_ofType hP he t
      have hbean := Schema.closed_isBean hP he t
      exact hP.bind hschema fun _ => hP.bind hbean fun _ => hP.pure _
    | _ => exact hP.pure _

theorem closed_inputs (config : Config) (m : Method) (hasContinuation : Bool)
    {parameters : List FormalParameter}
    (ht : ∀ p ∈ parameters, ∀ isContinuation, P JavaType (ofExcept (typeOf m p isContinuation))) :
    P (List Input) (inputs config isEnum m hasContinuation parameters) := by
  induction parameters with
  | nil => exact hP.pure []
  | cons p rest ih =>
    obtain ⟨hp, hrest⟩ := List.forall_mem_cons.1 ht
    unfold inputs
    refine hP.bind (hp _) fun t => ?_
    have hfirst := closed_inputOfType hP he config p t
    exact hP.bind hfirst fun _ => hP.bind (ih hrest) fun _ => hP.pure _

theorem closed_arguments (config : Config) {m : Method}
    (hc : P Bool (ofExcept (takesContinuation config m)))
    (ht : ∀ p ∈ m.parameters, ∀ isContinuation, P JavaType (ofExcept (typeOf m p isContinuation))) :
    P Arguments (arguments config isEnum m) := by
  unfold arguments
  refine hP.bind hc fun known => ?_
  exact hP.bind (closed_inputs hP he config m known ht) fun _ => hP.pure _

end Closed

theorem isReporting_inputOfType (he : ∀ name, IsReporting (isEnum name)) (config : Config)
    (p : FormalParameter) (t : JavaType) : IsReporting (inputOfType config isEnum p t) :=
  closed_inputOfType isClosed_isReporting he config p t

theorem isReporting_inputs (he : ∀ name, IsReporting (isEnum name)) (config : Config)
    (m : Method) (hasContinuation : Bool) (parameters : List FormalParameter) :
    IsReporting (inputs config isEnum m hasContinuation parameters) :=
  closed_inputs isClosed_isReporting he config m hasContinuation fun _ _ _ =>
    isReporting_ofExcept fun _ => isReported_of_typeOf

theorem isReporting_arguments (he : ∀ name, IsReporting (isEnum name)) (config : Config)
    (m : Method) : IsReporting (arguments config isEnum m) :=
  closed_arguments isClosed_isReporting he config
    (isReporting_ofExcept fun _ => isReported_of_takesContinuation) fun _ _ _ =>
      isReporting_ofExcept fun _ => isReported_of_typeOf

theorem isSearch_effective (config : Config) (controller : Class) :
    IsSearch (effective config controller) := by
  unfold effective
  refine (IsSearch.lineage _ controller).bind fun classes => ?_
  refine (isSearch_ofExcept _).bind fun handlers => ?_
  exact (isSearch_log _ _).bind fun _ => isSearch_pure handlers

end Handler

namespace Route

theorem isReporting_mediaTypes (config : Config) (types : List String) (controller : Class)
    (m : Method) : IsReporting (mediaTypes config types controller m) := by
  unfold mediaTypes
  split
  · exact isReporting_pure _
  · exact (IsReporting.searchAbove _ _ controller).bind fun _ => isReporting_pure _

theorem isReporting_basePaths (config : Config) (verb : String) (controller : Class) :
    IsReporting (basePaths config verb controller) := by
  unfold basePaths
  split
  · exact isReporting_pure _
  · refine (IsReporting.searchAbove _ _ controller).bind fun found => ?_
    cases found with
    | none => exact isReporting_pure _
    | some inherited => exact (isReporting_log _ _).bind fun _ => isReporting_pure _

theorem isReporting_patterns (config : Config) (controller : Class) (m : Method) (verb : String) :
    IsReporting (patterns config controller m verb) :=
  (isReporting_basePaths config verb controller).bind fun _ => isReporting_pure _

end Route

end JvmRoutes
