import JvmRoutes.Handler.Result
import JvmRoutes.Proofs.Handler.Search
import JvmRoutes.Proofs.Signature.MethodParsing

/-!
The result of a method that can be suspended is looked for in its last parameter. The descriptor
says that there is one, but it is the generic signature that is searched, and that may have none.
-/
namespace JvmRoutes.Handler

open Signature

variable {config : Config} {m : Method} {signature : String} {fault : Fault}

/-- The last parameter of a method takes a continuation by the descriptor, and by the generic
signature there is no parameter. -/
structure LacksContinuation (config : Config) (m : Method) (signature : String) : Prop where
  signature_eq : m.signature = some signature
  ne_empty : signature ≠ ""
  takes : takesContinuation config m = .ok true
  parameters : ∃ type, MethodSignature.parse signature = .ok type ∧ type.parameters = []

theorem isReported_of_declaredResult (h : declaredResult m = .error fault) :
    fault.isReported = true := by
  rcases bind_eq_error_iff.1 h with h | ⟨type, -, h⟩
  · exact isReported_of_malformed h
  · cases h

theorem genericType_of_signature (hs : m.signature = some signature) (hn : signature ≠ "") :
    genericType m = (MethodSignature.parse signature).mapError .malformedSignature := by
  unfold genericType
  rw [hs, preferred_of_ne_empty _ hn]

theorem result_of_signature (hs : m.signature = some signature) (hn : signature ≠ "") :
    result config m = genericResult config m signature := by
  unfold result
  rw [hs]
  split
  · contradiction
  · rename_i he
    exact absurd (Option.some.inj he) hn
  · rename_i he
    rw [Option.some.inj he]

theorem lacks_of_genericResult (h : genericResult config m signature = .error fault)
    (hf : fault.isReported = false) :
    takesContinuation config m = .ok true ∧ fault = .noContinuation signature ∧
      ∃ type, genericType m = .ok type ∧ type.parameters = [] := by
  rcases bind_eq_error_iff.1 h with h | ⟨takes, htakes, h⟩
  · rw [isReported_of_takesContinuation h] at hf
    cases hf
  cases takes with
  | false =>
    rw [isReported_of_declaredResult h] at hf
    cases hf
  | true =>
    rcases bind_eq_error_iff.1 h with h | ⟨type, htype, h⟩
    · rw [isReported_of_malformed h] at hf
      cases hf
    cases hl : type.parameters.getLast? with
    | none =>
      simp only [hl] at h
      obtain rfl := Except.error.inj h
      exact ⟨htakes, rfl, type, htype, List.getLast?_eq_none_iff.1 hl⟩
    | some continuation =>
      simp only [hl] at h
      split at h
      · cases h
      · rw [isReported_of_declaredResult h] at hf
        cases hf

/-- The type of the result is refused for a fault that is no message exactly if a continuation is
missing in the generic signature. -/
theorem result_escapes_iff : result config m = .error fault ∧ fault.isReported = false ↔
    ∃ signature, LacksContinuation config m signature ∧ fault = .noContinuation signature := by
  constructor
  · rintro ⟨h, hf⟩
    unfold result at h
    split at h
    · rw [isReported_of_declaredResult h] at hf
      cases hf
    · rw [isReported_of_declaredResult h] at hf
      cases hf
    · rename_i signature hn hs
      obtain ⟨htakes, rfl, type, htype, hnone⟩ := lacks_of_genericResult h hf
      rw [genericType_of_signature hs hn] at htype
      exact ⟨signature, ⟨hs, hn, htakes, type, mapError_eq_ok_iff.1 htype, hnone⟩, rfl⟩
  · rintro ⟨signature, ⟨hs, hn, htakes, type, htype, hnone⟩, rfl⟩
    have hgeneric : genericType m = .ok type := by
      rw [genericType_of_signature hs hn]
      exact mapError_eq_ok_iff.2 htype
    rw [result_of_signature hs hn]
    unfold genericResult
    rw [htakes, hgeneric]
    simp [bind, Except.bind, hnone, throw, throwThe, MonadExceptOf.throw, Fault.isReported]

end JvmRoutes.Handler
