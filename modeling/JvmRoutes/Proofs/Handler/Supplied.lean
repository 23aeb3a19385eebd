import JvmRoutes.Proofs.Handler.Suspending

/-!
What the runtime supplies by its erasure. It makes no difference whether a type has been read from a
generic signature or from a descriptor.
-/
namespace JvmRoutes.Handler

open Signature

theorem takesContinuation_descriptor (config : Config) (s : MethodSig) (m : Method) :
    takesContinuation config { m with descriptor := s.text } =
      takesContinuation config { m with descriptor := s.descriptor.text } := by
  have hsignature : takesContinuation config { m with descriptor := s.text } =
      .ok (s.parameters.getLast?.any (·.type.erasure == config.continuationType)) :=
    takesContinuation_of_text rfl
  have hdescriptor : takesContinuation config { m with descriptor := s.descriptor.text } =
      .ok (s.parameters.getLast?.any fun p =>
        (p.erased fun _ => .object).type.erasure == config.continuationType) :=
    takesContinuation_erased rfl
  rw [hsignature, hdescriptor]
  simp only [FieldSig.erasure_erased]

/-- The erasure of a type that a signature spells is that of the type which its descriptor spells,
and the name by which that one is shown, and the two take as many slots. So what is not supplied by
its name is supplied by its signature if it is so by its descriptor, and a method takes a
continuation by both or by none. -/
theorem erasure_of_descriptor (config : Config) :
    (∀ s : ResultSig, ∃ t d, JavaType.parse s.text = .ok t ∧
      JavaType.parse s.descriptor.text = .ok d ∧ t.erasure = d.render ∧ t.erasure = d.erasure ∧
      t.slots = d.slots ∧
      isSupplied { config with ignoredTypes := [] } t =
        isSupplied { config with ignoredTypes := [] } d) ∧
    ∀ (s : MethodSig) (m : Method), takesContinuation config { m with descriptor := s.text } =
      takesContinuation config { m with descriptor := s.descriptor.text } := by
  refine ⟨fun s => ?_, takesContinuation_descriptor config⟩
  have herasure := s.erasure_descriptor
  have hrender : s.descriptor.type.render = s.descriptor.type.erasure := s.render_erased _
  refine ⟨s.type, s.descriptor.type, parse_text s, parse_text s.descriptor,
    (hrender.trans herasure).symm, herasure.symm, (s.slots_erased _).symm, ?_⟩
  unfold isSupplied
  rw [herasure]
  rfl

end JvmRoutes.Handler
