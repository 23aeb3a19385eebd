import JvmRoutes.Class
import JvmRoutes.Proofs.Signature.MethodAcceptance

/-!
The text of the type of a method closes its parameter list. So every method with a descriptor that
is one has a key.
-/
namespace JvmRoutes

namespace Signature

theorem parenthesis_mem_of_parse {text : String} {type : MethodSignature}
    (h : MethodSignature.parse text = .ok type) : ')' ∈ text.toList := by
  obtain ⟨rfl, -⟩ := methodParse_eq_ok_iff.1 h
  rw [MethodSignature.text, String.toList_ofList]
  simp [MethodSignature.chars]

end Signature

namespace Method

private theorem exists_throughParenthesis {cs : List Char} (h : ')' ∈ cs) :
    ∃ front, throughParenthesis? cs = some front := by
  induction cs with
  | nil => cases h
  | cons c rest ih =>
    unfold throughParenthesis?
    by_cases hc : c = ')'
    · exact ⟨[c], if_pos hc⟩
    · rcases List.mem_cons.1 h with rfl | hr
      · exact absurd rfl hc
      · obtain ⟨front, hfront⟩ := ih hr
        rw [if_neg hc, hfront]
        exact ⟨c :: front, rfl⟩

theorem exists_key {m : Method} {type : Signature.MethodSignature}
    (h : Signature.MethodSignature.parse m.descriptor = .ok type) : ∃ key, m.key? = some key := by
  obtain ⟨front, hfront⟩ := exists_throughParenthesis (Signature.parenthesis_mem_of_parse h)
  unfold key?
  rw [hfront]
  exact ⟨_, rfl⟩

end Method

end JvmRoutes
