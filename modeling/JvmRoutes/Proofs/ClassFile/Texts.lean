import JvmRoutes.ClassFile.ConstantPool
import JvmRoutes.Proofs.Text.Passes

/-! Which bytes a class file can have for a text. -/
namespace JvmRoutes.ClassFile

open Text.ModifiedUtf8

variable {bytes : List UInt8} {s : String} {c : Cursor}

theorem textOf_eq_ok_iff : textOf bytes c = .ok (s, c) ↔ decode? bytes = some s.toList := by
  unfold textOf
  cases decode? bytes with
  | none =>
    constructor
    · intro h
      cases h
    · intro h
      cases h
  | some cs =>
    have hpure : (pure (String.ofList cs) : ByteReader String) c = .ok (String.ofList cs, c) := rfl
    constructor
    · intro h
      have hs : String.ofList cs = s := congrArg Prod.fst (Except.ok.inj (hpure.symm.trans h))
      rw [← hs, String.toList_ofList]
    · intro h
      obtain rfl := Option.some.inj h
      dsimp only
      rw [hpure, String.ofList_toList]

theorem textOf_eq_error_iff : textOf bytes c = .error .malformedText ↔ decode? bytes = none := by
  unfold textOf
  cases decode? bytes with
  | none => exact iff_of_true rfl rfl
  | some cs =>
    constructor
    · intro h
      cases h
    · intro h
      cases h

/-- Bytes have the text whose characters they are forms of, one after another, which is also what
reading them in three passes gives. They are refused if there is none. -/
theorem textOf_iff_isWritten (bytes : List UInt8) (c : Cursor) :
    (∀ s : String, textOf bytes c = .ok (s, c) ↔ IsWritten s.toList bytes) ∧
      (∀ s : String, textOf bytes c = .ok (s, c) ↔ byPasses? bytes = some s.toList) ∧
      (textOf bytes c = .error .malformedText ↔ ∀ s : String, ¬ IsWritten s.toList bytes) := by
  refine ⟨?_, ?_, ?_⟩
  · intro s
    rw [textOf_eq_ok_iff, decode?_eq_some_iff]
  · intro s
    rw [textOf_eq_ok_iff, decode?_eq_byPasses?]
  · rw [textOf_eq_error_iff, Option.eq_none_iff_forall_ne_some]
    constructor
    · intro h s hs
      exact h s.toList (decode?_eq_some_iff.2 hs)
    · intro h cs hcs
      apply h (String.ofList cs)
      rw [String.toList_ofList]
      exact decode?_eq_some_iff.1 hcs

end JvmRoutes.ClassFile
