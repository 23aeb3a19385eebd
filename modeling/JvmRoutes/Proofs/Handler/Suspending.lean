import JvmRoutes.Proofs.Handler.Continuation
import JvmRoutes.Proofs.Signature.Erasure

/-!
The result of a handler that can be suspended. The descriptor says that its last parameter is a
continuation, and the signature what that one is given.
-/
namespace JvmRoutes.Signature

/-- The arguments of the class itself, not those of the classes around it. -/
def ClassSig.arguments : ClassSig → List ArgumentSig
  | .outermost _ _ arguments | .inner _ _ arguments => arguments

/-- The canonical name of the values that an argument has a place for: of any object, or of its own
type without the sign of its variance. -/
def ArgumentSig.valueName : ArgumentSig → String
  | .any => "java.lang.Object"
  | .exactly r | .upTo r | .downTo r => r.tree.canonicalName

def FieldSig.firstArgument? : FieldSig → Option ArgumentSig
  | .reference (.object c) => c.arguments.head?
  | _ => none

/-- The last parameter of the method is a class of the name, and this one is its first argument. -/
def MethodSig.LastTakes (s : MethodSig) (name : String) (a : ArgumentSig) : Prop :=
  ∃ front c, s.parameters = front ++ [.reference (.object c)] ∧ c.name = name ∧
    c.arguments.head? = some a

theorem ReferenceSig.render_type (r : ReferenceSig) : r.type.render = r.tree.canonicalName := by
  rw [JavaType.render_eq, r.tree_type]

theorem ResultSig.render_type (s : ResultSig) : s.type.render = s.tree.canonicalName := by
  rw [JavaType.render_eq, s.tree_type]

theorem ArgumentSig.render_bound (a : ArgumentSig) : a.type.bound.render = a.valueName := by
  cases a with
  | any => decide
  | exactly r => exact r.render_type
  | upTo bound => exact bound.render_type
  | downTo bound => exact bound.render_type

private theorem head?_bracketed (arguments : List ArgumentSig) :
    ((bracketed arguments).getD []).head? = arguments.head?.map (·.type) := by
  cases arguments <;> rfl

theorem ClassSig.head?_arguments_type (c : ClassSig) :
    c.type.arguments.head? = c.arguments.head?.map (·.type) := by
  cases c with
  | outermost packages name arguments => exact head?_bracketed arguments
  | inner enclosing name arguments => exact head?_bracketed arguments

end JvmRoutes.Signature

namespace JvmRoutes.Handler

open Signature

variable {config : Config} {s : MethodSig} {bounds : Identifier → ErasedClass} {m : Method}

theorem continuationResult?_type (s : FieldSig) :
    continuationResult? s.type = s.firstArgument?.map (·.valueName) := by
  cases s with
  | base p h => rfl
  | reference r =>
    rcases r with name | component | c
    · rfl
    · rfl
    · show c.type.arguments.head?.map (·.bound.render) = c.arguments.head?.map (·.valueName)
      rw [c.head?_arguments_type, Option.map_map]
      exact congrArg (Option.map · c.arguments.head?) (funext ArgumentSig.render_bound)

theorem takesContinuation_of_text (hd : m.descriptor = s.text) :
    takesContinuation config m = .ok ((s.parameters.getLast?).any fun p =>
      p.type.erasure == config.continuationType) := by
  have htype : descriptorType m = .ok s.type := by
    unfold descriptorType
    rw [hd, parse_methodText]
    rfl
  unfold takesContinuation
  rw [htype]
  show Except.ok ((s.parameters.map (·.type)).getLast?.any _) = _
  rw [List.getLast?_map, Option.any_map]

theorem takesContinuation_erased (hd : m.descriptor = (s.erased bounds).text) :
    takesContinuation config m = .ok ((s.parameters.getLast?).any fun p =>
      (p.erased bounds).type.erasure == config.continuationType) := by
  rw [takesContinuation_of_text hd]
  show Except.ok ((s.parameters.map (·.erased bounds)).getLast?.any _) = _
  rw [List.getLast?_map, Option.any_map]

theorem declaredResult_of_descriptor (hd : m.descriptor = (s.erased bounds).text)
    (hs : m.signature = none ∨ m.signature = some "") :
    declaredResult m = .ok (s.result.erased bounds).tree.canonicalName := by
  have hpreferred : preferred m.descriptor m.signature = (s.erased bounds).text := by
    rcases hs with hs | hs <;> rw [hs, hd] <;> rfl
  unfold declaredResult genericType
  rw [hpreferred, parse_methodText, ← ResultSig.render_type]
  rfl

theorem genericType_of_text (hs : m.signature = some s.text) : genericType m = .ok s.type := by
  rw [genericType_of_signature hs s.text_ne_empty, parse_methodText]
  rfl

theorem declaredResult_of_text (hs : m.signature = some s.text) :
    declaredResult m = .ok s.result.tree.canonicalName := by
  unfold declaredResult
  rw [genericType_of_text hs, ← ResultSig.render_type]
  rfl

theorem genericResult_of_takes (ht : takesContinuation config m = .ok true)
    (hs : m.signature = some s.text) {last : FieldSig} (hl : s.parameters.getLast? = some last) :
    genericResult config m s.text =
      .ok ((last.firstArgument?.map (·.valueName)).getD s.result.tree.canonicalName) := by
  have hlast : s.type.parameters.getLast? = some last.type := by
    show (s.parameters.map (·.type)).getLast? = _
    rw [List.getLast?_map, hl]
    rfl
  unfold genericResult
  rw [ht, genericType_of_text hs, declaredResult_of_text hs]
  simp only [bind, Except.bind, if_true, hlast, continuationResult?_type]
  cases last.firstArgument? <;> rfl

theorem genericResult_of_not_takes (ht : takesContinuation config m = .ok false)
    (hs : m.signature = some s.text) :
    genericResult config m s.text = .ok s.result.tree.canonicalName := by
  unfold genericResult
  rw [ht, declaredResult_of_text hs]
  rfl

private theorem takesContinuation_of_lastTakes (hd : m.descriptor = (s.erased bounds).text)
    {a : ArgumentSig} (h : s.LastTakes config.continuationType a) :
    takesContinuation config m = .ok true := by
  obtain ⟨front, c, hparameters, hname, -⟩ := h
  have herasure := c.erasure_erased
  rw [takesContinuation_erased hd, hparameters, List.getLast?_concat]
  simp [FieldSig.erased, ReferenceSig.erased, FieldSig.type, herasure, hname]

private theorem lastTakes_of_takes (hd : m.descriptor = (s.erased bounds).text)
    (ht : takesContinuation config m = .ok true) : ∃ last, s.parameters.getLast? = some last ∧
      ∀ a, last.firstArgument? = some a → s.LastTakes config.continuationType a := by
  rw [takesContinuation_erased hd] at ht
  have hany := Except.ok.inj ht
  cases hlast : s.parameters.getLast? with
  | none =>
    rw [hlast] at hany
    cases hany
  | some last =>
    rw [hlast] at hany
    have herasure : (last.erased bounds).type.erasure = config.continuationType :=
      beq_iff_eq.1 hany
    obtain ⟨front, hparameters⟩ := List.getLast?_eq_some_iff.1 hlast
    refine ⟨last, rfl, fun a ha => ?_⟩
    unfold FieldSig.firstArgument? at ha
    split at ha
    · rename_i c
      exact ⟨front, c, hparameters, c.erasure_erased.symm.trans herasure, ha⟩
    · cases ha

/-- The result of a method is what its signature says, or its descriptor without a signature. But
where the last parameter of the signature is a continuation with arguments, and the descriptor has
that parameter as well, the result is what the first of these arguments stands for. -/
theorem result_of_erased (config : Config) (s : MethodSig) (bounds : Identifier → ErasedClass)
    {m : Method} (hd : m.descriptor = (s.erased bounds).text) :
    (m.signature = none ∨ m.signature = some "" →
      result config m = .ok (s.result.erased bounds).tree.canonicalName) ∧
    (m.signature = some s.text →
      (∀ a, s.LastTakes config.continuationType a → result config m = .ok a.valueName) ∧
      ((∀ a, ¬ s.LastTakes config.continuationType a) →
        result config m = .ok s.result.tree.canonicalName)) := by
  constructor
  · intro hs
    rw [← declaredResult_of_descriptor hd hs]
    unfold result
    rcases hs with hs | hs
    · rw [hs]
    · rw [hs]
      rfl
  intro hs
  rw [result_of_signature hs s.text_ne_empty]
  constructor
  · intro a ha
    have htakes := takesContinuation_of_lastTakes hd ha
    obtain ⟨front, c, hparameters, -, hhead⟩ := ha
    have hlast : s.parameters.getLast? = some (.reference (.object c)) := by
      rw [hparameters, List.getLast?_concat]
    rw [genericResult_of_takes htakes hs hlast, FieldSig.firstArgument?, hhead]
    rfl
  · intro hnone
    cases ht : takesContinuation config m with
    | error fault =>
      rw [takesContinuation_erased hd] at ht
      cases ht
    | ok takes =>
      cases takes with
      | false => exact genericResult_of_not_takes ht hs
      | true =>
        -- a continuation by its descriptor, but raw or a variable in the signature
        obtain ⟨last, hlast, hfirst⟩ := lastTakes_of_takes hd ht
        rw [genericResult_of_takes ht hs hlast]
        cases ha : last.firstArgument? with
        | none => rfl
        | some a => exact absurd (hfirst a ha) (hnone a)

def oneLetter (c : Char) (h : ¬ IsDelimiter c) : Identifier :=
  ⟨[c], List.cons_ne_nil c [], by simpa using h⟩

def smallClass (name : Identifier) (arguments : List ArgumentSig) : ClassSig :=
  .outermost [oneLetter 'k' (by decide)] name arguments

/-- A method with one type parameter that hands an array of it to its continuation. -/
def handsOver : MethodSig where
  typeParameters := [.ofClass (oneLetter 'T' (by decide))
    (.object (smallClass (oneLetter 'O' (by decide)) [])) []]
  parameters := [.base .int (by decide), .reference (.object (smallClass
    (oneLetter 'C' (by decide))
    [.downTo (.array (.reference (.variable (oneLetter 'T' (by decide)))))]))]
  result := .field (.reference (.object (smallClass (oneLetter 'O' (by decide)) [])))
  thrown := []

theorem result_of_erased_handsOver :
    let m : Method := { name := "f", descriptor := "(ILk/C;)Lk/O;"
                        signature := "<T:Lk/O;>(ILk/C<-[TT;>;)Lk/O;" }
    let object : ErasedClass := ⟨[oneLetter 'k' (by decide)], oneLetter 'O' (by decide)⟩
    m.descriptor = (handsOver.erased fun _ => object).text ∧ m.signature = some handsOver.text ∧
      (∃ a, handsOver.LastTakes "k.C" a) ∧
      result { continuationType := "k.C" } m = .ok "T[]" ∧
      result { continuationType := "k.C" } { m with signature := none } = .ok "k.O" := by
  intro m object
  have hd : m.descriptor = (handsOver.erased fun _ => object).text := by decide
  have hs : m.signature = some handsOver.text := by decide
  have htakes : handsOver.LastTakes "k.C"
      (.downTo (.array (.reference (.variable (oneLetter 'T' (by decide)))))) :=
    ⟨[_], _, rfl, by decide, rfl⟩
  have hsuspending := result_of_erased { continuationType := "k.C" } handsOver _ hd
  have hplain := result_of_erased { continuationType := "k.C" } (m := { m with signature := none })
    handsOver _ hd
  refine ⟨hd, hs, ⟨_, htakes⟩, ?_, ?_⟩
  · rw [(hsuspending.2 hs).1 _ htakes]
    decide
  · rw [hplain.1 (.inl rfl)]
    decide

end JvmRoutes.Handler
