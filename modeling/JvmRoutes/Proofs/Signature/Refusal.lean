import JvmRoutes.Proofs.Signature.Acceptance
import JvmRoutes.Proofs.Signature.MethodParsing

/-!
Where texts are refused. From every state of the readers some characters lead to a result, so that a
text is refused at the first character that no accepted text has in its place, or at its end.
-/
namespace JvmRoutes.Signature

/-- A refusal says how far a text is the beginning of an accepted one. -/
structure Malformed.IsFirstOffence (accepts : String → Prop) (m : Malformed) : Prop where
  within : m.position ≤ m.text.length
  viable : ∃ text, accepts text ∧ m.text.toList.take m.position <+: text.toList
  offending : m.position < m.text.length →
    ∀ text, accepts text → ¬ m.text.toList.take (m.position + 1) <+: text.toList
  cutShort : m.position = m.text.length → ∃ rest, accepts (m.text ++ rest)

namespace Reader

variable {σ α : Type} {r : Reader σ α} {s t t' : σ} {cs ds : List Char}

theorem Runs.unique (h : r.Runs s cs t) (h' : r.Runs s cs t') : t = t' :=
  Except.ok.inj ((h.advance_eq 0).symm.trans (h'.advance_eq 0))

/-- A run passes through a state behind each part of its text. -/
theorem Runs.exists_middle (h : r.Runs s (cs ++ ds) t) :
    ∃ middle, r.Runs s cs middle ∧ r.Runs middle ds t := by
  induction cs generalizing s with
  | nil => exact ⟨s, .nil s, h⟩
  | cons c rest ih =>
    obtain _ | ⟨hc, hs⟩ := h
    obtain ⟨middle, hfront, hback⟩ := ih hs
    exact ⟨middle, .cons hc hfront, hback⟩

/-- Some more characters lead from the state to a result. -/
def CanEnd (r : Reader σ α) (s : σ) : Prop :=
  ∃ cs last a, r.Runs s cs last ∧ r.finish last = .ok a

theorem Runs.canEnd (h : r.Runs s cs t) (ht : r.CanEnd t) : r.CanEnd s := by
  obtain ⟨ds, last, a, hruns, hfinish⟩ := ht
  exact ⟨cs ++ ds, last, a, h.append hruns, hfinish⟩

theorem canEnd_of_step (c : Char) (h : r.step s c = .ok t) (ht : r.CanEnd t) : r.CanEnd s :=
  Runs.canEnd (.cons h (.nil t)) ht

theorem canEnd_of_finish {a : α} (h : r.finish s = .ok a) : r.CanEnd s := ⟨[], s, a, .nil s, h⟩

/-- A reader stops at a character that it cannot go on with, or at an end that comes too early. -/
inductive Stops (r : Reader σ α) (m : Malformed) : Prop
  | inside {front back : List Char} {c : Char} {last : σ}
    (htext : m.text.toList = front ++ c :: back) (hposition : m.position = front.length)
    (hruns : r.Runs r.start front last) (hstep : r.step last c = .error m.reason)
  | atEnd {last : σ} (hposition : m.position = m.text.length)
    (hruns : r.Runs r.start m.text.toList last)

private theorem exists_stop_of_advance {position p : Nat} {reason : Reason}
    (h : r.advance s position cs = .error (p, reason)) :
    ∃ front c back last, cs = front ++ c :: back ∧ r.Runs s front last ∧
      r.step last c = .error reason ∧ p = position + front.length := by
  induction cs generalizing s position with
  | nil => cases h
  | cons c rest ih =>
    unfold advance at h
    split at h
    · rename_i found hstep
      obtain ⟨rfl, rfl⟩ := Prod.mk.inj (Except.error.inj h)
      exact ⟨[], c, rest, s, rfl, .nil s, hstep, rfl⟩
    · rename_i next hnext
      obtain ⟨front, d, back, last, rfl, hruns, hstep, rfl⟩ := ih h
      refine ⟨c :: front, d, back, last, rfl, .cons hnext hruns, hstep, ?_⟩
      rw [List.length_cons, Nat.add_assoc, Nat.add_comm 1]

theorem stops_of_read {text : String} {m : Malformed} (h : r.read text = .error m) :
    m.text = text ∧ r.Stops m := by
  obtain ⟨⟨position, reason⟩, hchars, rfl⟩ := mapError_eq_error_iff.1 h
  refine ⟨rfl, ?_⟩
  rcases bind_eq_error_iff.1 hchars with hadvance | ⟨last, hadvance, hfinish⟩
  · obtain ⟨front, c, back, last, htext, hruns, hstep, hposition⟩ :=
      exists_stop_of_advance hadvance
    rw [Nat.zero_add] at hposition
    exact .inside htext hposition hruns hstep
  · obtain ⟨_, -, hpair⟩ := mapError_eq_error_iff.1 hfinish
    have hposition : text.toList.length = position := (Prod.mk.inj hpair).1
    rw [String.length_toList] at hposition
    exact .atEnd hposition.symm (runs_of_advance hadvance)

/-- What has been read can be gone on with to an accepted text. -/
theorem Runs.exists_accepted (h : r.Runs r.start cs s) (hs : r.CanEnd s) :
    ∃ rest a, r.read (String.ofList (cs ++ rest)) = .ok a := by
  obtain ⟨rest, last, a, hruns, hfinish⟩ := hs
  exact ⟨rest, a, (h.append hruns).read_eq hfinish⟩

/-- An accepted text does not begin with a character that the reader cannot go on with. -/
theorem not_prefix_of_step_error {front : List Char} {c : Char} {last : σ} {reason : Reason}
    (hruns : r.Runs r.start front last) (hstep : r.step last c = .error reason) {text : String}
    {a : α} (h : r.read text = .ok a) : ¬ front ++ [c] <+: text.toList := by
  rintro ⟨rest, hrest⟩
  obtain ⟨final, hfinal, -⟩ := exists_runs_of_read h
  rw [← hrest, List.append_assoc] at hfinal
  obtain ⟨middle, hmiddle, hback⟩ := hfinal.exists_middle
  obtain rfl := hmiddle.unique hruns
  obtain _ | ⟨hc, -⟩ := hback
  rw [hstep] at hc
  cases hc

variable {m : Malformed}

theorem isFirstOffence_inside {front back : List Char} {c : Char} {last : σ}
    (htext : m.text.toList = front ++ c :: back) (hposition : m.position = front.length)
    (hruns : r.Runs r.start front last) (hstep : r.step last c = .error m.reason)
    (hlast : r.CanEnd last) : m.IsFirstOffence fun text => ∃ a, r.read text = .ok a := by
  have hlength : m.text.length = front.length + (back.length + 1) := by
    rw [← String.length_toList, htext, List.length_append, List.length_cons]
  have hbefore : m.text.toList.take m.position = front := by
    rw [htext, hposition, List.take_left]
  have hthrough : m.text.toList.take (m.position + 1) = front ++ [c] := by
    rw [htext, hposition, List.take_length_add_append]
    rfl
  obtain ⟨rest, a, ha⟩ := hruns.exists_accepted hlast
  constructor
  · omega
  · refine ⟨_, ⟨a, ha⟩, ?_⟩
    rw [hbefore, String.toList_ofList]
    exact List.prefix_append front rest
  · rintro - text ⟨b, hb⟩
    rw [hthrough]
    exact not_prefix_of_step_error hruns hstep hb
  · intro h
    omega

theorem isFirstOffence_atEnd {last : σ} (hposition : m.position = m.text.length)
    (hruns : r.Runs r.start m.text.toList last) (hlast : r.CanEnd last) :
    m.IsFirstOffence fun text => ∃ a, r.read text = .ok a := by
  obtain ⟨rest, a, ha⟩ := hruns.exists_accepted hlast
  have haccepted : r.read (m.text ++ String.ofList rest) = .ok a := by
    rw [← ha]
    congr 1
    apply String.toList_inj.1
    simp
  constructor
  · exact Nat.le_of_eq hposition
  · refine ⟨_, ⟨a, haccepted⟩, ?_⟩
    rw [String.toList_append]
    exact (List.take_prefix _ _).trans (List.prefix_append _ _)
  · intro h
    omega
  · exact fun _ => ⟨_, a, haccepted⟩

/-- A reader that can end from every state refuses a text at the first offending character. -/
theorem isFirstOffence_of_read (hr : ∀ s, r.CanEnd s) {text : String}
    (h : r.read text = .error m) :
    m.text = text ∧ m.IsFirstOffence fun text => ∃ a, r.read text = .ok a := by
  obtain ⟨htext, hstops⟩ := stops_of_read h
  refine ⟨htext, ?_⟩
  cases hstops with
  | inside htext hposition hruns hstep =>
    exact isFirstOffence_inside htext hposition hruns hstep (hr _)
  | atEnd hposition hruns => exact isFirstOffence_atEnd hposition hruns (hr _)

end Reader

section Types

/-- What waits around a type that has ended can end as well: each class closes its brackets. -/
theorem canEnd_close (t : JavaType) (frames : List Frame) :
    typeReader.CanEnd (close t frames) := by
  induction frames generalizing t with
  | nil => exact Reader.canEnd_of_finish rfl
  | cons frame frames ih =>
    cases frame with
    | component => exact ih (.array t)
    | argument owner before limit =>
      exact Reader.canEnd_of_step '>' rfl (Reader.canEnd_of_step ';' rfl (ih _))

theorem canEnd_className (frames : List Frame) (c : OpenClass) :
    typeReader.CanEnd (.reading ⟨frames, .className c⟩) := by
  -- the name may be empty so far
  let grown : OpenClass := { c with name := c.name.push 'a' }
  have hend : typeReader.step (.reading ⟨frames, .className grown⟩) ';' =
      .ok (close (.object (grown.close none)) frames) := if_neg (push_ne_empty c.name 'a')
  exact Reader.canEnd_of_step 'a' rfl (Reader.canEnd_of_step ';' hend (canEnd_close _ frames))

theorem canEnd_variableName (frames : List Frame) (name : String) :
    typeReader.CanEnd (.reading ⟨frames, .variableName name⟩) := by
  have hend : typeReader.step (.reading ⟨frames, .variableName (name.push 'a')⟩) ';' =
      .ok (close (.variable (name.push 'a')) frames) := if_neg (push_ne_empty name 'a')
  exact Reader.canEnd_of_step 'a' rfl (Reader.canEnd_of_step ';' hend (canEnd_close _ frames))

/-- Whatever has been read of a type, it can be gone on with to its end. -/
theorem canEnd_type (p : TypeProgress) : typeReader.CanEnd p := by
  cases p with
  | complete t => exact Reader.canEnd_of_finish rfl
  | reading s =>
    obtain ⟨frames, point⟩ := s
    cases point with
    | typeStart voidAllowed =>
      exact Reader.canEnd_of_step 'I' rfl (canEnd_close _ frames)
    | referenceStart =>
      exact Reader.canEnd_of_step 'T' rfl (canEnd_variableName frames "")
    | className c => exact canEnd_className frames c
    | argumentStart owner before =>
      exact Reader.canEnd_of_step '>' rfl (Reader.canEnd_of_step ';' rfl (canEnd_close _ frames))
    | argumentsEnd c =>
      exact Reader.canEnd_of_step ';' rfl (canEnd_close _ frames)
    | variableName name => exact canEnd_variableName frames name

end Types

section Methods

/-- The place of a type can end if what stands behind it can. -/
theorem ReadsInside.canEnd {reading : OpenType → OpenMethod} {complete : JavaType → OpenMethod}
    (h : ReadsInside reading complete) (hc : ∀ t, methodReader.CanEnd (complete t))
    (s : OpenType) : methodReader.CanEnd (reading s) := by
  obtain ⟨cs, last, t, hruns, hfinish⟩ := canEnd_type (.reading s)
  cases last with
  | reading s' => cases hfinish
  | complete t' => exact Reader.Runs.canEnd (h.runs hruns) (hc t')

variable (typeParameters : Option (List TypeParameter)) (before : List TypeParameter)

theorem canEnd_complete (m : MethodSignature) : methodReader.CanEnd (.complete m) :=
  Reader.canEnd_of_finish rfl

theorem canEnd_result (parameters : List JavaType) (s : OpenType) :
    methodReader.CanEnd (.result typeParameters parameters s) :=
  (readsInside_result typeParameters parameters).canEnd (fun _ => canEnd_complete _) s

theorem canEnd_parameterStart (parameters : List JavaType) :
    methodReader.CanEnd (.parameterStart typeParameters parameters) :=
  Reader.canEnd_of_step ')' rfl (canEnd_result typeParameters parameters _)

theorem canEnd_listStart : methodReader.CanEnd (.listStart typeParameters) :=
  Reader.canEnd_of_step '(' rfl (canEnd_parameterStart typeParameters [])

theorem canEnd_boundStart (name : String) : methodReader.CanEnd (.boundStart before name) :=
  Reader.canEnd_of_step '>' rfl (canEnd_listStart _)

theorem canEnd_boundEnd (p : TypeParameter) : methodReader.CanEnd (.boundEnd before p) :=
  Reader.canEnd_of_step '>' rfl (canEnd_listStart _)

theorem canEnd_typeParameter (name : String) :
    methodReader.CanEnd (.typeParameter before name) := by
  have hcolon : methodReader.step (.typeParameter before (name.push 'a')) ':' =
      .ok (.boundStart before (name.push 'a')) := if_neg (push_ne_empty name 'a')
  exact Reader.canEnd_of_step 'a' rfl
    (Reader.canEnd_of_step ':' hcolon (canEnd_boundStart before _))

/-- Whatever has been read of the type of a method, it can be gone on with to its end. -/
theorem canEnd_method (m : OpenMethod) : methodReader.CanEnd m := by
  cases m with
  | start => exact Reader.canEnd_of_step '(' rfl (canEnd_parameterStart none [])
  | typeParameter before name => exact canEnd_typeParameter before name
  | boundStart before name => exact canEnd_boundStart before name
  | classBound before name s =>
    exact (readsInside_classBound before name).canEnd (fun _ => canEnd_boundEnd before _) s
  | interfaceBound before p s =>
    exact (readsInside_interfaceBound before p).canEnd (fun _ => canEnd_boundEnd before _) s
  | boundEnd before p => exact canEnd_boundEnd before p
  | listStart typeParameters => exact canEnd_listStart typeParameters
  | parameterStart typeParameters parameters =>
    exact canEnd_parameterStart typeParameters parameters
  | parameter typeParameters parameters s =>
    exact (readsInside_parameter typeParameters parameters).canEnd
      (fun _ => canEnd_parameterStart typeParameters _) s
  | result typeParameters parameters s => exact canEnd_result typeParameters parameters s
  | complete m => exact canEnd_complete m
  | thrown m s => exact (readsInside_thrown m).canEnd (fun _ => canEnd_complete _) s

end Methods

/-- A text that is refused is the beginning of an accepted one up to the position of the refusal:
it is cut short there, or goes on with a character that no accepted text has in this place. So it
is for single types and for the types of methods. -/
theorem isFirstOffence_of_parse (text : String) (m : Malformed) :
    (JavaType.parse text = .error m →
      m.text = text ∧ m.IsFirstOffence fun text => ∃ t, JavaType.parse text = .ok t) ∧
    (MethodSignature.parse text = .error m →
      m.text = text ∧ m.IsFirstOffence fun text => ∃ s, MethodSignature.parse text = .ok s) :=
  ⟨Reader.isFirstOffence_of_read canEnd_type, Reader.isFirstOffence_of_read canEnd_method⟩

/-- An array of nothing is refused at its component, and an open list of parameters at its end. -/
theorem isFirstOffence_of_parse_brokenTexts :
    JavaType.parse "La<[V>;" = .error ⟨"La<[V>;", 4, .void⟩ ∧
    (Malformed.mk "La<[V>;" 4 .void).IsFirstOffence
      (fun text => ∃ t, JavaType.parse text = .ok t) ∧
    MethodSignature.parse "<T:>(I" = .error ⟨"<T:>(I", 6, .openParameters⟩ ∧
    (Malformed.mk "<T:>(I" 6 .openParameters).IsFirstOffence
      (fun text => ∃ s, MethodSignature.parse text = .ok s) := by
  have htype : JavaType.parse "La<[V>;" = .error ⟨"La<[V>;", 4, .void⟩ := rfl
  have hmethod : MethodSignature.parse "<T:>(I" = .error ⟨"<T:>(I", 6, .openParameters⟩ := rfl
  exact ⟨htype, ((isFirstOffence_of_parse _ _).1 htype).2, hmethod,
    ((isFirstOffence_of_parse _ _).2 hmethod).2⟩

end JvmRoutes.Signature
