import JvmRoutes.Proofs.Signature.MethodAcceptance

/-!
Which of the accepted texts the grammar has. The reader also takes names with characters that no
identifier has, packages without a name, angle brackets with nothing between them, and arrays that
are thrown.
-/
namespace JvmRoutes.Signature

/-- What the grammar lets be thrown. -/
inductive ThrownForm
  | variable (name : Identifier)
  | object (c : ClassSig)

/-- The type of a method as the grammar has it. Without type parameters it has no angle brackets. -/
structure MethodForm where
  typeParameters : List TypeParameterForm
  parameters : List FieldSig
  result : ResultSig
  thrown : List ThrownForm

section Texts

def ThrownForm.reference : ThrownForm → ReferenceSig
  | .variable name => .variable name
  | .object c => .object c

def MethodForm.chars (d : MethodForm) : List Char :=
  formChars d.typeParameters ++
    '(' :: (d.parameters.flatMap (·.chars) ++
      ')' :: (d.result.chars ++ markedChars '^' (d.thrown.map (·.reference))))

def MethodForm.text (d : MethodForm) : String := String.ofList d.chars

end Texts

section Types

def MethodForm.type (d : MethodForm) : MethodSignature where
  typeParameters := formTypes d.typeParameters
  parameters := d.parameters.map (·.type)
  result := d.result.type
  thrown := d.thrown.map (·.reference.type)

/-- A bound is missing at most at the last type parameter. -/
def MethodForm.IsBounded (d : MethodForm) : Prop :=
  ∀ p ∈ d.typeParameters.dropLast, p.type.IsBounded

theorem MethodForm.chars_type (d : MethodForm) : d.type.chars = d.chars := by
  have hthrown := charsBehindMarks_types '^' (d.thrown.map (·.reference))
  rw [List.map_map] at hthrown
  simp only [MethodForm.type, MethodSignature.chars, MethodForm.chars, charsOfParameters_formTypes,
    List.flatMap_map, FieldSig.chars_type, ResultSig.chars_type, ← hthrown]
  rfl

theorem MethodForm.text_type (d : MethodForm) : d.type.text = d.text := by
  rw [MethodSignature.text, d.chars_type, MethodForm.text]

end Types

section Grammar

theorem MethodForm.obeys_type {d : MethodForm} (h : d.IsBounded) : d.type.Obeys grammar where
  typeParameters ps hps := by
    obtain ⟨hne, rfl⟩ := mem_formTypes hps
    refine ⟨fun hnil => absurd (List.map_eq_nil_iff.1 hnil) hne, fun p hp => ?_, fun p hp => ?_⟩
    · obtain ⟨form, -, rfl⟩ := List.mem_map.1 hp
      exact form.obeys_type
    · rw [← List.map_dropLast] at hp
      obtain ⟨form, hform, rfl⟩ := List.mem_map.1 hp
      exact h form hform
  parameters t ht := by
    obtain ⟨s, -, rfl⟩ := List.mem_map.1 ht
    exact s.obeys_type
  result := d.result.suits_type
  thrown t ht := by
    obtain ⟨form, -, rfl⟩ := List.mem_map.1 ht
    refine ⟨?_, form.reference.suits_grammar⟩
    cases form <;> exact nofun

private theorem exists_types {α β : Type} {f : α → β} {items : List β}
    (h : ∀ b ∈ items, ∃ a, f a = b) : ∃ sources : List α, sources.map f = items := by
  induction items with
  | nil => exact ⟨[], rfl⟩
  | cons b rest ih =>
    obtain ⟨⟨a, rfl⟩, hrest⟩ := List.forall_mem_cons.1 h
    obtain ⟨sources, rfl⟩ := ih hrest
    exact ⟨a :: sources, rfl⟩

theorem JavaType.Suits.exists_referenceSig {t : JavaType} (h : t.Suits grammar .reference) :
    ∃ r : ReferenceSig, r.type = t := Signature.exists_referenceSig h.1 (t.exists_fieldSig h.2)

theorem TypeParameter.Obeys.exists_form {p : TypeParameter} (h : p.Obeys grammar) :
    ∃ form : TypeParameterForm, form.type = p := by
  obtain ⟨name, classBound, interfaceBounds⟩ := p
  obtain ⟨i, rfl⟩ := IsIdentifier.exists_text h.name
  obtain ⟨interfaces, rfl⟩ := exists_types fun t ht => (h.interfaceBounds t ht).exists_referenceSig
  cases classBound with
  | none => exact ⟨⟨i, none, interfaces⟩, rfl⟩
  | some bound =>
    obtain ⟨r, rfl⟩ := (h.classBound bound rfl).exists_referenceSig
    exact ⟨⟨i, some r, interfaces⟩, rfl⟩

private theorem exists_thrownForm {t : JavaType}
    (h : grammar.thrown t ∧ t.Suits grammar .reference) :
    ∃ form : ThrownForm, form.reference.type = t := by
  obtain ⟨hthrown, ht⟩ := h
  obtain ⟨r, rfl⟩ := ht.exists_referenceSig
  rcases r with name | component | c
  · exact ⟨.variable name, rfl⟩
  · exact absurd rfl (hthrown component.type)
  · exact ⟨.object c, rfl⟩

private theorem exists_forms {typeParameters : Option (List TypeParameter)}
    (h : ∀ ps ∈ typeParameters, ParametersObey grammar ps) :
    ∃ forms : List TypeParameterForm, formTypes forms = typeParameters ∧
      ∀ p ∈ forms.dropLast, p.type.IsBounded := by
  cases typeParameters with
  | none => exact ⟨[], rfl, nofun⟩
  | some ps =>
    have hps := h ps rfl
    obtain ⟨forms, rfl⟩ := exists_types fun p hp => (hps.each p hp).exists_form
    refine ⟨forms, ?_, fun p hp => hps.bounded p.type ?_⟩
    · cases forms with
      | nil => exact (hps.nonempty rfl).elim
      | cons form rest => rfl
    · rw [← List.map_dropLast]
      exact List.mem_map_of_mem hp

theorem MethodSignature.Obeys.exists_methodForm {m : MethodSignature} (h : m.Obeys grammar) :
    ∃ d : MethodForm, d.IsBounded ∧ d.type = m := by
  obtain ⟨typeParameters, parameters, result, thrown⟩ := m
  obtain ⟨forms, rfl, hbounded⟩ := exists_forms h.typeParameters
  obtain ⟨fields, rfl⟩ := exists_types fun t ht =>
    JavaType.exists_fieldSig t (h.parameters t ht)
  obtain ⟨result, rfl⟩ := exists_resultSig h.result
  obtain ⟨thrownForms, rfl⟩ := exists_types fun t ht => exists_thrownForm (h.thrown t ht)
  exact ⟨⟨forms, fields, result, thrownForms⟩, hbounded, rfl⟩

end Grammar

/-- A text is accepted exactly if it is that of a type in which the names are as the reader scans
them. It is derivable exactly if, besides, the names are identifiers, no angle brackets are empty
and no array is thrown. So it is for single types and for the types of methods, as far as type
parameters in front of others have bounds. -/
theorem derivable_iff_accepted (text : String) :
    (∀ t, JavaType.parse text = .ok t ↔ t.text = text ∧ t.Suits scanned .result) ∧
    ((∃ s : ResultSig, s.text = text) ↔
      ∃ t, JavaType.parse text = .ok t ∧ t.Suits grammar .result) ∧
    (∀ m, MethodSignature.parse text = .ok m ↔ m.text = text ∧ m.Obeys scanned) ∧
    ((∃ d : MethodForm, d.IsBounded ∧ d.text = text) ↔
      ∃ m, MethodSignature.parse text = .ok m ∧ m.Obeys grammar) := by
  refine ⟨fun t => parse_eq_ok_iff, ⟨?_, ?_⟩, fun m => methodParse_eq_ok_iff, ⟨?_, ?_⟩⟩
  · rintro ⟨s, rfl⟩
    exact ⟨s.type, parse_text s, s.suits_type⟩
  · rintro ⟨t, hparse, ht⟩
    obtain ⟨s, rfl⟩ := exists_resultSig ht
    obtain ⟨htext, -⟩ := parse_eq_ok_iff.1 hparse
    exact ⟨s, s.text_type.symm.trans htext⟩
  · rintro ⟨d, hd, rfl⟩
    have hobeys := MethodForm.obeys_type hd
    have hscanned := hobeys.mono grammar_within_scanned
    exact ⟨d.type, methodParse_eq_ok_iff.2 ⟨d.text_type, hscanned⟩, hobeys⟩
  · rintro ⟨m, hparse, hm⟩
    obtain ⟨d, hd, rfl⟩ := hm.exists_methodForm
    obtain ⟨htext, -⟩ := methodParse_eq_ok_iff.1 hparse
    exact ⟨d, hd, d.text_type.symm.trans htext⟩

theorem accepted_not_derivable :
    (∃ t, JavaType.parse "La//b;" = .ok t) ∧ (¬ ∃ s : ResultSig, s.text = "La//b;") ∧
    (∃ m, MethodSignature.parse "<>()V" = .ok m) ∧ ¬ ∃ d : MethodForm, d.text = "<>()V" := by
  refine ⟨⟨_, rfl⟩, ?_, ⟨_, rfl⟩, ?_⟩
  · rintro ⟨s, hs⟩
    have hparse : JavaType.parse "La//b;" = .ok s.type := hs ▸ parse_text s
    have htype : s.type = .object (.outermost "a//b" none) := (Except.ok.inj hparse).symm
    have hname : grammar.className "a//b" := by
      have hsuits := s.suits_type
      rw [htype] at hsuits
      exact hsuits.resolve_left nofun
    have hpiece : IsIdentifier [] := hname [] (by decide)
    exact hpiece.nonempty rfl
  · rintro ⟨d, hd⟩
    have hchars : d.chars = ['<', '>', '(', ')', 'V'] := by
      have htext := congrArg String.toList hd
      rwa [MethodForm.text, String.toList_ofList] at htext
    unfold MethodForm.chars at hchars
    cases hps : d.typeParameters with
    | nil =>
      rw [hps] at hchars
      cases hchars
    | cons p rest =>
      rw [hps] at hchars
      -- behind the bracket a name would begin
      obtain ⟨c, cs, hc⟩ := List.exists_cons_of_ne_nil p.name.nonempty
      have hbracket : c = '>' := by
        simpa [formChars, TypeParameterForm.chars, hc] using congrArg (·.getD 1 '<') hchars
      exact p.name.free '>' (by simp [hc, hbracket]) (by decide)

end JvmRoutes.Signature
