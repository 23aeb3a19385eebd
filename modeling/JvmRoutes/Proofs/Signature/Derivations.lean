import JvmRoutes.Proofs.Signature.Spelling

/-!
The types of derivations are those that obey the rules of the grammar, and the reader of types asks
for no more than these.
-/
namespace JvmRoutes.Signature

section Texts

mutual

theorem FieldSig.chars_type : ∀ s : FieldSig, s.type.chars = s.chars
  | .base p _ => rfl
  | .reference r => by rw [FieldSig.type, FieldSig.chars, r.chars_type]

theorem ReferenceSig.chars_type : ∀ r : ReferenceSig, r.type.chars = r.chars
  | .variable name => by
    rw [ReferenceSig.type, ReferenceSig.chars, JavaType.chars, Identifier.text,
      String.toList_ofList]
  | .array component => by
    rw [ReferenceSig.type, ReferenceSig.chars, JavaType.chars, component.chars_type]
  | .object c => by rw [ReferenceSig.type, ReferenceSig.chars, JavaType.chars, c.chars_type]

theorem ClassSig.chars_type : ∀ c : ClassSig, c.type.chars = c.chars
  | .outermost packages name [] => by
    rw [ClassSig.type, ClassSig.chars, bracketed, bracketChars, ClassType.chars, slashedName,
      String.toList_ofList, List.append_nil]
  | .outermost packages name (a :: rest) => by
    rw [ClassSig.type, ClassSig.chars, bracketed, bracketChars, ClassType.chars, slashedName,
      String.toList_ofList, charsOfEach, a.chars_type, chars_argumentTypes rest]
    simp only [List.append_assoc]
  | .inner enclosing name [] => by
    rw [ClassSig.type, ClassSig.chars, bracketed, bracketChars, ClassType.chars,
      enclosing.chars_type, Identifier.text, String.toList_ofList, List.append_nil]
  | .inner enclosing name (a :: rest) => by
    rw [ClassSig.type, ClassSig.chars, bracketed, bracketChars, ClassType.chars,
      enclosing.chars_type, Identifier.text, String.toList_ofList, charsOfEach, a.chars_type,
      chars_argumentTypes rest]
    simp only [List.append_assoc]

theorem ArgumentSig.chars_type : ∀ a : ArgumentSig, a.type.chars = a.chars
  | .any => rfl
  | .exactly r => by rw [ArgumentSig.type, ArgumentSig.chars, TypeArgument.chars, r.chars_type]
  | .upTo bound => by
    rw [ArgumentSig.type, ArgumentSig.chars, TypeArgument.chars, bound.chars_type]
  | .downTo bound => by
    rw [ArgumentSig.type, ArgumentSig.chars, TypeArgument.chars, bound.chars_type]

theorem chars_argumentTypes : ∀ arguments : List ArgumentSig,
    charsOfEach (argumentTypes arguments) = argumentChars arguments
  | [] => rfl
  | a :: rest => by
    rw [argumentTypes, charsOfEach, argumentChars, a.chars_type, chars_argumentTypes rest]

end

end Texts

theorem Identifier.isIdentifier (i : Identifier) : IsIdentifier i.chars := ⟨i.nonempty, i.free⟩

theorem Identifier.isIdentifier_text (i : Identifier) : IsIdentifier i.text.toList := by
  rw [Identifier.text, String.toList_ofList]
  exact i.isIdentifier

theorem IsIdentifier.exists_text {name : String} (h : IsIdentifier name.toList) :
    ∃ i : Identifier, i.text = name :=
  ⟨⟨name.toList, h.nonempty, h.free⟩, String.ofList_toList⟩

theorem Identifier.slash_notMem (i : Identifier) : '/' ∉ i.chars :=
  fun hc => i.free '/' hc (by decide)

private theorem splitOn_packageChars (packages : List Identifier) (name : Identifier) :
    (packageChars packages ++ name.chars).splitOn '/' = (packages ++ [name]).map (·.chars) := by
  induction packages with
  | nil => exact List.splitOn_eq_singleton name.slash_notMem
  | cons i rest ih =>
    have hchars : packageChars (i :: rest) ++ name.chars =
        i.chars ++ '/' :: (packageChars rest ++ name.chars) := by
      simp [packageChars]
    rw [hchars, List.splitOn_append_cons_self_of_not_mem i.slash_notMem, ih]
    rfl

theorem className_slashedName (packages : List Identifier) (name : Identifier) :
    grammar.className (slashedName packages name) := by
  intro piece hpiece
  rw [slashedName, String.toList_ofList, splitOn_packageChars] at hpiece
  obtain ⟨i, -, rfl⟩ := List.mem_map.1 hpiece
  exact i.isIdentifier

private theorem exists_packageChars {pieces : List (List Char)} (hne : pieces ≠ [])
    (h : ∀ piece ∈ pieces, IsIdentifier piece) : ∃ packages, ∃ name : Identifier,
      packageChars packages ++ name.chars = ['/'].intercalate pieces := by
  induction pieces with
  | nil => exact absurd rfl hne
  | cons piece rest ih =>
    obtain ⟨hpiece, hrest⟩ := List.forall_mem_cons.1 h
    by_cases hlast : rest = []
    · exact ⟨[], ⟨piece, hpiece.nonempty, hpiece.free⟩, by simp [hlast, packageChars]⟩
    · obtain ⟨packages, name, hchars⟩ := ih hlast hrest
      refine ⟨⟨piece, hpiece.nonempty, hpiece.free⟩ :: packages, name, ?_⟩
      rw [List.intercalate_cons_of_ne_nil hlast, ← hchars]
      simp [packageChars]

private theorem exists_slashedName {name : String} (h : grammar.className name) :
    ∃ packages i, slashedName packages i = name := by
  obtain ⟨packages, i, hchars⟩ := exists_packageChars (List.splitOn_ne_nil '/' name.toList) h
  refine ⟨packages, i, ?_⟩
  rw [slashedName, hchars, List.intercalate_splitOn, String.ofList_toList]

theorem ReferenceSig.isReference_type (r : ReferenceSig) : r.type.IsReference := by
  rcases r with name | component | c <;> exact trivial

mutual

theorem FieldSig.obeys_type : ∀ s : FieldSig, s.type.Obeys grammar
  | .base _ h => h
  | .reference r => r.obeys_type

theorem ReferenceSig.obeys_type : ∀ r : ReferenceSig, r.type.Obeys grammar
  | .variable name => name.isIdentifier_text
  | .array component => component.obeys_type
  | .object c => c.obeys_type

theorem ClassSig.obeys_type : ∀ c : ClassSig, c.type.Obeys grammar
  | .outermost packages name [] => className_slashedName packages name
  | .outermost packages name (a :: rest) =>
    ⟨className_slashedName packages name, nofun, a.obeys_type, eachObeys_argumentTypes rest⟩
  | .inner enclosing name [] => ⟨enclosing.obeys_type, name.isIdentifier_text⟩
  | .inner enclosing name (a :: rest) =>
    ⟨enclosing.obeys_type, name.isIdentifier_text, nofun, a.obeys_type,
      eachObeys_argumentTypes rest⟩

theorem ArgumentSig.obeys_type : ∀ a : ArgumentSig, a.type.Obeys grammar
  | .any => trivial
  | .exactly r | .upTo r | .downTo r => ⟨r.isReference_type, r.obeys_type⟩

theorem eachObeys_argumentTypes : ∀ arguments : List ArgumentSig,
    EachObeys grammar (argumentTypes arguments)
  | [] => trivial
  | a :: rest => ⟨a.obeys_type, eachObeys_argumentTypes rest⟩

end

private theorem bracketed_eq_some {arguments : List ArgumentSig}
    (h : argumentTypes arguments ≠ []) : bracketed arguments = some (argumentTypes arguments) := by
  cases arguments with
  | nil => exact absurd rfl h
  | cons a rest => rfl

theorem exists_referenceSig {t : JavaType} (hr : t.IsReference)
    (h : ∃ s : FieldSig, s.type = t) : ∃ r : ReferenceSig, r.type = t := by
  obtain ⟨s, rfl⟩ := h
  cases s with
  | base p hp => exact hr.elim
  | reference r => exact ⟨r, rfl⟩

mutual

/-- A type that obeys the rules of the grammar is that of a derivation. -/
theorem JavaType.exists_fieldSig : ∀ t : JavaType, t.Obeys grammar → ∃ s : FieldSig, s.type = t
  | .primitive p, h => ⟨.base p h, rfl⟩
  | .variable name, h => by
    obtain ⟨i, rfl⟩ := IsIdentifier.exists_text h
    exact ⟨.reference (.variable i), rfl⟩
  | .array component, h => by
    obtain ⟨s, rfl⟩ := component.exists_fieldSig h
    exact ⟨.reference (.array s), rfl⟩
  | .object c, h => by
    obtain ⟨s, rfl⟩ := c.exists_classSig h
    exact ⟨.reference (.object s), rfl⟩

theorem ClassType.exists_classSig : ∀ c : ClassType, c.Obeys grammar → ∃ s : ClassSig, s.type = c
  | .outermost name none, h => by
    obtain ⟨packages, i, rfl⟩ := exists_slashedName h
    exact ⟨.outermost packages i [], rfl⟩
  | .outermost name (some arguments), ⟨hname, hne, hall⟩ => by
    obtain ⟨packages, i, rfl⟩ := exists_slashedName hname
    obtain ⟨sigs, rfl⟩ := exists_argumentSigs arguments hall
    exact ⟨.outermost packages i sigs, by rw [ClassSig.type, bracketed_eq_some hne]⟩
  | .inner enclosing name none, ⟨henclosing, hname⟩ => by
    obtain ⟨outer, rfl⟩ := enclosing.exists_classSig henclosing
    obtain ⟨i, rfl⟩ := hname.exists_text
    exact ⟨.inner outer i [], rfl⟩
  | .inner enclosing name (some arguments), ⟨henclosing, hname, hne, hall⟩ => by
    obtain ⟨outer, rfl⟩ := enclosing.exists_classSig henclosing
    obtain ⟨i, rfl⟩ := hname.exists_text
    obtain ⟨sigs, rfl⟩ := exists_argumentSigs arguments hall
    exact ⟨.inner outer i sigs, by rw [ClassSig.type, bracketed_eq_some hne]⟩

theorem TypeArgument.exists_argumentSig : ∀ a : TypeArgument, a.Obeys grammar →
    ∃ s : ArgumentSig, s.type = a
  | .any, _ => ⟨.any, rfl⟩
  | .exactly t, ⟨hr, h⟩ => by
    obtain ⟨r, rfl⟩ := exists_referenceSig hr (t.exists_fieldSig h)
    exact ⟨.exactly r, rfl⟩
  | .upTo t, ⟨hr, h⟩ => by
    obtain ⟨r, rfl⟩ := exists_referenceSig hr (t.exists_fieldSig h)
    exact ⟨.upTo r, rfl⟩
  | .downTo t, ⟨hr, h⟩ => by
    obtain ⟨r, rfl⟩ := exists_referenceSig hr (t.exists_fieldSig h)
    exact ⟨.downTo r, rfl⟩

theorem exists_argumentSigs : ∀ arguments : List TypeArgument, EachObeys grammar arguments →
    ∃ sigs : List ArgumentSig, argumentTypes sigs = arguments
  | [], _ => ⟨[], rfl⟩
  | a :: rest, ⟨ha, hrest⟩ => by
    obtain ⟨s, rfl⟩ := a.exists_argumentSig ha
    obtain ⟨sigs, rfl⟩ := exists_argumentSigs rest hrest
    exact ⟨s :: sigs, rfl⟩

end

theorem ResultSig.suits_type (s : ResultSig) : s.type.Suits grammar .result := by
  cases s with
  | void => exact .inl rfl
  | field s => exact .inr s.obeys_type

theorem ResultSig.chars_type (s : ResultSig) : s.type.chars = s.chars := by
  cases s with
  | void => rfl
  | field s => exact s.chars_type

theorem exists_resultSig {t : JavaType} (h : t.Suits grammar .result) :
    ∃ s : ResultSig, s.type = t := by
  rcases h with rfl | h
  · exact ⟨.void, rfl⟩
  · obtain ⟨s, rfl⟩ := t.exists_fieldSig h
    exact ⟨.field s, rfl⟩

section TypeParameters

structure TypeParameterForm where
  name : Identifier
  classBound : Option ReferenceSig
  interfaceBounds : List ReferenceSig

def markedChars (mark : Char) (references : List ReferenceSig) : List Char :=
  references.flatMap fun r => mark :: r.chars

def TypeParameterForm.chars (p : TypeParameterForm) : List Char :=
  p.name.chars ++ ':' :: (p.classBound.elim [] (·.chars) ++ markedChars ':' p.interfaceBounds)

def formChars : List TypeParameterForm → List Char
  | [] => []
  | p :: rest => '<' :: ((p :: rest).flatMap (·.chars) ++ ['>'])

def TypeParameterForm.type (p : TypeParameterForm) : TypeParameter :=
  ⟨p.name.text, p.classBound.map (·.type), p.interfaceBounds.map (·.type)⟩

def formTypes : List TypeParameterForm → Option (List TypeParameter)
  | [] => none
  | p :: rest => some ((p :: rest).map (·.type))

theorem charsBehindMarks_types (mark : Char) (references : List ReferenceSig) :
    charsBehindMarks mark (references.map (·.type)) = markedChars mark references := by
  simp only [charsBehindMarks, markedChars, List.flatMap_map, ReferenceSig.chars_type]

theorem TypeParameterForm.chars_type (p : TypeParameterForm) : p.type.chars = p.chars := by
  have hinterfaces := charsBehindMarks_types ':' p.interfaceBounds
  have hbound : (p.classBound.map (·.type)).elim [] (·.chars) =
      p.classBound.elim [] (·.chars) := by
    cases p.classBound with
    | none => rfl
    | some bound => exact bound.chars_type
  simp only [TypeParameterForm.type, TypeParameter.chars, TypeParameterForm.chars, hinterfaces,
    hbound, Identifier.text, String.toList_ofList]

theorem charsOfParameters_formTypes (ps : List TypeParameterForm) :
    charsOfParameters (formTypes ps) = formChars ps := by
  cases ps with
  | nil => rfl
  | cons p rest =>
    simp only [formTypes, charsOfParameters, formChars, List.flatMap_map,
      TypeParameterForm.chars_type]

theorem ReferenceSig.suits_grammar (r : ReferenceSig) : r.type.Suits grammar .reference :=
  ⟨r.isReference_type, r.obeys_type⟩

theorem TypeParameterForm.obeys_type (p : TypeParameterForm) : p.type.Obeys grammar where
  name := p.name.isIdentifier_text
  classBound t ht := by
    obtain ⟨r, -, rfl⟩ := Option.map_eq_some_iff.1 ht
    exact r.suits_grammar
  interfaceBounds t ht := by
    obtain ⟨r, -, rfl⟩ := List.mem_map.1 ht
    exact r.suits_grammar

theorem mem_formTypes {forms : List TypeParameterForm} {ps : List TypeParameter}
    (h : ps ∈ formTypes forms) : forms ≠ [] ∧ ps = forms.map (·.type) := by
  cases forms with
  | nil => cases h
  | cons p rest => exact ⟨nofun, (Option.some.inj h).symm⟩

end TypeParameters

private theorem isScanned_of_isIdentifier {name : String} {ends : List Char}
    (h : IsIdentifier name.toList) (hends : ∀ c ∈ ends, IsDelimiter c) : IsScanned ends name where
  ne_empty he := h.nonempty (by rw [he]; rfl)
  free c hc hend := h.free c hc (hends c hend)

theorem isScanned_slashedName (packages : List Identifier) (name : Identifier) :
    IsScanned ['<', ';', '.'] (slashedName packages name) where
  ne_empty h := by
    have hchars := congrArg String.toList h
    rw [slashedName, String.toList_ofList] at hchars
    exact name.nonempty (List.append_eq_nil_iff.1 hchars).2
  free c hc hend := by
    have hends : ∀ c ∈ ['<', ';', '.'], IsDelimiter c ∧ c ≠ '/' := by simp [IsDelimiter]
    obtain ⟨hdelimiter, hslash⟩ := hends c hend
    rw [slashedName, String.toList_ofList, List.mem_append] at hc
    rcases hc with hc | hc
    · obtain ⟨i, -, hi⟩ := List.mem_flatMap.1 hc
      rcases List.mem_append.1 hi with hi | hi
      · exact i.free c hi hdelimiter
      · exact hslash (List.mem_singleton.1 hi)
    · exact name.free c hc hdelimiter

theorem grammar_within_scanned : grammar.Within scanned where
  className name h := by
    obtain ⟨packages, i, rfl⟩ := exists_slashedName h
    exact isScanned_slashedName packages i
  innerName name h := isScanned_of_isIdentifier h (by simp [IsDelimiter])
  variableName name h := isScanned_of_isIdentifier h (by simp [IsDelimiter])
  parameterName name h := by
    refine ⟨isScanned_of_isIdentifier h (by simp [IsDelimiter]), fun hhead => ?_⟩
    exact h.free '>' (List.mem_of_head? hhead) (by decide)
  emptyBrackets h := h.elim
  thrown _ _ := trivial

end JvmRoutes.Signature
