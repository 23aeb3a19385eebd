import JvmRoutes.Proofs.Signature.Parsing

/-!
The reading of the types of methods, and their derivations. The reader of methods hands each type to
the reader of types, so that what that one reads is read here as well.
-/
namespace JvmRoutes.Signature

/-- A type parameter with a bound that is a class, one that is an interface, or both. -/
inductive TypeParameterSig
  | ofClass (name : Identifier) (bound : ReferenceSig) (interfaces : List ReferenceSig)
  | ofInterfaces (name : Identifier) (first : ReferenceSig) (rest : List ReferenceSig)

/-- The type of a method. Without type parameters it has no angle brackets. -/
structure MethodSig where
  typeParameters : List TypeParameterSig
  parameters : List FieldSig
  result : ResultSig
  thrown : List ReferenceSig

/-- What is known of the type of a method without its bounds and thrown types. -/
structure MethodTree where
  typeParameters : List String
  parameters : List TypeTree
  result : TypeTree
  deriving Repr

def MethodSignature.tree (m : MethodSignature) : MethodTree :=
  ⟨m.typeParameterNames, m.parameters.map (·.tree), m.result.tree⟩

section Texts

def TypeParameterSig.chars : TypeParameterSig → List Char
  | .ofClass name bound interfaces =>
    name.chars ++ ':' :: (bound.chars ++ markedChars ':' interfaces)
  | .ofInterfaces name first rest => name.chars ++ ':' :: markedChars ':' (first :: rest)

def typeParameterChars : List TypeParameterSig → List Char
  | [] => []
  | p :: rest => '<' :: ((p :: rest).flatMap (·.chars) ++ ['>'])

def MethodSig.chars (s : MethodSig) : List Char :=
  typeParameterChars s.typeParameters ++
    '(' :: (s.parameters.flatMap (·.chars) ++
      ')' :: (s.result.chars ++ markedChars '^' s.thrown))

def MethodSig.text (s : MethodSig) : String := String.ofList s.chars

end Texts

section Trees

def TypeParameterSig.name : TypeParameterSig → String
  | .ofClass name _ _ | .ofInterfaces name _ _ => name.text

def MethodSig.tree (s : MethodSig) : MethodTree :=
  ⟨s.typeParameters.map (·.name), s.parameters.map (·.tree), s.result.tree⟩

end Trees

section Types

def TypeParameterSig.type : TypeParameterSig → TypeParameter
  | .ofClass name bound interfaces => ⟨name.text, some bound.type, interfaces.map (·.type)⟩
  | .ofInterfaces name first rest => ⟨name.text, none, (first :: rest).map (·.type)⟩

def typeParameterTypes : List TypeParameterSig → Option (List TypeParameter)
  | [] => none
  | p :: rest => some ((p :: rest).map (·.type))

def MethodSig.type (s : MethodSig) : MethodSignature where
  typeParameters := typeParameterTypes s.typeParameters
  parameters := s.parameters.map (·.type)
  result := s.result.type
  thrown := s.thrown.map (·.type)

theorem TypeParameterSig.name_type (p : TypeParameterSig) : p.type.name = p.name := by
  cases p <;> rfl

theorem MethodSig.tree_type (s : MethodSig) : s.type.tree = s.tree := by
  have hnames : s.type.typeParameterNames = s.typeParameters.map (·.name) := by
    show ((typeParameterTypes s.typeParameters).getD []).map (·.name) = _
    cases s.typeParameters with
    | nil => rfl
    | cons p rest => simp [typeParameterTypes, TypeParameterSig.name_type]
  have hparameters : s.type.parameters.map (·.tree) = s.parameters.map (·.tree) := by
    show (s.parameters.map (·.type)).map (·.tree) = _
    simp [FieldSig.tree_type]
  have hresult : s.type.result.tree = s.result.tree := s.result.tree_type
  rw [MethodSignature.tree, MethodSig.tree, hnames, hparameters, hresult]

end Types

section Rules

/-- A type parameter with a bound, among those that need none. -/
def TypeParameterSig.form : TypeParameterSig → TypeParameterForm
  | .ofClass name bound interfaces => ⟨name, some bound, interfaces⟩
  | .ofInterfaces name first rest => ⟨name, none, first :: rest⟩

theorem TypeParameterSig.type_form (p : TypeParameterSig) : p.form.type = p.type := by
  cases p <;> rfl

theorem TypeParameterSig.chars_form (p : TypeParameterSig) : p.form.chars = p.chars := by
  cases p <;> rfl

private theorem formTypes_forms (ps : List TypeParameterSig) :
    formTypes (ps.map (·.form)) = typeParameterTypes ps := by
  cases ps with
  | nil => rfl
  | cons p rest =>
    simp [formTypes, typeParameterTypes, TypeParameterSig.type_form]

private theorem charsOfParameters_types (ps : List TypeParameterSig) :
    charsOfParameters (typeParameterTypes ps) = typeParameterChars ps := by
  rw [← formTypes_forms, charsOfParameters_formTypes]
  cases ps with
  | nil => rfl
  | cons p rest =>
    simp [formChars, typeParameterChars, List.flatMap_map, TypeParameterSig.chars_form]

theorem MethodSig.chars_type (s : MethodSig) : s.type.chars = s.chars := by
  have hthrown := charsBehindMarks_types '^' s.thrown
  simp only [MethodSig.type, MethodSignature.chars, MethodSig.chars, charsOfParameters_types,
    List.flatMap_map, FieldSig.chars_type, ResultSig.chars_type, hthrown]

theorem MethodSig.text_type (s : MethodSig) : s.type.text = s.text := by
  rw [MethodSignature.text, s.chars_type, MethodSig.text]

theorem ReferenceSig.suits_type (r : ReferenceSig) : r.type.Suits scanned .reference :=
  r.suits_grammar.mono grammar_within_scanned

theorem TypeParameterSig.obeys_type (p : TypeParameterSig) : p.type.Obeys scanned := by
  rw [← p.type_form]
  exact p.form.obeys_type.mono grammar_within_scanned

theorem TypeParameterSig.isBounded_type (p : TypeParameterSig) : p.type.IsBounded := by
  cases p with
  | ofClass name bound interfaces => exact .inl nofun
  | ofInterfaces name first rest => exact .inr nofun

theorem MethodSig.obeys_type (s : MethodSig) : s.type.Obeys scanned where
  typeParameters ps hps := by
    have hall : ∀ p ∈ ps, p.Obeys scanned ∧ p.IsBounded := by
      intro p hp
      have hforms : ps ∈ formTypes (s.typeParameters.map (·.form)) := by
        rw [formTypes_forms]
        exact hps
      obtain ⟨-, rfl⟩ := mem_formTypes hforms
      simp only [List.map_map, List.mem_map, Function.comp_apply,
        TypeParameterSig.type_form] at hp
      obtain ⟨sig, -, rfl⟩ := hp
      exact ⟨sig.obeys_type, sig.isBounded_type⟩
    exact ⟨fun _ => trivial, fun p hp => (hall p hp).1,
      fun p hp => (hall p ((List.dropLast_sublist ps).subset hp)).2⟩
  parameters t ht := by
    obtain ⟨sig, -, rfl⟩ := List.mem_map.1 ht
    exact JavaType.Obeys.mono grammar_within_scanned sig.type sig.obeys_type
  result := s.result.suits_type.mono grammar_within_scanned
  thrown t ht := by
    obtain ⟨r, -, rfl⟩ := List.mem_map.1 ht
    exact ⟨trivial, r.suits_type⟩

end Rules

section Reading

variable {reading : OpenType → OpenMethod} {complete : JavaType → OpenMethod}

/-- The place of a type is read as the type is. -/
def ReadsInside (reading : OpenType → OpenMethod) (complete : JavaType → OpenMethod) : Prop :=
  ∀ s c, methodReader.step (reading s) c = (s.step c).map (OpenMethod.place reading complete)

theorem ReadsInside.runs (h : ReadsInside reading complete) {p q : TypeProgress} {cs : List Char}
    (hr : typeReader.Runs p cs q) :
    methodReader.Runs (OpenMethod.place reading complete p) cs
      (OpenMethod.place reading complete q) := by
  induction hr with
  | nil => exact .nil _
  | @cons p next q c cs hstep _ ih =>
    cases p with
    | complete t => contradiction
    | reading s =>
      have hs : s.step c = .ok next := hstep
      have hplace : methodReader.step (reading s) c =
          .ok (OpenMethod.place reading complete next) := by
        rw [h s c, hs]
        rfl
      exact .cons hplace ih

/-- A state that takes a first character as the place of a type does goes on as that place. -/
theorem Reader.Runs.of_step_eq {σ α : Type} {r : Reader σ α} {s s' t : σ} {c : Char}
    {cs : List Char} (h : r.Runs s (c :: cs) t) (he : r.step s' c = r.step s c) :
    r.Runs s' (c :: cs) t := by
  cases h with
  | cons hc hs => exact .cons (he.trans hc) hs

theorem JavaType.exists_chars (t : JavaType) : ∃ c cs, t.chars = c :: cs ∧ c ≠ ')' := by
  rcases t with p | name | component | c
  · refine ⟨p.letter, [], rfl, ?_⟩
    cases p <;> decide
  · exact ⟨'T', _, rfl, by decide⟩
  · exact ⟨'[', _, rfl, by decide⟩
  · exact ⟨'L', _, rfl, by decide⟩

variable {t : JavaType}

theorem JavaType.Suits.runs_inside (ht : t.Suits scanned .reference)
    (h : ReadsInside reading complete) :
    methodReader.Runs (reading ⟨[], .referenceStart⟩) t.chars (complete t) :=
  h.runs (t.runs ht.2 (awaits_referenceStart ht.1 []))

theorem readsInside_classBound (before : List TypeParameter) (name : String) :
    ReadsInside (.classBound before name)
      fun t => .boundEnd before { name, classBound := some t } := fun _ _ => rfl

theorem readsInside_interfaceBound (before : List TypeParameter) (p : TypeParameter) :
    ReadsInside (.interfaceBound before p)
      fun t => .boundEnd before { p with interfaceBounds := p.interfaceBounds ++ [t] } :=
  fun _ _ => rfl

theorem readsInside_parameter (typeParameters : Option (List TypeParameter))
    (before : List JavaType) :
    ReadsInside (.parameter typeParameters before)
      fun t => .parameterStart typeParameters (before ++ [t]) := fun _ _ => rfl

theorem readsInside_result (typeParameters : Option (List TypeParameter))
    (parameters : List JavaType) :
    ReadsInside (.result typeParameters parameters)
      fun t => .complete { typeParameters, parameters, result := t } := fun _ _ => rfl

theorem readsInside_thrown (m : MethodSignature) :
    ReadsInside (.thrown m) fun t => .complete { m with thrown := m.thrown ++ [t] } :=
  fun _ _ => rfl

/-- References with a mark in front of each are read one behind the other. -/
theorem marked_run {mark : Char} (state : List JavaType → OpenMethod)
    {reading : List JavaType → OpenType → OpenMethod}
    (hmark : ∀ before,
      methodReader.step (state before) mark = .ok (reading before ⟨[], .referenceStart⟩))
    (hreads : ∀ before, ReadsInside (reading before) fun t => state (before ++ [t]))
    {types : List JavaType} (h : ∀ t ∈ types, t.Suits scanned .reference)
    (before : List JavaType) :
    methodReader.Runs (state before) (charsBehindMarks mark types) (state (before ++ types)) := by
  induction types generalizing before with
  | nil =>
    rw [List.append_nil]
    exact .nil _
  | cons t rest ih =>
    obtain ⟨ht, hrest⟩ := List.forall_mem_cons.1 h
    have hruns := ht.runs_inside (hreads before)
    have hmarked := ih hrest (before ++ [t])
    rw [List.append_assoc, List.singleton_append] at hmarked
    exact .cons (hmark before) (hruns.append hmarked)

theorem interfaces_run {types : List JavaType} (h : ∀ t ∈ types, t.Suits scanned .reference)
    (before : List TypeParameter) (p : TypeParameter) :
    methodReader.Runs (.boundEnd before p) (charsBehindMarks ':' types)
      (.boundEnd before { p with interfaceBounds := p.interfaceBounds ++ types }) :=
  marked_run (fun bounds => .boundEnd before { p with interfaceBounds := bounds })
    (fun _ => rfl)
    (fun bounds => readsInside_interfaceBound before { p with interfaceBounds := bounds })
    h p.interfaceBounds

theorem thrown_run {types : List JavaType} (h : ∀ t ∈ types, t.Suits scanned .reference)
    (m : MethodSignature) :
    methodReader.Runs (.complete m) (charsBehindMarks '^' types)
      (.complete { m with thrown := m.thrown ++ types }) :=
  marked_run (fun thrown => .complete { m with thrown })
    (fun _ => rfl) (fun thrown => readsInside_thrown { m with thrown }) h m.thrown

theorem classBound_run (ht : t.Suits scanned .reference) (before : List TypeParameter)
    (name : String) :
    methodReader.Runs (.boundStart before name) t.chars
      (.boundEnd before { name, classBound := some t }) := by
  have hruns := ht.runs_inside (readsInside_classBound before name)
  obtain ⟨c, cs, hcs, hc⟩ := ht.1.exists_chars
  rw [hcs] at hruns ⊢
  refine hruns.of_step_eq ?_
  rcases hc with rfl | rfl | rfl <;> rfl

/-- Behind its first character, a name goes on up to the colon. -/
theorem runs_typeParameterName (before : List TypeParameter) {cs : List Char}
    (h : ∀ c ∈ cs, c ≠ ':') {name : String} (hn : name ≠ "") :
    methodReader.Runs (.typeParameter before name) cs
      (.typeParameter before (name ++ String.ofList cs)) := by
  induction cs generalizing name with
  | nil =>
    rw [String.ofList_nil, String.append_empty]
    exact .nil _
  | cons c rest ih =>
    obtain ⟨hc, hrest⟩ := List.forall_mem_cons.1 h
    have hstep : methodReader.step (.typeParameter before name) c =
        .ok (.typeParameter before (name.push c)) := by
      simp [methodReader, OpenMethod.step, hc, hn]
    rw [← ofList_cons_append]
    exact .cons hstep (ih hrest (push_ne_empty name c))

/-- Behind the opening bracket and behind each type parameter, another one or the closing bracket
can come. -/
structure AwaitsTypeParameter (m : OpenMethod) (before : List TypeParameter) : Prop where
  name : ∀ c, c ≠ ':' → c ≠ '>' →
    methodReader.step m c = .ok (.typeParameter before (String.singleton c))
  bracket : methodReader.step m '>' = .ok (.listStart (some before))

private theorem awaitsTypeParameter_typeParameter :
    AwaitsTypeParameter (.typeParameter [] "") [] where
  name c hcolon hbracket := by simp [methodReader, OpenMethod.step, hcolon, hbracket]
  bracket := rfl

private theorem awaitsTypeParameter_boundEnd (before : List TypeParameter) (p : TypeParameter) :
    AwaitsTypeParameter (.boundEnd before p) (before ++ [p]) where
  name c hcolon hbracket := by simp [methodReader, OpenMethod.step, hcolon, hbracket]
  bracket := rfl

variable {m : OpenMethod} {before : List TypeParameter} {p : TypeParameter}

theorem AwaitsTypeParameter.name_run (h : AwaitsTypeParameter m before) {name : String}
    (hname : scanned.parameterName name) :
    methodReader.Runs m (name.toList ++ [':']) (.boundStart before name) := by
  obtain ⟨⟨hne, hfree⟩, hhead⟩ := hname
  have hcolon : methodReader.step (.typeParameter before name) ':' =
      .ok (.boundStart before name) := by
    simp [methodReader, OpenMethod.step, hne]
  refine Reader.Runs.snoc ?_ hcolon
  cases hchars : name.toList with
  | nil => exact absurd (String.toList_eq_nil_iff.1 hchars) hne
  | cons c rest =>
    have hall : ∀ d ∈ c :: rest, d ≠ ':' := by
      intro d hd he
      exact hfree d (hchars ▸ hd) (List.mem_singleton.2 he)
    obtain ⟨hc, hrest⟩ := List.forall_mem_cons.1 hall
    have hbracket : c ≠ '>' := by
      rintro rfl
      exact hhead (by rw [hchars]; rfl)
    have hsingle : String.singleton c ≠ "" := by simp
    have hruns := runs_typeParameterName before hrest hsingle
    have htext : String.singleton c ++ String.ofList rest = name := by
      apply String.toList_inj.1
      simp [hchars]
    rw [htext] at hruns
    exact .cons (h.name c hc hbracket) hruns

theorem TypeParameter.Obeys.runs (hp : p.Obeys scanned) (hb : p.IsBounded)
    (h : AwaitsTypeParameter m before) : methodReader.Runs m p.chars (.boundEnd before p) := by
  obtain ⟨name, classBound, interfaceBounds⟩ := p
  have hname := h.name_run hp.name
  have hruns : ∃ q, methodReader.Runs (.boundStart before name)
      (classBound.elim [] (·.chars) ++ charsBehindMarks ':' interfaceBounds) q ∧
        q = .boundEnd before ⟨name, classBound, interfaceBounds⟩ := by
    match classBound, interfaceBounds, hp, hb with
    | some bound, interfaces, hp, _ =>
      have hbound := classBound_run (hp.classBound bound rfl) before name
      have hrest := interfaces_run hp.interfaceBounds before { name, classBound := some bound }
      exact ⟨_, hbound.append hrest, rfl⟩
    | none, first :: rest, hp, _ =>
      obtain ⟨hfirst, hrest⟩ := List.forall_mem_cons.1 hp.interfaceBounds
      have hbound := hfirst.runs_inside (readsInside_interfaceBound before { name })
      have hinterfaces := interfaces_run hrest before { name, interfaceBounds := [first] }
      exact ⟨_, .cons rfl (hbound.append hinterfaces), rfl⟩
    | none, [], _, hb => exact absurd hb (by simp [TypeParameter.IsBounded])
  obtain ⟨_, hbounds, rfl⟩ := hruns
  have happend := hname.append hbounds
  rw [List.append_assoc] at happend
  exact happend

/-- The last type parameter, also without a bound. -/
theorem TypeParameter.Obeys.last_run (hp : p.Obeys scanned) (h : AwaitsTypeParameter m before) :
    methodReader.Runs m (p.chars ++ ['>']) (.listStart (some (before ++ [p]))) := by
  by_cases hb : p.IsBounded
  · exact (hp.runs hb h).snoc rfl
  · obtain ⟨name, classBound, interfaceBounds⟩ := p
    obtain ⟨rfl, rfl⟩ : classBound = none ∧ interfaceBounds = [] := by
      simpa [TypeParameter.IsBounded] using hb
    exact (h.name_run hp.name).snoc rfl

theorem typeParameters_run {ps : List TypeParameter} (hall : ∀ p ∈ ps, p.Obeys scanned)
    (hb : ∀ p ∈ ps.dropLast, p.IsBounded) (h : AwaitsTypeParameter m before) :
    methodReader.Runs m (ps.flatMap (·.chars) ++ ['>']) (.listStart (some (before ++ ps))) := by
  induction ps generalizing m before with
  | nil =>
    rw [List.append_nil]
    exact .cons h.bracket (.nil _)
  | cons p rest ih =>
    obtain ⟨hp, hrest⟩ := List.forall_mem_cons.1 hall
    rw [List.flatMap_cons, List.append_assoc]
    by_cases hlast : rest = []
    · rw [hlast, List.flatMap_nil, List.nil_append]
      exact hp.last_run h
    · rw [List.dropLast_cons_of_ne_nil hlast] at hb
      obtain ⟨hpb, hrestb⟩ := List.forall_mem_cons.1 hb
      have hruns := ih hrest hrestb (awaitsTypeParameter_boundEnd before p)
      rw [List.append_assoc, List.singleton_append] at hruns
      exact (hp.runs hpb h).append hruns

theorem charsOfParameters_run {typeParameters : Option (List TypeParameter)}
    (h : ∀ ps ∈ typeParameters, ParametersObey scanned ps) :
    methodReader.Runs methodReader.start (charsOfParameters typeParameters ++ ['('])
      (.parameterStart typeParameters []) := by
  cases typeParameters with
  | none => exact .cons rfl (.nil _)
  | some ps =>
    have hps := h ps rfl
    have hlist := typeParameters_run hps.each hps.bounded awaitsTypeParameter_typeParameter
    exact .cons rfl (hlist.snoc rfl)

theorem JavaType.parameter_run (ht : t.Obeys scanned)
    (typeParameters : Option (List TypeParameter)) (before : List JavaType) :
    methodReader.Runs (.parameterStart typeParameters before) t.chars
      (.parameterStart typeParameters (before ++ [t])) := by
  have hruns := (readsInside_parameter typeParameters before).runs
    (t.runs ht (awaits_typeStart ht [] false))
  obtain ⟨c, cs, hcs, hc⟩ := t.exists_chars
  rw [hcs] at hruns ⊢
  refine hruns.of_step_eq ?_
  show (if c = ')' then _ else _) = _
  rw [if_neg hc]
  rfl

theorem parameters_run {parameters : List JavaType} (h : ∀ t ∈ parameters, t.Suits scanned .field)
    (typeParameters : Option (List TypeParameter)) (before : List JavaType) :
    methodReader.Runs (.parameterStart typeParameters before) (parameters.flatMap (·.chars))
      (.parameterStart typeParameters (before ++ parameters)) := by
  induction parameters generalizing before with
  | nil =>
    rw [List.append_nil]
    exact .nil _
  | cons t rest ih =>
    obtain ⟨ht, hrest⟩ := List.forall_mem_cons.1 h
    have hruns := ih hrest (before ++ [t])
    rw [List.append_assoc, List.singleton_append] at hruns
    exact (JavaType.parameter_run ht typeParameters before).append hruns

theorem MethodSignature.Obeys.runs {type : MethodSignature} (h : type.Obeys scanned) :
    methodReader.Runs methodReader.start type.chars (.complete type) := by
  obtain ⟨typeParameters, parameters, result, thrown⟩ := type
  have hlist := charsOfParameters_run h.typeParameters
  have hparameters := parameters_run h.parameters typeParameters []
  have hclose : methodReader.step (.parameterStart typeParameters parameters) ')' =
      .ok (.result typeParameters parameters ⟨[], .typeStart true⟩) := rfl
  have hresult := (readsInside_result typeParameters parameters).runs h.result.runs
  have hthrown := thrown_run (fun t ht => (h.thrown t ht).2)
    { typeParameters, parameters, result }
  have hruns := hlist.append (hparameters.append (.cons hclose (hresult.append hthrown)))
  rw [List.append_assoc, List.singleton_append] at hruns
  exact hruns

end Reading

/-- The text of the type of a method that obeys the rules of the reader has this type. -/
theorem MethodSignature.Obeys.parse_text {type : MethodSignature} (h : type.Obeys scanned) :
    MethodSignature.parse type.text = .ok type := h.runs.read_eq rfl

/-- The text of a derivation has the type of the derivation. -/
theorem parse_methodText (s : MethodSig) : MethodSignature.parse s.text = .ok s.type := by
  rw [← s.text_type]
  exact s.obeys_type.parse_text

theorem MethodSig.text_ne_empty (s : MethodSig) : s.text ≠ "" := by
  intro h
  have hparse := parse_methodText s
  rw [h] at hparse
  cases hparse

theorem preferred_of_ne_empty (descriptor : String) {signature : String} (h : signature ≠ "") :
    preferred descriptor (some signature) = signature := by
  unfold preferred
  split
  · contradiction
  · rename_i he
    exact absurd (Option.some.inj he) h
  · rename_i found _ he
    exact (Option.some.inj he).symm

/-- The text of a derivation is read as the names of its type parameters, the trees of its
parameters and the tree of its result. This is so for the text as a descriptor without a signature
and as a signature to any descriptor. -/
theorem parse_methodDerivation (s : MethodSig) (descriptor : String) :
    (MethodSignature.parse (preferred s.text none)).map (·.tree) = .ok s.tree ∧
      (MethodSignature.parse (preferred descriptor (some s.text))).map (·.tree) = .ok s.tree := by
  have hparse : (MethodSignature.parse s.text).map (·.tree) = .ok s.tree := by
    rw [parse_methodText, ← s.tree_type]
    rfl
  refine ⟨hparse, ?_⟩
  rw [preferred_of_ne_empty descriptor s.text_ne_empty]
  exact hparse

end JvmRoutes.Signature
