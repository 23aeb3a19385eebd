import JvmRoutes.Proofs.Signature.Acceptance
import JvmRoutes.Proofs.Signature.MethodParsing

/-!
What the reader of the types of methods accepts, and what of it the grammar has. The two differ in
the names they allow, in empty angle brackets and in the types that can be thrown.
-/
namespace JvmRoutes.Signature

section States

def OpenMethod.chars : OpenMethod → List Char
  | .start => []
  | .typeParameter before name => '<' :: (before.flatMap (·.chars) ++ name.toList)
  | .boundStart before name => '<' :: (before.flatMap (·.chars) ++ ({ name } : TypeParameter).chars)
  | .classBound before name s =>
    '<' :: (before.flatMap (·.chars) ++ (({ name } : TypeParameter).chars ++ s.chars))
  | .interfaceBound before p s =>
    '<' :: (before.flatMap (·.chars) ++ (p.chars ++ ':' :: s.chars))
  | .boundEnd before p => '<' :: (before.flatMap (·.chars) ++ p.chars)
  | .listStart typeParameters => charsOfParameters typeParameters
  | .parameterStart typeParameters before =>
    charsOfParameters typeParameters ++ '(' :: before.flatMap (·.chars)
  | .parameter typeParameters before s =>
    charsOfParameters typeParameters ++ '(' :: (before.flatMap (·.chars) ++ s.chars)
  | .result typeParameters parameters s =>
    charsOfParameters typeParameters ++ '(' :: (parameters.flatMap (·.chars) ++ ')' :: s.chars)
  | .complete m => m.chars
  | .thrown m s => m.chars ++ '^' :: s.chars

/-- Type parameters that others can follow. -/
def AllBounded (ps : List TypeParameter) : Prop := ∀ p ∈ ps, p.Obeys scanned ∧ p.IsBounded

def ListObeys (typeParameters : Option (List TypeParameter)) : Prop :=
  ∀ ps ∈ typeParameters, ParametersObey scanned ps

def AllFields (parameters : List JavaType) : Prop := ∀ t ∈ parameters, t.Suits scanned .field

/-- As far as it has been read, the type of a method obeys the rules of the reader. -/
def OpenMethod.Obeys : OpenMethod → Prop
  | .start => True
  | .typeParameter before name =>
    AllBounded before ∧ (∀ c ∈ name.toList, c ∉ [':']) ∧ name.toList.head? ≠ some '>'
  | .boundStart before name => AllBounded before ∧ scanned.parameterName name
  | .classBound before name s =>
    AllBounded before ∧ scanned.parameterName name ∧ s.Obeys .reference
  | .interfaceBound before p s => AllBounded before ∧ p.Obeys scanned ∧ s.Obeys .reference
  | .boundEnd before p => AllBounded before ∧ p.Obeys scanned ∧ p.IsBounded
  | .listStart typeParameters => ListObeys typeParameters
  | .parameterStart typeParameters before => ListObeys typeParameters ∧ AllFields before
  | .parameter typeParameters before s =>
    ListObeys typeParameters ∧ AllFields before ∧ s.Obeys .field
  | .result typeParameters parameters s =>
    ListObeys typeParameters ∧ AllFields parameters ∧ s.Obeys .result
  | .complete m => m.Obeys scanned
  | .thrown m s => m.Obeys scanned ∧ s.Obeys .reference

/-- What has been read is some characters, and obeys the rules of the reader. -/
structure MethodStands (cs : List Char) (m : OpenMethod) : Prop where
  chars : m.chars = cs
  obeys : m.Obeys

end States

section Places

variable {reading : OpenType → OpenMethod} {complete : JavaType → OpenMethod} {place : Place}
  {front : List Char}

/-- Behind some characters, the reader reads a type for a place. -/
structure PutsIn (place : Place) (front : List Char) (reading : OpenType → OpenMethod)
    (complete : JavaType → OpenMethod) : Prop where
  reading : ∀ s, s.Obeys place → MethodStands (front ++ s.chars) (reading s)
  complete : ∀ t, t.Suits scanned place → MethodStands (front ++ t.chars) (complete t)

theorem PutsIn.stands (h : PutsIn place front reading complete) {cs : List Char}
    {x : Except Reason TypeProgress} {next : OpenMethod}
    (hx : ∀ p, x = .ok p → Stands place cs p)
    (hnext : x.map (OpenMethod.place reading complete) = .ok next) :
    MethodStands (front ++ cs) next := by
  cases x with
  | error reason => cases hnext
  | ok p =>
    obtain rfl := Except.ok.inj hnext
    obtain ⟨rfl, hobeys⟩ := hx p rfl
    cases p with
    | reading s => exact h.reading s hobeys
    | complete t => exact h.complete t hobeys

theorem PutsIn.stands_start (h : PutsIn .reference front reading complete) :
    MethodStands front (reading ⟨[], .referenceStart⟩) := by
  have hstart := h.reading ⟨[], .referenceStart⟩ ⟨List.forall_mem_nil _, trivial⟩
  exact ⟨hstart.chars.trans (List.append_nil front), hstart.obeys⟩

theorem PutsIn.stands_step (h : PutsIn place front reading complete) {s : OpenType}
    (hs : s.Obeys place) {c : Char} {next : OpenMethod}
    (hnext : (s.step c).map (OpenMethod.place reading complete) = .ok next) :
    MethodStands ((reading s).chars ++ [c]) next := by
  rw [(h.reading s hs).chars, List.append_assoc]
  exact h.stands (fun p hp => hs.stands_step hp) hnext

variable {before : List TypeParameter} {name : String} {p : TypeParameter}
  {typeParameters : Option (List TypeParameter)} {parameters : List JavaType} {m : MethodSignature}

private theorem chars_withBound (p : TypeParameter) (t : JavaType) :
    ({ p with interfaceBounds := p.interfaceBounds ++ [t] } : TypeParameter).chars =
      p.chars ++ ':' :: t.chars := by
  simp [TypeParameter.chars, charsBehindMarks]

private theorem chars_withThrown (m : MethodSignature) (t : JavaType) :
    ({ m with thrown := m.thrown ++ [t] } : MethodSignature).chars = m.chars ++ '^' :: t.chars := by
  simp [MethodSignature.chars, charsBehindMarks]

theorem putsIn_classBound (hb : AllBounded before) (hn : scanned.parameterName name) :
    PutsIn .reference ('<' :: (before.flatMap (·.chars) ++ ({ name } : TypeParameter).chars))
      (.classBound before name) fun t => .boundEnd before { name, classBound := some t } where
  reading s hs := ⟨by simp [OpenMethod.chars], hb, hn, hs⟩
  complete t ht := by
    refine ⟨by simp [OpenMethod.chars, TypeParameter.chars, charsBehindMarks], hb, ⟨hn, ?_, nofun⟩,
      .inl nofun⟩
    intro bound hbound
    obtain rfl := Option.some.inj hbound
    exact ht

theorem putsIn_interfaceBound (hb : AllBounded before) (hp : p.Obeys scanned) :
    PutsIn .reference ('<' :: (before.flatMap (·.chars) ++ (p.chars ++ [':'])))
      (.interfaceBound before p)
      fun t => .boundEnd before { p with interfaceBounds := p.interfaceBounds ++ [t] } where
  reading s hs := ⟨by simp [OpenMethod.chars], hb, hp, hs⟩
  complete t ht := by
    refine ⟨by simp [OpenMethod.chars, chars_withBound], hb,
      ⟨hp.name, hp.classBound, List.forall_mem_append.2 ⟨hp.interfaceBounds, by simpa using ht⟩⟩,
      .inr (by simp)⟩

theorem putsIn_parameter (hl : ListObeys typeParameters) (hp : AllFields parameters) :
    PutsIn .field (charsOfParameters typeParameters ++ '(' :: parameters.flatMap (·.chars))
      (.parameter typeParameters parameters)
      fun t => .parameterStart typeParameters (parameters ++ [t]) where
  reading s hs := ⟨by simp [OpenMethod.chars], hl, hp, hs⟩
  complete t ht :=
    ⟨by simp [OpenMethod.chars], hl, List.forall_mem_append.2 ⟨hp, by simpa using ht⟩⟩

theorem putsIn_result (hl : ListObeys typeParameters) (hp : AllFields parameters) :
    PutsIn .result
      (charsOfParameters typeParameters ++ '(' :: (parameters.flatMap (·.chars) ++ [')']))
      (.result typeParameters parameters)
      fun t => .complete { typeParameters, parameters, result := t } where
  reading s hs := ⟨by simp [OpenMethod.chars], hl, hp, hs⟩
  complete t ht :=
    ⟨by simp [OpenMethod.chars, MethodSignature.chars, charsBehindMarks], hl, hp, ht, nofun⟩

theorem putsIn_thrown (hm : m.Obeys scanned) :
    PutsIn .reference (m.chars ++ ['^']) (.thrown m)
      fun t => .complete { m with thrown := m.thrown ++ [t] } where
  reading s hs := ⟨by simp [OpenMethod.chars], hm, hs⟩
  complete t ht := by
    refine ⟨by simp [OpenMethod.chars, chars_withThrown], hm.typeParameters, hm.parameters,
      hm.result, List.forall_mem_append.2 ⟨hm.thrown, ?_⟩⟩
    intro thrown hthrown
    obtain rfl := List.mem_singleton.1 hthrown
    exact ⟨trivial, ht⟩

end Places

section Steps

variable {c : Char} {next : OpenMethod} {before : List TypeParameter} {p : TypeParameter}
  {name : String}

private theorem listObeys_none : ListObeys none := by
  intro ps hps
  cases hps

private theorem parametersObey_of_allBounded (hb : AllBounded before) :
    ParametersObey scanned before where
  nonempty _ := trivial
  each p hp := (hb p hp).1
  bounded p hp := (hb p ((List.dropLast_sublist before).subset hp)).2

theorem parametersObey_concat (hb : AllBounded before) (hp : p.Obeys scanned) :
    ParametersObey scanned (before ++ [p]) where
  nonempty _ := trivial
  each q hq := by
    rcases List.mem_append.1 hq with hq | hq
    · exact (hb q hq).1
    · exact List.mem_singleton.1 hq ▸ hp
  bounded q hq := by
    rw [List.dropLast_concat] at hq
    exact (hb q hq).2

private theorem listObeys_some {ps : List TypeParameter} (h : ParametersObey scanned ps) :
    ListObeys (some ps) := by
  intro ps' hps
  obtain rfl := Option.some.inj hps
  exact h

private theorem obeys_of_name (hn : scanned.parameterName name) :
    ({ name } : TypeParameter).Obeys scanned := ⟨hn, nofun, nofun⟩

theorem stands_typeParameter (hb : AllBounded before)
    (hfree : ∀ ch ∈ name.toList, ch ∉ [':']) (hhead : name.toList.head? ≠ some '>')
    (h : (OpenMethod.typeParameter before name).step c = .ok next) :
    MethodStands ((OpenMethod.typeParameter before name).chars ++ [c]) next := by
  simp only [OpenMethod.step] at h
  split at h
  · rename_i hc
    split at h
    · cases h
    · rename_i hn
      obtain rfl := Except.ok.inj h
      rw [hc]
      exact ⟨by simp [OpenMethod.chars, TypeParameter.chars, charsBehindMarks], hb,
        ⟨hn, hfree⟩, hhead⟩
  rename_i hcolon
  split at h
  · rename_i hbracket
    simp only [Bool.and_eq_true, decide_eq_true_eq] at hbracket
    obtain ⟨rfl, rfl⟩ := hbracket
    obtain rfl := Except.ok.inj h
    exact ⟨by simp [OpenMethod.chars, charsOfParameters],
      listObeys_some (parametersObey_of_allBounded hb)⟩
  · rename_i hbracket
    simp only [Bool.and_eq_true, decide_eq_true_eq, not_and] at hbracket
    obtain rfl := Except.ok.inj h
    refine ⟨by simp [OpenMethod.chars], hb, free_push hfree (by simpa using hcolon), ?_⟩
    rw [String.toList_push]
    cases hname : name.toList with
    | nil =>
      intro hc
      exact hbracket (Option.some.inj hc) (String.toList_eq_nil_iff.1 hname)
    | cons first rest =>
      rw [hname] at hhead
      exact hhead

theorem stands_boundStart (hb : AllBounded before) (hn : scanned.parameterName name)
    (h : (OpenMethod.boundStart before name).step c = .ok next) :
    MethodStands ((OpenMethod.boundStart before name).chars ++ [c]) next := by
  have hobeys := obeys_of_name hn
  simp only [OpenMethod.step] at h
  split at h
  · rename_i hc
    obtain rfl := Except.ok.inj h
    rw [hc, OpenMethod.chars, List.cons_append, List.append_assoc]
    exact (putsIn_interfaceBound hb hobeys).stands_start
  split at h
  · rename_i hc
    obtain rfl := Except.ok.inj h
    rw [hc]
    exact ⟨by simp [OpenMethod.chars, charsOfParameters],
      listObeys_some (parametersObey_concat hb hobeys)⟩
  · have hreference (p : TypeProgress) (hp : stepReference [] c = .ok p) :
        Stands .reference [c] p := stands_stepReference (List.forall_mem_nil _) hp
    exact (putsIn_classBound hb hn).stands hreference h

theorem stands_boundEnd (hb : AllBounded before) (hp : p.Obeys scanned) (hbound : p.IsBounded)
    (h : (OpenMethod.boundEnd before p).step c = .ok next) :
    MethodStands ((OpenMethod.boundEnd before p).chars ++ [c]) next := by
  simp only [OpenMethod.step] at h
  split at h
  · rename_i hc
    obtain rfl := Except.ok.inj h
    rw [hc, OpenMethod.chars, List.cons_append, List.append_assoc]
    exact (putsIn_interfaceBound hb hp).stands_start
  rename_i hcolon
  split at h
  · rename_i hc
    obtain rfl := Except.ok.inj h
    rw [hc]
    exact ⟨by simp [OpenMethod.chars, charsOfParameters],
      listObeys_some (parametersObey_concat hb hp)⟩
  · rename_i hbracket
    obtain rfl := Except.ok.inj h
    refine ⟨by simp [OpenMethod.chars], List.forall_mem_append.2 ⟨hb, ?_⟩, ?_, ?_⟩
    · simpa using ⟨hp, hbound⟩
    · simpa using hcolon
    · simpa using hbracket

theorem stands_start (h : OpenMethod.start.step c = .ok next) : MethodStands [c] next := by
  simp only [OpenMethod.step] at h
  split at h
  · rename_i hc
    obtain rfl := Except.ok.inj h
    rw [hc]
    exact ⟨rfl, List.forall_mem_nil _, List.forall_mem_nil _, by decide⟩
  split at h
  · rename_i hc
    obtain rfl := Except.ok.inj h
    rw [hc]
    exact ⟨rfl, listObeys_none, List.forall_mem_nil _⟩
  · cases h

theorem stands_parameterStart {typeParameters : Option (List TypeParameter)}
    {parameters : List JavaType} (hl : ListObeys typeParameters) (hp : AllFields parameters)
    (h : (OpenMethod.parameterStart typeParameters parameters).step c = .ok next) :
    MethodStands ((OpenMethod.parameterStart typeParameters parameters).chars ++ [c]) next := by
  simp only [OpenMethod.step] at h
  split at h
  · rename_i hc
    obtain rfl := Except.ok.inj h
    rw [hc]
    have hstands := (putsIn_result hl hp).reading ⟨[], .typeStart true⟩ obeys_resultStart
    exact ⟨by simp [OpenMethod.chars, OpenType.chars, charsOfFrames, Point.chars], hstands.obeys⟩
  · have hstart : (Point.typeStart false).Obeys (awaited .field []) := by
      constructor <;> decide
    have htype (p : TypeProgress) (hp : stepType [] false c = .ok p) : Stands .field [c] p :=
      stands_stepType (List.forall_mem_nil _) hstart hp
    exact (putsIn_parameter hl hp).stands htype h

/-- A step adds its character to the text and keeps to the rules of the reader. -/
theorem OpenMethod.Obeys.stands_step {m : OpenMethod} (hm : m.Obeys) (h : m.step c = .ok next) :
    MethodStands (m.chars ++ [c]) next := by
  cases m with
  | start => exact stands_start h
  | typeParameter before name => exact stands_typeParameter hm.1 hm.2.1 hm.2.2 h
  | boundStart before name => exact stands_boundStart hm.1 hm.2 h
  | classBound before name s => exact (putsIn_classBound hm.1 hm.2.1).stands_step hm.2.2 h
  | interfaceBound before p s => exact (putsIn_interfaceBound hm.1 hm.2.1).stands_step hm.2.2 h
  | boundEnd before p => exact stands_boundEnd hm.1 hm.2.1 hm.2.2 h
  | listStart typeParameters =>
    simp only [OpenMethod.step] at h
    split at h
    · rename_i hc
      obtain rfl := Except.ok.inj h
      rw [hc]
      exact ⟨rfl, hm, List.forall_mem_nil _⟩
    · cases h
  | parameterStart typeParameters before => exact stands_parameterStart hm.1 hm.2 h
  | parameter typeParameters before s =>
    exact (putsIn_parameter hm.1 hm.2.1).stands_step hm.2.2 h
  | result typeParameters parameters s =>
    exact (putsIn_result hm.1 hm.2.1).stands_step hm.2.2 h
  | complete m =>
    simp only [OpenMethod.step] at h
    split at h
    · rename_i hc
      obtain rfl := Except.ok.inj h
      rw [hc]
      exact (putsIn_thrown hm).stands_start
    · cases h
  | thrown m s => exact (putsIn_thrown hm.1).stands_step hm.2 h

private theorem methodStands_run {m last : OpenMethod} {cs : List Char}
    (h : methodReader.Runs m cs last) (hm : m.Obeys) : MethodStands (m.chars ++ cs) last := by
  induction h with
  | nil m => exact ⟨(List.append_nil _).symm, hm⟩
  | @cons m next last c cs hstep _ ih =>
    have hnext := OpenMethod.Obeys.stands_step hm hstep
    have hlast := ih hnext.obeys
    rw [hnext.chars, List.append_assoc] at hlast
    exact hlast

/-- The accepted texts are those of the types of methods that obey the rules of the reader. -/
theorem methodParse_eq_ok_iff {text : String} {type : MethodSignature} :
    MethodSignature.parse text = .ok type ↔ type.text = text ∧ type.Obeys scanned := by
  constructor
  · intro h
    obtain ⟨last, hruns, hfinish⟩ := Reader.exists_runs_of_read h
    have hlast := methodStands_run hruns trivial
    cases last with
    | complete type' =>
      obtain rfl := Except.ok.inj hfinish
      refine ⟨?_, hlast.obeys⟩
      have hchars : type'.chars = text.toList := hlast.chars
      rw [MethodSignature.text, hchars, String.ofList_toList]
    | _ => cases hfinish
  · rintro ⟨rfl, h⟩
    exact h.parse_text

end Steps

end JvmRoutes.Signature
