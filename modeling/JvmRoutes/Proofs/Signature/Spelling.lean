import JvmRoutes.Proofs.Signature.Grammar

/-!
Types with their texts, in which each name stands as it has been read. What may be a name, and
whether angle brackets may be empty, is left to rules: the grammar and the reader differ in them and
in nothing else.
-/
namespace JvmRoutes.Signature

section Texts

mutual

def JavaType.chars : JavaType → List Char
  | .primitive p => [p.letter]
  | .variable name => 'T' :: (name.toList ++ [';'])
  | .array component => '[' :: component.chars
  | .object c => 'L' :: (c.chars ++ [';'])

def ClassType.chars : ClassType → List Char
  | .outermost name none => name.toList
  | .outermost name (some arguments) => name.toList ++ '<' :: (charsOfEach arguments ++ ['>'])
  | .inner enclosing name none => enclosing.chars ++ '.' :: name.toList
  | .inner enclosing name (some arguments) =>
    enclosing.chars ++ '.' :: (name.toList ++ '<' :: (charsOfEach arguments ++ ['>']))

def TypeArgument.chars : TypeArgument → List Char
  | .any => ['*']
  | .exactly t => t.chars
  | .upTo bound => '+' :: bound.chars
  | .downTo bound => '-' :: bound.chars

def charsOfEach : List TypeArgument → List Char
  | [] => []
  | a :: rest => a.chars ++ charsOfEach rest

end

theorem charsOfEach_append (front back : List TypeArgument) :
    charsOfEach (front ++ back) = charsOfEach front ++ charsOfEach back := by
  induction front with
  | nil => rfl
  | cons a rest ih => rw [List.cons_append, charsOfEach, charsOfEach, ih, List.append_assoc]

/-- References with a mark in front of each. -/
def charsBehindMarks (mark : Char) (types : List JavaType) : List Char :=
  types.flatMap fun t => mark :: t.chars

def TypeParameter.chars (p : TypeParameter) : List Char :=
  p.name.toList ++
    ':' :: (p.classBound.elim [] (·.chars) ++ charsBehindMarks ':' p.interfaceBounds)

def charsOfParameters : Option (List TypeParameter) → List Char
  | none => []
  | some ps => '<' :: (ps.flatMap (·.chars) ++ ['>'])

def MethodSignature.chars (m : MethodSignature) : List Char :=
  charsOfParameters m.typeParameters ++
    '(' :: (m.parameters.flatMap (·.chars) ++
      ')' :: (m.result.chars ++ charsBehindMarks '^' m.thrown))

def JavaType.text (t : JavaType) : String := String.ofList t.chars

def MethodSignature.text (m : MethodSignature) : String := String.ofList m.chars

end Texts

/-- Rules about names, about angle brackets with nothing between them and about thrown types. -/
structure Spelling where
  className : String → Prop
  innerName : String → Prop
  variableName : String → Prop
  parameterName : String → Prop
  emptyBrackets : Prop
  thrown : JavaType → Prop

def JavaType.IsReference : JavaType → Prop
  | .primitive _ => False
  | _ => True

section Rules

mutual

/-- The names and the angle brackets of a type are as rules have them, no part of it is void, and
its arguments are references. -/
def JavaType.Obeys (rules : Spelling) : JavaType → Prop
  | .primitive p => p ≠ .void
  | .variable name => rules.variableName name
  | .array component => component.Obeys rules
  | .object c => c.Obeys rules

def ClassType.Obeys (rules : Spelling) : ClassType → Prop
  | .outermost name none => rules.className name
  | .outermost name (some arguments) =>
    rules.className name ∧ (arguments = [] → rules.emptyBrackets) ∧ EachObeys rules arguments
  | .inner enclosing name none => enclosing.Obeys rules ∧ rules.innerName name
  | .inner enclosing name (some arguments) =>
    enclosing.Obeys rules ∧ rules.innerName name ∧ (arguments = [] → rules.emptyBrackets) ∧
      EachObeys rules arguments

def TypeArgument.Obeys (rules : Spelling) : TypeArgument → Prop
  | .any => True
  | .exactly t | .upTo t | .downTo t => t.IsReference ∧ t.Obeys rules

def EachObeys (rules : Spelling) : List TypeArgument → Prop
  | [] => True
  | a :: rest => a.Obeys rules ∧ EachObeys rules rest

end

inductive Place
  | result | field | reference
  deriving DecidableEq

/-- A type can stand in a place: void for a result, and references where no other type may be. -/
def JavaType.Suits (rules : Spelling) (t : JavaType) : Place → Prop
  | .result => t = .primitive .void ∨ t.Obeys rules
  | .field => t.Obeys rules
  | .reference => t.IsReference ∧ t.Obeys rules

theorem JavaType.suits_of_isReference {rules : Spelling} {t : JavaType} (hr : t.IsReference)
    (h : t.Obeys rules) (place : Place) : t.Suits rules place := by
  cases place with
  | result => exact .inr h
  | field => exact h
  | reference => exact ⟨hr, h⟩

structure TypeParameter.Obeys (rules : Spelling) (p : TypeParameter) : Prop where
  name : rules.parameterName p.name
  classBound : ∀ t ∈ p.classBound, t.Suits rules .reference
  interfaceBounds : ∀ t ∈ p.interfaceBounds, t.Suits rules .reference

def TypeParameter.IsBounded (p : TypeParameter) : Prop :=
  p.classBound ≠ none ∨ p.interfaceBounds ≠ []

/-- Type parameters obey rules. Only the last one can do without a bound, since a reference is
looked for where the name of another one would begin. -/
structure ParametersObey (rules : Spelling) (ps : List TypeParameter) : Prop where
  nonempty : ps = [] → rules.emptyBrackets
  each : ∀ p ∈ ps, p.Obeys rules
  bounded : ∀ p ∈ ps.dropLast, p.IsBounded

structure MethodSignature.Obeys (rules : Spelling) (m : MethodSignature) : Prop where
  typeParameters : ∀ ps ∈ m.typeParameters, ParametersObey rules ps
  parameters : ∀ t ∈ m.parameters, t.Suits rules .field
  result : m.result.Suits rules .result
  thrown : ∀ t ∈ m.thrown, rules.thrown t ∧ t.Suits rules .reference

theorem eachObeys_append {rules : Spelling} {front back : List TypeArgument} :
    EachObeys rules (front ++ back) ↔ EachObeys rules front ∧ EachObeys rules back := by
  induction front with
  | nil => simp [EachObeys]
  | cons a rest ih => rw [List.cons_append, EachObeys, EachObeys, ih, and_assoc]

end Rules

structure IsIdentifier (cs : List Char) : Prop where
  nonempty : cs ≠ []
  free : ∀ c ∈ cs, ¬ IsDelimiter c

/-- The rules of the grammar: names are identifiers, with a slash between two of them in front of
classes in packages, and no angle brackets are empty. -/
def grammar : Spelling where
  className name := ∀ piece ∈ name.toList.splitOn '/', IsIdentifier piece
  innerName name := IsIdentifier name.toList
  variableName name := IsIdentifier name.toList
  parameterName name := IsIdentifier name.toList
  emptyBrackets := False
  thrown t := ∀ component, t ≠ .array component

/-- A name has some characters, and none of those that end it. -/
structure IsScanned (ends : List Char) (name : String) : Prop where
  ne_empty : name ≠ ""
  free : ∀ c ∈ name.toList, c ∉ ends

/-- The rules of the reader. It goes on with a name up to a character that can stand behind it, and
asks for nothing more of the characters before. -/
def scanned : Spelling where
  className := IsScanned ['<', ';', '.']
  innerName := IsScanned ['<', ';', '.']
  variableName := IsScanned [';']
  parameterName name := IsScanned [':'] name ∧ name.toList.head? ≠ some '>'
  emptyBrackets := True
  thrown _ := True

section Inclusion

/-- What obeys one set of rules obeys another one. -/
structure Spelling.Within (rules others : Spelling) : Prop where
  className : ∀ name, rules.className name → others.className name
  innerName : ∀ name, rules.innerName name → others.innerName name
  variableName : ∀ name, rules.variableName name → others.variableName name
  parameterName : ∀ name, rules.parameterName name → others.parameterName name
  emptyBrackets : rules.emptyBrackets → others.emptyBrackets
  thrown : ∀ t, rules.thrown t → others.thrown t

variable {rules others : Spelling}

mutual

theorem JavaType.Obeys.mono (hw : rules.Within others) :
    ∀ t : JavaType, t.Obeys rules → t.Obeys others
  | .primitive _, h => h
  | .variable name, h => hw.variableName name h
  | .array component, h => JavaType.Obeys.mono hw component h
  | .object c, h => ClassType.Obeys.mono hw c h

theorem ClassType.Obeys.mono (hw : rules.Within others) :
    ∀ c : ClassType, c.Obeys rules → c.Obeys others
  | .outermost name none, h => hw.className name h
  | .outermost name (some arguments), ⟨hname, hne, hall⟩ =>
    ⟨hw.className name hname, hw.emptyBrackets ∘ hne, EachObeys.mono hw arguments hall⟩
  | .inner enclosing name none, ⟨henclosing, hname⟩ =>
    ⟨ClassType.Obeys.mono hw enclosing henclosing, hw.innerName name hname⟩
  | .inner enclosing name (some arguments), ⟨henclosing, hname, hne, hall⟩ =>
    ⟨ClassType.Obeys.mono hw enclosing henclosing, hw.innerName name hname,
      hw.emptyBrackets ∘ hne, EachObeys.mono hw arguments hall⟩

theorem TypeArgument.Obeys.mono (hw : rules.Within others) :
    ∀ a : TypeArgument, a.Obeys rules → a.Obeys others
  | .any, _ => trivial
  | .exactly t, ⟨hr, h⟩ | .upTo t, ⟨hr, h⟩ | .downTo t, ⟨hr, h⟩ => ⟨hr, JavaType.Obeys.mono hw t h⟩

theorem EachObeys.mono (hw : rules.Within others) :
    ∀ arguments : List TypeArgument, EachObeys rules arguments → EachObeys others arguments
  | [], _ => trivial
  | a :: rest, ⟨ha, hrest⟩ => ⟨TypeArgument.Obeys.mono hw a ha, EachObeys.mono hw rest hrest⟩

end

theorem JavaType.Suits.mono {t : JavaType} {place : Place} (hw : rules.Within others)
    (h : t.Suits rules place) : t.Suits others place := by
  cases place with
  | result => exact h.imp_right (JavaType.Obeys.mono hw t)
  | field => exact JavaType.Obeys.mono hw t h
  | reference => exact ⟨h.1, JavaType.Obeys.mono hw t h.2⟩

theorem TypeParameter.Obeys.mono {p : TypeParameter} (hw : rules.Within others)
    (h : p.Obeys rules) : p.Obeys others where
  name := hw.parameterName p.name h.name
  classBound t ht := (h.classBound t ht).mono hw
  interfaceBounds t ht := (h.interfaceBounds t ht).mono hw

theorem ParametersObey.mono {ps : List TypeParameter} (hw : rules.Within others)
    (h : ParametersObey rules ps) : ParametersObey others ps where
  nonempty := hw.emptyBrackets ∘ h.nonempty
  each p hp := (h.each p hp).mono hw
  bounded := h.bounded

theorem MethodSignature.Obeys.mono {m : MethodSignature} (hw : rules.Within others)
    (h : m.Obeys rules) : m.Obeys others where
  typeParameters ps hps := (h.typeParameters ps hps).mono hw
  parameters t ht := (h.parameters t ht).mono hw
  result := h.result.mono hw
  thrown t ht := ⟨hw.thrown t (h.thrown t ht).1, (h.thrown t ht).2.mono hw⟩

end Inclusion

end JvmRoutes.Signature
