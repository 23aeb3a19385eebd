import JvmRoutes.Proofs.Signature.Derivations
import JvmRoutes.Signature.MethodReader

/-!
The reader of types accepts the text of every type that obeys its rules, and finds this type. So it
does for the text of every derivation. What waits around a type makes no difference while the type
is read.
-/
namespace JvmRoutes.Signature

namespace Reader

variable {σ α : Type}

/-- Characters lead the reader from one state to another. -/
inductive Runs (r : Reader σ α) : σ → List Char → σ → Prop
  | nil (s : σ) : Runs r s [] s
  | cons {s s' s'' : σ} {c : Char} {cs : List Char} (h : r.step s c = .ok s')
    (hs : Runs r s' cs s'') : Runs r s (c :: cs) s''

variable {r : Reader σ α}

theorem Runs.append {s s' s'' : σ} {cs ds : List Char} (h : r.Runs s cs s')
    (h' : r.Runs s' ds s'') : r.Runs s (cs ++ ds) s'' := by
  induction h with
  | nil => exact h'
  | cons hc _ ih => exact .cons hc (ih h')

theorem Runs.snoc {s s' s'' : σ} {cs : List Char} {c : Char} (h : r.Runs s cs s')
    (hc : r.step s' c = .ok s'') : r.Runs s (cs ++ [c]) s'' := h.append (.cons hc (.nil s''))

theorem Runs.advance_eq {s s' : σ} {cs : List Char} (h : r.Runs s cs s') (position : Nat) :
    r.advance s position cs = .ok s' := by
  induction h generalizing position with
  | nil => rfl
  | cons hc _ ih =>
    rw [advance, hc]
    exact ih (position + 1)

theorem Runs.read_eq {cs : List Char} {s : σ} {a : α} (h : r.Runs r.start cs s)
    (hf : r.finish s = .ok a) : r.read (String.ofList cs) = .ok a := by
  have hchars : r.readChars cs = .ok a := by
    have hadvance := h.advance_eq 0
    unfold readChars
    rw [hadvance]
    change (r.finish s).mapError _ = _
    rw [hf]
    rfl
  rw [read, String.toList_ofList, hchars]
  rfl

end Reader

open Reader (Runs)

theorem ofList_cons_append (name : String) (c : Char) (cs : List Char) :
    name.push c ++ String.ofList cs = name ++ String.ofList (c :: cs) := by
  apply String.toList_inj.1
  simp

theorem push_ne_empty (name : String) (c : Char) : name.push c ≠ "" := by
  intro h
  have hchars := congrArg String.toList h
  simp at hchars

/-- A name grows by characters that do not end it. -/
theorem runs_className (frames : List Frame) (enclosing : Option ClassType) {cs : List Char}
    (h : ∀ c ∈ cs, c ∉ ['<', ';', '.']) (name : String) :
    typeReader.Runs (.reading ⟨frames, .className ⟨enclosing, name⟩⟩) cs
      (.reading ⟨frames, .className ⟨enclosing, name ++ String.ofList cs⟩⟩) := by
  induction cs generalizing name with
  | nil =>
    rw [String.ofList_nil, String.append_empty]
    exact .nil _
  | cons c rest ih =>
    have hc := h c List.mem_cons_self
    have hstep : typeReader.step (.reading ⟨frames, .className ⟨enclosing, name⟩⟩) c =
        .ok (.reading ⟨frames, .className ⟨enclosing, name.push c⟩⟩) := by
      simp only [List.mem_cons, List.not_mem_nil, or_false, not_or] at hc
      simp [typeReader, OpenType.step, stepClassName, hc]
    rw [← ofList_cons_append]
    exact .cons hstep (ih (fun c hc => h c (List.mem_cons_of_mem _ hc)) _)

theorem IsScanned.runs_className {name : String} (h : IsScanned ['<', ';', '.'] name)
    (frames : List Frame) (enclosing : Option ClassType) :
    typeReader.Runs (.reading ⟨frames, .className ⟨enclosing, ""⟩⟩) name.toList
      (.reading ⟨frames, .className ⟨enclosing, name⟩⟩) := by
  have hruns := Signature.runs_className frames enclosing h.free ""
  rwa [String.empty_append, String.ofList_toList] at hruns

theorem runs_variableName (frames : List Frame) {cs : List Char} (h : ∀ c ∈ cs, c ∉ [';'])
    (name : String) :
    typeReader.Runs (.reading ⟨frames, .variableName name⟩) cs
      (.reading ⟨frames, .variableName (name ++ String.ofList cs)⟩) := by
  induction cs generalizing name with
  | nil =>
    rw [String.ofList_nil, String.append_empty]
    exact .nil _
  | cons c rest ih =>
    have hc : c ≠ ';' := fun he => h c List.mem_cons_self (List.mem_singleton.2 he)
    have hstep : typeReader.step (.reading ⟨frames, .variableName name⟩) c =
        .ok (.reading ⟨frames, .variableName (name.push c)⟩) := by
      simp [typeReader, OpenType.step, stepVariableName, hc]
    rw [← ofList_cons_append]
    exact .cons hstep (ih (fun c hc => h c (List.mem_cons_of_mem _ hc)) _)

/-- The characters that references begin with. -/
theorem JavaType.IsReference.exists_chars {t : JavaType} (h : t.IsReference) :
    ∃ c cs, t.chars = c :: cs ∧ (c = 'L' ∨ c = 'T' ∨ c = '[') := by
  rcases t with p | name | component | c
  · exact h.elim
  · exact ⟨'T', _, rfl, by decide⟩
  · exact ⟨'[', _, rfl, by decide⟩
  · exact ⟨'L', _, rfl, by decide⟩

/-- The reader takes the first character of a type for that of one that the frames wait for. -/
def Awaits (t : JavaType) (p : Point) (around frames : List Frame) : Prop :=
  ∀ c ∈ t.chars.head?, typeReader.step (.reading ⟨around, p⟩) c = stepType frames false c

theorem awaits_typeStart {t : JavaType} (h : t.Obeys scanned) (frames : List Frame)
    (voidAllowed : Bool) : Awaits t (.typeStart voidAllowed) frames frames := by
  intro c hc
  rcases t with p | name | component | owner
  · obtain rfl : p.letter = c := Option.some.inj hc
    have hp : p ≠ .void := h
    show stepType frames voidAllowed p.letter = _
    unfold stepType
    rw [Primitive.ofLetter?_letter]
    cases p <;> first | rfl | exact absurd rfl hp
  · obtain rfl : 'T' = c := Option.some.inj hc
    rfl
  · obtain rfl : '[' = c := Option.some.inj hc
    rfl
  · obtain rfl : 'L' = c := Option.some.inj hc
    rfl

theorem awaits_of_isReference {t : JavaType} (h : t.IsReference) {p : Point}
    {around frames : List Frame}
    (hp : ∀ c, c = 'L' ∨ c = 'T' ∨ c = '[' →
      typeReader.step (.reading ⟨around, p⟩) c = stepReference frames c) :
    Awaits t p around frames := by
  intro c hc
  obtain ⟨first, cs, hcs, hfirst⟩ := h.exists_chars
  obtain rfl : first = c := by
    rw [hcs] at hc
    exact Option.some.inj hc
  rw [hp first hfirst]
  rcases hfirst with rfl | rfl | rfl <;> rfl

theorem awaits_referenceStart {t : JavaType} (h : t.IsReference) (frames : List Frame) :
    Awaits t .referenceStart frames frames := awaits_of_isReference h fun _ _ => rfl

theorem awaits_argumentStart {t : JavaType} (h : t.IsReference) (frames : List Frame)
    (owner : OpenClass) (before : List TypeArgument) :
    Awaits t (.argumentStart owner before) frames (.argument owner before .exactly :: frames) := by
  apply awaits_of_isReference h
  intro c hc
  rcases hc with rfl | rfl | rfl <;> rfl

/-- Behind the characters of a class, the reader goes on with a class inside it or ends it. -/
def EndsClass (frames : List Frame) (p : Point) (c : ClassType) : Prop :=
  typeReader.step (.reading ⟨frames, p⟩) '.' =
      .ok (.reading ⟨frames, .className ⟨some c, ""⟩⟩) ∧
    typeReader.step (.reading ⟨frames, p⟩) ';' = .ok (close (.object c) frames)

private theorem endsClass_className (frames : List Frame) {owner : OpenClass}
    (h : owner.name ≠ "") : EndsClass frames (.className owner) (owner.close none) := by
  constructor <;> simp [typeReader, OpenType.step, stepClassName, h]

private theorem endsClass_argumentsEnd (frames : List Frame) (c : ClassType) :
    EndsClass frames (.argumentsEnd c) c := ⟨rfl, rfl⟩

theorem runs_brackets {frames : List Frame} {owner : OpenClass} {arguments : List TypeArgument}
    (hn : owner.name ≠ "")
    (h : typeReader.Runs (.reading ⟨frames, .argumentStart owner []⟩) (charsOfEach arguments)
      (.reading ⟨frames, .argumentStart owner arguments⟩)) :
    typeReader.Runs (.reading ⟨frames, .className owner⟩)
      ('<' :: (charsOfEach arguments ++ ['>']))
      (.reading ⟨frames, .argumentsEnd (owner.close (some arguments))⟩) := by
  have hopen : typeReader.step (.reading ⟨frames, .className owner⟩) '<' =
      .ok (.reading ⟨frames, .argumentStart owner []⟩) := by
    simp [typeReader, OpenType.step, stepClassName, hn]
  exact .cons hopen (h.snoc rfl)

mutual

theorem JavaType.runs : ∀ (t : JavaType) {p : Point} {around frames : List Frame}
    (_ : t.Obeys scanned) (_ : Awaits t p around frames),
    typeReader.Runs (.reading ⟨around, p⟩) t.chars (close t frames)
  | .primitive q, p, around, frames, hq, h => by
    have hstep : typeReader.step (.reading ⟨around, p⟩) q.letter =
        .ok (close (.primitive q) frames) := by
      rw [h q.letter rfl, stepType, Primitive.ofLetter?_letter]
      cases q <;> first | rfl | exact absurd rfl hq
    exact .cons hstep (.nil _)
  | .variable name, p, around, frames, hname, h => by
    have hend : typeReader.step (.reading ⟨frames, .variableName name⟩) ';' =
        .ok (close (.variable name) frames) := by
      simp [typeReader, OpenType.step, stepVariableName, hname.ne_empty]
    have hruns := runs_variableName frames hname.free ""
    rw [String.empty_append, String.ofList_toList] at hruns
    exact .cons (h 'T' rfl) (hruns.snoc hend)
  | .array component, p, around, frames, hcomponent, h => by
    have hstart := awaits_typeStart (t := component) hcomponent (.component :: frames) false
    exact .cons (h '[' rfl) (component.runs hcomponent hstart)
  | .object c, p, around, frames, hc, h => by
    obtain ⟨q, hq, hend⟩ := c.runs frames hc
    exact .cons (h 'L' rfl) (hq.snoc hend.2)

theorem ClassType.runs : ∀ (c : ClassType) (frames : List Frame) (_ : c.Obeys scanned),
    ∃ p, typeReader.Runs (.reading ⟨frames, .className ⟨none, ""⟩⟩) c.chars
      (.reading ⟨frames, p⟩) ∧ EndsClass frames p c
  | .outermost name none, frames, hname =>
    ⟨_, hname.runs_className frames none, endsClass_className frames hname.ne_empty⟩
  | .outermost name (some arguments), frames, ⟨hname, _, hall⟩ => by
    have harguments := arguments_run arguments frames ⟨none, name⟩ [] hall
    have hbrackets := runs_brackets hname.ne_empty harguments
    exact ⟨_, (hname.runs_className frames none).append hbrackets,
      endsClass_argumentsEnd frames _⟩
  | .inner enclosing name none, frames, ⟨henclosing, hname⟩ => by
    obtain ⟨q, hq, hinner⟩ := enclosing.runs frames henclosing
    have hruns := hname.runs_className frames (some enclosing)
    exact ⟨_, hq.append (.cons hinner.1 hruns), endsClass_className frames hname.ne_empty⟩
  | .inner enclosing name (some arguments), frames, ⟨henclosing, hname, _, hall⟩ => by
    obtain ⟨q, hq, hinner⟩ := enclosing.runs frames henclosing
    have hruns := hname.runs_className frames (some enclosing)
    have harguments := arguments_run arguments frames ⟨some enclosing, name⟩ [] hall
    have hbrackets := runs_brackets hname.ne_empty harguments
    exact ⟨_, hq.append (.cons hinner.1 (hruns.append hbrackets)),
      endsClass_argumentsEnd frames _⟩

theorem TypeArgument.runs : ∀ (a : TypeArgument) (frames : List Frame) (owner : OpenClass)
    (before : List TypeArgument) (_ : a.Obeys scanned),
    typeReader.Runs (.reading ⟨frames, .argumentStart owner before⟩) a.chars
      (.reading ⟨frames, .argumentStart owner (before ++ [a])⟩)
  | .any, _, _, _, _ => .cons rfl (.nil _)
  | .exactly t, frames, owner, before, ⟨hr, h⟩ =>
    t.runs h (awaits_argumentStart hr frames owner before)
  | .upTo t, frames, owner, before, ⟨hr, h⟩ =>
    .cons rfl (t.runs h (awaits_referenceStart hr (.argument owner before .upTo :: frames)))
  | .downTo t, frames, owner, before, ⟨hr, h⟩ =>
    .cons rfl (t.runs h (awaits_referenceStart hr (.argument owner before .downTo :: frames)))

theorem arguments_run : ∀ (arguments : List TypeArgument) (frames : List Frame) (owner : OpenClass)
    (before : List TypeArgument) (_ : EachObeys scanned arguments),
    typeReader.Runs (.reading ⟨frames, .argumentStart owner before⟩) (charsOfEach arguments)
      (.reading ⟨frames, .argumentStart owner (before ++ arguments)⟩)
  | [], frames, owner, before, _ => by
    rw [List.append_nil]
    exact .nil _
  | a :: rest, frames, owner, before, ⟨ha, hrest⟩ => by
    have hruns := arguments_run rest frames owner (before ++ [a]) hrest
    rw [List.append_assoc, List.singleton_append] at hruns
    exact (a.runs frames owner before ha).append hruns

end

theorem JavaType.Suits.runs {t : JavaType} (h : t.Suits scanned .result) :
    typeReader.Runs typeReader.start t.chars (.complete t) := by
  rcases h with rfl | h
  · exact .cons rfl (.nil _)
  · exact t.runs h (awaits_typeStart h [] true)

/-- The text of a type that obeys the rules of the reader has this type. -/
theorem JavaType.Suits.parse_text {t : JavaType} (h : t.Suits scanned .result) :
    JavaType.parse t.text = .ok t := h.runs.read_eq rfl

theorem ResultSig.text_type (s : ResultSig) : s.type.text = s.text := by
  rw [JavaType.text, s.chars_type, ResultSig.text]

/-- The text of a derivation has the type of the derivation. -/
theorem parse_text (s : ResultSig) : JavaType.parse s.text = .ok s.type := by
  rw [← s.text_type]
  exact (s.suits_type.mono grammar_within_scanned).parse_text

theorem ResultSig.text_ne_empty (s : ResultSig) : s.text ≠ "" := by
  intro h
  have hparse := parse_text s
  rw [h] at hparse
  cases hparse

/-- The text of a derivation is read as the tree of the derivation, and shown by its canonical
name. This is so for the text as a descriptor without a signature and as a signature to any
descriptor. -/
theorem parse_derivation (s : ResultSig) (descriptor : String) :
    (∃ t, JavaType.parse s.text = .ok t ∧ t.tree = s.tree) ∧
      (JavaType.parse (preferred s.text none)).map (·.render) = .ok s.tree.canonicalName ∧
      (JavaType.parse (preferred descriptor (some s.text))).map (·.render) =
        .ok s.tree.canonicalName := by
  have hrender : (JavaType.parse s.text).map (·.render) = .ok s.tree.canonicalName := by
    rw [parse_text s, ← s.tree_type, ← s.type.render_eq]
    rfl
  have hsignature : preferred descriptor (some s.text) = s.text := by
    unfold preferred
    split
    · contradiction
    · rename_i h
      exact absurd (Option.some.inj h) s.text_ne_empty
    · rename_i signature _ h
      exact (Option.some.inj h).symm
  refine ⟨⟨s.type, parse_text s, s.tree_type⟩, hrender, ?_⟩
  rw [hsignature]
  exact hrender

end JvmRoutes.Signature
