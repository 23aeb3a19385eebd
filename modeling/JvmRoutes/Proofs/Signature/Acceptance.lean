import JvmRoutes.Proofs.Log
import JvmRoutes.Proofs.Signature.Parsing

/-!
What the reader of types accepts. A state has the text that has led to it, and what it has of a type
obeys the rules of the reader. A step adds its character to that text and keeps to these rules.
-/
namespace JvmRoutes.Signature

section Texts

def OpenClass.chars (c : OpenClass) : List Char :=
  match c.enclosing with
  | none => c.name.toList
  | some enclosing => enclosing.chars ++ '.' :: c.name.toList

def Limit.chars : Limit → List Char
  | exactly => []
  | upTo => ['+']
  | downTo => ['-']

/-- The characters of a class up to one of its arguments. -/
def charsBehindOwner (owner : OpenClass) (before : List TypeArgument) : List Char :=
  'L' :: (owner.chars ++ '<' :: charsOfEach before)

def Frame.chars : Frame → List Char
  | .component => ['[']
  | .argument owner before limit => charsBehindOwner owner before ++ limit.chars

/-- The characters in front of the innermost open construct. The outermost frame is the last. -/
def charsOfFrames : List Frame → List Char
  | [] => []
  | frame :: frames => charsOfFrames frames ++ frame.chars

def Point.chars : Point → List Char
  | .typeStart _ | .referenceStart => []
  | .className c => 'L' :: c.chars
  | .argumentStart owner before => charsBehindOwner owner before
  | .argumentsEnd c => 'L' :: c.chars
  | .variableName name => 'T' :: name.toList

def OpenType.chars (s : OpenType) : List Char := charsOfFrames s.frames ++ s.point.chars

def TypeProgress.chars : TypeProgress → List Char
  | .reading s => s.chars
  | .complete t => t.chars

theorem OpenClass.chars_close_none (c : OpenClass) : (c.close none).chars = c.chars := by
  obtain ⟨enclosing, name⟩ := c
  cases enclosing <;> rfl

theorem OpenClass.chars_close_some (c : OpenClass) (arguments : List TypeArgument) :
    (c.close (some arguments)).chars = c.chars ++ '<' :: (charsOfEach arguments ++ ['>']) := by
  obtain ⟨enclosing, name⟩ := c
  cases enclosing with
  | none => rfl
  | some enclosing => simp [OpenClass.close, ClassType.chars, OpenClass.chars]

theorem OpenClass.chars_push (c : OpenClass) (ch : Char) :
    ({ c with name := c.name.push ch } : OpenClass).chars = c.chars ++ [ch] := by
  obtain ⟨enclosing, name⟩ := c
  cases enclosing <;> simp [OpenClass.chars]

theorem charsBehindOwner_concat (owner : OpenClass) (before : List TypeArgument)
    (a : TypeArgument) :
    charsBehindOwner owner (before ++ [a]) = charsBehindOwner owner before ++ a.chars := by
  simp [charsBehindOwner, charsOfEach_append, charsOfEach]

theorem Limit.chars_argument (limit : Limit) (t : JavaType) :
    (limit.argument t).chars = limit.chars ++ t.chars := by
  cases limit <;> rfl

end Texts

section Rules

/-- As far as it has been read, a class obeys the rules of the reader. -/
structure OpenClass.Obeys (c : OpenClass) : Prop where
  enclosing : ∀ outer ∈ c.enclosing, outer.Obeys scanned
  free : ∀ ch ∈ c.name.toList, ch ∉ ['<', ';', '.']

/-- A class that has a name has some arguments. -/
structure Owns (owner : OpenClass) (before : List TypeArgument) : Prop where
  obeys : owner.Obeys
  named : owner.name ≠ ""
  each : EachObeys scanned before

def Frame.Obeys : Frame → Prop
  | .component => True
  | .argument owner before _ => Owns owner before

/-- What the frames around a type wait for, when their outermost one stands in a place. -/
def awaited (place : Place) : List Frame → Place
  | [] => place
  | .component :: _ => .field
  | .argument _ _ _ :: _ => .reference

def Point.Obeys (place : Place) : Point → Prop
  | .typeStart voidAllowed => place ≠ .reference ∧ (voidAllowed = true → place = .result)
  | .referenceStart => True
  | .className c => c.Obeys
  | .argumentStart owner before => Owns owner before
  | .argumentsEnd c => c.Obeys scanned
  | .variableName name => ∀ c ∈ name.toList, c ∉ [';']

/-- The state reads a type for a place, and obeys the rules of the reader. -/
structure OpenType.Obeys (place : Place) (s : OpenType) : Prop where
  frames : ∀ frame ∈ s.frames, frame.Obeys
  point : s.point.Obeys (awaited place s.frames)

def TypeProgress.Obeys (place : Place) : TypeProgress → Prop
  | .reading s => s.Obeys place
  | .complete t => t.Suits scanned place

/-- Where the reader begins, any type can come, and void. -/
theorem obeys_resultStart : (⟨[], .typeStart true⟩ : OpenType).Obeys .result :=
  ⟨List.forall_mem_nil _, by decide, fun _ => rfl⟩

theorem OpenClass.Obeys.close_none {c : OpenClass} (h : c.Obeys) (hn : c.name ≠ "") :
    (c.close none).Obeys scanned := by
  obtain ⟨enclosing, name⟩ := c
  cases enclosing with
  | none => exact ⟨hn, h.free⟩
  | some enclosing => exact ⟨h.enclosing enclosing rfl, hn, h.free⟩

theorem Owns.close_some {owner : OpenClass} {arguments : List TypeArgument}
    (h : Owns owner arguments) : (owner.close (some arguments)).Obeys scanned := by
  obtain ⟨enclosing, name⟩ := owner
  cases enclosing with
  | none => exact ⟨⟨h.named, h.obeys.free⟩, fun _ => trivial, h.each⟩
  | some enclosing =>
    exact ⟨h.obeys.enclosing enclosing rfl, ⟨h.named, h.obeys.free⟩, fun _ => trivial, h.each⟩

theorem Owns.concat {owner : OpenClass} {before : List TypeArgument} {a : TypeArgument}
    (h : Owns owner before) (ha : a.Obeys scanned) : Owns owner (before ++ [a]) :=
  ⟨h.obeys, h.named, eachObeys_append.2 ⟨h.each, ha, trivial⟩⟩

theorem Limit.obeys_argument (limit : Limit) {t : JavaType} (h : t.Suits scanned .reference) :
    (limit.argument t).Obeys scanned := by
  cases limit <;> exact h

end Rules

section Steps

variable {place : Place} {frames : List Frame} {c : Char} {p : TypeProgress} {owner : OpenClass}
  {before : List TypeArgument}

/-- A name can go on with a character that does not end it. -/
theorem free_push {ends : List Char} {name : String} (h : ∀ ch ∈ name.toList, ch ∉ ends)
    (hc : c ∉ ends) : ∀ ch ∈ (name.push c).toList, ch ∉ ends := by
  intro ch hch
  rw [String.toList_push, List.mem_append, List.mem_singleton] at hch
  rcases hch with hch | rfl
  · exact h ch hch
  · exact hc

/-- What has been read is some characters, and obeys the rules of the reader. -/
structure Stands (place : Place) (cs : List Char) (p : TypeProgress) : Prop where
  chars : p.chars = cs
  obeys : p.Obeys place

theorem stands_close (hf : ∀ frame ∈ frames, frame.Obeys) {t : JavaType}
    (ht : t.Suits scanned (awaited place frames)) :
    Stands place (charsOfFrames frames ++ t.chars) (close t frames) := by
  induction frames generalizing t with
  | nil => exact ⟨rfl, ht⟩
  | cons frame frames ih =>
    obtain ⟨hframe, hrest⟩ := List.forall_mem_cons.1 hf
    cases frame with
    | component =>
      -- the array is complete with its component, so that what is around it may be as well
      have hr : (JavaType.array t).IsReference := trivial
      have harray : (JavaType.array t).Suits scanned (awaited place frames) :=
        JavaType.suits_of_isReference hr ht _
      have hclose := ih hrest harray
      rw [charsOfFrames, List.append_assoc]
      exact hclose
    | argument owner before limit =>
      refine ⟨?_, hrest, Owns.concat hframe (limit.obeys_argument ht)⟩
      show charsOfFrames frames ++ charsBehindOwner owner (before ++ [limit.argument t]) = _
      rw [charsBehindOwner_concat, limit.chars_argument]
      simp only [charsOfFrames, Frame.chars, List.append_assoc]

theorem stands_stepReference (hf : ∀ frame ∈ frames, frame.Obeys)
    (h : stepReference frames c = .ok p) : Stands place (charsOfFrames frames ++ [c]) p := by
  unfold stepReference at h
  split at h
  · rename_i hc
    obtain rfl := Except.ok.inj h
    rw [hc]
    exact ⟨rfl, hf, nofun, nofun⟩
  split at h
  · rename_i hc
    obtain rfl := Except.ok.inj h
    rw [hc]
    exact ⟨rfl, hf, nofun⟩
  split at h
  · rename_i hc
    obtain rfl := Except.ok.inj h
    rw [hc]
    exact ⟨List.append_nil _, List.forall_mem_cons.2 ⟨trivial, hf⟩, nofun, nofun⟩
  · cases h

/-- A type begins as a reference does, or it is a primitive one. -/
theorem stepType_eq_ok {voidAllowed : Bool} (h : stepType frames voidAllowed c = .ok p) :
    stepReference frames c = .ok p ∨
      ∃ q : Primitive, q.letter = c ∧ (q = .void → voidAllowed = true) ∧
        p = close (.primitive q) frames := by
  unfold stepType at h
  cases hq : Primitive.ofLetter? c with
  | none =>
    rw [hq] at h
    exact .inl h
  | some q =>
    have hletter : q.letter = c := by
      unfold Primitive.ofLetter? at hq
      have hfound := List.find?_some hq
      simpa using hfound
    rw [hq] at h
    refine .inr ⟨q, hletter, ?_⟩
    cases q with
    | void =>
      simp only at h
      split at h
      · rename_i hv
        exact ⟨fun _ => hv, (Except.ok.inj h).symm⟩
      · cases h
    | _ => exact ⟨nofun, (Except.ok.inj h).symm⟩

theorem stands_stepType {voidAllowed : Bool} (hf : ∀ frame ∈ frames, frame.Obeys)
    (hp : (Point.typeStart voidAllowed).Obeys (awaited place frames))
    (h : stepType frames voidAllowed c = .ok p) :
    Stands place (charsOfFrames frames ++ [c]) p := by
  obtain ⟨hreference, hallowed⟩ := hp
  rcases stepType_eq_ok h with h | ⟨q, rfl, hvoid, rfl⟩
  · exact stands_stepReference hf h
  refine stands_close (t := .primitive q) hf ?_
  by_cases hq : q = .void
  · rw [hallowed (hvoid hq), hq]
    exact .inl rfl
  · cases hplace : awaited place frames with
    | result => exact .inr hq
    | field => exact hq
    | reference => exact absurd hplace hreference

theorem stands_close_object (hf : ∀ frame ∈ frames, frame.Obeys) {class_ : ClassType}
    (hc : class_.Obeys scanned) :
    Stands place (charsOfFrames frames ++ 'L' :: (class_.chars ++ [';']))
      (close (.object class_) frames) := by
  have hr : (JavaType.object class_).IsReference := trivial
  exact stands_close hf (JavaType.suits_of_isReference hr hc _)

theorem stands_stepClassName (hf : ∀ frame ∈ frames, frame.Obeys) (ho : owner.Obeys)
    (h : stepClassName frames owner c = .ok p) :
    Stands place (charsOfFrames frames ++ 'L' :: (owner.chars ++ [c])) p := by
  unfold stepClassName at h
  split at h
  · rename_i hend
    split at h
    · cases h
    rename_i hn
    have hclose := ho.close_none hn
    split at h
    · rename_i hc
      obtain rfl := Except.ok.inj h
      rw [hc]
      exact ⟨rfl, hf, ho, hn, trivial⟩
    rename_i hbracket
    split at h
    · rename_i hc
      obtain rfl := Except.ok.inj h
      have hstands : Stands place _ (close (.object (owner.close none)) frames) :=
        stands_close_object hf hclose
      rw [OpenClass.chars_close_none] at hstands
      rw [hc]
      exact hstands
    · rename_i hsemicolon
      have hc : c = '.' := by simpa [hbracket, hsemicolon] using hend
      obtain rfl := Except.ok.inj h
      have hchars : (⟨some (owner.close none), ""⟩ : OpenClass).chars = owner.chars ++ ['.'] := by
        show (owner.close none).chars ++ ['.'] = _
        rw [OpenClass.chars_close_none]
      rw [hc, ← hchars]
      refine ⟨rfl, hf, ?_, nofun⟩
      intro outer houter
      obtain rfl := Option.some.inj houter
      exact hclose
  · rename_i hc
    obtain rfl := Except.ok.inj h
    have hends : c ∉ ['<', ';', '.'] := by simpa [or_assoc] using hc
    rw [← OpenClass.chars_push]
    exact ⟨rfl, hf, ho.enclosing, free_push ho.free hends⟩

theorem stands_stepArgument (hf : ∀ frame ∈ frames, frame.Obeys) (ho : Owns owner before)
    (h : stepArgument frames owner before c = .ok p) :
    Stands place (charsOfFrames frames ++ (charsBehindOwner owner before ++ [c])) p := by
  have hframe (limit : Limit) : ∀ frame ∈ Frame.argument owner before limit :: frames,
      frame.Obeys := List.forall_mem_cons.2 ⟨ho, hf⟩
  unfold stepArgument at h
  split at h
  · rename_i hc
    obtain rfl := Except.ok.inj h
    refine ⟨?_, hf, ho.close_some⟩
    show charsOfFrames frames ++ 'L' :: (owner.close (some before)).chars = _
    rw [OpenClass.chars_close_some, hc]
    simp [charsBehindOwner]
  split at h
  · rename_i hc
    obtain rfl := Except.ok.inj h
    refine ⟨?_, hf, ho.concat trivial⟩
    show charsOfFrames frames ++ charsBehindOwner owner (before ++ [.any]) = _
    rw [charsBehindOwner_concat, hc]
    rfl
  split at h
  · rename_i hc
    obtain rfl := Except.ok.inj h
    rw [hc]
    exact ⟨List.append_nil _, hframe .upTo, trivial⟩
  split at h
  · rename_i hc
    obtain rfl := Except.ok.inj h
    rw [hc]
    exact ⟨List.append_nil _, hframe .downTo, trivial⟩
  · have hstands : Stands place _ p := stands_stepReference (hframe .exactly) h
    simpa [charsOfFrames, Frame.chars, Limit.chars] using hstands

theorem stands_stepArgumentsEnd (hf : ∀ frame ∈ frames, frame.Obeys) {class_ : ClassType}
    (hc : class_.Obeys scanned) (h : stepArgumentsEnd frames class_ c = .ok p) :
    Stands place (charsOfFrames frames ++ 'L' :: (class_.chars ++ [c])) p := by
  unfold stepArgumentsEnd at h
  split at h
  · rename_i hdot
    obtain rfl := Except.ok.inj h
    rw [hdot]
    refine ⟨rfl, hf, ?_, nofun⟩
    intro outer houter
    obtain rfl := Option.some.inj houter
    exact hc
  split at h
  · rename_i hsemicolon
    obtain rfl := Except.ok.inj h
    rw [hsemicolon]
    exact stands_close_object hf hc
  · cases h

theorem stands_stepVariableName (hf : ∀ frame ∈ frames, frame.Obeys) {name : String}
    (hfree : ∀ ch ∈ name.toList, ch ∉ [';']) (h : stepVariableName frames name c = .ok p) :
    Stands place (charsOfFrames frames ++ 'T' :: (name.toList ++ [c])) p := by
  unfold stepVariableName at h
  split at h
  · rename_i hc
    split at h
    · cases h
    · rename_i hn
      obtain rfl := Except.ok.inj h
      have hr : (JavaType.variable name).IsReference := trivial
      have hobeys : (JavaType.variable name).Obeys scanned := ⟨hn, hfree⟩
      rw [hc]
      exact stands_close hf (JavaType.suits_of_isReference hr hobeys _)
  · rename_i hc
    obtain rfl := Except.ok.inj h
    rw [← String.toList_push]
    exact ⟨rfl, hf, free_push hfree (by simpa using hc)⟩

/-- A step adds its character to the text and keeps to the rules of the reader. -/
theorem OpenType.Obeys.stands_step {s : OpenType} (hs : s.Obeys place) (h : s.step c = .ok p) :
    Stands place (s.chars ++ [c]) p := by
  obtain ⟨frames, point⟩ := s
  obtain ⟨hf, hp⟩ := hs
  rw [OpenType.chars, List.append_assoc]
  cases point with
  | typeStart voidAllowed => exact stands_stepType hf hp h
  | referenceStart => exact stands_stepReference hf h
  | className owner => exact stands_stepClassName hf hp h
  | argumentStart owner before => exact stands_stepArgument hf hp h
  | argumentsEnd owner => exact stands_stepArgumentsEnd hf hp h
  | variableName name => exact stands_stepVariableName hf hp h

end Steps

section Runs

variable {σ α : Type} {r : Reader σ α}

theorem Reader.runs_of_advance {cs : List Char} {s last : σ} {position : Nat}
    (h : r.advance s position cs = .ok last) : r.Runs s cs last := by
  induction cs generalizing s position with
  | nil =>
    obtain rfl := Except.ok.inj h
    exact .nil s
  | cons c rest ih =>
    unfold Reader.advance at h
    split at h
    · cases h
    · rename_i next hnext
      exact .cons hnext (ih h)

/-- What is read of a text is the end of a run over its characters. -/
theorem Reader.exists_runs_of_read {text : String} {a : α} (h : r.read text = .ok a) :
    ∃ last, r.Runs r.start text.toList last ∧ r.finish last = .ok a := by
  have hchars : r.readChars text.toList = .ok a := mapError_eq_ok_iff.1 h
  obtain ⟨last, hlast, hfinish⟩ := bind_eq_ok_iff.1 hchars
  exact ⟨last, Reader.runs_of_advance hlast, mapError_eq_ok_iff.1 hfinish⟩

/-- A run adds its characters to the text and keeps to the rules of the reader. -/
theorem stands_run {place : Place} {p last : TypeProgress} {cs : List Char}
    (h : typeReader.Runs p cs last) (hp : p.Obeys place) : Stands place (p.chars ++ cs) last := by
  induction h with
  | nil p => exact ⟨(List.append_nil _).symm, hp⟩
  | @cons p next last c cs hstep _ ih =>
    cases p with
    | complete t => cases hstep
    | reading s =>
      have hnext : Stands place (s.chars ++ [c]) next := OpenType.Obeys.stands_step hp hstep
      have hlast := ih hnext.obeys
      rw [hnext.chars, List.append_assoc] at hlast
      exact hlast

/-- The accepted texts are those of the types that obey the rules of the reader. -/
theorem parse_eq_ok_iff {text : String} {t : JavaType} :
    JavaType.parse text = .ok t ↔ t.text = text ∧ t.Suits scanned .result := by
  constructor
  · intro h
    obtain ⟨last, hruns, hfinish⟩ := Reader.exists_runs_of_read h
    have hlast : Stands .result text.toList last := stands_run hruns obeys_resultStart
    cases last with
    | reading s => cases hfinish
    | complete t' =>
      obtain rfl := Except.ok.inj hfinish
      refine ⟨?_, hlast.obeys⟩
      have hchars : t'.chars = text.toList := hlast.chars
      rw [JavaType.text, hchars, String.ofList_toList]
  · rintro ⟨rfl, h⟩
    exact h.parse_text

end Runs

end JvmRoutes.Signature
