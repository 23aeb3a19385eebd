import JvmRoutes.Proofs.ClassFile.AnnotationLayout
import JvmRoutes.Proofs.ClassFile.Depth

/-!
Where annotations fail although the format is not broken: at a character that is given by something
else than the code of one.
-/
namespace JvmRoutes.ClassFile

open ByteReader

section References

variable (pool : ConstantPool)

theorem not_escapes_text (index : Nat) (f : Fault) : ¬ EscapesWith (pool.text index) f := by
  unfold ConstantPool.text
  split
  · exact not_escapes_ok _ f
  · exact not_escapes_error rfl f

theorem not_escapes_map {α β : Type} {x : Except Fault α} {g : α → β} {f : Fault}
    (h : ¬ EscapesWith x f) : ¬ EscapesWith (x.map g) f := by
  cases x with
  | error e =>
    intro h
    obtain ⟨he, hf⟩ := h
    cases he
    exact h ⟨rfl, hf⟩
  | ok a => exact not_escapes_ok _ f

theorem not_escapes_className (index : Nat) (f : Fault) : ¬ EscapesWith (pool.className index) f := by
  unfold ConstantPool.className
  split
  · exact not_escapes_map (not_escapes_text pool _ f)
  · exact not_escapes_error rfl f

theorem not_escapes_value (index : Nat) (f : Fault) : ¬ EscapesWith (pool.value index) f := by
  unfold ConstantPool.value
  split
  iterate 5 exact not_escapes_ok _ f
  · exact not_escapes_map (not_escapes_text pool _ f)
  · exact not_escapes_error rfl f

theorem keepsFormat_textRef : KeepsFormat (textRef pool) :=
  keepsFormat_u2.bind fun _ => keepsFormat_lift (not_escapes_text pool _)

theorem keepsFormat_classRef : KeepsFormat (classRef pool) :=
  keepsFormat_u2.bind fun _ => keepsFormat_lift (not_escapes_className pool _)

theorem isSequence_classRef : IsSequence (classRef pool) := IsSequence.u2.bind fun _ => .lift _

theorem keepsFormat_attributes : KeepsFormat (attributes pool) := by
  refine keepsFormat_u2.bind fun count => (KeepsFormat.times ?_ count).bind fun _ =>
    keepsFormat_pure _
  exact (keepsFormat_textRef pool).bind fun _ => keepsFormat_u4.bind fun _ =>
    (keepsFormat_take _).bind fun _ => keepsFormat_pure _

theorem isSequence_attributes : IsSequence (attributes pool) := by
  refine IsSequence.u2.bind fun count => (IsSequence.times ?_ count).bind fun _ => isSequence_pure _
  exact isSequence_textRef.bind fun _ => IsSequence.u4.bind fun _ =>
    (IsSequence.take _).bind fun _ => isSequence_pure _

theorem isLocal_attributes : IsLocal (attributes pool) := (isSequence_attributes pool).isLocal

theorem reads_textRef_iff {bytes : List UInt8} {s : String} :
    Reads (textRef pool) bytes s ↔ ∃ i : UInt16, bytes = indexBytes i ∧ pool.text i.toNat = .ok s := by
  rw [textRef, reads_bind_iff isLocal_u2 fun _ => isLocal_lift _]
  constructor
  · intro h
    obtain ⟨front, back, n, rfl, hn, hlift⟩ := h
    obtain ⟨i, rfl, rfl⟩ := reads_u2_iff.1 hn
    obtain ⟨rfl, hs⟩ := reads_lift_iff.1 hlift
    exact ⟨i, List.append_nil _, hs⟩
  · intro h
    obtain ⟨i, rfl, hs⟩ := h
    exact ⟨_, _, _, (List.append_nil _).symm, reads_index i, reads_lift hs⟩

theorem escapes_textRef {α : Type} {g : String → ByteReader α} {offset : Nat} {bytes : List UInt8}
    {f : Fault} : (textRef pool >>= g).Escapes ⟨offset, bytes⟩ f ↔
      ∃ (i : UInt16) (s : String) (rest : List UInt8), bytes = indexBytes i ++ rest ∧
        pool.text i.toNat = .ok s ∧
        (g s).Escapes ⟨offset + (indexBytes i).length, rest⟩ f := by
  rw [escapes_bind isLocal_textRef (keepsFormat_textRef pool)]
  constructor
  · intro h
    obtain ⟨front, back, s, rfl, href, h⟩ := h
    obtain ⟨i, rfl, hs⟩ := (reads_textRef_iff pool).1 href
    exact ⟨i, s, back, rfl, hs, h⟩
  · intro h
    obtain ⟨i, s, rest, rfl, hs, h⟩ := h
    exact ⟨_, rest, _, rfl, (reads_textRef_iff pool).2 ⟨i, rfl, hs⟩, h⟩

end References

section Values

variable (pool : ConstantPool) (visible : Bool)

mutual

/-- In the value of an annotation element, behind what can be read, a character is given by something
else than the code of one. -/
inductive ElementMisses : List UInt8 → Fault → Prop
  | character {i : UInt16} {e : Element} {f : Fault} {rest : List UInt8}
    (he : pool.value i.toNat = .ok e) (hf : characterOf e = .error f) :
    ElementMisses (tagByte 'C' :: (indexBytes i ++ rest)) f
  | nested {bytes : List UInt8} {f : Fault} (h : AnnotationMisses bytes f) :
    ElementMisses (tagByte '@' :: bytes) f
  | array {count : UInt16} {bytes : List UInt8} {f : Fault}
    (h : ItemMisses (elementReader pool visible) ElementMisses count.toNat bytes f) :
    ElementMisses (tagByte '[' :: (indexBytes count ++ bytes)) f

/-- One of the values of an annotation has such a character. -/
inductive AnnotationMisses : List UInt8 → Fault → Prop
  | mk {type count : UInt16} {typeName : String} {bytes : List UInt8} {f : Fault}
    (ht : pool.text type.toNat = .ok typeName)
    (h : ItemMisses (pairReader pool visible) PairMisses count.toNat bytes f) :
    AnnotationMisses (indexBytes type ++ (indexBytes count ++ bytes)) f

/-- The value behind a name has such a character. -/
inductive PairMisses : List UInt8 → Fault → Prop
  | mk {name : UInt16} {s : String} {bytes : List UInt8} {f : Fault}
    (hn : pool.text name.toNat = .ok s) (h : ElementMisses bytes f) :
    PairMisses (indexBytes name ++ bytes) f

end

/-- A character is refused for what gives it, not for the format. -/
theorem breaksFormat_of_characterOf {e : Element} {f : Fault} (h : characterOf e = .error f) :
    f.breaksFormat = false := by
  unfold characterOf at h
  split at h
  · split at h
    · cases h
    · split at h <;> cases h <;> rfl
  · cases h
    rfl

private theorem ofNat_toNat_eq_iff (b : UInt8) {c : Char} (hc : c.toNat < 256) :
    Char.ofNat b.toNat = c ↔ b = tagByte c := by
  have hb : b.toNat < 256 := b.toNat_lt
  have hn : (Char.ofNat b.toNat).toNat = b.toNat := by
    have hv : b.toNat.isValidChar := Or.inl (by omega)
    rw [Char.ofNat, dif_pos hv]
    rfl
  constructor
  · intro h
    rw [tagByte, ← h, hn, UInt8.ofNat_toNat]
  · intro h
    have ht : b.toNat = c.toNat := by
      rw [h, tagByte]
      simpa using hc
    rw [ht, Char.ofNat_toNat]

variable {pool visible}

theorem escapes_character {offset : Nat} {bytes : List UInt8} {f : Fault} :
    ByteReader.Escapes (do characterOf (← pool.value (← u2))) ⟨offset, bytes⟩ f ↔
      ∃ (i : UInt16) (rest : List UInt8) (e : Element), bytes = indexBytes i ++ rest ∧
        pool.value i.toNat = .ok e ∧ characterOf e = .error f := by
  rw [escapes_u2]
  constructor
  · intro h
    obtain ⟨i, rest, rfl, h⟩ := h
    rw [escapes_bind (isLocal_lift _) (keepsFormat_lift (not_escapes_value pool _))] at h
    obtain ⟨front, back, e, -, he, h⟩ := h
    exact ⟨i, rest, e, rfl, (reads_lift_iff.1 he).2, (escapes_lift.1 h).1⟩
  · intro h
    obtain ⟨i, rest, e, rfl, he, hf⟩ := h
    refine ⟨i, rest, rfl, ?_⟩
    rw [escapes_bind (isLocal_lift _) (keepsFormat_lift (not_escapes_value pool _))]
    exact ⟨[], rest, e, rfl, reads_lift he,
      escapes_lift.2 ⟨hf, breaksFormat_of_characterOf hf⟩⟩

/-- Behind its tag, an element escapes at a character, or in what is nested in it. -/
theorem escapes_elementBehind {nested : ByteReader Annotation} {item : ByteReader Element}
    {Nested Item : List UInt8 → Fault → Prop} (hl : item.IsLocal) {offset : Nat}
    {bytes : List UInt8} {f : Fault} (hn : nested.Escapes ⟨offset, bytes⟩ f ↔ Nested bytes f)
    (hi : ∀ offset rest, rest.length ≤ bytes.length →
      (item.Escapes ⟨offset, rest⟩ f ↔ Item rest f)) (tag : Char) :
    (elementBehind pool nested item tag).Escapes ⟨offset, bytes⟩ f ↔
      (tag = 'C' ∧ ∃ (i : UInt16) (rest : List UInt8) (e : Element), bytes = indexBytes i ++ rest ∧
        pool.value i.toNat = .ok e ∧ characterOf e = .error f) ∨
      (tag = '@' ∧ Nested bytes f) ∨
      (tag = '[' ∧ ∃ (count : UInt16) (rest : List UInt8), bytes = indexBytes count ++ rest ∧
        ItemMisses item Item count.toNat rest f) := by
  have hvalue : KeepsFormat (do pool.value (← u2)) :=
    keepsFormat_u2.bind fun _ => keepsFormat_lift (not_escapes_value pool _)
  have htext := keepsFormat_textRef pool
  unfold elementBehind
  split
  iterate 7 exact iff_of_false (hvalue _ _) (by simp)
  · simp [escapes_character]
  · refine iff_of_false (KeepsFormat.bind keepsFormat_u2 (fun _ => ?_) _ _) (by simp)
    exact (keepsFormat_lift (not_escapes_value pool _)).bind fun _ => keepsFormat_pure _
  · refine iff_of_false (htext.bind (fun _ => htext.bind fun _ => keepsFormat_pure _) _ _) (by simp)
  · exact iff_of_false (htext.bind (fun _ => keepsFormat_pure _) _ _) (by simp)
  · rw [escapes_bind_left fun _ => keepsFormat_pure _]
    simpa using hn
  · rw [escapes_u2]
    simp only [Char.reduceEq, false_and, false_or, true_and]
    refine exists_congr fun count => exists_congr fun rest => and_congr_right fun hb => ?_
    rw [escapes_bind_left fun _ => keepsFormat_pure _]
    refine escapes_times hl (fun offset rest' hr => hi offset rest' (hr.trans ?_)) _ _
    simp [hb]
  · rename_i hcharacter _ _ _ hnested harray
    refine iff_of_false (keepsFormat_throw rfl _ _) ?_
    intro h
    rcases h with ⟨h, -⟩ | ⟨h, -⟩ | ⟨h, -⟩
    · exact hcharacter h
    · exact hnested h
    · exact harray h

private theorem elementMisses_iff {bytes : List UInt8} {f : Fault} :
    ElementMisses pool visible bytes f ↔ ∃ (b : UInt8) (rest : List UInt8), bytes = b :: rest ∧
      ((b = tagByte 'C' ∧ ∃ (i : UInt16) (back : List UInt8) (e : Element),
          rest = indexBytes i ++ back ∧ pool.value i.toNat = .ok e ∧ characterOf e = .error f) ∨
        (b = tagByte '@' ∧ AnnotationMisses pool visible rest f) ∨
        (b = tagByte '[' ∧ ∃ (count : UInt16) (back : List UInt8), rest = indexBytes count ++ back ∧
          ItemMisses (elementReader pool visible) (ElementMisses pool visible) count.toNat back f)) := by
  constructor
  · intro h
    rcases h with ⟨he, hf⟩ | h | h
    · exact ⟨_, _, rfl, Or.inl ⟨rfl, _, _, _, rfl, he, hf⟩⟩
    · exact ⟨_, _, rfl, Or.inr (Or.inl ⟨rfl, h⟩)⟩
    · exact ⟨_, _, rfl, Or.inr (Or.inr ⟨rfl, _, _, rfl, h⟩)⟩
  · intro h
    obtain ⟨b, rest, rfl, ⟨rfl, i, back, e, rfl, he, hf⟩ | ⟨rfl, h⟩ | ⟨rfl, count, back, rfl, h⟩⟩ := h
    · exact .character he hf
    · exact .nested h
    · exact .array h

private theorem pairMisses_iff {bytes : List UInt8} {f : Fault} :
    PairMisses pool visible bytes f ↔ ∃ (i : UInt16) (s : String) (rest : List UInt8),
      bytes = indexBytes i ++ rest ∧ pool.text i.toNat = .ok s ∧
        ElementMisses pool visible rest f := by
  constructor
  · intro h
    obtain ⟨hn, h⟩ := h
    exact ⟨_, _, _, rfl, hn, h⟩
  · intro h
    obtain ⟨i, s, rest, rfl, hn, h⟩ := h
    exact .mk hn h

private theorem annotationMisses_iff {bytes : List UInt8} {f : Fault} :
    AnnotationMisses pool visible bytes f ↔ ∃ (i : UInt16) (s : String) (rest : List UInt8),
      bytes = indexBytes i ++ rest ∧ pool.text i.toNat = .ok s ∧
        ∃ (count : UInt16) (back : List UInt8), rest = indexBytes count ++ back ∧
          ItemMisses (pairReader pool visible) (PairMisses pool visible) count.toNat back f := by
  constructor
  · intro h
    obtain ⟨ht, h⟩ := h
    exact ⟨_, _, _, rfl, ht, _, _, rfl, h⟩
  · intro h
    obtain ⟨i, s, rest, rfl, ht, count, back, rfl, h⟩ := h
    exact .mk ht h

/-- Annotations and their values escape from their bytes at characters in them. -/
private theorem escapes_of_length (f : Fault) (size : Nat) : ∀ bytes : List UInt8,
    bytes.length < size → ∀ offset,
      ((annotationReader pool visible).Escapes ⟨offset, bytes⟩ f ↔
        AnnotationMisses pool visible bytes f) ∧
      ((elementReader pool visible).Escapes ⟨offset, bytes⟩ f ↔
        ElementMisses pool visible bytes f) := by
  induction size with
  | zero => exact fun _ h => absurd h (Nat.not_lt_zero _)
  | succ size ih =>
    intro bytes hlt offset
    constructor
    · rw [annotationReader_eq, escapes_textRef, annotationMisses_iff]
      refine exists_congr fun i => exists_congr fun s => exists_congr fun rest =>
        and_congr_right fun hb => and_congr_right fun _ => ?_
      rw [escapes_u2]
      refine exists_congr fun count => exists_congr fun back => and_congr_right fun hrest => ?_
      rw [escapes_bind_left fun _ => keepsFormat_pure _]
      refine escapes_times isLocal_pairReader (fun offset rest' hr => ?_) _ _
      rw [escapes_textRef, pairMisses_iff]
      refine exists_congr fun i => exists_congr fun s => exists_congr fun last =>
        and_congr_right fun hlast => and_congr_right fun _ => ?_
      rw [escapes_bind_left fun _ => keepsFormat_pure _]
      have hlen : last.length < size := by
        rw [hb, hrest] at hlt
        rw [hlast] at hr
        simp only [indexBytes, List.length_append, length_bigEndian] at hlt hr
        omega
      exact (ih last hlen _).2
    · rw [elementReader_eq, escapes_u1, elementMisses_iff]
      refine exists_congr fun b => exists_congr fun rest => and_congr_right fun hb => ?_
      have hlen : rest.length < size := by
        rw [hb] at hlt
        exact Nat.lt_of_succ_lt_succ hlt
      rw [escapes_elementBehind isLocal_elementReader (ih rest hlen _).1
        fun offset rest' hr => (ih rest' (hr.trans_lt hlen) offset).2,
        ofNat_toNat_eq_iff b (by decide), ofNat_toNat_eq_iff b (by decide),
        ofNat_toNat_eq_iff b (by decide)]

theorem escapes_annotationReader {offset : Nat} {bytes : List UInt8} {f : Fault} :
    (annotationReader pool visible).Escapes ⟨offset, bytes⟩ f ↔ AnnotationMisses pool visible bytes f :=
  (escapes_of_length f _ bytes (Nat.lt_succ_self _) offset).1

/-- A list of annotations, with its length in front, has such a character. -/
inductive AnnotationsMiss (pool : ConstantPool) (visible : Bool) : List UInt8 → Fault → Prop
  | mk {count : UInt16} {bytes : List UInt8} {f : Fault}
    (h : ItemMisses (annotationReader pool visible) (AnnotationMisses pool visible) count.toNat bytes f) :
    AnnotationsMiss pool visible (indexBytes count ++ bytes) f

/-- One of such lists for parameters has such a character. -/
inductive ParameterAnnotationsMiss (pool : ConstantPool) (visible : Bool) :
    List UInt8 → Fault → Prop
  | mk {count : UInt8} {bytes : List UInt8} {f : Fault}
    (h : ItemMisses (annotationsReader pool visible) (AnnotationsMiss pool visible) count.toNat bytes f) :
    ParameterAnnotationsMiss pool visible (count :: bytes) f

theorem escapes_annotationsReader {offset : Nat} {bytes : List UInt8} {f : Fault} :
    (annotationsReader pool visible).Escapes ⟨offset, bytes⟩ f ↔ AnnotationsMiss pool visible bytes f := by
  have hitems (rest : List UInt8) (offset : Nat) (count : UInt16) :
      (times count.toNat (annotationReader pool visible)).Escapes ⟨offset, rest⟩ f ↔
        ItemMisses (annotationReader pool visible) (AnnotationMisses pool visible) count.toNat rest f :=
    escapes_times isLocal_annotationReader (fun _ _ _ => escapes_annotationReader) _ _
  rw [annotationsReader, escapes_u2]
  constructor
  · intro h
    obtain ⟨count, rest, rfl, h⟩ := h
    exact .mk ((hitems _ _ _).1 h)
  · intro h
    obtain ⟨h⟩ := h
    exact ⟨_, _, rfl, (hitems _ _ _).2 h⟩

theorem escapes_parameterAnnotationsReader {offset : Nat} {bytes : List UInt8} {f : Fault} :
    (parameterAnnotationsReader pool visible).Escapes ⟨offset, bytes⟩ f ↔
      ParameterAnnotationsMiss pool visible bytes f := by
  have hitems (rest : List UInt8) (offset : Nat) (count : UInt8) :
      (times count.toNat (annotationsReader pool visible)).Escapes ⟨offset, rest⟩ f ↔
        ItemMisses (annotationsReader pool visible) (AnnotationsMiss pool visible) count.toNat rest f :=
    escapes_times isLocal_annotationsReader (fun _ _ _ => escapes_annotationsReader) _ _
  rw [parameterAnnotationsReader, escapes_u1]
  constructor
  · intro h
    obtain ⟨count, rest, rfl, h⟩ := h
    exact .mk ((hitems _ _ _).1 h)
  · intro h
    obtain ⟨h⟩ := h
    exact ⟨_, _, rfl, (hitems _ _ _).2 h⟩

end Values

end JvmRoutes.ClassFile
