import JvmRoutes.ClassFile.AnnotationTable
import JvmRoutes.Proofs.ClassFile.Locality

/-!
Annotations without a bound on their depth. The bound never counts where there are fewer bytes than
it has room for, since every value takes some.
-/
namespace JvmRoutes.ClassFile

variable (pool : ConstantPool) (visible : Bool)

/-- What follows the tag of an annotation element, given how to read what is nested in it. -/
def elementBehind (nested : ByteReader Annotation) (item : ByteReader Element) (tag : Char) :
    ByteReader Element :=
  match tag with
  | 'B' | 'D' | 'F' | 'I' | 'J' | 'S' | 's' => do pool.value (← u2)
  | 'C' => do characterOf (← pool.value (← u2))
  | 'Z' => do return truthOf (← pool.value (← u2))
  | 'e' => do
    let typeName ← textRef pool
    let name ← textRef pool
    return .constant (TypeName.described typeName) name
  | 'c' => do return .text (TypeName.described (← textRef pool))
  | '@' => do return .nested (← nested)
  | '[' => do
    let count ← u2
    return .array (← times count item)
  | _ => throw (.unknownElement tag)

theorem elementAt_succ (depth : Nat) : elementAt pool visible (depth + 1) = (do
    let tag ← u1
    elementBehind pool (annotationAt pool visible depth) (elementAt pool visible depth)
      (Char.ofNat tag)) := by
  rw [elementAt]
  rfl

namespace ByteReader

variable {α β : Type} {pool}

theorem isSequence_textRef : IsSequence (textRef pool) := IsSequence.u2.bind fun _ => .lift _

theorem isLocal_textRef : IsLocal (textRef pool) := isSequence_textRef.isLocal

theorem isLocal_value : IsLocal (do pool.value (← u2)) := isLocal_u2.bind fun _ => isLocal_lift _

variable (pool)

theorem isLocal_elementBehind {nested : ByteReader Annotation} {item : ByteReader Element}
    (hn : nested.IsLocal) (hi : item.IsLocal) (tag : Char) :
    IsLocal (elementBehind pool nested item tag) := by
  unfold elementBehind
  split
  iterate 7 exact isLocal_value
  · exact isLocal_u2.bind fun _ => (isLocal_lift _).bind fun _ => isLocal_lift _
  · exact isLocal_u2.bind fun _ => (isLocal_lift _).bind fun _ => isLocal_pure _
  · exact isLocal_textRef.bind fun _ => isLocal_textRef.bind fun _ => isLocal_pure _
  · exact isLocal_textRef.bind fun _ => isLocal_pure _
  · exact hn.bind fun _ => isLocal_pure _
  · exact isLocal_u2.bind fun count => (hi.times count).bind fun _ => isLocal_pure _
  · exact isLocal_throw _

theorem isLocal_at (depth : Nat) :
    IsLocal (annotationAt pool visible depth) ∧ IsLocal (elementAt pool visible depth) := by
  induction depth with
  | zero =>
    constructor <;>
    · intro c a c' h
      simp only [annotationAt, elementAt] at h
      cases h
  | succ depth ih =>
    obtain ⟨iha, ihe⟩ := ih
    constructor
    · rw [annotationAt]
      refine isLocal_textRef.bind fun _ => isLocal_u2.bind fun count => ?_
      refine IsLocal.bind (IsLocal.times ?_ count) fun _ => isLocal_pure _
      exact isLocal_textRef.bind fun _ => ihe.bind fun _ => isLocal_pure _
    · rw [elementAt_succ]
      exact isLocal_u1.bind fun tag => isLocal_elementBehind pool iha ihe _

/-- Two readers make the same of what is behind the cursor. -/
private def AgreeAt (c : Cursor) (r r' : ByteReader α) : Prop := r c = r' c

/-- Readers with a part in front agree where those behind it do. -/
theorem bind_congr_after {r : ByteReader α} {g g' : α → ByteReader β} {c : Cursor}
    (h : ∀ a c', r c = .ok (a, c') → g a c' = g' a c') : (r >>= g) c = (r >>= g') c := by
  change (r c >>= fun p => g p.1 p.2) = (r c >>= fun p => g' p.1 p.2)
  cases hr : r c with
  | error f => rfl
  | ok p => exact h p.1 p.2 hr

private theorem bind_congr_at {r r' : ByteReader α} {g : α → ByteReader β} {c : Cursor}
    (h : r c = r' c) : (r >>= g) c = (r' >>= g) c := by
  change (r c >>= fun p => g p.1 p.2) = (r' c >>= fun p => g p.1 p.2)
  rw [h]

private theorem times_congr {item item' : ByteReader α} (hl : item.IsLocal) {size : Nat}
    (h : ∀ c : Cursor, c.rest.length ≤ size → item c = item' c) (count : Nat) {c : Cursor}
    (hc : c.rest.length ≤ size) : times count item c = times count item' c := by
  induction count generalizing c with
  | zero => rfl
  | succ count ih =>
    rw [times, times, bind_congr_at (h c hc)]
    refine bind_congr_after fun a c' ha => bind_congr_at (ih ?_)
    rw [← h c hc] at ha
    exact (hl.length_le ha).trans hc

private theorem elementBehind_congr {nested nested' : ByteReader Annotation}
    {item item' : ByteReader Element} (hl : item.IsLocal) {c : Cursor} (hn : nested c = nested' c)
    (hi : ∀ c' : Cursor, c'.rest.length ≤ c.rest.length → item c' = item' c') (tag : Char) :
    AgreeAt c (elementBehind pool nested item tag) (elementBehind pool nested' item' tag) := by
  unfold elementBehind
  split <;> try rfl
  · exact bind_congr_at hn
  · refine bind_congr_after fun count c₂ h₂ => bind_congr_at ?_
    exact times_congr hl hi count (isLocal_u2.length_le h₂)

private theorem length_lt_u1 {c c' : Cursor} {n : Nat} (h : u1 c = .ok (n, c')) :
    c'.rest.length < c.rest.length := by
  obtain ⟨offset, bytes⟩ := c
  unfold u1 at h
  split at h
  · rename_i b rest hb
    obtain rfl : bytes = b :: rest := hb
    cases h
    exact Nat.lt_succ_self _
  · cases h

private theorem length_lt_textRef {c c' : Cursor} {s : String} (h : textRef pool c = .ok (s, c')) :
    c'.rest.length < c.rest.length := by
  obtain ⟨offset, bytes⟩ := c
  obtain ⟨index, c₁, hindex, hs⟩ := bind_eq_ok.1 h
  have hle := (isLocal_lift _).length_le hs
  unfold u2 at hindex
  split at hindex
  · rename_i a b rest hb
    obtain rfl : bytes = a :: b :: rest := hb
    cases hindex
    simp only [List.length_cons] at hle ⊢
    omega
  · cases hindex

/-- Two depths with room for all bytes make no difference. -/
theorem at_congr (depth : Nat) : ∀ (depth' : Nat) (c : Cursor), c.rest.length < depth →
    c.rest.length < depth' →
    annotationAt pool visible depth c = annotationAt pool visible depth' c ∧
    elementAt pool visible depth c = elementAt pool visible depth' c := by
  induction depth with
  | zero => exact fun _ _ h => absurd h (Nat.not_lt_zero _)
  | succ depth ih =>
    intro depth' c h h'
    obtain _ | depth' := depth'
    · exact absurd h' (Nat.not_lt_zero _)
    constructor
    · rw [annotationAt, annotationAt]
      refine bind_congr_after fun _ c₁ h₁ => bind_congr_after fun count c₂ h₂ => bind_congr_at ?_
      have hlt := length_lt_textRef pool h₁
      have hle := isLocal_u2.length_le h₂
      refine times_congr (isLocal_textRef.bind fun _ =>
        (isLocal_at pool visible depth).2.bind fun _ => isLocal_pure _) (fun c' hc' => ?_) count hle
      refine bind_congr_after fun _ c₃ h₃ => bind_congr_at ?_
      have hle' := isLocal_textRef.length_le h₃
      exact (ih depth' c₃ (by omega) (by omega)).2
    · rw [elementAt_succ, elementAt_succ]
      refine bind_congr_after fun tag c₁ h₁ => ?_
      have hlt := length_lt_u1 h₁
      exact elementBehind_congr pool (isLocal_at pool visible depth).2
        (ih depth' c₁ (by omega) (by omega)).1
        (fun c' hc' => (ih depth' c' (by omega) (by omega)).2) _

end ByteReader

/-- An annotation, however deep values are nested in it. -/
def annotationReader : ByteReader Annotation := fun c => annotationAt pool visible (c.rest.length + 1) c

/-- The value of an annotation element, however deep others are nested in it. -/
def elementReader : ByteReader Element := fun c => elementAt pool visible (c.rest.length + 1) c

/-- A list of annotations, however deep values are nested in them. -/
def annotationsReader : ByteReader (List Annotation) := do
  let count ← u2
  times count (annotationReader pool visible)

/-- A list of annotations for each of some parameters, however deep values are nested in them. -/
def parameterAnnotationsReader : ByteReader (List (List Annotation)) := do
  let count ← u1
  times count (annotationsReader pool visible)

namespace ByteReader

variable {pool visible}

theorem annotationAt_eq {depth : Nat} {c : Cursor} (h : c.rest.length < depth) :
    annotationAt pool visible depth c = annotationReader pool visible c :=
  (at_congr pool visible depth _ c h (Nat.lt_succ_self _)).1

theorem elementAt_eq {depth : Nat} {c : Cursor} (h : c.rest.length < depth) :
    elementAt pool visible depth c = elementReader pool visible c :=
  (at_congr pool visible depth _ c h (Nat.lt_succ_self _)).2

/-- A reader is local if it is the same as a local one on any number of bytes. -/
private theorem isLocal_of_depths {α : Type} {r : ByteReader α} {at' : (depth : Nat) → ByteReader α}
    (hl : ∀ depth, (at' depth).IsLocal)
    (h : ∀ depth (c : Cursor), c.rest.length < depth → at' depth c = r c) : r.IsLocal := by
  intro c a c' hc
  rw [← h _ c (Nat.lt_succ_self _)] at hc
  obtain ⟨bytes, hb, hreads⟩ := hl _ c a c' hc
  refine ⟨bytes, hb, fun offset rest => ?_⟩
  -- With the bytes alone, any depth with room for them gives the value, also one for `rest`.
  have halone := hreads offset []
  rw [List.append_nil] at halone
  rw [h _ _ (by rw [hb, List.length_append]; exact Nat.lt_succ_of_le (Nat.le_add_right _ _)),
    ← h ((bytes ++ rest).length + 1) _ (by simp only [List.length_append]; omega)] at halone
  obtain ⟨front, back, hfront, hreads', hend⟩ := Reads.of_eq_ok (hl _) halone
  injection hend with _ hback
  rw [← hback, List.append_nil] at hfront
  rw [hfront, ← h _ _ (Nat.lt_succ_self _)]
  exact hfront ▸ hreads' offset rest

theorem isLocal_annotationReader : IsLocal (annotationReader pool visible) :=
  isLocal_of_depths (fun depth => (isLocal_at pool visible depth).1) fun _ _ => annotationAt_eq

theorem isLocal_elementReader : IsLocal (elementReader pool visible) :=
  isLocal_of_depths (fun depth => (isLocal_at pool visible depth).2) fun _ _ => elementAt_eq

theorem isLocal_annotationsReader : IsLocal (annotationsReader pool visible) :=
  isLocal_u2.bind fun count => isLocal_annotationReader.times count

abbrev pairReader (pool : ConstantPool) (visible : Bool) : ByteReader (String × Element) := do
  let name ← textRef pool
  let value ← elementReader pool visible
  pure (name, value)

theorem isLocal_pairReader : IsLocal (pairReader pool visible) :=
  isLocal_textRef.bind fun _ => isLocal_elementReader.bind fun _ => isLocal_pure _

theorem annotationReader_eq : annotationReader pool visible = do
    let typeName ← textRef pool
    let count ← u2
    let pairs ← times count (pairReader pool visible)
    return { typeName := TypeName.described typeName, values := .ofList pairs, visible } := by
  funext c
  rw [annotationReader, annotationAt]
  refine bind_congr_after fun _ c₁ h₁ => bind_congr_after fun count c₂ h₂ => bind_congr_at ?_
  have hlt := length_lt_textRef pool h₁
  have hle := isLocal_u2.length_le h₂
  refine times_congr (isLocal_textRef.bind fun _ =>
    (isLocal_at pool visible _).2.bind fun _ => isLocal_pure _) (fun c' hc' => ?_) count hle
  refine bind_congr_after fun _ c₃ h₃ => bind_congr_at (elementAt_eq ?_)
  have hle' := isLocal_textRef.length_le h₃
  omega

theorem elementReader_eq : elementReader pool visible = (do
    let tag ← u1
    elementBehind pool (annotationReader pool visible) (elementReader pool visible) (Char.ofNat tag)) := by
  funext c
  rw [elementReader, elementAt_succ]
  refine bind_congr_after fun tag c₁ h₁ => ?_
  have hlt := length_lt_u1 h₁
  exact elementBehind_congr pool (isLocal_at pool visible _).2 (annotationAt_eq hlt)
    (fun c' hc' => elementAt_eq (by omega)) _

theorem annotationList_eq {depth : Nat} {c : Cursor} (h : c.rest.length < depth) :
    annotationList pool visible depth c = annotationsReader pool visible c := by
  refine bind_congr_after fun count c' hc' => ?_
  have hle := isLocal_u2.length_le hc'
  exact times_congr (isLocal_at pool visible depth).1 (fun c' hc' => annotationAt_eq (by omega))
    count hle

theorem parameterAnnotationLists_eq {depth : Nat} {c : Cursor} (h : c.rest.length < depth) :
    parameterAnnotationLists pool visible depth c = parameterAnnotationsReader pool visible c := by
  refine bind_congr_after fun count c' hc' => ?_
  have hle := isLocal_u1.length_le hc'
  have hl : IsLocal (annotationList pool visible depth) :=
    isLocal_u2.bind fun count => (isLocal_at pool visible depth).1.times count
  exact times_congr hl (fun c' hc' => annotationList_eq (by omega)) count hle

end ByteReader

end JvmRoutes.ClassFile
