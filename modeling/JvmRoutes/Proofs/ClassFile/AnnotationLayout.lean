import JvmRoutes.ClassFile.AnnotationTable
import JvmRoutes.Proofs.ClassFile.PoolLayout
import JvmRoutes.Proofs.OrderedMap
import JvmRoutes.Proofs.TypeName

/-!
Annotations and their values as the class file format lays them out. Each layout of an annotation is
read as that annotation.
-/
namespace JvmRoutes.ClassFile

def TextAt (constants : List PoolConstant) (index : UInt16) (s : String) : Prop :=
  constantAt? constants index.toNat = some (.text (Text.ModifiedUtf8.units s.toList))

/-- The name of a class is at the index, with slashes as the format has it. -/
def ClassAt (constants : List PoolConstant) (index : UInt16) (name : String) : Prop :=
  TypeName.IsDotted name ∧ ∃ text, constantAt? constants index.toNat = some (.className text) ∧
    TextAt constants text (TypeName.slashed name)

def ClassDescriptorAt (constants : List PoolConstant) (index : UInt16) (name : String) : Prop :=
  TypeName.IsDotted name ∧ TextAt constants index (TypeName.classDescriptor name)

/-- The descriptor of a type, or of the missing result, is at the index. -/
def DescriptorAt (constants : List PoolConstant) (index : UInt16) (name : String) : Prop :=
  ∃ d, TypeName.Describes d name.toList ∧ TextAt constants index (String.ofList d)

/-- The byte that says of which kind a value is. -/
def tagByte (tag : Char) : UInt8 := UInt8.ofNat tag.toNat

def countedBytes (pieces : List (List UInt8)) : List UInt8 :=
  bigEndian 2 pieces.length ++ pieces.flatten

section Layouts

variable (constants : List PoolConstant) (visible : Bool)

mutual

/-- The bytes are an annotation. No two values of it have one name. -/
inductive AnnotationLayout : List UInt8 → Annotation → Prop
  | mk {type : UInt16} {typeName : String} {pieces : List (List UInt8)}
    {pairs : List (String × Element)} (ht : ClassDescriptorAt constants type typeName)
    (hp : List.Forall₂ PairLayout pieces pairs) (hn : (pairs.map (·.1)).Nodup)
    (hc : pieces.length < 65536) :
    AnnotationLayout (indexBytes type ++ countedBytes pieces)
      { typeName, values := ⟨pairs⟩, visible }

/-- The bytes are a name and its value. -/
inductive PairLayout : List UInt8 → String × Element → Prop
  | mk {name : UInt16} {s : String} {bytes : List UInt8} {e : Element}
    (hn : TextAt constants name s) (he : ElementLayout bytes e) :
    PairLayout (indexBytes name ++ bytes) (s, e)

inductive ElementLayout : List UInt8 → Element → Prop
  | integer {tag : Char} {i : UInt16} {n : Int32} (ht : tag = 'B' ∨ tag = 'I' ∨ tag = 'S')
    (hi : constantAt? constants i.toNat = some (.integer n)) :
    ElementLayout (tagByte tag :: indexBytes i) (.integer n.toInt)
  | long {i : UInt16} {n : Int64} (hi : constantAt? constants i.toNat = some (.long n)) :
    ElementLayout (tagByte 'J' :: indexBytes i) (.integer n.toInt)
  | float {i : UInt16} {bits : UInt32} (hi : constantAt? constants i.toNat = some (.float bits)) :
    ElementLayout (tagByte 'F' :: indexBytes i) (.real (.ofBinary32 bits))
  | double {i : UInt16} {bits : UInt64}
    (hi : constantAt? constants i.toNat = some (.double bits)) :
    ElementLayout (tagByte 'D' :: indexBytes i) (.real ⟨bits⟩)
  | character {i : UInt16} {n : Int32} {c : Char}
    (hi : constantAt? constants i.toNat = some (.integer n)) (hc : n.toInt = c.toNat) :
    ElementLayout (tagByte 'C' :: indexBytes i) (.text (String.singleton c))
  | truth {i : UInt16} {n : Int32} (hi : constantAt? constants i.toNat = some (.integer n)) :
    ElementLayout (tagByte 'Z' :: indexBytes i) (.truth (n.toInt != 0))
  | text {i : UInt16} {s : String} (hi : TextAt constants i s) :
    ElementLayout (tagByte 's' :: indexBytes i) (.text s)
  | constant {type name : UInt16} {typeName s : String}
    (ht : ClassDescriptorAt constants type typeName) (hn : TextAt constants name s) :
    ElementLayout (tagByte 'e' :: (indexBytes type ++ indexBytes name)) (.constant typeName s)
  | className {i : UInt16} {name : String} (hi : DescriptorAt constants i name) :
    ElementLayout (tagByte 'c' :: indexBytes i) (.text name)
  | nested {bytes : List UInt8} {a : Annotation} (ha : AnnotationLayout bytes a) :
    ElementLayout (tagByte '@' :: bytes) (.nested a)
  | array {pieces : List (List UInt8)} {items : List Element}
    (hi : List.Forall₂ ElementLayout pieces items) (hc : pieces.length < 65536) :
    ElementLayout (tagByte '[' :: countedBytes pieces) (.array items)

end

/-- The bytes are a list of annotations with its length in front. -/
inductive AnnotationsLayout : List UInt8 → List Annotation → Prop
  | mk {pieces : List (List UInt8)} {annotations : List Annotation}
    (ha : List.Forall₂ (AnnotationLayout constants visible) pieces annotations)
    (hc : pieces.length < 65536) : AnnotationsLayout (countedBytes pieces) annotations

/-- The bytes are such a list for each of some parameters, with their number in front. -/
inductive ParameterAnnotationsLayout : List UInt8 → List (List Annotation) → Prop
  | mk {pieces : List (List UInt8)} {lists : List (List Annotation)}
    (ha : List.Forall₂ (AnnotationsLayout constants visible) pieces lists) (hc : pieces.length < 256) :
    ParameterAnnotationsLayout (bigEndian 1 pieces.length ++ pieces.flatten) lists

end Layouts

section Constants

variable {constants : List PoolConstant} {pool : ConstantPool} (h : pool.Holds constants)
include h

theorem text_eq {i : UInt16} {s : String} (hi : TextAt constants i s) :
    pool.text i.toNat = .ok s := by
  obtain ⟨k, hk, hkept⟩ := h _ _ hi
  cases hkept with
  | text hs =>
    have := Text.ModifiedUtf8.units_injective hs
    rw [ConstantPool.text, hk, String.toList_inj.1 this]

theorem className_eq {i : UInt16} {name : String} (hi : ClassAt constants i name) :
    pool.className i.toNat = .ok name := by
  obtain ⟨hd, text, hc, ht⟩ := hi
  obtain ⟨k, hk, hkept⟩ := h _ _ hc
  cases hkept
  rw [ConstantPool.className, hk]
  simp only [text_eq h ht, Except.map, TypeName.dotted_slashed hd]

private theorem value_text {i : UInt16} {s : String} (hi : TextAt constants i s) :
    pool.value i.toNat = .ok (.text s) := by
  obtain ⟨k, hk, hkept⟩ := h _ _ hi
  cases hkept with
  | text hs =>
    have := Text.ModifiedUtf8.units_injective hs
    rw [ConstantPool.value, hk, String.toList_inj.1 this]

private theorem value_integer {i : UInt16} {n : Int32}
    (hi : constantAt? constants i.toNat = some (.integer n)) :
    pool.value i.toNat = .ok (.integer n.toInt) := by
  obtain ⟨k, hk, hkept⟩ := h _ _ hi
  cases hkept
  rw [ConstantPool.value, hk]

private theorem value_long {i : UInt16} {n : Int64}
    (hi : constantAt? constants i.toNat = some (.long n)) :
    pool.value i.toNat = .ok (.integer n.toInt) := by
  obtain ⟨k, hk, hkept⟩ := h _ _ hi
  cases hkept
  rw [ConstantPool.value, hk]

private theorem value_float {i : UInt16} {bits : UInt32}
    (hi : constantAt? constants i.toNat = some (.float bits)) :
    pool.value i.toNat = .ok (.real (.ofBinary32 bits)) := by
  obtain ⟨k, hk, hkept⟩ := h _ _ hi
  cases hkept
  rw [ConstantPool.value, hk]

private theorem value_double {i : UInt16} {bits : UInt64}
    (hi : constantAt? constants i.toNat = some (.double bits)) :
    pool.value i.toNat = .ok (.real ⟨bits⟩) := by
  obtain ⟨k, hk, hkept⟩ := h _ _ hi
  cases hkept
  rw [ConstantPool.value, hk]

end Constants

namespace ByteReader

variable {constants : List PoolConstant} {pool : ConstantPool}

theorem reads_textRef (h : pool.Holds constants) {i : UInt16} {s : String}
    (hi : TextAt constants i s) : Reads (textRef pool) (indexBytes i) s :=
  (reads_index i).andThen (reads_lift (text_eq h hi))

theorem reads_classRef (h : pool.Holds constants) {i : UInt16} {name : String}
    (hi : ClassAt constants i name) : Reads (classRef pool) (indexBytes i) name :=
  (reads_index i).andThen (reads_lift (className_eq h hi))

/-- A table of items, with their number in front, is read item by item. -/
theorem reads_counted {α : Type} {item : ByteReader α} {pieces : List (List UInt8)}
    {values : List α} (h : List.Forall₂ (Reads item) pieces values) (hc : pieces.length < 65536) :
    Reads (u2 >>= fun count => times count item) (countedBytes pieces) values := by
  refine (reads_u2 hc).bind ?_
  rw [h.length_eq]
  exact reads_times h

private theorem characterText_toNat (c : Char) : characterText c.toNat = String.singleton c := by
  have hv : c.toNat.isValidChar := c.valid
  have hs : (decide (0xD800 ≤ c.toNat) && decide (c.toNat < 0xE000)) = false := by
    rcases hv with hv | hv <;> simp <;> omega
  simp only [characterText, hs, Bool.false_eq_true, if_false, Char.ofNat_toNat]

private theorem characterOf_eq {n : Int} {c : Char} (h : n = c.toNat) :
    characterOf (.integer n) = .ok (.text (String.singleton c)) := by
  subst h
  have hv : c.toNat.isValidChar := c.valid
  have hlt : (c.toNat : Int) < 0x110000 := by rcases hv with hv | hv <;> omega
  have hn : (decide (0 ≤ (c.toNat : Int)) && decide ((c.toNat : Int) < 0x110000)) = true := by
    simp [hlt]
  simp only [characterOf, hn, Int.toNat_natCast, if_true, characterText_toNat]

private theorem length_le_flatten {pieces : List (List UInt8)} {piece : List UInt8}
    (h : piece ∈ pieces) :
    piece.length ≤ pieces.flatten.length := (List.sublist_flatten_of_mem h).length_le

section Nesting

variable {visible : Bool} {depth : Nat}

/-- Elements are read at a depth, if they have no more bytes than that. -/
private def ReadsElements (constants : List PoolConstant) (pool : ConstantPool) (visible : Bool)
    (depth : Nat) : Prop :=
  ∀ bytes e, ElementLayout constants visible bytes e → bytes.length < depth →
    Reads (elementAt pool visible depth) bytes e

/-- Annotations are read at a depth, if they have no more bytes than that. -/
private def ReadsAnnotations (constants : List PoolConstant) (pool : ConstantPool)
    (visible : Bool) (depth : Nat) : Prop :=
  ∀ bytes a, AnnotationLayout constants visible bytes a → bytes.length < depth →
    Reads (annotationAt pool visible depth) bytes a

private theorem reads_annotationAt_succ (h : pool.Holds constants)
    (ihe : ReadsElements constants pool visible depth) :
    ReadsAnnotations constants pool visible (depth + 1) := by
  intro bytes a ha hd
  obtain ⟨ht, hp, hn, hc⟩ := ha
  rename_i type typeName pieces pairs
  have hpairs : List.Forall₂ (Reads (do
      let name ← textRef pool
      let value ← elementAt pool visible depth
      pure (name, value))) pieces pairs := by
    refine forall₂_imp_of_mem hp fun piece hm pair hpair => ?_
    obtain ⟨hname, hvalue⟩ := hpair
    refine (reads_textRef h hname).bind ((ihe _ _ hvalue ?_).andThen (reads_pure _))
    have := length_le_flatten hm
    simp only [indexBytes, countedBytes, List.length_append, length_bigEndian] at this hd
    omega
  rw [annotationAt]
  refine (reads_textRef h ht.2).bind (((reads_u2 hc).bind ?_))
  rw [hp.length_eq]
  refine (reads_times hpairs).andThen ?_
  rw [OrderedMap.ofList_eq hn, TypeName.described_classDescriptor ht.1]
  exact reads_pure _

private theorem reads_elementAt_succ (h : pool.Holds constants)
    (iha : ReadsAnnotations constants pool visible depth)
    (ihe : ReadsElements constants pool visible depth) :
    ReadsElements constants pool visible (depth + 1) := by
  intro bytes e he hd
  rw [elementAt]
  cases he with
  | @integer tag i n ht hi =>
    have hv := reads_lift (value_integer h hi)
    rcases ht with rfl | rfl | rfl <;> exact (reads_u1 _).bind ((reads_index i).andThen hv)
  | @long i n hi =>
    exact (reads_u1 _).bind ((reads_index i).andThen (reads_lift (value_long h hi)))
  | @float i bits hi =>
    exact (reads_u1 _).bind ((reads_index i).andThen (reads_lift (value_float h hi)))
  | @double i bits hi =>
    exact (reads_u1 _).bind ((reads_index i).andThen (reads_lift (value_double h hi)))
  | @character i n c hi hc =>
    refine (reads_u1 _).bind ((reads_index i).andThen ?_)
    exact (reads_lift (value_integer h hi)).andThen (reads_lift (characterOf_eq hc))
  | @truth i n hi =>
    refine (reads_u1 _).bind ((reads_index i).andThen ?_)
    exact (reads_lift (value_integer h hi)).andThen (reads_pure _)
  | @text i s hi =>
    exact (reads_u1 _).bind ((reads_index i).andThen (reads_lift (value_text h hi)))
  | @constant type name typeName s ht hn =>
    refine (reads_u1 _).bind ((reads_textRef h ht.2).bind ?_)
    refine (reads_textRef h hn).andThen ?_
    rw [TypeName.described_classDescriptor ht.1]
    exact reads_pure _
  | @className i name hi =>
    obtain ⟨d, hd, hi⟩ := hi
    refine (reads_u1 _).bind ((reads_textRef h hi).andThen ?_)
    rw [TypeName.described_ofList hd]
    exact reads_pure _
  | @nested bytes a ha =>
    refine (reads_u1 _).bind ((iha _ _ ha ?_).andThen (reads_pure _))
    simpa using hd
  | @array pieces items hi hc =>
    have hitems : List.Forall₂ (Reads (elementAt pool visible depth)) pieces items := by
      refine forall₂_imp_of_mem hi fun piece hm item hitem => ihe _ _ hitem ?_
      have := length_le_flatten hm
      simp only [countedBytes, List.length_cons, List.length_append] at hd
      omega
    refine (reads_u1 _).bind ((reads_u2 hc).bind ?_)
    rw [hi.length_eq]
    exact (reads_times hitems).andThen (reads_pure _)

/-- What is nested in a value or an annotation has fewer bytes, so that the depth suffices. -/
private theorem reads_at (h : pool.Holds constants) (visible : Bool) (depth : Nat) :
    ReadsAnnotations constants pool visible depth ∧
      ReadsElements constants pool visible depth := by
  induction depth with
  | zero =>
    constructor
    · intro bytes a ha hd
      exact absurd hd (Nat.not_lt_zero _)
    · intro bytes e he hd
      exact absurd hd (Nat.not_lt_zero _)
  | succ depth ih =>
    obtain ⟨iha, ihe⟩ := ih
    exact ⟨reads_annotationAt_succ h ihe, reads_elementAt_succ h iha ihe⟩

end Nesting

/-- A layout of a list of annotations is read as that list. -/
theorem reads_annotationList (h : pool.Holds constants) {visible : Bool} {bytes : List UInt8}
    {annotations : List Annotation} (ha : AnnotationsLayout constants visible bytes annotations)
    {depth : Nat} (hd : bytes.length < depth) :
    Reads (annotationList pool visible depth) bytes annotations := by
  obtain ⟨ha, hc⟩ := ha
  rename_i pieces
  refine reads_counted (forall₂_imp_of_mem ha fun piece hm a hpiece => ?_) hc
  have := length_le_flatten hm
  rw [countedBytes, List.length_append] at hd
  exact (reads_at h visible depth).1 _ _ hpiece (by omega)

/-- A layout of lists of annotations for parameters is read as these lists. -/
theorem reads_parameterAnnotationLists (h : pool.Holds constants) {visible : Bool}
    {bytes : List UInt8} {lists : List (List Annotation)}
    (ha : ParameterAnnotationsLayout constants visible bytes lists) {depth : Nat}
    (hd : bytes.length < depth) :
    Reads (parameterAnnotationLists pool visible depth) bytes lists := by
  obtain ⟨ha, hc⟩ := ha
  rename_i pieces
  refine (reads_u1_bigEndian hc).bind ?_
  rw [ha.length_eq]
  refine reads_times (forall₂_imp_of_mem ha fun piece hm list hpiece => ?_)
  have := length_le_flatten hm
  rw [List.length_append] at hd
  exact reads_annotationList h hpiece (by omega)

end ByteReader

end JvmRoutes.ClassFile
