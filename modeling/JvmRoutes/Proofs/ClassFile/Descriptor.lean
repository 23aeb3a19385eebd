import JvmRoutes.Proofs.ClassFile.AnnotationEscape
import JvmRoutes.Proofs.Signature.Erasure

/-!
Descriptors of fields and what they stand for in annotations. The name that an annotation or one of
its values has for a descriptor is the one that the type in it is shown by.
-/
namespace JvmRoutes

namespace Signature

/-- A type as the descriptor of a field has it, without arguments and without variables. -/
inductive FieldDescriptor
  | base (p : Primitive) (h : p ≠ .void)
  | object (c : ErasedClass)
  | array (component : FieldDescriptor)

/-- A whole descriptor: that of a field, or the missing result. -/
inductive Descriptor
  | void
  | field (d : FieldDescriptor)

def FieldDescriptor.chars : FieldDescriptor → List Char
  | base p _ => [p.letter]
  | object c => 'L' :: (packageChars c.packages ++ (c.name.chars ++ [';']))
  | array component => '[' :: component.chars

def Descriptor.chars : Descriptor → List Char
  | void => [Primitive.void.letter]
  | field d => d.chars

def Descriptor.text (d : Descriptor) : String := String.ofList d.chars

def FieldDescriptor.signature : FieldDescriptor → FieldSig
  | base p h => .base p h
  | object c => .reference c.reference
  | array component => .reference (.array component.signature)

def Descriptor.signature : Descriptor → ResultSig
  | void => .void
  | field d => .field d.signature

theorem FieldDescriptor.chars_signature (d : FieldDescriptor) : d.signature.chars = d.chars := by
  induction d with
  | base p h => rfl
  | object c =>
    have hclass : (ClassSig.outermost c.packages c.name []).chars =
        packageChars c.packages ++ c.name.chars := by
      simp [ClassSig.chars, bracketChars]
    rw [signature, FieldSig.chars, ErasedClass.reference, ReferenceSig.chars, hclass, chars,
      List.append_assoc]
  | array component ih => rw [signature, FieldSig.chars, ReferenceSig.chars, ih, chars]

theorem Descriptor.text_signature (d : Descriptor) : d.signature.text = d.text := by
  cases d with
  | void => rfl
  | field d => exact congrArg String.ofList d.chars_signature

/-- Void is no field, so that there are no arrays of it. -/
theorem FieldDescriptor.chars_ne_void (d : FieldDescriptor) :
    d.chars ≠ [Primitive.void.letter] := by
  cases d with
  | base p h =>
    intro he
    have hletter : p.letter = Primitive.void.letter := (List.cons.inj he).1
    have hp := Primitive.ofLetter?_letter p
    rw [hletter, Primitive.ofLetter?_letter] at hp
    exact h (Option.some.inj hp).symm
  | object c =>
    intro he
    exact absurd (List.cons.inj he).1 (by decide)
  | array component =>
    intro he
    exact absurd (List.cons.inj he).1 (by decide)

/-- Slashes become dots and back again, since no name in a descriptor has a dot. -/
theorem ErasedClass.classDescriptor_render (c : ErasedClass) :
    (TypeName.classDescriptor c.reference.type.render).toList =
      'L' :: (packageChars c.packages ++ (c.name.chars ++ [';'])) := by
  have hdot : '.' ∉ (slashedName c.packages c.name).toList := fun hm =>
    (isScanned_slashedName c.packages c.name).free '.' hm (by decide)
  have hrender : c.reference.type.render = TypeName.dotted (slashedName c.packages c.name) := rfl
  rw [hrender, TypeName.classDescriptor, TypeName.slashed_dotted hdot]
  simp [slashedName]

theorem FieldDescriptor.describes (d : FieldDescriptor) :
    TypeName.Describes d.chars d.signature.type.render.toList := by
  induction d with
  | base p h => exact .primitive p
  | object c =>
    have hdotted : TypeName.IsDotted c.reference.type.render := TypeName.isDotted_dotted _
    have hclass := TypeName.Describes.className hdotted
    rwa [c.classDescriptor_render] at hclass
  | array component ih =>
    rw [signature, FieldSig.type, ReferenceSig.type, JavaType.render, String.toList_append]
    exact .array ih component.chars_ne_void

theorem Descriptor.described_text (d : Descriptor) :
    TypeName.described d.text = d.signature.type.render := by
  cases d with
  | void => exact TypeName.described_ofList (.primitive .void)
  | field d => exact TypeName.described_ofList d.describes

end Signature

namespace ClassFile

open ByteReader

/-- The text at an index is taken for a name: as the type of an annotation, as that of a constant,
and as a class which is a value. -/
structure StandsFor (pool : ConstantPool) (i : UInt16) (name : String) : Prop where
  annotation : ∀ visible bytes pairs,
    Reads (u2 >>= fun count => times count (pairReader pool visible)) bytes pairs →
      Reads (annotationReader pool visible) (indexBytes i ++ bytes)
        { typeName := name, values := .ofList pairs, visible }
  constant : ∀ visible (j : UInt16) s, pool.text j.toNat = .ok s →
    Reads (elementReader pool visible) (tagByte 'e' :: (indexBytes i ++ indexBytes j))
      (.constant name s)
  className : ∀ visible, Reads (elementReader pool visible) (tagByte 'c' :: indexBytes i) (.text name)

theorem standsFor_described {pool : ConstantPool} {i : UInt16} {text : String}
    (h : pool.text i.toNat = .ok text) : StandsFor pool i (TypeName.described text) := by
  have htext : Reads (textRef pool) (indexBytes i) text :=
    (reads_textRef_iff pool).2 ⟨i, rfl, h⟩
  refine ⟨fun visible bytes pairs hpairs => ?_, fun visible j s hs => ?_, fun visible => ?_⟩
  · rw [annotationReader_eq]
    refine htext.bind ?_
    rw [← List.append_nil bytes]
    exact hpairs.bindBoth (g := fun pairs => pure _) (reads_pure _)
  · rw [elementReader_eq]
    have hname : Reads (textRef pool) (indexBytes j) s :=
      (reads_textRef_iff pool).2 ⟨j, rfl, hs⟩
    exact (reads_u1 _).bind (htext.bind (hname.andThen (reads_pure _)))
  · rw [elementReader_eq]
    exact (reads_u1 _).bind (htext.andThen (reads_pure _))

open Signature (Descriptor JavaType)

/-- A descriptor stands for the name that the type in it is shown by. So annotations, constants and
classes as values are named like the types of parameters. -/
theorem described_eq_render (d : Descriptor) :
    ∃ t, JavaType.parse d.text = .ok t ∧ TypeName.described d.text = t.render ∧
      ∀ (pool : ConstantPool) (i : UInt16), pool.text i.toNat = .ok d.text →
        StandsFor pool i t.render := by
  have hparse : JavaType.parse d.text = .ok d.signature.type := by
    rw [← d.text_signature]
    exact Signature.parse_text d.signature
  have hrender := d.described_text
  refine ⟨d.signature.type, hparse, hrender, fun pool i h => ?_⟩
  rw [← hrender]
  exact standsFor_described h

theorem described_eq_render_objectTable :
    let pool : ConstantPool := ⟨#[some (.text "[[Ljava/lang/Object;")]⟩
    pool.text (1 : UInt16).toNat = .ok "[[Ljava/lang/Object;" ∧
      StandsFor pool 1 "java.lang.Object[][]" := by
  intro pool
  have htext : pool.text (1 : UInt16).toNat = .ok "[[Ljava/lang/Object;" := rfl
  obtain ⟨t, -, hdescribed, hstands⟩ :=
    described_eq_render (.field (.array (.array (.object .object))))
  have hname : t.render = "java.lang.Object[][]" := hdescribed.symm.trans (by decide)
  exact ⟨htext, hname ▸ hstands pool 1 htext⟩

end ClassFile

end JvmRoutes
