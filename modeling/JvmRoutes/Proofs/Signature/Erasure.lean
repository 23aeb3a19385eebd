import JvmRoutes.Proofs.Signature.MethodParsing

/-!
What is left of a derivation in a descriptor. Classes lose their arguments and go by one name with
those around them, and variables give way to classes that bound them. The erasure of a type can be
taken from the derivation or from what is left of it.
-/
namespace JvmRoutes.Signature

/-- The name of a class and of one inside it, with a dollar sign between them. -/
def Identifier.joined (outer inner : Identifier) : Identifier where
  chars := outer.chars ++ '$' :: inner.chars
  nonempty := by simp
  free c hc := by
    rcases List.mem_append.1 hc with ho | hi
    · exact outer.free c ho
    rcases List.mem_cons.1 hi with rfl | hi
    · decide
    · exact inner.free c hi

/-- A class as descriptors have it. -/
structure ErasedClass where
  packages : List Identifier
  name : Identifier

def ErasedClass.reference (c : ErasedClass) : ReferenceSig :=
  .object (.outermost c.packages c.name [])

def ClassSig.erased : ClassSig → ErasedClass
  | .outermost packages name _ => ⟨packages, name⟩
  | .inner enclosing name _ => ⟨enclosing.erased.packages, enclosing.erased.name.joined name⟩

mutual

/-- The type in a descriptor. What bounds the variables is left to the declarations around it. -/
def FieldSig.erased (bounds : Identifier → ErasedClass) : FieldSig → FieldSig
  | .base p h => .base p h
  | .reference r => .reference (r.erased bounds)

def ReferenceSig.erased (bounds : Identifier → ErasedClass) : ReferenceSig → ReferenceSig
  | .variable name => (bounds name).reference
  | .array component => .array (component.erased bounds)
  | .object c => c.erased.reference

end

def ResultSig.erased (bounds : Identifier → ErasedClass) : ResultSig → ResultSig
  | .void => .void
  | .field s => .field (s.erased bounds)

/-- The descriptor, which has neither type parameters nor thrown types. -/
def MethodSig.erased (bounds : Identifier → ErasedClass) (s : MethodSig) : MethodSig where
  typeParameters := []
  parameters := s.parameters.map (·.erased bounds)
  result := s.result.erased bounds
  thrown := []

theorem Identifier.text_joined (outer inner : Identifier) :
    (outer.joined inner).text = outer.text ++ "$" ++ inner.text := by
  apply String.toList_inj.1
  simp [Identifier.joined, Identifier.text]

private theorem intercalate_append_last (separator : String) (names : List String)
    (last suffix : String) : String.intercalate separator (names ++ [last ++ suffix]) =
      String.intercalate separator (names ++ [last]) ++ suffix := by
  cases names with
  | nil => simp
  | cons first rest =>
    have hne : first :: rest ≠ [] := List.cons_ne_nil first rest
    rw [String.intercalate_append_of_ne_nil hne (List.cons_ne_nil _ _),
      String.intercalate_append_of_ne_nil hne (List.cons_ne_nil _ _)]
    simp only [String.intercalate_singleton, String.append_assoc]

/-- The name of a class does not change by erasure. -/
theorem ClassSig.name_erased : ∀ c : ClassSig,
    String.intercalate "." ((c.erased.packages ++ [c.erased.name]).map (·.text)) = c.name
  | .outermost packages name arguments => rfl
  | .inner enclosing name arguments => by
    have henclosing := enclosing.name_erased
    have hjoined := intercalate_append_last "." (enclosing.erased.packages.map (·.text))
      enclosing.erased.name.text ("$" ++ name.text)
    rw [List.map_append, List.map_singleton] at henclosing ⊢
    rw [ClassSig.erased, Identifier.text_joined, String.append_assoc, hjoined, henclosing,
      ClassSig.name, String.append_assoc]

theorem ClassSig.erasure_erased (c : ClassSig) : c.erased.reference.type.erasure = c.name := by
  have hname := (ClassSig.outermost c.erased.packages c.erased.name []).name_type
  rw [ErasedClass.reference, ReferenceSig.type, JavaType.erasure, hname, ClassSig.name]
  exact c.name_erased

theorem ErasedClass.render_type (c : ErasedClass) :
    c.reference.type.render = c.reference.type.erasure := rfl

section Shown

variable (bounds : Identifier → ErasedClass)

mutual

/-- A type in a descriptor is shown by its erasure, since it has neither arguments nor variables. -/
theorem FieldSig.render_erased : ∀ s : FieldSig,
    (s.erased bounds).type.render = (s.erased bounds).type.erasure
  | .base _ _ => rfl
  | .reference r => r.render_erased

theorem ReferenceSig.render_erased : ∀ r : ReferenceSig,
    (r.erased bounds).type.render = (r.erased bounds).type.erasure
  | .variable name => (bounds name).render_type
  | .array component => by
    rw [ReferenceSig.erased, ReferenceSig.type, JavaType.render, JavaType.erasure,
      component.render_erased]
  | .object c => c.erased.render_type

end

theorem ResultSig.render_erased (s : ResultSig) :
    (s.erased bounds).type.render = (s.erased bounds).type.erasure := by
  cases s with
  | void => rfl
  | field s => exact s.render_erased bounds

theorem ReferenceSig.slots_type (r : ReferenceSig) : r.type.slots = 1 := by
  cases r <;> rfl

theorem ResultSig.slots_erased (s : ResultSig) :
    (s.erased bounds).type.slots = s.type.slots := by
  cases s with
  | void => rfl
  | field s =>
    cases s with
    | base p h => rfl
    | reference r => exact (r.erased bounds).slots_type.trans r.slots_type.symm

end Shown

section Objects

def ErasedClass.object : ErasedClass where
  packages := [⟨"java".toList, by simp, by simp [IsDelimiter]⟩,
    ⟨"lang".toList, by simp, by simp [IsDelimiter]⟩]
  name := ⟨"Object".toList, by simp, by simp [IsDelimiter]⟩

theorem ErasedClass.erasure_object : ErasedClass.object.reference.type.erasure = objectClass := by
  decide

/-- The type in a descriptor, where variables stand for any object. -/
def ResultSig.descriptor (s : ResultSig) : ResultSig := s.erased fun _ => .object

def MethodSig.descriptor (s : MethodSig) : MethodSig := s.erased fun _ => .object

mutual

/-- A type is erased as its descriptor is. -/
theorem FieldSig.erasure_erased : ∀ s : FieldSig,
    (s.erased fun _ => .object).type.erasure = s.type.erasure
  | .base _ _ => rfl
  | .reference r => r.erasure_erased

theorem ReferenceSig.erasure_erased : ∀ r : ReferenceSig,
    (r.erased fun _ => .object).type.erasure = r.type.erasure
  | .variable _ => ErasedClass.erasure_object
  | .array component => by
    rw [ReferenceSig.erased, ReferenceSig.type, ReferenceSig.type, JavaType.erasure,
      JavaType.erasure, component.erasure_erased]
  | .object c => by
    rw [ReferenceSig.erased, c.erasure_erased, ReferenceSig.type, JavaType.erasure, c.name_type]

end

theorem ResultSig.erasure_descriptor (s : ResultSig) :
    s.descriptor.type.erasure = s.type.erasure := by
  cases s with
  | void => rfl
  | field s => exact s.erasure_erased

end Objects

end JvmRoutes.Signature
