import JvmRoutes.Proofs.Signature.TypeTree

/-!
Derivations in the grammar of type signatures. A derivation has a text and a type, and neither
knows how a text is read.
-/
namespace JvmRoutes.Signature

/-- A character that no identifier has. -/
def IsDelimiter (c : Char) : Prop := c ∈ ['.', ';', '[', '/', '<', '>', ':']

instance (c : Char) : Decidable (IsDelimiter c) := inferInstanceAs (Decidable (_ ∈ _))

structure Identifier where
  chars : List Char
  nonempty : chars ≠ []
  free : ∀ c ∈ chars, ¬ IsDelimiter c

def Identifier.text (i : Identifier) : String := String.ofList i.chars

mutual

/-- A type of a field or a parameter. -/
inductive FieldSig
  | base (p : Primitive) (h : p ≠ .void)
  | reference (r : ReferenceSig)

/-- A type of which values are references. -/
inductive ReferenceSig
  | variable (name : Identifier)
  | array (component : FieldSig)
  | object (c : ClassSig)

/-- A class with its packages or inside another one. Without arguments it has no angle brackets. -/
inductive ClassSig
  | outermost (packages : List Identifier) (name : Identifier) (arguments : List ArgumentSig)
  | inner (enclosing : ClassSig) (name : Identifier) (arguments : List ArgumentSig)

inductive ArgumentSig
  | any
  | exactly (r : ReferenceSig)
  | upTo (bound : ReferenceSig)
  | downTo (bound : ReferenceSig)

end

/-- A whole signature: a type, or the missing result. -/
inductive ResultSig
  | void
  | field (s : FieldSig)

section Texts

def packageChars (packages : List Identifier) : List Char :=
  packages.flatMap fun i => i.chars ++ ['/']

mutual

def FieldSig.chars : FieldSig → List Char
  | .base p _ => [p.letter]
  | .reference r => r.chars

def ReferenceSig.chars : ReferenceSig → List Char
  | .variable name => 'T' :: (name.chars ++ [';'])
  | .array component => '[' :: component.chars
  | .object c => 'L' :: (c.chars ++ [';'])

def ClassSig.chars : ClassSig → List Char
  | .outermost packages name arguments =>
    packageChars packages ++ (name.chars ++ bracketChars arguments)
  | .inner enclosing name arguments =>
    enclosing.chars ++ '.' :: (name.chars ++ bracketChars arguments)

def bracketChars : List ArgumentSig → List Char
  | [] => []
  | a :: rest => '<' :: (a.chars ++ (argumentChars rest ++ ['>']))

def ArgumentSig.chars : ArgumentSig → List Char
  | .any => ['*']
  | .exactly r => r.chars
  | .upTo bound => '+' :: bound.chars
  | .downTo bound => '-' :: bound.chars

def argumentChars : List ArgumentSig → List Char
  | [] => []
  | a :: rest => a.chars ++ argumentChars rest

end

def ResultSig.chars : ResultSig → List Char
  | .void => ['V']
  | .field s => s.chars

def ResultSig.text (s : ResultSig) : String := String.ofList s.chars

end Texts

section Trees

/-- The name of a class: its packages and the class outside all others behind dots, and each class
inside it behind a dollar sign. -/
def ClassSig.name : ClassSig → String
  | .outermost packages name _ => String.intercalate "." ((packages ++ [name]).map (·.text))
  | .inner enclosing name _ => enclosing.name ++ "$" ++ name.text

mutual

def FieldSig.tree : FieldSig → TypeTree
  | .base p _ => .primitive p
  | .reference r => r.tree

def ReferenceSig.tree : ReferenceSig → TypeTree
  | .variable name => .variable name.text
  | .array component => .array component.tree
  | .object c => .object c.name c.argumentTrees

def ClassSig.argumentTrees : ClassSig → List TypeTree
  | .outermost _ _ arguments => argumentTrees arguments
  | .inner _ _ arguments => argumentTrees arguments

def ArgumentSig.tree : ArgumentSig → TypeTree
  | .any => .anything
  | .exactly r => r.tree
  | .upTo bound => .extending bound.tree
  | .downTo bound => .superOf bound.tree

def argumentTrees : List ArgumentSig → List TypeTree
  | [] => []
  | a :: rest => a.tree :: argumentTrees rest

end

def ResultSig.tree : ResultSig → TypeTree
  | .void => .primitive .void
  | .field s => s.tree

end Trees

section Types

def slashedName (packages : List Identifier) (name : Identifier) : String :=
  String.ofList (packageChars packages ++ name.chars)

mutual

/-- The type with the arguments of all classes, also those that others are inside of. -/
def FieldSig.type : FieldSig → JavaType
  | .base p _ => .primitive p
  | .reference r => r.type

def ReferenceSig.type : ReferenceSig → JavaType
  | .variable name => .variable name.text
  | .array component => .array component.type
  | .object c => .object c.type

def ClassSig.type : ClassSig → ClassType
  | .outermost packages name arguments =>
    .outermost (slashedName packages name) (bracketed arguments)
  | .inner enclosing name arguments => .inner enclosing.type name.text (bracketed arguments)

def bracketed : List ArgumentSig → Option (List TypeArgument)
  | [] => none
  | a :: rest => some (a.type :: argumentTypes rest)

def ArgumentSig.type : ArgumentSig → TypeArgument
  | .any => .any
  | .exactly r => .exactly r.type
  | .upTo bound => .upTo bound.type
  | .downTo bound => .downTo bound.type

def argumentTypes : List ArgumentSig → List TypeArgument
  | [] => []
  | a :: rest => a.type :: argumentTypes rest

end

def ResultSig.type : ResultSig → JavaType
  | .void => .primitive .void
  | .field s => s.type

end Types

section Agreement

theorem Identifier.swapChars_eq (i : Identifier) : TypeName.swapChars '/' '.' i.chars = i.chars := by
  have hswap : ∀ c ∈ i.chars, (if c = '/' then '.' else c) = c := by
    intro c hc
    have hne : c ≠ '/' := by
      rintro rfl
      exact i.free _ hc (by decide)
    exact if_neg hne
  rw [TypeName.swapChars, List.map_congr_left hswap, List.map_id']

/-- Dots take the place of the slashes. -/
theorem dotted_slashedName (packages : List Identifier) (name : Identifier) :
    TypeName.dotted (slashedName packages name) =
      String.intercalate "." ((packages ++ [name]).map (·.text)) := by
  rw [TypeName.dotted, TypeName.swap, slashedName, String.toList_ofList]
  induction packages with
  | nil =>
    rw [packageChars, List.flatMap_nil, List.nil_append, name.swapChars_eq]
    exact String.intercalate_singleton.symm
  | cons i rest ih =>
    have hne : (rest ++ [name]).map (·.text) ≠ [] := by simp
    rw [List.cons_append, List.map_cons, String.intercalate_cons_of_ne_nil hne, ← ih]
    have hi := i.swapChars_eq
    unfold TypeName.swapChars at hi ⊢
    apply String.toList_inj.1
    simp [packageChars, Identifier.text, hi]

theorem ClassSig.name_type : ∀ c : ClassSig, c.type.name = c.name
  | .outermost packages name arguments => by
    rw [ClassSig.type, ClassType.name, ClassSig.name, dotted_slashedName]
  | .inner enclosing name arguments => by
    rw [ClassSig.type, ClassType.name, ClassSig.name, enclosing.name_type]

mutual

theorem FieldSig.tree_type : ∀ s : FieldSig, s.type.tree = s.tree
  | .base p _ => rfl
  | .reference r => by rw [FieldSig.type, FieldSig.tree, r.tree_type]

theorem ReferenceSig.tree_type : ∀ r : ReferenceSig, r.type.tree = r.tree
  | .variable name => rfl
  | .array component => by
    rw [ReferenceSig.type, ReferenceSig.tree, JavaType.tree, component.tree_type]
  | .object c => by rw [ReferenceSig.type, ReferenceSig.tree, JavaType.tree, c.tree_type]

theorem ClassSig.tree_type : ∀ c : ClassSig, c.type.tree = .object c.name c.argumentTrees
  | .outermost packages name [] => by
    rw [ClassSig.type, bracketed, ClassType.tree, ClassSig.name, dotted_slashedName]
    rfl
  | .outermost packages name (a :: rest) => by
    rw [ClassSig.type, bracketed, ClassType.tree, ClassSig.name, dotted_slashedName,
      ClassSig.argumentTrees, argumentTrees, treeOfEach, a.tree_type, trees_types rest]
  | .inner enclosing name [] => by
    rw [ClassSig.type, bracketed, ClassType.tree, ClassSig.name, enclosing.name_type]
    rfl
  | .inner enclosing name (a :: rest) => by
    rw [ClassSig.type, bracketed, ClassType.tree, ClassSig.name, enclosing.name_type,
      ClassSig.argumentTrees, argumentTrees, treeOfEach, a.tree_type, trees_types rest]

theorem ArgumentSig.tree_type : ∀ a : ArgumentSig, a.type.tree = a.tree
  | .any => rfl
  | .exactly r => by rw [ArgumentSig.type, ArgumentSig.tree, TypeArgument.tree, r.tree_type]
  | .upTo bound => by rw [ArgumentSig.type, ArgumentSig.tree, TypeArgument.tree, bound.tree_type]
  | .downTo bound => by
    rw [ArgumentSig.type, ArgumentSig.tree, TypeArgument.tree, bound.tree_type]

theorem trees_types : ∀ arguments : List ArgumentSig,
    treeOfEach (argumentTypes arguments) = argumentTrees arguments
  | [] => rfl
  | a :: rest => by
    rw [argumentTypes, treeOfEach, argumentTrees, a.tree_type, trees_types rest]

end

theorem ResultSig.tree_type (s : ResultSig) : s.type.tree = s.tree := by
  cases s with
  | void => rfl
  | field s => exact s.tree_type

end Agreement

end JvmRoutes.Signature
