import JvmRoutes.Signature.JavaType
import Mathlib.Tactic.Common

/-! Types as trees in which a class has its canonical name and the arguments of the innermost class. -/
namespace JvmRoutes.Signature

/-- A type by its canonical names. -/
inductive TypeTree
  | primitive (p : Primitive)
  | variable (name : String)
  | array (component : TypeTree)
  | object (name : String) (arguments : List TypeTree)
  | anything
  | extending (bound : TypeTree)
  | superOf (bound : TypeTree)
  deriving Repr

namespace TypeTree

mutual

def canonicalName : TypeTree → String
  | primitive p => p.name
  | .variable name => name
  | array component => component.canonicalName ++ "[]"
  | object name arguments => name ++ angled (canonicalNames arguments)
  | anything => "?"
  | extending bound => "? extends " ++ bound.canonicalName
  | superOf bound => "? super " ++ bound.canonicalName

def canonicalNames : List TypeTree → List String
  | [] => []
  | t :: rest => t.canonicalName :: canonicalNames rest

end

end TypeTree

mutual

def JavaType.tree : JavaType → TypeTree
  | .primitive p => .primitive p
  | .variable name => .variable name
  | .array component => .array component.tree
  | .object c => c.tree

def ClassType.tree : ClassType → TypeTree
  | .outermost name none => .object (TypeName.dotted name) []
  | .outermost name (some arguments) => .object (TypeName.dotted name) (treeOfEach arguments)
  | .inner enclosing name none => .object (enclosing.name ++ "$" ++ name) []
  | .inner enclosing name (some arguments) =>
    .object (enclosing.name ++ "$" ++ name) (treeOfEach arguments)

def TypeArgument.tree : TypeArgument → TypeTree
  | .any => .anything
  | .exactly t => t.tree
  | .upTo t => .extending t.tree
  | .downTo t => .superOf t.tree

def treeOfEach : List TypeArgument → List TypeTree
  | [] => []
  | a :: rest => a.tree :: treeOfEach rest

end

mutual

theorem JavaType.render_eq : ∀ t : JavaType, t.render = t.tree.canonicalName
  | .primitive p => rfl
  | .variable name => rfl
  | .array component => by
    rw [JavaType.render, JavaType.tree, TypeTree.canonicalName, component.render_eq]
  | .object c => by rw [JavaType.render, JavaType.tree, c.render_eq]

theorem ClassType.render_eq : ∀ c : ClassType, c.render = c.tree.canonicalName
  | .outermost name none => by simp [ClassType.render, ClassType.tree, TypeTree.canonicalName,
      TypeTree.canonicalNames, angled]
  | .outermost name (some arguments) => by
    rw [ClassType.render, ClassType.tree, TypeTree.canonicalName, renderEach_eq]
  | .inner enclosing name none => by simp [ClassType.render, ClassType.tree,
      TypeTree.canonicalName, TypeTree.canonicalNames, angled]
  | .inner enclosing name (some arguments) => by
    rw [ClassType.render, ClassType.tree, TypeTree.canonicalName, renderEach_eq]

theorem TypeArgument.render_eq : ∀ a : TypeArgument, a.render = a.tree.canonicalName
  | .any => rfl
  | .exactly t => by rw [TypeArgument.render, TypeArgument.tree, t.render_eq]
  | .upTo t => by
    rw [TypeArgument.render, TypeArgument.tree, TypeTree.canonicalName, t.render_eq]
  | .downTo t => by
    rw [TypeArgument.render, TypeArgument.tree, TypeTree.canonicalName, t.render_eq]

theorem renderEach_eq : ∀ arguments : List TypeArgument,
    renderEach arguments = TypeTree.canonicalNames (treeOfEach arguments)
  | [] => rfl
  | a :: rest => by
    rw [renderEach, treeOfEach, TypeTree.canonicalNames, a.render_eq, renderEach_eq rest]

end

end JvmRoutes.Signature
