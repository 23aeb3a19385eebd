/-! The graph of classes and their superclasses. -/
namespace JvmRoutes

/-- Names of classes, and links from classes to their superclasses. -/
structure Hierarchy where
  nodes : List String := []
  links : List (String × String) := []
  deriving Repr, DecidableEq

namespace Hierarchy

def addNode (h : Hierarchy) (name : String) : Hierarchy :=
  if h.nodes.contains name then h else { h with nodes := h.nodes ++ [name] }

/-- The graph with a link, and with the classes at its ends. -/
def addLink (h : Hierarchy) (name superclass : String) : Hierarchy :=
  let h := (h.addNode name).addNode superclass
  if h.links.contains (name, superclass) then h
  else { h with links := h.links ++ [(name, superclass)] }

/-- Whether at most `steps` links lead from one class to another. -/
def leads (links : List (String × String)) : (steps : Nat) → String → String → Bool
  | 0, a, b => a == b
  | steps + 1, a, b =>
    a == b || links.any fun link => link.1 == a && leads links steps link.2 b

/-- Whether links lead from one class to another. No way is longer than there are links. -/
def reaches (h : Hierarchy) (a b : String) : Bool := leads h.links h.links.length a b

end Hierarchy

end JvmRoutes
