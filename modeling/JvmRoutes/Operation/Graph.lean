import JvmRoutes.Operation.Basic
import JvmRoutes.TypeName

/-! The graph of controllers and their routes. -/
namespace JvmRoutes

/-- A node of the graph. The color of a node in a group is that of the group. -/
structure GraphNode where
  id : String
  label : String
  title : String
  shape : String
  group : Option String := none
  color : Option String := none
  deriving Repr, DecidableEq

structure GraphEdge where
  source : String
  target : String
  title : String
  deriving Repr, DecidableEq

/-- Nodes that differ in their ids, and links between them. -/
structure RouteGraph where
  nodes : List GraphNode := []
  edges : List GraphEdge := []
  deriving Repr, DecidableEq

namespace RouteGraph

/-- The graph with a node, unless its id is taken. -/
def addNode (g : RouteGraph) (node : GraphNode) : RouteGraph :=
  if g.nodes.any (·.id == node.id) then g else { g with nodes := g.nodes ++ [node] }

def addEdge (g : RouteGraph) (edge : GraphEdge) : RouteGraph :=
  { g with edges := g.edges ++ [edge] }

def controllerColor : String := "#374151"

/-- What a node shows: a label, or its id when the label is empty. -/
def labelOr (id label : String) : String := if label = "" then id else label

def controllerNode (controller : String) : GraphNode where
  id := controller
  label := labelOr controller (TypeName.simple controller)
  title := controller
  shape := "box"
  color := some controllerColor

def routeLabel (o : Operation) : String := o.verb ++ " " ++ o.pattern

def routeId (o : Operation) : String := o.controller ++ " " ++ routeLabel o

def routeNode (o : Operation) : GraphNode where
  id := routeId o
  label := routeLabel o
  title := o.controller ++ "." ++ o.name ++ (if o.deprecated then " (deprecated)" else "")
  shape := "dot"
  group := some o.controller

def addOperation (g : RouteGraph) (o : Operation) : RouteGraph :=
  ((g.addNode (controllerNode o.controller)).addNode (routeNode o)).addEdge
    ⟨o.controller, routeId o, o.name⟩

def ofOperations (operations : List Operation) : RouteGraph := operations.foldl addOperation {}

end RouteGraph

end JvmRoutes
