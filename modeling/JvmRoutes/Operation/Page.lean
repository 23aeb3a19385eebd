import JvmRoutes.Operation.Graph

/-! The graph of routes as a page to be looked at. -/
namespace JvmRoutes.RouteGraph

def escapeChar (c : Char) : List Char :=
  if c = '<' then "&lt;".toList
  else if c = '>' then "&gt;".toList
  else if c = '&' then "&amp;".toList
  else if c = '"' then "&quot;".toList
  else [c]

def escape (s : String) : String := String.ofList (s.toList.flatMap escapeChar)

def pageOfController (g : RouteGraph) (controller : GraphNode) : String :=
  let edges := g.edges.filter (·.source == controller.id)
  let nodes := g.nodes.filter fun node => edges.any (·.target == node.id)
  "<h2>" ++ escape controller.title ++ "</h2>\n<ul>\n" ++
    String.join (nodes.map fun node =>
      "<li title=\"" ++ escape node.title ++ "\">" ++ escape node.label ++ "</li>\n") ++ "</ul>\n"

def page (g : RouteGraph) : String :=
  "<!DOCTYPE html>\n<html>\n<head><meta charset=\"utf-8\"><title>Routes</title></head>\n<body>\n" ++
    String.join ((g.nodes.filter (·.group.isNone)).map (pageOfController g)) ++
    "</body>\n</html>\n"

end JvmRoutes.RouteGraph
