import JvmRoutes.Operation.Graph
import Mathlib.Data.List.TakeWhile
import Mathlib.Data.Set.Function
import Mathlib.Tactic.Common

/-!
What a graph of routes has nodes and edges for. Ids of nodes are put together from names that may
hold blanks themselves. They can be read back nevertheless, so that no two controllers or routes
share a node.
-/
namespace JvmRoutes.RouteGraph

/-- What nodes stand for: controllers, and verbs on paths of controllers. -/
inductive Vertex
  | controller (name : String)
  | route (owner verb pattern : String)
  deriving DecidableEq, Repr

namespace Vertex

def id : Vertex → String
  | controller name => name
  | route owner verb pattern => owner ++ " " ++ (verb ++ " " ++ pattern)

/-- The vertex that the characters of an id spell. The first slash is that of a pattern, and the last
blank but one in front of it ends the name of the controller. -/
def ofChars (cs : List Char) : Vertex :=
  match cs.dropWhile (· != '/') with
  | [] => .controller (String.ofList cs)
  | pattern =>
    let back := (cs.takeWhile (· != '/')).reverse.tail
    .route (String.ofList (back.dropWhile (· != ' ')).tail.reverse)
      (String.ofList (back.takeWhile (· != ' ')).reverse) (String.ofList pattern)

/-- Slashes stand in patterns only, which start with one, and no blanks stand in verbs. -/
def IsLegible : Vertex → Prop
  | controller name => '/' ∉ name.toList
  | route owner verb pattern => '/' ∉ owner.toList ∧ '/' ∉ verb.toList ∧
    ' ' ∉ verb.toList ∧ pattern.toList.head? = some '/'

instance : (v : Vertex) → Decidable v.IsLegible
  | controller _ => inferInstanceAs (Decidable (_ ∉ _))
  | route _ _ _ => inferInstanceAs (Decidable (_ ∧ _))

private theorem forall_ne_of_not_mem {a : Char} {cs : List Char} (h : a ∉ cs) :
    ∀ c ∈ cs, (c != a) = true := by
  intro c hc
  have hne : c ≠ a := fun he => h (he ▸ hc)
  simpa using hne

private theorem ofChars_id_route {owner verb pattern : String}
    (h : (route owner verb pattern).IsLegible) :
    ofChars (route owner verb pattern).id.toList = route owner verb pattern := by
  obtain ⟨ho, hv, hb, hp⟩ := h
  obtain ⟨rest, hrest⟩ := List.head?_eq_some_iff.1 hp
  let front := owner.toList ++ ' ' :: verb.toList ++ [' ']
  have hchars : (route owner verb pattern).id.toList = front ++ '/' :: rest := by
    simp [id, front, hrest]
  have hfront : ∀ c ∈ front, (c != '/') = true := by
    apply forall_ne_of_not_mem
    simp [front, ho, hv]
  have htake : (front ++ '/' :: rest).takeWhile (· != '/') = front := by
    rw [List.takeWhile_append_of_pos hfront]
    simp
  have hdrop : (front ++ '/' :: rest).dropWhile (· != '/') = '/' :: rest := by
    rw [List.dropWhile_append_of_pos hfront]
    simp
  have hback : front.reverse.tail = verb.toList.reverse ++ ' ' :: owner.toList.reverse := by
    simp [front]
  have hverb : ∀ c ∈ verb.toList.reverse, (c != ' ') = true := by
    apply forall_ne_of_not_mem
    simpa using hb
  unfold ofChars
  rw [hchars, htake, hdrop, hback]
  dsimp only
  rw [List.dropWhile_append_of_pos hverb, List.takeWhile_append_of_pos hverb, ← hrest]
  simp

/-- An id can be read back. -/
theorem ofChars_id {v : Vertex} (h : v.IsLegible) : ofChars v.id.toList = v := by
  cases v with
  | controller name =>
    have hdrop : name.toList.dropWhile (· != '/') = [] :=
      List.dropWhile_eq_nil_iff.2 (forall_ne_of_not_mem h)
    unfold ofChars id
    rw [hdrop, String.ofList_toList]
  | route owner verb pattern => exact ofChars_id_route h

end Vertex

/-- The vertices that an operation stands for: its controller and its route. -/
def Vertex.ofOperation (o : Operation) : List Vertex :=
  [.controller o.controller, .route o.controller o.verb o.pattern]

def ids (g : RouteGraph) : List String := g.nodes.map (·.id)

variable {g : RouteGraph} {node : GraphNode} {i : String}

private theorem addNode_eq (g : RouteGraph) (node : GraphNode) :
    g.addNode node = if node.id ∈ g.ids then g else { g with nodes := g.nodes ++ [node] } := by
  have hany : g.nodes.any (·.id == node.id) = true ↔ node.id ∈ g.ids := by
    simp [ids]
  unfold addNode
  simp only [hany]

theorem mem_ids_addNode : i ∈ (g.addNode node).ids ↔ i ∈ g.ids ∨ i = node.id := by
  rw [addNode_eq]
  split
  · rename_i hn
    constructor
    · exact .inl
    · rintro (hi | rfl)
      · exact hi
      · exact hn
  · simp [ids]

theorem nodup_ids_addNode (h : g.ids.Nodup) : (g.addNode node).ids.Nodup := by
  rw [addNode_eq]
  split
  · exact h
  · rename_i hn
    have hids : ids { g with nodes := g.nodes ++ [node] } = g.ids ++ [node.id] := by simp [ids]
    rw [hids]
    refine List.nodup_append.2 ⟨h, by simp, ?_⟩
    rintro a ha b hb rfl
    exact hn (List.mem_singleton.1 hb ▸ ha)

theorem edges_addNode (g : RouteGraph) (node : GraphNode) : (g.addNode node).edges = g.edges := by
  rw [addNode_eq]
  split <;> rfl

theorem mem_nodes_addNode {other : GraphNode} (h : other ∈ (g.addNode node).nodes) :
    other ∈ g.nodes ∨ other = node := by
  rw [addNode_eq] at h
  split at h
  · exact .inl h
  · simpa using h

theorem ids_addOperation (g : RouteGraph) (o : Operation) : (g.addOperation o).ids =
    ((g.addNode (controllerNode o.controller)).addNode (routeNode o)).ids := rfl

/-- An operation brings the nodes of its vertices into a graph, unless they are there. -/
theorem mem_ids_addOperation {o : Operation} :
    i ∈ (g.addOperation o).ids ↔ i ∈ g.ids ∨ i ∈ (Vertex.ofOperation o).map Vertex.id := by
  have hvertices : (Vertex.ofOperation o).map Vertex.id = [o.controller, routeId o] := rfl
  have hcontroller : (controllerNode o.controller).id = o.controller := rfl
  have hroute : (routeNode o).id = routeId o := rfl
  rw [ids_addOperation, mem_ids_addNode, mem_ids_addNode, hvertices, hcontroller, hroute]
  simp only [List.mem_cons, List.not_mem_nil, or_false, or_assoc]

theorem nodup_ids_addOperation (h : g.ids.Nodup) (o : Operation) : (g.addOperation o).ids.Nodup :=
  nodup_ids_addNode (nodup_ids_addNode h)

def edgeOf (o : Operation) : GraphEdge :=
  ⟨(Vertex.controller o.controller).id, (Vertex.route o.controller o.verb o.pattern).id, o.name⟩

theorem edges_addOperation (g : RouteGraph) (o : Operation) :
    (g.addOperation o).edges = g.edges ++ [edgeOf o] := by
  have hedges : (g.addOperation o).edges =
      ((g.addNode (controllerNode o.controller)).addNode (routeNode o)).edges ++ [edgeOf o] := rfl
  rw [hedges, edges_addNode, edges_addNode]

theorem mem_nodes_addOperation {o : Operation} (h : node ∈ (g.addOperation o).nodes) :
    node ∈ g.nodes ∨ node = controllerNode o.controller ∨ node = routeNode o := by
  rcases mem_nodes_addNode h with h | h
  · exact (mem_nodes_addNode h).imp_right .inl
  · exact .inr (.inr h)

variable {operations : List Operation}

theorem mem_ids_foldl : i ∈ (operations.foldl addOperation g).ids ↔
    i ∈ g.ids ∨ ∃ o ∈ operations, i ∈ (Vertex.ofOperation o).map Vertex.id := by
  induction operations generalizing g with
  | nil => simp
  | cons o rest ih =>
    rw [List.foldl_cons, ih, mem_ids_addOperation, or_assoc]
    simp only [List.mem_cons, exists_eq_or_imp]

theorem nodup_ids_foldl (h : g.ids.Nodup) : (operations.foldl addOperation g).ids.Nodup := by
  induction operations generalizing g with
  | nil => exact h
  | cons o rest ih => exact ih (nodup_ids_addOperation h o)

theorem edges_foldl (operations : List Operation) (g : RouteGraph) :
    (operations.foldl addOperation g).edges = g.edges ++ operations.map edgeOf := by
  induction operations generalizing g with
  | nil => simp
  | cons o rest ih =>
    rw [List.foldl_cons, ih, edges_addOperation, List.append_assoc, List.map_cons,
      List.singleton_append]

theorem mem_nodes_foldl (h : node ∈ (operations.foldl addOperation g).nodes) :
    node ∈ g.nodes ∨ ∃ o ∈ operations, node = controllerNode o.controller ∨ node = routeNode o := by
  induction operations generalizing g with
  | nil => exact .inl h
  | cons o rest ih =>
    rcases ih h with h | ⟨other, hm, h⟩
    · exact (mem_nodes_addOperation h).imp_right fun hn => ⟨o, List.mem_cons_self, hn⟩
    · exact .inr ⟨other, List.mem_cons_of_mem _ hm, h⟩

/-- A graph with a node for each controller and one for each verb on each path of a controller.
No two of them share an id, and each node is as an operation of its vertex has it. Its edges lead,
operation by operation, from the node of the controller to that of the route. -/
structure IsDrawn (operations : List Operation) (g : RouteGraph) : Prop where
  nodup : g.ids.Nodup
  bijOn : Set.BijOn Vertex.id {v | ∃ o ∈ operations, v ∈ Vertex.ofOperation o} {i | i ∈ g.ids}
  nodes : ∀ node ∈ g.nodes, ∃ o ∈ operations,
    node = controllerNode o.controller ∨ node = routeNode o
  edges : g.edges = operations.map edgeOf

/-- Neither the controller nor the verb has a slash, the verb has no blank, and the path starts with
a slash. -/
def IsLegible (o : Operation) : Prop := (Vertex.route o.controller o.verb o.pattern).IsLegible

instance (o : Operation) : Decidable (IsLegible o) := inferInstanceAs (Decidable (Vertex.IsLegible _))

theorem IsLegible.of_mem {o : Operation} (h : IsLegible o) {v : Vertex}
    (hv : v ∈ Vertex.ofOperation o) : v.IsLegible := by
  simp only [Vertex.ofOperation, List.mem_cons, List.not_mem_nil, or_false] at hv
  rcases hv with rfl | rfl
  · exact h.1
  · exact h

theorem isDrawn_ofOperations (h : ∀ o ∈ operations, IsLegible o) :
    IsDrawn operations (ofOperations operations) where
  nodup := nodup_ids_foldl List.nodup_nil
  bijOn := by
    refine ⟨?_, ?_, ?_⟩
    · rintro v ⟨o, ho, hv⟩
      exact mem_ids_foldl.2 (.inr ⟨o, ho, List.mem_map_of_mem hv⟩)
    · -- what can be read back cannot be mistaken
      have hread : Set.LeftInvOn (fun i : String => Vertex.ofChars i.toList) Vertex.id
          {v | ∃ o ∈ operations, v ∈ Vertex.ofOperation o} := by
        rintro v ⟨o, ho, hv⟩
        exact Vertex.ofChars_id ((h o ho).of_mem hv)
      exact hread.injOn
    · intro i hi
      rcases mem_ids_foldl.1 hi with hi | ⟨o, ho, hi⟩
      · exact absurd hi List.not_mem_nil
      · obtain ⟨v, hv, rfl⟩ := List.mem_map.1 hi
        exact ⟨v, ⟨o, ho, hv⟩, rfl⟩
  nodes node hn := (mem_nodes_foldl hn).resolve_left List.not_mem_nil
  edges := edges_foldl operations {}

/-- Two operations of one route, and a controller that is named like the start of it. -/
def blankNames : List Operation :=
  [{ verb := "GET", pattern := "/b c/ POST /d", name := "first", controller := "a b" },
    { verb := "GET", pattern := "/b c/ POST /d", name := "second", controller := "a b" },
    { verb := "POST", pattern := "/d", name := "third", controller := "a b GET" }]

theorem isDrawn_ofOperations_blankNames :
    IsDrawn blankNames (ofOperations blankNames) ∧
      (ofOperations blankNames).ids =
        ["a b", "a b GET /b c/ POST /d", "a b GET", "a b GET POST /d"] :=
  ⟨isDrawn_ofOperations (by decide), by decide⟩

end JvmRoutes.RouteGraph
