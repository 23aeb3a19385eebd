import JvmRoutes.Loader.Hierarchy
import Mathlib.Data.List.Chain
import Mathlib.Logic.Relation

/-!
Ways along the links of a hierarchy. Without a cycle among them, the bounded search for a way finds
every way there is, and a link that no way leads back from closes none.
-/
namespace JvmRoutes.Hierarchy

open Relation

variable {h : Hierarchy} {a b name superclass : String}

def Links (h : Hierarchy) (a b : String) : Prop := (a, b) ∈ h.links

/-- No class is above itself. -/
def IsAcyclic (h : Hierarchy) : Prop := ∀ name, ¬ TransGen h.Links name name

theorem links_addNode (h : Hierarchy) (name : String) : (h.addNode name).links = h.links := by
  unfold addNode
  split <;> rfl

theorem links_addLink (h : Hierarchy) (name superclass : String) :
    (h.addLink name superclass).links =
      if (name, superclass) ∈ h.links then h.links else h.links ++ [(name, superclass)] := by
  unfold addLink
  dsimp only
  rw [List.contains_eq_mem, links_addNode, links_addNode]
  by_cases hl : (name, superclass) ∈ h.links
  · simp [hl, links_addNode]
  · simp [hl]

theorem mem_links_addLink {link : String × String}
    (hl : link ∈ (h.addLink name superclass).links) :
    link ∈ h.links ∨ link = (name, superclass) := by
  rw [links_addLink] at hl
  split at hl
  · exact .inl hl
  · rwa [List.mem_append, List.mem_singleton] at hl

theorem mem_nodes_addNode {other : String} :
    other ∈ (h.addNode name).nodes ↔ other ∈ h.nodes ∨ other = name := by
  unfold addNode
  split
  · rename_i hn
    rw [List.contains_eq_mem, decide_eq_true_eq] at hn
    constructor
    · exact .inl
    · rintro (ho | rfl)
      · exact ho
      · exact hn
  · simp

theorem nodes_addLink (h : Hierarchy) (name superclass : String) :
    (h.addLink name superclass).nodes = ((h.addNode name).addNode superclass).nodes := by
  unfold addLink
  dsimp only
  split <;> rfl

theorem reflTransGen_of_leads {r : String → String → Prop} {links : List (String × String)}
    (hr : ∀ link ∈ links, r link.1 link.2) {steps : Nat} {a b : String}
    (h : leads links steps a b = true) : ReflTransGen r a b := by
  induction steps generalizing a with
  | zero =>
    obtain rfl : a = b := by simpa [leads] using h
    exact .refl
  | succ steps ih =>
    rw [leads, Bool.or_eq_true, List.any_eq_true] at h
    rcases h with h | ⟨link, hm, hl⟩
    · obtain rfl := beq_iff_eq.1 h
      exact .refl
    · rw [Bool.and_eq_true, beq_iff_eq] at hl
      obtain ⟨rfl, hs⟩ := hl
      exact .head (hr link hm) (ih hs)

private theorem leads_mono {links : List (String × String)} {steps room : Nat} (hle : steps ≤ room)
    (hl : leads links steps a b = true) : leads links room a b = true := by
  induction steps generalizing a room with
  | zero =>
    have hab : (a == b) = true := hl
    cases room <;> simp [leads, hab]
  | succ steps ih =>
    obtain ⟨room, rfl⟩ : ∃ n, room = n + 1 := ⟨room - 1, by omega⟩
    rw [leads, Bool.or_eq_true, List.any_eq_true] at hl ⊢
    rcases hl with hab | ⟨link, hm, hs⟩
    · exact .inl hab
    · rw [Bool.and_eq_true] at hs
      refine .inr ⟨link, hm, ?_⟩
      rw [Bool.and_eq_true]
      exact ⟨hs.1, ih (by omega) hs.2⟩

private theorem leads_of_isChain {way : List String} (hc : List.IsChain h.Links (a :: way)) :
    leads h.links way.length a ((a :: way).getLast (List.cons_ne_nil a way)) = true := by
  induction way generalizing a with
  | nil => simp [leads]
  | cons next rest ih =>
    rw [List.isChain_cons_cons] at hc
    have hrest := ih hc.2
    rw [List.getLast_cons (List.cons_ne_nil next rest), List.length_cons, leads, Bool.or_eq_true,
      List.any_eq_true]
    exact .inr ⟨(a, next), hc.1, by simpa using hrest⟩

/-- Without a cycle no class is met twice, so that a way is not longer than there are links. -/
theorem IsAcyclic.length_le (ha : h.IsAcyclic) {way : List String}
    (hc : List.IsChain h.Links (a :: way)) : way.length ≤ h.links.length := by
  have hp : List.Pairwise (TransGen h.Links) (a :: way) :=
    List.isChain_iff_pairwise.1 (hc.imp fun _ _ => TransGen.single)
  have hnodup : way.Nodup := by
    refine (List.pairwise_cons.1 hp).2.imp ?_
    intro x y hxy he
    subst he
    exact ha x hxy
  have hsub : way ⊆ h.links.map (·.2) := by
    intro x hx
    obtain ⟨y, -, hy⟩ := TransGen.tail'_iff.1 ((List.pairwise_cons.1 hp).1 x hx)
    exact List.mem_map.2 ⟨(y, x), hy, rfl⟩
  have hlength := hnodup.length_le_of_subset hsub
  rwa [List.length_map] at hlength

/-- The search for a way along links finds one exactly when there is one. -/
theorem IsAcyclic.reaches_iff (ha : h.IsAcyclic) :
    h.reaches a b = true ↔ ReflTransGen h.Links a b := by
  constructor
  · exact reflTransGen_of_leads fun _ hl => hl
  · intro hab
    obtain ⟨way, hc, rfl⟩ := List.exists_isChain_cons_of_relationReflTransGen hab
    exact leads_mono (ha.length_le hc) (leads_of_isChain hc)

/-- A way along links of which one is new goes along the old ones, or comes by the new one. -/
theorem transGen_addLink (hab : TransGen (h.addLink name superclass).Links a b) :
    TransGen h.Links a b ∨ ReflTransGen h.Links a name ∧ ReflTransGen h.Links superclass b := by
  have hstep : ∀ {x y}, (h.addLink name superclass).Links x y →
      h.Links x y ∨ x = name ∧ y = superclass := by
    intro x y hxy
    rcases mem_links_addLink hxy with hold | hnew
    · exact .inl hold
    · exact .inr ⟨congrArg Prod.fst hnew, congrArg Prod.snd hnew⟩
  induction hab with
  | single hxy =>
    rcases hstep hxy with hxy | ⟨rfl, rfl⟩
    · exact .inl (.single hxy)
    · exact .inr ⟨.refl, .refl⟩
  | tail _ hxy ih =>
    rcases ih, hstep hxy with ⟨hax | ⟨han, hsx⟩, hxy | ⟨rfl, rfl⟩⟩
    · exact .inl (hax.tail hxy)
    · exact .inr ⟨hax.to_reflTransGen, .refl⟩
    · exact .inr ⟨han, hsx.tail hxy⟩
    · exact .inr ⟨han, .refl⟩

theorem IsAcyclic.addNode (ha : h.IsAcyclic) (name : String) : (h.addNode name).IsAcyclic := by
  intro other
  have hlinks : (h.addNode name).Links = h.Links := by
    unfold Links
    rw [links_addNode]
  rw [hlinks]
  exact ha other

theorem IsAcyclic.addLink (ha : h.IsAcyclic) (hn : ¬ ReflTransGen h.Links superclass name) :
    (h.addLink name superclass).IsAcyclic := by
  intro other ho
  rcases transGen_addLink ho with ho | ⟨hon, hso⟩
  · exact ha other ho
  · exact hn (hso.trans hon)

end JvmRoutes.Hierarchy
