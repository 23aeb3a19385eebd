import JvmRoutes.Proofs.TypeName
import JvmRoutes.Route.Verb

/-! The verbs of a route: at least one, none twice, and no path marker among them. -/
namespace JvmRoutes

private theorem nodup_eraseDups {α : Type} [BEq α] [LawfulBEq α] : (l : List α) → l.eraseDups.Nodup
  | [] => List.nodup_nil
  | a :: rest => by
    rw [List.eraseDups_cons, List.nodup_cons]
    refine ⟨?_, nodup_eraseDups (rest.filter fun b => !b == a)⟩
    rw [List.mem_eraseDups]
    simp
termination_by l => l.length
decreasing_by exact Nat.lt_succ_of_le (List.length_filter_le _ _)

namespace Route

variable {config : Config} {m : Method} {name : String}

theorem mem_markerNames : name ∈ markerNames config m ↔
    ∃ a ∈ m.visible, a.typeName ∈ Marker.ofRoutes config.verbs ∧ a.simpleName = name := by
  simp [markerNames, Marker.select, and_assoc]

theorem markerNames_ne_nil (h : isRoute config m = true) : markerNames config m ≠ [] := by
  unfold isRoute Marker.present at h
  obtain ⟨a, ha, htype⟩ := List.any_eq_true.1 h
  have hname : a.simpleName ∈ markerNames config m :=
    mem_markerNames.2 ⟨a, ha, List.contains_iff_mem.1 htype, rfl⟩
  exact List.ne_nil_of_mem hname

theorem verbs_of_names_eq (h : markerNames config m = [Marker.pathName]) :
    verbs config m = [defaultVerb] := if_pos h

theorem verbs_of_names_ne (h : markerNames config m ≠ [Marker.pathName]) :
    verbs config m = (markerNames config m).filter (· != Marker.pathName) := if_neg h

theorem verbs_ne_nil (h : isRoute config m = true) : verbs config m ≠ [] := by
  by_cases hn : markerNames config m = [Marker.pathName]
  · rw [verbs_of_names_eq hn]
    exact List.cons_ne_nil _ _
  · rw [verbs_of_names_ne hn]
    intro he
    have hall : ∀ name ∈ markerNames config m, name = Marker.pathName := by
      intro name hm
      simpa using List.filter_eq_nil_iff.1 he name hm
    have hnodup : (markerNames config m).Nodup := nodup_eraseDups _
    -- names of which none comes twice and all are equal are one name, which is the case before
    rcases hl : markerNames config m with _ | ⟨first, _ | ⟨second, rest⟩⟩
    · exact markerNames_ne_nil h hl
    · rw [hl] at hn hall
      exact hn (by rw [hall first List.mem_cons_self])
    · rw [hl] at hall hnodup
      have hsame : first = second :=
        (hall first (by simp)).trans (hall second (by simp)).symm
      simp [hsame] at hnodup

theorem nodup_verbs (config : Config) (m : Method) : (verbs config m).Nodup := by
  by_cases hn : markerNames config m = [Marker.pathName]
  · rw [verbs_of_names_eq hn]
    exact List.pairwise_singleton _ _
  · rw [verbs_of_names_ne hn]
    exact (nodup_eraseDups _).filter _

theorem pathName_not_mem_verbs (config : Config) (m : Method) :
    Marker.pathName ∉ verbs config m := by
  by_cases hn : markerNames config m = [Marker.pathName]
  · rw [verbs_of_names_eq hn]
    decide
  · rw [verbs_of_names_ne hn]
    simp

/-- A verb is the default one, or it is named by a marker that is none of a path. -/
theorem exists_marker_of_mem_verbs (h : name ∈ verbs config m) :
    name = defaultVerb ∨ ∃ a ∈ m.visible, a.typeName ∈ Marker.ofRoutes config.verbs ∧
      a.simpleName = name ∧ name ≠ Marker.pathName := by
  by_cases hn : markerNames config m = [Marker.pathName]
  · rw [verbs_of_names_eq hn, List.mem_singleton] at h
    exact .inl h
  · rw [verbs_of_names_ne hn, List.mem_filter] at h
    obtain ⟨a, ha, htype, hname⟩ := mem_markerNames.1 h.1
    exact .inr ⟨a, ha, htype, hname, by simpa using h.2⟩

def pathMarkers : List String := Marker.frameworkPath ++ Marker.standardPath

private theorem simple_pathMarker {type : String} (h : type ∈ pathMarkers) :
    TypeName.simple type = Marker.pathName := by
  have hall : ∀ type ∈ pathMarkers, TypeName.simple type = Marker.pathName := by decide
  exact hall type h

theorem verbs_of_pathMarkers (h : isRoute config m = true)
    (hp : ∀ a ∈ m.visible, a.typeName ∈ Marker.ofRoutes config.verbs → a.typeName ∈ pathMarkers) :
    verbs config m = [defaultVerb] := by
  obtain ⟨verb, hv⟩ := List.exists_mem_of_ne_nil _ (verbs_ne_nil h)
  refine verbs_of_names_eq ?_
  by_contra hn
  rw [verbs_of_names_ne hn, List.mem_filter] at hv
  obtain ⟨a, ha, htype, hname⟩ := mem_markerNames.1 hv.1
  have hpath : verb = Marker.pathName := hname ▸ simple_pathMarker (hp a ha htype)
  simp [hpath] at hv

/-- The verbs are the default one and those of the configuration, if these have no dots. -/
theorem eq_default_or_mem_of_mem_verbs (hv : ∀ verb ∈ config.verbs, '.' ∉ verb.toList)
    (h : name ∈ verbs config m) : name = defaultVerb ∨ name ∈ config.verbs := by
  rcases exists_marker_of_mem_verbs h with hd | ⟨a, -, htype, hname, hne⟩
  · exact .inl hd
  · right
    unfold Marker.ofRoutes at htype
    rcases List.mem_append.1 htype with hpath | hverb
    · exact absurd (hname.symm.trans (simple_pathMarker hpath)) hne
    · obtain ⟨verb, hmem, hpackage⟩ := List.mem_flatMap.1 hverb
      obtain ⟨package, -, hp⟩ := List.mem_map.1 hpackage
      have hsimple : a.simpleName = verb := by
        unfold Annotation.simpleName
        rw [← hp]
        exact TypeName.simple_append (hv verb hmem) package
      rw [← hname, hsimple]
      exact hmem

section Narrow

variable {narrow : List String} (hsub : narrow ⊆ config.verbs)
include hsub

private theorem ofRoutes_subset : Marker.ofRoutes narrow ⊆ Marker.ofRoutes config.verbs := by
  intro type h
  rcases List.mem_append.1 h with hpath | hverb
  · exact List.mem_append_left _ hpath
  · obtain ⟨verb, hm, htype⟩ := List.mem_flatMap.1 hverb
    exact List.mem_append_right _ (List.mem_flatMap.2 ⟨verb, hsub hm, htype⟩)

theorem isRoute_of_narrow (h : isRoute { config with verbs := narrow } m = true) :
    isRoute config m = true := by
  unfold isRoute Marker.present at h ⊢
  obtain ⟨a, ha, htype⟩ := List.any_eq_true.1 h
  have hmem := ofRoutes_subset hsub (List.contains_iff_mem.1 htype)
  exact List.any_eq_true.2 ⟨a, ha, List.contains_iff_mem.2 hmem⟩

private theorem mem_markerNames_of_narrow
    (h : name ∈ markerNames { config with verbs := narrow } m) : name ∈ markerNames config m := by
  obtain ⟨a, ha, htype, hname⟩ := mem_markerNames.1 h
  exact mem_markerNames.2 ⟨a, ha, ofRoutes_subset hsub htype, hname⟩

end Narrow

/-- With the fewer verbs a method has path markers alone and the default verb, but with all verbs
it has others. -/
structure IsDefaulted (config : Config) (narrow : List String) (m : Method) : Prop where
  narrow_eq : markerNames { config with verbs := narrow } m = [Marker.pathName]
  exists_verb : ∃ verb ∈ markerNames config m, verb ≠ Marker.pathName
  default_not_mem : defaultVerb ∉ markerNames config m

/-- A verb that a method has with the fewer verbs it has with all, but for a default one. -/
theorem mem_verbs_of_narrow {narrow : List String} (hsub : narrow ⊆ config.verbs)
    (hroute : isRoute config m = true)
    (h : name ∈ verbs { config with verbs := narrow } m) :
    name ∈ verbs config m ∨ name = defaultVerb ∧ IsDefaulted config narrow m := by
  by_cases hn : markerNames { config with verbs := narrow } m = [Marker.pathName]
  · rw [verbs_of_names_eq hn, List.mem_singleton] at h
    subst h
    by_cases hall : markerNames config m = [Marker.pathName]
    · exact .inl (by simp [verbs_of_names_eq hall])
    rw [verbs_of_names_ne hall]
    by_cases hd : defaultVerb ∈ markerNames config m
    · exact .inl (List.mem_filter.2 ⟨hd, by decide⟩)
    · have hne := verbs_ne_nil hroute
      rw [verbs_of_names_ne hall] at hne
      obtain ⟨verb, hverb⟩ := List.exists_mem_of_ne_nil _ hne
      obtain ⟨hm, hpath⟩ := List.mem_filter.1 hverb
      exact .inr ⟨rfl, hn, ⟨verb, hm, by simpa using hpath⟩, hd⟩
  · rw [verbs_of_names_ne hn, List.mem_filter] at h
    have hmem := mem_markerNames_of_narrow hsub h.1
    have hall : markerNames config m ≠ [Marker.pathName] := by
      intro he
      rw [he, List.mem_singleton] at hmem
      simp [hmem] at h
    rw [verbs_of_names_ne hall]
    exact .inl (List.mem_filter.2 ⟨hmem, h.2⟩)

end Route

end JvmRoutes
