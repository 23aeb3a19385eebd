import JvmRoutes.Operation.Handling
import JvmRoutes.Proofs.Route.Pattern
import JvmRoutes.Proofs.Route.Segments

/-!
Three paths joined in two steps. A path that is read again is trimmed as a text, so that it loses
the blanks which stood in front of slashes at its end, and a last segment of blanks altogether. The
two ways to join three paths agree exactly where this takes the same from both.
-/
namespace JvmRoutes.Route

open Loading

variable {base path : Option String} {s : List Char} {segs xs ys : List (List Char)}

def endsBlank (text : String) : Bool := text.toList.getLast?.any Text.isBlank

/-- The segments of a path that is read again: the last one loses the blanks at its end, and it is
none if it has nothing else. -/
def settle : List (List Char) → List (List Char)
  | [] => []
  | [s] => [s.rdropWhile Text.isBlank].filter (· ≠ [])
  | s :: next :: rest => s :: settle (next :: rest)

theorem settle_append (h : ys ≠ []) : settle (xs ++ ys) = xs ++ settle ys := by
  induction xs with
  | nil => rfl
  | cons s rest ih =>
    obtain ⟨next, rest', hcons⟩ : ∃ next rest', rest ++ ys = next :: rest' :=
      List.exists_cons_of_ne_nil (by simp [h])
    rw [List.cons_append, hcons, settle, ← hcons, ih, List.cons_append]

theorem settle_singleton (s : List Char) :
    (settle [s] = [] ∧ ∀ c ∈ s, Text.isBlank c = true) ∨
      settle [s] = [s.rdropWhile Text.isBlank] := by
  by_cases h : s.rdropWhile Text.isBlank = []
  · exact .inl ⟨by simp [settle, h], List.rdropWhile_eq_nil_iff.1 h⟩
  · exact .inr (by simp [settle, h])

private theorem settle_blank (h : ∀ c ∈ s, Text.isBlank c = true) : settle [s] = [] := by
  simp [settle, List.rdropWhile_eq_nil_iff.2 h]

private theorem trimChars_slash (cs : List Char) :
    Text.trimChars ('/' :: cs) = ('/' :: cs).rdropWhile Text.isBlank := rfl

/-- A path in normal form that is read again. -/
theorem pieces_trimChars (h : ∀ s ∈ segs, IsSegment s) :
    pieces (Text.trimChars ('/' :: ['/'].intercalate segs)) = settle segs := by
  rcases List.eq_nil_or_concat' segs with rfl | ⟨front, s, rfl⟩
  · rfl
  · have hs : IsSegment s := h s (by simp)
    have hfront : ∀ s ∈ front, IsSegment s := fun s hs => h s (List.mem_append_left _ hs)
    rw [trimChars_slash, intercalate_eq_flatMap (by simp), List.flatMap_append,
      List.flatMap_singleton, Text.rdropWhile_append_cons (by decide), pieces_append_slash,
      pieces_flatMap hfront, settle_append (List.cons_ne_nil _ _)]
    have hslash : '/' ∉ s.rdropWhile Text.isBlank :=
      fun hmem => hs.slash_notMem ((List.rdropWhile_prefix _ _).subset hmem)
    by_cases hne : s.rdropWhile Text.isBlank = []
    · simp [settle, hne, pieces_nil]
    · simp [settle, hne, pieces_of_notMem hslash]

theorem pieces_trimmed_join (base path : Option String) :
    pieces (trimmed (some (join base path))) =
      settle (pieces (trimmed base) ++ pieces (trimmed path)) := by
  rw [trimmed_some, toList_join]
  exact pieces_trimChars fun s hs => isSegment_of_mem_append hs

theorem join_eq_join_iff {base' path' : Option String} : join base path = join base' path' ↔
    pieces (trimmed base) ++ pieces (trimmed path) =
      pieces (trimmed base') ++ pieces (trimmed path') := by
  rw [← String.toList_inj, toList_join, toList_join]
  constructor
  · intro h
    have hpieces := congrArg pieces h
    rwa [pieces_intercalate fun s hs => isSegment_of_mem_append hs,
      pieces_intercalate fun s hs => isSegment_of_mem_append hs] at hpieces
  · intro h
    rw [h]

private theorem settle_concat_eq_iff (s : List Char) (c : Char) :
    settle [s ++ [c]] = [s ++ [c]] ↔ Text.isBlank c = false := by
  cases hc : Text.isBlank c with
  | true =>
    have hlost : settle [s ++ [c]] ≠ [s ++ [c]] := by
      intro he
      have hmem : s ++ [c] ∈ settle [s ++ [c]] := by simp [he]
      rw [settle, List.rdropWhile_concat_pos _ _ _ hc] at hmem
      have hkept := List.mem_singleton.1 (List.mem_filter.1 hmem).1
      have hlength := (List.rdropWhile_prefix Text.isBlank s).length_le
      rw [← hkept, List.length_append, List.length_singleton] at hlength
      omega
    exact iff_of_false hlost Bool.noConfusion
  | false =>
    rw [settle, List.rdropWhile_concat_neg _ _ _ (by simp [hc])]
    simp

private theorem settle_eq_self_iff (h : ∀ s ∈ segs, IsSegment s) : settle segs = segs ↔
    endsBlank (String.ofList ('/' :: ['/'].intercalate segs)) = false := by
  unfold endsBlank
  rw [String.toList_ofList]
  rcases List.eq_nil_or_concat' segs with rfl | ⟨front, s, rfl⟩
  · decide
  · obtain ⟨s, c, rfl⟩ := (List.eq_nil_or_concat' s).resolve_left (h s (by simp)).ne_nil
    rw [intercalate_eq_flatMap (by simp), List.flatMap_append, List.flatMap_singleton,
      ← List.cons_append, ← List.append_assoc, List.getLast?_concat, Option.any_some,
      settle_append (List.cons_ne_nil _ _), List.append_cancel_left_eq, settle_concat_eq_iff]

private theorem settle_eq_iff_join (base path : Option String) :
    settle (pieces (trimmed base) ++ pieces (trimmed path)) =
      pieces (trimmed base) ++ pieces (trimmed path) ↔ endsBlank (join base path) = false := by
  rw [settle_eq_self_iff fun s hs => isSegment_of_mem_append hs, ← toList_join,
    String.ofList_toList]

private theorem settle_eq_iff_normalize (path : Option String) :
    settle (pieces (trimmed path)) = pieces (trimmed path) ↔
      endsBlank (normalize path) = false := by
  rw [settle_eq_self_iff fun s hs => isSegment_of_mem_pieces hs, ← toList_normalize,
    String.ofList_toList]

theorem eq_of_cons_eq_concat {α : Type} {a b : α} {items : List α}
    (h : a :: items = items ++ [b]) : ∀ c ∈ items ++ [b], c = a := by
  induction items with
  | nil => simpa using h.symm
  | cons c items ih =>
    obtain ⟨rfl, htail⟩ := List.cons.inj h
    simpa using ih htail

theorem cons_eq_concat {α : Type} {a : α} {items : List α} (h : ∀ c ∈ items, c = a) :
    a :: items = items ++ [a] := by
  rw [List.eq_replicate_of_mem h, ← List.replicate_succ, ← List.replicate_succ']

/-- Segments that are read again lose the same before and behind, or nothing. -/
theorem append_settle_eq_iff : xs ++ settle ys = settle xs ++ ys ↔
    (settle xs = xs ∧ settle ys = ys) ∨
      ∃ s, (∀ c ∈ s, Text.isBlank c = true) ∧ xs.getLast? = some s ∧ ys ≠ [] ∧ ∀ y ∈ ys, y = s := by
  rcases List.eq_nil_or_concat' xs with rfl | ⟨xs, x, rfl⟩
  · simp [settle]
  rcases List.eq_nil_or_concat' ys with rfl | ⟨ys, y, rfl⟩
  · rw [settle, List.append_nil, List.append_nil, eq_comm]
    simp
  rw [settle_append (List.cons_ne_nil _ _), settle_append (List.cons_ne_nil _ _),
    List.append_assoc, List.append_assoc, List.append_cancel_left_eq, List.append_cancel_left_eq,
    List.append_cancel_left_eq, List.singleton_append]
  constructor
  · intro h
    rcases settle_singleton x with ⟨hx, hblank⟩ | hx
    · rw [hx, List.nil_append] at h
      rcases settle_singleton y with ⟨hy, -⟩ | hy
      · rw [hy, List.append_nil] at h
        exact .inr ⟨x, hblank, List.getLast?_concat, by simp, eq_of_cons_eq_concat h⟩
      · have hlength := congrArg List.length h
        simp [hy] at hlength
    · rw [hx, List.singleton_append, List.cons.injEq, List.append_cancel_left_eq] at h
      exact .inl ⟨by rw [hx, ← h.1], h.2⟩
  · rintro (⟨hx, hy⟩ | ⟨s, hblank, hlast, -, hall⟩)
    · rw [hx, hy, List.singleton_append]
    · rw [List.getLast?_concat, Option.some.injEq] at hlast
      have hy : y = s := hall y (by simp)
      rw [hlast, hy, settle_blank hblank, List.append_nil, List.nil_append]
      exact cons_eq_concat fun c hc => hall c (by simp [hc])

/-- It makes no difference which of three paths are joined first. -/
inductive GroupsAlike (mount base path : Option String) : Prop
  /-- What the first two come to and the third one end with no blank that could be trimmed. -/
  | intact (hbase : endsBlank (join mount base) = false)
    (hpath : endsBlank (normalize path) = false)
  /-- The last segment is one of the second path, and it is trimmed either way. -/
  | last (hbase : segments base ≠ []) (hpath : segments path = [])
  /-- Of equal blank segments one is lost either way. -/
  | blank {blank : String} (hblank : Text.nonBlank? blank = none)
    (hlast : (segments mount ++ segments base).getLast? = some blank) (hne : segments path ≠ [])
    (hall : ∀ s ∈ segments path, s = blank)

private theorem segments_eq_nil_iff : segments path = [] ↔ pieces (trimmed path) = [] :=
  List.map_eq_nil_iff

private theorem nonBlank?_ofList_eq_none_iff :
    Text.nonBlank? (String.ofList s) = none ↔ ∀ c ∈ s, Text.isBlank c = true := by
  rw [Text.nonBlank?_eq_none_iff, String.toList_ofList]

theorem groupsAlike_iff (mount base path : Option String) : GroupsAlike mount base path ↔
    (pieces (trimmed base) ≠ [] ∧ pieces (trimmed path) = []) ∨
      pieces (trimmed mount) ++ pieces (trimmed base) ++ settle (pieces (trimmed path)) =
        settle (pieces (trimmed mount) ++ pieces (trimmed base)) ++ pieces (trimmed path) := by
  rw [append_settle_eq_iff, settle_eq_iff_join, settle_eq_iff_normalize]
  constructor
  · intro h
    cases h with
    | intact hbase hpath => exact .inr (.inl ⟨hbase, hpath⟩)
    | last hbase hpath =>
      exact .inl ⟨mt segments_eq_nil_iff.2 hbase, segments_eq_nil_iff.1 hpath⟩
    | blank hblank hlast hne hall =>
      rw [segments, segments, ← List.map_append, List.getLast?_map] at hlast
      obtain ⟨s, hs, rfl⟩ := Option.map_eq_some_iff.1 hlast
      refine .inr (.inr ⟨s, nonBlank?_ofList_eq_none_iff.1 hblank, hs,
        mt segments_eq_nil_iff.2 hne, ?_⟩)
      intro y hy
      exact String.ofList_injective (hall _ (List.mem_map_of_mem hy))
  · rintro (⟨hbase, hpath⟩ | ⟨hbase, hpath⟩ | ⟨s, hblank, hlast, hne, hall⟩)
    · exact .last (mt segments_eq_nil_iff.1 hbase) (segments_eq_nil_iff.2 hpath)
    · exact .intact hbase hpath
    · refine .blank (nonBlank?_ofList_eq_none_iff.2 hblank) ?_
        (mt segments_eq_nil_iff.1 hne) ?_
      · rw [segments, segments, ← List.map_append, List.getLast?_map, hlast, Option.map_some]
      · intro y hy
        obtain ⟨chars, hchars, rfl⟩ := List.mem_map.1 hy
        rw [hall chars hchars]

/-- Three paths come to the same below the root however they are joined. -/
theorem join_join_eq_iff_groupsAlike (mount base path : Option String) :
    join mount (some (join base path)) = join (some (join mount base)) path ↔
      GroupsAlike mount base path := by
  rw [join_eq_join_iff, pieces_trimmed_join, pieces_trimmed_join, groupsAlike_iff]
  by_cases hpath : pieces (trimmed path) = []
  · by_cases hbase : pieces (trimmed base) = []
    · simp [hpath, hbase]
    · simp [hpath, hbase, settle_append hbase]
  · simp [hpath, settle_append hpath]

private theorem join_none_eq_iff (base path : Option String) :
    join none (some (join base path)) = join base path ↔ endsBlank (join base path) = false := by
  rw [join_eq_join_iff, pieces_trimmed_join]
  exact settle_eq_iff_join base path

theorem normalize_eq_join (path : Option String) : normalize path = join none path := by
  rw [← String.toList_inj, toList_normalize, toList_join]
  rfl

theorem pattern_operation (h : Operation.Handling) (base : Option String) (verb path : String) :
    (h.operation base verb path).pattern = join base (some path) := by
  unfold Operation.Handling.operation
  rfl

/-- The two ways to join three paths agree exactly if the trims take the same from both. A path
joined already, which the paths of a handler are, stays as it is below no other one exactly if it
does not end with a blank. -/
theorem join_join_eq_iff (mount base path : Option String) :
    (join mount (some (join base path)) = join (some (join mount base)) path ↔
      GroupsAlike mount base path) ∧
    (join none (some (join base path)) = join base path ↔ endsBlank (join base path) = false) ∧
    (normalize (some (normalize path)) = normalize path ↔ endsBlank (normalize path) = false) ∧
    ∀ (config : Config) (controller : Class) (m : Method) (verb : String) (loader last : Loader)
      (h : Operation.Handling) (paths : List String),
      outcome (patterns config controller m verb) loader = (.ok paths, last) →
      ∀ resolved ∈ paths,
        ((h.operation none verb resolved).pattern = resolved ↔ endsBlank resolved = false) := by
  refine ⟨join_join_eq_iff_groupsAlike mount base path, join_none_eq_iff base path, ?_, ?_⟩
  · rw [normalize_eq_join, normalize_eq_join]
    exact join_none_eq_iff none path
  · intro config controller m verb loader last h paths hpaths resolved hresolved
    obtain ⟨base, below, hjoin⟩ := exists_join_of_patterns hpaths hresolved
    rw [hjoin, pattern_operation]
    exact join_none_eq_iff (some base) below

/-- A blank in front of the last slash makes a difference. -/
theorem join_join_ne_blank :
    join none (some (join none (some "/a /"))) ≠ join (some (join none none)) (some "/a /") ∧
    join none (some (join none (some "/a /"))) ≠ join none (some "/a /") := by
  decide +kernel

def twoPaths : Method where
  name := "f"
  descriptor := "()V"
  visible := [
    { typeName := "javax.ws.rs.Path", values := ⟨[("value", .array [.text "/a b/", .text "/c /"])]⟩ }]

theorem join_join_eq_iff_twoPaths :
    outcome (patterns {} { name := "A" } twoPaths "GET") { store := .memory ⟨[]⟩ } =
      (.ok ["/a b", "/c "], { store := .memory ⟨[]⟩ }) ∧
    ∀ h : Operation.Handling, (h.operation none "GET" "/a b").pattern = "/a b" ∧
      (h.operation none "GET" "/c ").pattern ≠ "/c " := by
  have hpaths : outcome (patterns {} { name := "A" } twoPaths "GET") { store := .memory ⟨[]⟩ } =
      (.ok ["/a b", "/c "], { store := .memory ⟨[]⟩ }) := by
    rfl
  refine ⟨hpaths, fun h => ?_⟩
  have hkept := (join_join_eq_iff none none none).2.2.2 {} { name := "A" } twoPaths "GET" _ _ h _
    hpaths
  exact ⟨(hkept "/a b" (by simp)).2 (by decide), mt (hkept "/c " (by simp)).1 (by decide)⟩

end JvmRoutes.Route
