import JvmRoutes.Proofs.Route.Path
import JvmRoutes.Proofs.Text.Blank

/-!
The segments of a path: what stands between its slashes, as it stands there. In normal form a path
has one slash in front of each, and a path below another one has the segments of both.
-/
namespace JvmRoutes.Route

variable {cs word : List Char} {segs : List (List Char)} {s : List Char}

/-- What stands between the slashes of a text, where anything does. -/
def pieces (cs : List Char) : List (List Char) := (cs.splitOn '/').filter (· ≠ [])

/-- The text of a path without the blanks around it. A missing path has none. -/
def trimmed : Option String → List Char
  | none => []
  | some path => Text.trimChars path.toList

theorem trimmed_some (path : String) : trimmed (some path) = Text.trimChars path.toList := rfl

/-- The segments of a path. A missing or blank one has none. -/
def segments (path : Option String) : List String := (pieces (trimmed path)).map String.ofList

theorem pieces_nil : pieces [] = [] := rfl

theorem pieces_of_notMem (h : '/' ∉ cs) (hne : cs ≠ []) : pieces cs = [cs] := by
  rw [pieces, List.splitOn_eq_singleton h]
  exact List.filter_cons_of_pos (decide_eq_true hne)

theorem pieces_append_slash (front back : List Char) :
    pieces (front ++ '/' :: back) = pieces front ++ pieces back := by
  rw [pieces, List.splitOn_append_cons_self, List.filter_append]
  rfl

theorem pieces_slash (cs : List Char) : pieces ('/' :: cs) = pieces cs :=
  pieces_append_slash [] cs

/-- A text is a word without slashes, or one with a slash and a text behind it. -/
@[elab_as_elim]
theorem slashInduction {motive : List Char → Prop} (cs : List Char)
    (word : ∀ word, '/' ∉ word → motive word)
    (slash : ∀ word rest, '/' ∉ word → motive rest → motive (word ++ '/' :: rest)) :
    motive cs := by
  by_cases h : '/' ∈ cs
  · obtain ⟨front, rest, hcs, hfront⟩ := List.eq_append_cons_of_mem h
    have hlength : rest.length < cs.length := by
      rw [hcs, List.length_append, List.length_cons]
      omega
    rw [hcs]
    exact slash front rest hfront (slashInduction rest word slash)
  · exact word cs h
termination_by cs.length

/-- What can be a segment. -/
structure IsSegment (s : List Char) : Prop where
  ne_nil : s ≠ []
  slash_notMem : '/' ∉ s

theorem isSegment_of_mem_pieces (h : s ∈ pieces cs) : IsSegment s := by
  have hword : ∀ word, '/' ∉ word → s ∈ pieces word → IsSegment s := by
    intro word hword hs
    by_cases hne : word = []
    · rw [hne, pieces_nil] at hs
      cases hs
    · rw [pieces_of_notMem hword hne, List.mem_singleton] at hs
      exact hs ▸ ⟨hne, hword⟩
  induction cs using slashInduction with
  | word word hslash => exact hword word hslash h
  | slash word rest hslash ih =>
    rw [pieces_append_slash, List.mem_append] at h
    exact h.elim (hword word hslash) ih

theorem isSegment_of_mem_append {as bs : List Char} (h : s ∈ pieces as ++ pieces bs) :
    IsSegment s := by
  rcases List.mem_append.1 h with h | h
  · exact isSegment_of_mem_pieces h
  · exact isSegment_of_mem_pieces h

/-- Segments that are written with a slash in front of each are those of the text. -/
theorem pieces_flatMap (h : ∀ s ∈ segs, IsSegment s) : pieces (segs.flatMap ('/' :: ·)) = segs := by
  induction segs with
  | nil => rfl
  | cons s rest ih =>
    obtain ⟨hs, hrest⟩ := List.forall_mem_cons.1 h
    have hword : pieces s = [s] := pieces_of_notMem hs.slash_notMem hs.ne_nil
    rw [List.flatMap_cons, List.cons_append, pieces_slash]
    cases rest with
    | nil => rw [List.flatMap_nil, List.append_nil, hword]
    | cons next rest =>
      rw [List.flatMap_cons, List.cons_append, pieces_append_slash, hword, ← pieces_slash,
        ← List.cons_append, ← List.flatMap_cons, ih hrest]
      rfl

theorem intercalate_eq_flatMap (h : segs ≠ []) :
    '/' :: ['/'].intercalate segs = segs.flatMap ('/' :: ·) := by
  induction segs with
  | nil => exact absurd rfl h
  | cons s rest ih =>
    cases rest with
    | nil => simp
    | cons next rest =>
      rw [List.intercalate_cons_cons, List.append_assoc, List.singleton_append,
        ih (List.cons_ne_nil _ _), List.flatMap_cons (x := s), List.cons_append]

theorem pieces_intercalate (h : ∀ s ∈ segs, IsSegment s) :
    pieces ('/' :: ['/'].intercalate segs) = segs := by
  by_cases hne : segs = []
  · rw [hne]
    rfl
  · rw [intercalate_eq_flatMap hne, pieces_flatMap h]

private theorem collapseSlashes_slash_slash (rest : List Char) :
    collapseSlashes ('/' :: '/' :: rest) = collapseSlashes ('/' :: rest) := by
  conv => lhs; unfold collapseSlashes
  exact if_pos rfl

theorem collapseSlashes_append (h : '/' ∉ word) (rest : List Char) :
    collapseSlashes (word ++ rest) = word ++ collapseSlashes rest := by
  induction word with
  | nil => rfl
  | cons c word ih =>
    obtain ⟨hc, hword⟩ := List.ne_and_not_mem_of_not_mem_cons h
    rw [List.cons_append, collapseSlashes, ih hword]
    exact if_neg (by simp [Ne.symm hc])

theorem collapseSlashes_slash_append (h : '/' ∉ word) (hne : word ≠ []) (rest : List Char) :
    collapseSlashes ('/' :: (word ++ rest)) = '/' :: (word ++ collapseSlashes rest) := by
  rw [← collapseSlashes_append h]
  conv => lhs; unfold collapseSlashes
  refine if_neg ?_
  obtain ⟨c, word, rfl⟩ := List.exists_cons_of_ne_nil hne
  simpa using fun hc : c = '/' => h (hc ▸ List.mem_cons_self)

theorem dropTrailingSlashes_append (h : '/' ∉ word) (hne : word ≠ []) (front rest : List Char) :
    dropTrailingSlashes (front ++ (word ++ rest)) = front ++ (word ++ dropTrailingSlashes rest) := by
  obtain ⟨word, last, rfl⟩ := (List.eq_nil_or_concat' word).resolve_left hne
  have hlast : (last == '/') = false := by
    simpa using fun hl : last = '/' => h (by simp [hl])
  have hdrop := Text.rdropWhile_append_cons (p := (· == '/')) hlast (front ++ word) rest
  simpa [dropTrailingSlashes_eq] using hdrop

/-- In the normal form of a text one slash stands in front of each piece, and nothing else. -/
theorem dropTrailingSlashes_collapseSlashes (cs : List Char) :
    dropTrailingSlashes (collapseSlashes ('/' :: cs)) = (pieces cs).flatMap ('/' :: ·) := by
  induction cs using slashInduction with
  | word word hword =>
    by_cases hne : word = []
    · subst hne
      rfl
    · have hcollapse := collapseSlashes_slash_append hword hne []
      have hdrop := dropTrailingSlashes_append hword hne ['/'] []
      rw [List.append_nil] at hcollapse
      rw [hcollapse, pieces_of_notMem hword hne]
      have hnil : dropTrailingSlashes [] = [] := rfl
      simpa [hnil, collapseSlashes] using hdrop
  | slash word rest hword ih =>
    by_cases hne : word = []
    · rw [hne, List.nil_append, collapseSlashes_slash_slash, pieces_slash, ih]
    · have hdrop := dropTrailingSlashes_append hword hne ['/'] (collapseSlashes ('/' :: rest))
      rw [collapseSlashes_slash_append hword hne, pieces_append_slash,
        pieces_of_notMem hword hne, List.flatMap_append, ← ih]
      simpa using hdrop

/-- The normal form is the root exactly if nothing is left of the text. -/
theorem normalize_cases (path : Option String) :
    (dropTrailingSlashes (collapseSlashes ('/' :: trimmed path)) = [] ∧ normalize path = root) ∨
    (dropTrailingSlashes (collapseSlashes ('/' :: trimmed path)) ≠ [] ∧
      (normalize path).toList = dropTrailingSlashes (collapseSlashes ('/' :: trimmed path))) := by
  cases path with
  | none => exact .inl ⟨rfl, rfl⟩
  | some path =>
    rw [trimmed_some]
    cases htrimmed : Text.trimChars path.toList with
    | nil => exact .inl ⟨rfl, by simp only [normalize, htrimmed]⟩
    | cons c cs =>
      cases hnormal : dropTrailingSlashes (collapseSlashes ('/' :: c :: cs)) with
      | nil => exact .inl ⟨rfl, by simp only [normalize, htrimmed, hnormal]⟩
      | cons d ds =>
        refine .inr ⟨List.cons_ne_nil d ds, ?_⟩
        simp only [normalize, htrimmed, hnormal, String.toList_ofList]

theorem toList_normalize (path : Option String) :
    (normalize path).toList = '/' :: ['/'].intercalate (pieces (trimmed path)) := by
  have h := normalize_cases path
  rw [dropTrailingSlashes_collapseSlashes] at h
  by_cases hnone : pieces (trimmed path) = []
  · rw [hnone] at h ⊢
    rcases h with ⟨-, hroot⟩ | ⟨hne, -⟩
    · rw [hroot]
      decide
    · exact absurd rfl hne
  · rcases h with ⟨he, -⟩ | ⟨-, hlist⟩
    · rw [← intercalate_eq_flatMap hnone] at he
      cases he
    · rw [hlist, intercalate_eq_flatMap hnone]

theorem isTrimmed_trimmed (path : Option String) : Text.IsTrimmed (trimmed path) := by
  cases path with
  | none => exact ⟨by simp [trimmed], by simp [trimmed]⟩
  | some path => exact Text.isTrimmed_trimChars path.toList

private theorem bind_nonBlank? (path : Option String) : path.bind Text.nonBlank? =
    if trimmed path = [] then none else some (String.ofList (trimmed path)) := by
  cases path with
  | none => rfl
  | some path =>
    show Text.nonBlank? path = _
    unfold Text.nonBlank? Text.trim trimmed
    simp

/-- The text that two paths are joined to before it is brought into normal form. -/
def joined (base path : Option String) : String :=
  "/".intercalate ([base, path].filterMap (·.bind Text.nonBlank?))

theorem join_eq (base path : Option String) : join base path = normalize (some (joined base path)) :=
  rfl

theorem toList_joined (base path : Option String) : (joined base path).toList =
    if trimmed base = [] then trimmed path
    else if trimmed path = [] then trimmed base
    else trimmed base ++ '/' :: trimmed path := by
  simp only [joined, List.filterMap_cons, List.filterMap_nil, bind_nonBlank?]
  by_cases hb : trimmed base = [] <;> by_cases hp : trimmed path = [] <;> simp [hb, hp]

theorem isTrimmed_joined (base path : Option String) :
    Text.IsTrimmed (joined base path).toList := by
  have hbase := isTrimmed_trimmed base
  have hpath := isTrimmed_trimmed path
  rw [toList_joined]
  split
  · exact hpath
  · rename_i hb
    split
    · exact hbase
    · rename_i hp
      exact hbase.append hb hpath hp ['/']

theorem pieces_trimmed_joined (base path : Option String) :
    pieces (trimmed (some (joined base path))) = pieces (trimmed base) ++ pieces (trimmed path) := by
  rw [trimmed_some, (isTrimmed_joined base path).trimChars_eq, toList_joined]
  split
  · rename_i hb
    rw [hb, pieces_nil, List.nil_append]
  · split
    · rename_i hp
      rw [hp, pieces_nil, List.append_nil]
    · exact pieces_append_slash _ _

theorem toList_join (base path : Option String) : (join base path).toList =
    '/' :: ['/'].intercalate (pieces (trimmed base) ++ pieces (trimmed path)) := by
  rw [join_eq, toList_normalize, pieces_trimmed_joined]

private theorem toList_intercalate_ofList (segs : List (List Char)) :
    ("/" ++ "/".intercalate (segs.map String.ofList)).toList = '/' :: ['/'].intercalate segs := by
  rw [String.toList_append, String.toList_intercalate, List.map_map]
  simp

/-- A path below another one is a slash with the segments of both behind it, and slashes between
them. So is the normal form of a path with its own segments, and they can be read back. -/
theorem join_eq_intercalate_segments (base path : Option String) :
    join base path = "/" ++ "/".intercalate (segments base ++ segments path) ∧
    normalize path = "/" ++ "/".intercalate (segments path) ∧
    (pieces (join base path).toList).map String.ofList = segments base ++ segments path := by
  refine ⟨?_, ?_, ?_⟩
  · rw [← String.toList_inj, toList_join, segments, segments, ← List.map_append,
      toList_intercalate_ofList]
  · rw [← String.toList_inj, toList_normalize, segments, toList_intercalate_ofList]
  · rw [toList_join, pieces_intercalate fun s hs => isSegment_of_mem_append hs, List.map_append]
    rfl

example : join (some " api//v 1/ ") (some "//x y/ ") = "/api/v 1/x y" := by decide +kernel

end JvmRoutes.Route
