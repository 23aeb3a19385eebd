import JvmRoutes.Proofs.Route.Key

/-!
Route templates: parts between slashes that are literal or stand for a variable, whose value a
pattern can restrict. The variables are among the keys of the template in their order. A pattern
ends at its first closing brace, so that what stands behind that one is read as keys as well.
-/
namespace JvmRoutes.Route

variable {cs : List Char}

structure VariableName where
  chars : List Char
  isName : IsName chars

/-- What stands between two slashes of a template. The pattern of a variable is any text, with
braces and slashes too. -/
inductive TemplatePart
  | literal (text : List Char) (plain : ∀ c ∈ text, c ≠ '{' ∧ c ≠ '}' ∧ c ≠ ':')
  | braced (name : VariableName)
  | patterned (name : VariableName) (pattern : List Char)
  | plain (name : VariableName)

namespace TemplatePart

def chars : TemplatePart → List Char
  | literal text _ => text
  | braced name => '{' :: (name.chars ++ ['}'])
  | patterned name pattern => '{' :: (name.chars ++ ':' :: (pattern ++ ['}']))
  | plain name => ':' :: name.chars

def name? : TemplatePart → Option String
  | literal _ _ => none
  | braced name => some (String.ofList name.chars)
  | patterned name _ => some (String.ofList name.chars)
  | plain name => some (String.ofList name.chars)

end TemplatePart

def templateText (parts : List TemplatePart) : String :=
  String.ofList (['/'].intercalate (parts.map (·.chars)))

def variableNames (parts : List TemplatePart) : List String := parts.filterMap (·.name?)

/-- What stands in braces behind the first closing one of a pattern. -/
def behindBrace (pattern : List Char) : List Char :=
  ((pattern ++ ['}']).dropWhile (· != '}')).drop 1

/-- A key stands somewhere in the text. -/
def HasKey (cs : List Char) : Prop :=
  ∃ front back name rest, cs = front ++ back ∧ StartsWithKey back name rest

theorem not_hasKey_nil : ¬ HasKey [] := by
  rintro ⟨front, back, name, rest, hnil, h⟩
  obtain ⟨-, rfl⟩ := List.append_eq_nil_iff.1 hnil.symm
  cases h

private theorem hasKey_of_startsWithKey {name rest : List Char} (h : StartsWithKey cs name rest) :
    HasKey cs := ⟨[], cs, name, rest, rfl, h⟩

private theorem hasKey_cons_iff {c : Char} (h : ∀ name rest, ¬ StartsWithKey (c :: cs) name rest) :
    HasKey (c :: cs) ↔ HasKey cs := by
  constructor
  · rintro ⟨front, back, name, rest, heq, hkey⟩
    cases front with
    | nil => exact absurd (heq ▸ hkey) (h name rest)
    | cons d front => exact ⟨front, back, name, rest, (List.cons.inj heq).2, hkey⟩
  · rintro ⟨front, back, name, rest, rfl, hkey⟩
    exact ⟨c :: front, back, name, rest, rfl, hkey⟩

theorem keysIn_eq_nil_iff (cs : List Char) : keysIn cs = [] ↔ ¬ HasKey cs := by
  induction cs using keyInduction with
  | nil => exact iff_of_true rfl not_hasKey_nil
  | key cs name rest h _ =>
    rw [keysIn_of_startsWithKey h]
    exact iff_of_false (List.cons_ne_nil _ _) fun hnone => hnone (hasKey_of_startsWithKey h)
  | skip c cs hnot ih => rw [keysIn_of_not hnot, hasKey_cons_iff hnot, ih]

private theorem isClosed_of_notMem (h : '{' ∉ cs) : IsClosed cs := by
  rintro front back rfl
  exact absurd (by simp) h

theorem isClosed_concat (cs : List Char) : IsClosed (cs ++ ['}']) := by
  induction cs with
  | nil => exact isClosed_of_notMem (by decide)
  | cons c cs ih => exact isClosed_cons_iff.2 ⟨fun _ => by simp, ih⟩

private theorem exists_behindBrace (pattern : List Char) : ∃ front, '}' ∉ front ∧
    pattern ++ ['}'] = front ++ '}' :: behindBrace pattern := by
  obtain ⟨front, rest, heq, hfront⟩ :=
    List.eq_append_cons_of_mem (show '}' ∈ pattern ++ ['}'] by simp)
  have hrest : behindBrace pattern = rest := by
    rw [behindBrace, heq, List.dropWhile_append_of_pos (bne_of_notMem hfront)]
    simp
  exact ⟨front, hfront, by rw [hrest, heq]⟩

namespace TemplatePart

private theorem isClosed_chars (part : TemplatePart) : IsClosed part.chars := by
  cases part with
  | literal text plain => exact isClosed_of_notMem fun hm => (plain _ hm).1 rfl
  | braced name => exact isClosed_concat ('{' :: name.chars)
  | patterned name pattern =>
    have hclosed := isClosed_concat ('{' :: (name.chars ++ ':' :: pattern))
    simpa [chars] using hclosed
  | plain name =>
    refine isClosed_of_notMem fun hm => ?_
    have hword := name.isName.isWord '{' (List.mem_of_ne_of_mem (by decide) hm)
    exact absurd hword (by decide)

/-- The keys in a part that are none of its variable. -/
def keysInside : TemplatePart → List String
  | patterned _ pattern => keysIn (behindBrace pattern)
  | _ => []

theorem keysIn_chars (part : TemplatePart) :
    keysIn part.chars = part.name?.toList ++ part.keysInside := by
  cases part with
  | literal text plain =>
    have hnone : ¬ HasKey text := by
      rintro ⟨front, back, name, rest, rfl, hkey⟩
      cases hkey with
      | braced => exact (plain '{' (by simp)).1 rfl
      | patterned => exact (plain '{' (by simp)).1 rfl
      | plain => exact (plain ':' (by simp)).2.2 rfl
    exact (keysIn_eq_nil_iff text).2 hnone
  | braced name => exact keysIn_of_startsWithKey (.braced name.isName)
  | patterned name pattern =>
    obtain ⟨front, hfront, hpattern⟩ := exists_behindBrace pattern
    have hkey := @StartsWithKey.patterned _ _ (behindBrace pattern) name.isName hfront
    rw [← hpattern] at hkey
    exact keysIn_of_startsWithKey hkey
  | plain name =>
    have hkey := @StartsWithKey.plain _ [] name.isName startsIdle_nil.stopsWord
    rw [List.append_nil] at hkey
    exact keysIn_of_startsWithKey hkey

end TemplatePart

theorem keysIn_intercalate {texts : List (List Char)} (h : ∀ text ∈ texts, IsClosed text) :
    keysIn (['/'].intercalate texts) = texts.flatMap keysIn := by
  induction texts with
  | nil => rfl
  | cons text rest ih =>
    obtain ⟨htext, hrest⟩ := List.forall_mem_cons.1 h
    cases rest with
    | nil => simp
    | cons next rest =>
      rw [List.intercalate_cons_cons, List.append_assoc, List.singleton_append,
        keysIn_append htext (startsIdle_cons isIdle_slash), keysIn_of_isIdle isIdle_slash, ih hrest,
        ← List.flatMap_cons]

theorem keys_templateText (parts : List TemplatePart) : keys (templateText parts) =
    parts.flatMap fun part => part.name?.toList ++ part.keysInside := by
  have hclosed : ∀ text ∈ parts.map (·.chars), IsClosed text := by
    intro text htext
    obtain ⟨part, -, rfl⟩ := List.mem_map.1 htext
    exact part.isClosed_chars
  show keysIn (templateText parts).toList = _
  rw [templateText, String.toList_ofList, keysIn_intercalate hclosed, List.flatMap_map]
  exact List.flatMap_congr fun part _ => part.keysIn_chars

section FlatMap

variable {α β : Type} (f g : α → List β) (items : List α)

theorem sublist_flatMap_append :
    (items.flatMap f).Sublist (items.flatMap fun a => f a ++ g a) := by
  induction items with
  | nil => exact .slnil
  | cons a items ih => exact (List.sublist_append_left (f a) (g a)).append ih

private theorem flatMap_append_eq_iff :
    (items.flatMap fun a => f a ++ g a) = items.flatMap f ↔ ∀ a ∈ items, g a = [] := by
  induction items with
  | nil => simp
  | cons a items ih =>
    rw [List.flatMap_cons, List.flatMap_cons, List.append_assoc, List.append_cancel_left_eq,
      List.forall_mem_cons, ← ih]
    constructor
    · intro h
      have hlength := congrArg List.length h
      have hle := (sublist_flatMap_append f g items).length_le
      rw [List.length_append] at hlength
      have hnil : g a = [] := List.length_eq_zero_iff.1 (by omega)
      rw [hnil] at h
      exact ⟨hnil, h⟩
    · rintro ⟨hnil, h⟩
      rw [hnil, h, List.nil_append]

end FlatMap

private theorem keysInside_eq_nil_iff (parts : List TemplatePart) :
    (∀ part ∈ parts, part.keysInside = []) ↔
      ∀ name pattern, .patterned name pattern ∈ parts → ¬ HasKey (behindBrace pattern) := by
  constructor
  · intro h name pattern hmem
    exact (keysIn_eq_nil_iff _).1 (h _ hmem)
  · intro h part hmem
    cases part with
    | patterned name pattern => exact (keysIn_eq_nil_iff _).2 (h name pattern hmem)
    | literal | braced | plain => rfl

/-- The keys of a template are its variables in their order, each with the keys that stand in its
pattern behind the first closing brace. Exactly if there are none of those, the variables are all. -/
theorem keys_templateText_eq_iff (parts : List TemplatePart) :
    keys (templateText parts) =
      (parts.flatMap fun part => part.name?.toList ++ part.keysInside) ∧
    (variableNames parts).Sublist (keys (templateText parts)) ∧
    (keys (templateText parts) = variableNames parts ↔
      ∀ name pattern, .patterned name pattern ∈ parts → ¬ HasKey (behindBrace pattern)) := by
  refine ⟨keys_templateText parts, ?_⟩
  rw [keys_templateText, variableNames, List.filterMap_eq_flatMap_toList, flatMap_append_eq_iff,
    keysInside_eq_nil_iff]
  exact ⟨sublist_flatMap_append _ _ parts, Iff.rfl⟩

/-- A template with a date, the parts of which have as many digits as the pattern says. -/
def dateTemplate : List TemplatePart :=
  [.literal [] (by simp),
    .patterned ⟨"date".toList, by decide, List.all_eq_true.1 (by decide +kernel)⟩
      "[0-9]\x7b4\x7d-[0-9]\x7b2\x7d".toList]

theorem keys_dateTemplate :
    templateText dateTemplate = "/\x7bdate:[0-9]\x7b4\x7d-[0-9]\x7b2\x7d\x7d" ∧
    variableNames dateTemplate = ["date"] ∧ keys (templateText dateTemplate) = ["date", "2"] := by
  decide +kernel

end JvmRoutes.Route
