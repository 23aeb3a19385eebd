import JvmRoutes.Proofs.Route.Segments
import JvmRoutes.Route.Key

/-!
The keys of a path, as they stand in it: a text starts with a key or it does not, and the next one
is looked for behind it. Slashes and blanks stand in no key but in its pattern, so that the keys of
a path are those of its normal form, and of joined paths each has its own.
-/
namespace JvmRoutes.Route

variable {c : Char} {cs front back next name rest : List Char}

/-- What can be the name of a key: word characters, at least one. -/
structure IsName (name : List Char) : Prop where
  ne_nil : name ≠ []
  isWord : ∀ c ∈ name, Text.isWord c = true

/-- A text does not go on with a word. -/
def StopsWord (cs : List Char) : Prop := ∀ c ∈ cs.head?, Text.isWord c = false

theorem stopsWord_cons (h : Text.isWord c = false) : StopsWord (c :: cs) := by
  intro c' hc
  rwa [← Option.some.inj hc]

/-- A text starts with a key that has a name, and the rest stands behind the key. A name without
braces goes as far as there are word characters. -/
inductive StartsWithKey : (cs name rest : List Char) → Prop
  | braced {name rest : List Char} (hn : IsName name) :
    StartsWithKey ('{' :: (name ++ '}' :: rest)) name rest
  | patterned {name pattern rest : List Char} (hn : IsName name) (hp : '}' ∉ pattern) :
    StartsWithKey ('{' :: (name ++ ':' :: (pattern ++ '}' :: rest))) name rest
  | plain {name rest : List Char} (hn : IsName name) (hr : StopsWord rest) :
    StartsWithKey (':' :: (name ++ rest)) name rest

def keysIn (cs : List Char) : List String := keysAfter 0 cs

private theorem takeWhile_name (hn : IsName name) (hr : StopsWord rest) :
    (name ++ rest).takeWhile Text.isWord = name ∧ (name ++ rest).dropWhile Text.isWord = rest := by
  rw [List.takeWhile_append_of_pos hn.isWord, List.dropWhile_append_of_pos hn.isWord]
  cases rest with
  | nil => simp
  | cons c rest => simp [hr c rfl]

theorem bne_of_notMem (h : '}' ∉ cs) : ∀ c ∈ cs, (c != '}') = true := by
  intro c hc
  exact bne_iff_ne.2 fun he => h (he ▸ hc)

private theorem length_pattern {pattern : List Char} (hp : '}' ∉ pattern) (rest : List Char) :
    ((pattern ++ '}' :: rest).takeWhile (· != '}')).length = pattern.length := by
  rw [List.takeWhile_append_of_pos (bne_of_notMem hp)]
  simp

theorem StartsWithKey.suffix (h : StartsWithKey cs name rest) : rest <:+ cs := by
  cases h with
  | braced => exact ⟨'{' :: (name ++ ['}']), by simp⟩
  | @patterned _ pattern => exact ⟨'{' :: (name ++ ':' :: (pattern ++ ['}'])), by simp⟩
  | plain => exact ⟨':' :: name, by simp⟩

theorem StartsWithKey.length_lt (h : StartsWithKey cs name rest) : rest.length < cs.length := by
  cases h <;> simp <;> omega

theorem StartsWithKey.isName (h : StartsWithKey cs name rest) : IsName name := by
  cases h with
  | braced hn => exact hn
  | patterned hn => exact hn
  | plain hn => exact hn

theorem StartsWithKey.keyAt?_eq (h : StartsWithKey cs name rest) :
    keyAt? cs = some (name, cs.length - rest.length) := by
  obtain ⟨first, more, hname⟩ := List.exists_cons_of_ne_nil h.isName.ne_nil
  cases h with
  | braced hn =>
    have hr : StopsWord ('}' :: rest) := stopsWord_cons (by decide)
    obtain ⟨htake, hdrop⟩ := takeWhile_name hn hr
    rw [keyAt?, htake, hdrop, hname]
    simp
    omega
  | @patterned _ pattern _ hn hp =>
    have hr : StopsWord (':' :: (pattern ++ '}' :: rest)) := stopsWord_cons (by decide)
    obtain ⟨htake, hdrop⟩ := takeWhile_name hn hr
    rw [keyAt?, htake, hdrop, hname]
    simp [length_pattern hp]
    omega
  | plain hn hr =>
    obtain ⟨htake, -⟩ := takeWhile_name hn hr
    rw [keyAt?, htake, hname]
    simp
    omega

private theorem stopsWord_dropWhile (cs : List Char) : StopsWord (cs.dropWhile Text.isWord) := by
  intro c hc
  have hne : cs.dropWhile Text.isWord ≠ [] := by
    intro he
    simp [he] at hc
  rw [List.head?_eq_some_head hne, Option.mem_some] at hc
  simpa [hc] using List.head_dropWhile_not Text.isWord hne

private theorem exists_startsWithKey {size : Nat} (h : keyAt? cs = some (name, size)) :
    ∃ rest, StartsWithKey cs name rest := by
  unfold keyAt? at h
  split at h
  · rename_i more
    have hmore := List.takeWhile_append_dropWhile (p := Text.isWord) (l := more)
    have hword : ∀ c ∈ more.takeWhile Text.isWord, Text.isWord c = true :=
      fun c hc => List.mem_takeWhile_imp hc
    generalize more.takeWhile Text.isWord = word at h hmore hword
    generalize more.dropWhile Text.isWord = behind at h hmore
    subst hmore
    split at h
    · cases h
    · rename_i hne
      obtain ⟨rfl, -⟩ := Prod.mk.inj (Option.some.inj h)
      exact ⟨_, .braced ⟨hne, hword⟩⟩
    · rename_i behind hne
      split at h
      · rename_i hclosed
        obtain ⟨rfl, -⟩ := Prod.mk.inj (Option.some.inj h)
        obtain ⟨pattern, rest, rfl, hpattern⟩ :=
          List.eq_append_cons_of_mem (List.contains_iff_mem.1 hclosed)
        exact ⟨rest, .patterned ⟨hne, hword⟩ hpattern⟩
      · cases h
    · cases h
  · rename_i more
    have hmore := List.takeWhile_append_dropWhile (p := Text.isWord) (l := more)
    split at h
    · cases h
    · rename_i hne
      obtain ⟨rfl, -⟩ := Prod.mk.inj (Option.some.inj h)
      have hplain := StartsWithKey.plain ⟨hne, fun c hc => List.mem_takeWhile_imp hc⟩
        (stopsWord_dropWhile more)
      rw [hmore] at hplain
      exact ⟨_, hplain⟩
  · cases h

private theorem keysAfter_eq (skip : Nat) (cs : List Char) :
    keysAfter skip cs = keysIn (cs.drop skip) := by
  induction cs generalizing skip with
  | nil => simp [keysIn, keysAfter]
  | cons c rest ih =>
    cases skip with
    | zero => rfl
    | succ skip => exact ih skip

theorem keysIn_of_startsWithKey (h : StartsWithKey cs name rest) :
    keysIn cs = String.ofList name :: keysIn rest := by
  have hdrop := List.suffix_iff_eq_drop.1 h.suffix
  have hkey := h.keyAt?_eq
  cases cs with
  | nil => cases h
  | cons c cs =>
    rw [List.length_cons, Nat.succ_sub (Nat.le_of_lt_succ h.length_lt)] at hdrop hkey
    rw [keysIn, keysAfter, hkey]
    show String.ofList name :: keysAfter (cs.length - rest.length) cs = _
    rw [keysAfter_eq]
    exact congrArg (fun rest => String.ofList name :: keysIn rest) hdrop.symm

theorem keysIn_of_not (h : ∀ name rest, ¬ StartsWithKey (c :: cs) name rest) :
    keysIn (c :: cs) = keysIn cs := by
  have hkey : keyAt? (c :: cs) = none := by
    rw [Option.eq_none_iff_forall_ne_some]
    rintro ⟨name, size⟩ he
    obtain ⟨rest, hrest⟩ := exists_startsWithKey he
    exact h name rest hrest
  rw [keysIn, keysAfter, hkey]
  rfl

/-- A character that can stand in no key but in the pattern of one. -/
structure IsIdle (c : Char) : Prop where
  isWord : Text.isWord c = false
  ne_brace : c ≠ '{'
  ne_close : c ≠ '}'
  ne_colon : c ≠ ':'

theorem isIdle_slash : IsIdle '/' := ⟨by decide, by decide, by decide, by decide⟩

private theorem isIdle_of_isBlank (h : Text.isBlank c = true) : IsIdle c := by
  have hne : ∀ d, Text.isBlank d = false → c ≠ d := by
    rintro d hd rfl
    simp [hd] at h
  exact ⟨Text.not_isWord_of_isBlank h, hne _ (by decide), hne _ (by decide), hne _ (by decide)⟩

/-- A text starts with an idle character, if with any. -/
def StartsIdle (cs : List Char) : Prop := ∀ c ∈ cs.head?, IsIdle c

theorem startsIdle_nil : StartsIdle [] := by simp [StartsIdle]

theorem startsIdle_cons (h : IsIdle c) : StartsIdle (c :: cs) := by
  intro c' hc
  rwa [← Option.some.inj hc]

theorem StartsIdle.stopsWord (h : StartsIdle cs) : StopsWord cs := fun c hc => (h c hc).isWord

theorem StopsWord.of_append (h : StopsWord (front ++ back)) : StopsWord front := by
  intro c hc
  exact h c (by simp [Option.mem_def.1 hc])

theorem stopsWord_append (h : StopsWord front) (hback : StartsIdle back) :
    StopsWord (front ++ back) := by
  cases front with
  | nil => exact hback.stopsWord
  | cons c front => exact stopsWord_cons (h c rfl)

theorem StartsWithKey.append (h : StartsWithKey cs name rest) (hback : StartsIdle back) :
    StartsWithKey (cs ++ back) name (rest ++ back) := by
  cases h with
  | braced hn => simpa using @braced name (rest ++ back) hn
  | @patterned _ pattern _ hn hp => simpa using @patterned name pattern (rest ++ back) hn hp
  | plain hn hr => simpa using @plain name (rest ++ back) hn (stopsWord_append hr hback)

/-- The rest stands behind the first closing brace of the text. -/
def ClosesBefore (cs rest : List Char) : Prop := ∃ front, '}' ∉ front ∧ cs = front ++ '}' :: rest

private theorem append_eq_name_iff (hn : IsName name) (hback : StartsIdle back) :
    front ++ back = name ++ rest ↔ ∃ next, front = name ++ next ∧ rest = next ++ back := by
  constructor
  · intro h
    rcases List.append_eq_append_iff.1 h with ⟨more, hname, hmore⟩ | h
    · cases more with
      | nil => exact ⟨[], by simpa using hname.symm, by simpa using hmore.symm⟩
      | cons a more =>
        have hidle : IsIdle a := hback a (by simp [hmore])
        have hword := hn.isWord a (by simp [hname])
        simp [hidle.isWord] at hword
    · exact h
  · rintro ⟨next, rfl, rfl⟩
    exact List.append_assoc ..

private theorem cons_eq_append_iff (hback : StartsIdle back) (hc : ¬ IsIdle c) :
    c :: rest = next ++ back ↔ ∃ behind, next = c :: behind ∧ rest = behind ++ back := by
  constructor
  · intro h
    cases next with
    | nil => exact absurd (hback c (by rw [← List.nil_append back, ← h]; rfl)) hc
    | cons a behind =>
      obtain ⟨rfl, hrest⟩ := List.cons.inj h
      exact ⟨behind, rfl, hrest⟩
  · rintro ⟨behind, rfl, rfl⟩
    rfl

/-- A key at the start of a text to which an idle one is added stands in the text, or it has a
pattern that is closed in what is added. -/
theorem startsWithKey_append_iff (hback : StartsIdle back) (hne : front ≠ []) :
    StartsWithKey (front ++ back) name rest ↔
      (∃ next, StartsWithKey front name next ∧ rest = next ++ back) ∨
        ∃ pattern, IsName name ∧ '}' ∉ pattern ∧ front = '{' :: (name ++ ':' :: pattern) ∧
          ClosesBefore back rest := by
  have hclose : ¬ IsIdle '}' := fun h => h.ne_close rfl
  have hcolon : ¬ IsIdle ':' := fun h => h.ne_colon rfl
  obtain ⟨c, front, rfl⟩ := List.exists_cons_of_ne_nil hne
  constructor
  · intro h
    generalize htext : c :: front ++ back = text at h
    cases h with
    | braced hn =>
      obtain ⟨rfl, hname⟩ := List.cons.inj htext
      obtain ⟨next, rfl, h⟩ := (append_eq_name_iff hn hback).1 hname
      obtain ⟨behind, rfl, hrest⟩ := (cons_eq_append_iff hback hclose).1 h
      exact .inl ⟨behind, .braced hn, hrest⟩
    | @patterned _ pattern _ hn hp =>
      obtain ⟨rfl, hname⟩ := List.cons.inj htext
      obtain ⟨next, rfl, hnext⟩ := (append_eq_name_iff hn hback).1 hname
      obtain ⟨behind, rfl, hbehind⟩ := (cons_eq_append_iff hback hcolon).1 hnext
      rcases List.append_eq_append_iff.1 hbehind with ⟨more, rfl, h⟩ | ⟨more, rfl, h⟩
      · obtain ⟨inside, rfl, hrest⟩ := (cons_eq_append_iff hback hclose).1 h
        exact .inl ⟨inside, .patterned hn hp, hrest⟩
      · obtain ⟨hleft, hright⟩ := not_or.1 (mt List.mem_append.2 hp)
        exact .inr ⟨behind, hn, hleft, rfl, more, hright, h⟩
    | plain hn hr =>
      obtain ⟨rfl, hname⟩ := List.cons.inj htext
      obtain ⟨next, rfl, rfl⟩ := (append_eq_name_iff hn hback).1 hname
      exact .inl ⟨next, .plain hn hr.of_append, rfl⟩
  · rintro (⟨next, h, rfl⟩ | ⟨pattern, hn, hp, hfront, inside, hinside, rfl⟩)
    · exact h.append hback
    · have hpatterned := @StartsWithKey.patterned name (pattern ++ inside) rest hn
        (List.not_mem_append hp hinside)
      rw [hfront]
      simpa using hpatterned

/-- A text starts with a key, or it has its keys behind the first character. -/
@[elab_as_elim]
theorem keyInduction {motive : List Char → Prop} (cs : List Char) (nil : motive [])
    (key : ∀ cs name rest, StartsWithKey cs name rest → motive rest → motive cs)
    (skip : ∀ c cs, (∀ name rest, ¬ StartsWithKey (c :: cs) name rest) → motive cs →
      motive (c :: cs)) : motive cs := by
  match cs with
  | [] => exact nil
  | c :: cs =>
    by_cases h : ∃ name rest, StartsWithKey (c :: cs) name rest
    · obtain ⟨name, rest, h⟩ := h
      have hlength : rest.length ≤ cs.length := Nat.le_of_lt_succ h.length_lt
      exact key _ name rest h (keyInduction rest nil key skip)
    · exact skip c cs (fun name rest hkey => h ⟨name, rest, hkey⟩) (keyInduction cs nil key skip)
termination_by cs.length

theorem keysIn_of_isIdle (h : IsIdle c) (cs : List Char) : keysIn (c :: cs) = keysIn cs := by
  apply keysIn_of_not
  intro name rest hkey
  cases hkey with
  | braced => exact h.ne_brace rfl
  | patterned => exact h.ne_brace rfl
  | plain => exact h.ne_colon rfl

theorem closesBefore_cons (h : c ≠ '}') : ClosesBefore (c :: cs) rest ↔ ClosesBefore cs rest := by
  constructor
  · rintro ⟨front, hfront, hcs⟩
    cases front with
    | nil => exact absurd (List.cons.inj hcs).1 h
    | cons d front =>
      exact ⟨front, fun hm => hfront (List.mem_cons_of_mem d hm), (List.cons.inj hcs).2⟩
  · rintro ⟨front, hfront, rfl⟩
    exact ⟨c :: front, by simp [Ne.symm h, hfront], rfl⟩

/-- Two texts that start with idle characters have the same keys behind any text if they have the
same themselves and close a pattern before the same rest. -/
theorem keysIn_append_congr {back' : List Char} (hback : StartsIdle back)
    (hback' : StartsIdle back') (hclose : ∀ rest, ClosesBefore back rest ↔ ClosesBefore back' rest)
    (hkeys : keysIn back = keysIn back') (front : List Char) :
    keysIn (front ++ back) = keysIn (front ++ back') := by
  induction front using keyInduction with
  | nil => exact hkeys
  | key front name next h ih =>
    rw [keysIn_of_startsWithKey (h.append hback), keysIn_of_startsWithKey (h.append hback'), ih]
  | skip c front hnot ih =>
    have hne : c :: front ≠ [] := List.cons_ne_nil c front
    have hsame : ∀ name rest, StartsWithKey (c :: front ++ back) name rest ↔
        StartsWithKey (c :: front ++ back') name rest := by
      intro name rest
      rw [startsWithKey_append_iff hback hne, startsWithKey_append_iff hback' hne]
      simp only [hnot, hclose, false_and, exists_false]
    by_cases h : ∃ name rest, StartsWithKey (c :: front ++ back) name rest
    · obtain ⟨name, rest, h⟩ := h
      rw [keysIn_of_startsWithKey h, keysIn_of_startsWithKey ((hsame name rest).1 h)]
    · have hnone : ∀ name rest, ¬ StartsWithKey (c :: front ++ back) name rest :=
        fun name rest hkey => h ⟨name, rest, hkey⟩
      have hstep : keysIn (c :: front ++ back) = keysIn (front ++ back) := keysIn_of_not hnone
      have hstep' : keysIn (c :: front ++ back') = keysIn (front ++ back') :=
        keysIn_of_not fun name rest hkey => hnone name rest ((hsame name rest).2 hkey)
      rw [hstep, hstep', ih]

/-- Every opening brace of the text is followed by a closing one. -/
def IsClosed (cs : List Char) : Prop := ∀ front back, cs = front ++ '{' :: back → '}' ∈ back

theorem IsClosed.of_suffix (h : IsClosed cs) (hs : rest <:+ cs) : IsClosed rest := by
  obtain ⟨before, rfl⟩ := hs
  intro front back hrest
  exact h (before ++ front) back (by rw [hrest, List.append_assoc])

theorem isClosed_nil : IsClosed [] := by
  intro front back h
  simp at h

theorem isClosed_cons_iff : IsClosed (c :: cs) ↔ (c = '{' → '}' ∈ cs) ∧ IsClosed cs := by
  constructor
  · intro h
    exact ⟨fun hc => h [] cs (by rw [hc]; rfl), h.of_suffix (List.suffix_cons c cs)⟩
  · rintro ⟨hc, hcs⟩ front back heq
    cases front with
    | nil =>
      obtain ⟨rfl, rfl⟩ := List.cons.inj heq
      exact hc rfl
    | cons d front => exact hcs front back (List.cons.inj heq).2

/-- No key of a text in which all braces are closed goes on behind it. -/
theorem keysIn_append (hfront : IsClosed front) (hback : StartsIdle back) :
    keysIn (front ++ back) = keysIn front ++ keysIn back := by
  induction front using keyInduction with
  | nil => rfl
  | key front name next h ih =>
    rw [keysIn_of_startsWithKey (h.append hback), keysIn_of_startsWithKey h,
      ih (hfront.of_suffix h.suffix), List.cons_append]
  | skip c front hnot ih =>
    have hnone : ∀ name rest, ¬ StartsWithKey (c :: front ++ back) name rest := by
      intro name rest hkey
      rcases (startsWithKey_append_iff hback (List.cons_ne_nil c front)).1 hkey with
        ⟨next, h, -⟩ | ⟨pattern, hn, hp, heq, -⟩
      · exact hnot name next h
      · -- the brace in front is closed in the text, but neither in a name nor in a pattern
        have hclosed := hfront [] _ heq
        rcases List.mem_append.1 hclosed with hmem | hmem
        · have hword := hn.isWord _ hmem
          exact absurd hword (by decide)
        · exact hp (List.mem_of_ne_of_mem (by decide) hmem)
    have hstep : keysIn (c :: front ++ back) = keysIn (front ++ back) := keysIn_of_not hnone
    rw [hstep, keysIn_of_not hnot, ih (hfront.of_suffix (List.suffix_cons c front))]

section Idle

variable {idle : List Char} (h : ∀ c ∈ idle, IsIdle c)
include h

theorem keysIn_idle_append (cs : List Char) : keysIn (idle ++ cs) = keysIn cs := by
  induction idle with
  | nil => rfl
  | cons c idle ih =>
    obtain ⟨hc, hidle⟩ := List.forall_mem_cons.1 h
    rw [List.cons_append, keysIn_of_isIdle hc, ih hidle]

theorem keysIn_append_idle (cs : List Char) : keysIn (cs ++ idle) = keysIn cs := by
  have hstarts : StartsIdle idle := fun c hc => h c (List.mem_of_mem_head? hc)
  have hclose : ∀ cs rest, (∀ c ∈ cs, IsIdle c) → ¬ ClosesBefore cs rest := by
    rintro cs rest hcs ⟨front, -, rfl⟩
    exact (hcs '}' (by simp)).ne_close rfl
  have hkeys : keysIn idle = keysIn [] := by simpa using keysIn_idle_append h []
  have hcongr := keysIn_append_congr hstarts startsIdle_nil
    (fun rest => iff_of_false (hclose idle rest h) (hclose [] rest (by simp))) hkeys cs
  rwa [List.append_nil] at hcongr

end Idle

theorem keysIn_append_collapseSlashes (front cs : List Char) :
    keysIn (front ++ collapseSlashes cs) = keysIn (front ++ cs) := by
  induction cs generalizing front with
  | nil => rfl
  | cons c rest ih =>
    unfold collapseSlashes
    split
    · rename_i hslashes
      simp only [Bool.and_eq_true, decide_eq_true_eq, beq_iff_eq] at hslashes
      obtain ⟨rfl, hhead⟩ := hslashes
      have hrest : StartsIdle rest := by
        intro d hd
        rw [hhead] at hd
        exact Option.some.inj hd ▸ isIdle_slash
      rw [ih]
      exact keysIn_append_congr hrest (startsIdle_cons isIdle_slash)
        (fun _ => (closesBefore_cons isIdle_slash.ne_close).symm)
        (keysIn_of_isIdle isIdle_slash rest).symm front
    · rw [← List.singleton_append, ← List.append_assoc, ih]
      simp

theorem keysIn_dropTrailingSlashes (cs : List Char) :
    keysIn (dropTrailingSlashes cs) = keysIn cs := by
  have hidle : ∀ c ∈ cs.rtakeWhile (· == '/'), IsIdle c := by
    intro c hc
    have hslash := List.mem_rtakeWhile_imp hc
    exact (beq_iff_eq.1 hslash) ▸ isIdle_slash
  rw [dropTrailingSlashes_eq, ← keysIn_append_idle hidle, List.rdropWhile_append_rtakeWhile]

theorem keysIn_trimChars (cs : List Char) : keysIn (Text.trimChars cs) = keysIn cs := by
  obtain ⟨front, back, hcs, hfront, hback⟩ := Text.exists_blanks cs
  conv => rhs; rw [hcs]
  rw [keysIn_idle_append fun c hc => isIdle_of_isBlank (hfront c hc),
    keysIn_append_idle fun c hc => isIdle_of_isBlank (hback c hc)]

/-- The keys of a path. A missing path has none. -/
def keysOf (path : Option String) : List String := (path.map keys).getD []

theorem keysIn_trimmed (path : Option String) : keysIn (trimmed path) = keysOf path := by
  cases path with
  | none => rfl
  | some path => exact keysIn_trimChars path.toList

theorem keysIn_normalForm (cs : List Char) :
    keysIn (dropTrailingSlashes (collapseSlashes ('/' :: cs))) = keysIn cs := by
  have hcollapse := keysIn_append_collapseSlashes [] ('/' :: cs)
  rw [List.nil_append, List.nil_append] at hcollapse
  rw [keysIn_dropTrailingSlashes, hcollapse, keysIn_of_isIdle isIdle_slash]

/-- A path has the keys of its normal form. -/
theorem keys_normalize (path : Option String) : keys (normalize path) = keysOf path := by
  rw [← keysIn_trimmed, ← keysIn_normalForm]
  rcases normalize_cases path with ⟨he, hroot⟩ | ⟨-, hlist⟩
  · rw [he, hroot]
    exact keysIn_of_isIdle isIdle_slash []
  · rw [← hlist]
    rfl

private theorem isClosed_trimmed {path : Option String} (h : ∀ text ∈ path, IsClosed text.toList) :
    IsClosed (trimmed path) := by
  cases path with
  | none => exact isClosed_nil
  | some path =>
    obtain ⟨lead, trail, hpath, -, htrail⟩ := Text.exists_blanks path.toList
    intro front back htrimmed
    have hclosed := h path rfl (lead ++ front) (back ++ trail) (by
      rw [hpath, ← trimmed_some, htrimmed]
      simp)
    rcases List.mem_append.1 hclosed with hmem | hmem
    · exact hmem
    · exact absurd rfl (isIdle_of_isBlank (htrail _ hmem)).ne_close

/-- Of joined paths each has its keys, if the first one closes its braces. -/
theorem keys_join_eq_append {base : Option String} (h : ∀ text ∈ base, IsClosed text.toList)
    (path : Option String) : keys (join base path) = keysOf base ++ keysOf path := by
  have hnormal : keys (join base path) = keysIn (joined base path).toList := by
    rw [join_eq, keys_normalize]
    rfl
  rw [hnormal, ← keysIn_trimmed, ← keysIn_trimmed, toList_joined]
  split
  · rename_i hb
    rw [hb]
    rfl
  · split
    · rename_i hp
      rw [hp]
      exact (List.append_nil _).symm
    · rw [keysIn_append (isClosed_trimmed h) (startsIdle_cons isIdle_slash),
        keysIn_of_isIdle isIdle_slash]

theorem keys_join_eq_append_braces :
    (∀ text ∈ some " /\x7bid:[a/\x7b]\x7d//at:x/ ", IsClosed text.toList) ∧
    keys (join (some " /\x7bid:[a/\x7b]\x7d//at:x/ ") (some " \x7bkey/:x")) = ["id", "x", "x"] := by
  have hclosed : ∀ text ∈ some " /\x7bid:[a/\x7b]\x7d//at:x/ ", IsClosed text.toList := by
    intro text htext
    rw [← Option.some.inj htext]
    simp [isClosed_cons_iff, isClosed_nil]
  refine ⟨hclosed, ?_⟩
  rw [keys_join_eq_append hclosed]
  decide +kernel

end JvmRoutes.Route
