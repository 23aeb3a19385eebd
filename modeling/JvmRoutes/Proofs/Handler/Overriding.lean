import JvmRoutes.Proofs.Extraction.Findings

/-!
Which of several methods with one key is the handler: the last one from the root down that is a
route. With fewer verbs it is the same one, or the place of that one, which is no route then, is
left to a method further up.
-/
namespace JvmRoutes.Handler

variable {config : Config} {classes : List Class} {handlers : OrderedMap Method} {m : Method}
  {key : String}

theorem key?_of_keyed {pair : String × Method} (h : keyed m = .ok pair) : m.key? = some pair.1 := by
  unfold keyed at h
  split at h
  · rename_i hkey
    obtain rfl := Except.ok.inj h
    exact hkey
  · cases h

private theorem map_find?_keyed {methods : List Method} {pairs : List (String × Method)}
    (h : List.Forall₂ (fun m pair => keyed m = .ok pair) methods pairs) (key : String) :
    (pairs.find? (·.1 == key)).map (·.2) = methods.find? fun m => m.key? == some key := by
  induction h with
  | nil => rfl
  | @cons m pair methods pairs hkeyed _ ih =>
    rw [List.find?_cons, List.find?_cons, key?_of_keyed hkeyed, keyed_eq_ok hkeyed]
    cases hk : pair.1 == key with
    | true => simp [beq_iff_eq.1 hk]
    | false =>
      have hne : (some pair.1 == some key) = false := hk
      rw [hne]
      exact ih

private theorem key?_of_mem_pairs {methods : List Method} {pairs : List (String × Method)}
    (h : List.Forall₂ (fun m pair => keyed m = .ok pair) methods pairs) :
    ∀ pair ∈ pairs, pair.2.key? = some pair.1 := by
  induction h with
  | nil => exact nofun
  | cons hkeyed _ ih =>
    refine List.forall_mem_cons.2 ⟨?_, ih⟩
    rw [← keyed_eq_ok hkeyed]
    exact key?_of_keyed hkeyed

/-- A key stands for the last of the route methods that have it, from the root down. -/
theorem get?_ofLineage (h : ofLineage config classes = .ok handlers) (key : String) :
    handlers.get? key =
      (classes.reverse.flatMap (declared config)).reverse.find? fun m => m.key? == some key := by
  unfold ofLineage at h
  obtain ⟨pairs, hpairs, h⟩ := bind_eq_ok_iff.1 h
  obtain rfl := Except.ok.inj h
  rw [OrderedMap.get?_ofList]
  exact map_find?_keyed (List.rel_reverse (mapM_eq_ok_iff.1 hpairs)) key

private theorem exists_key_of_mem_values (h : ofLineage config classes = .ok handlers)
    (hm : m ∈ handlers.values) : ∃ key, m.key? = some key ∧ handlers.get? key = some m := by
  unfold ofLineage at h
  obtain ⟨pairs, hpairs, h⟩ := bind_eq_ok_iff.1 h
  obtain rfl := Except.ok.inj h
  obtain ⟨entry, hentry, rfl⟩ := List.mem_map.1 hm
  have hmem := OrderedMap.mem_of_mem_entries_ofList hentry
  refine ⟨entry.1, key?_of_mem_pairs (mapM_eq_ok_iff.1 hpairs) entry hmem, ?_⟩
  exact OrderedMap.get?_of_mem_entries (OrderedMap.nodup_keys_ofList pairs) hentry

variable {narrow : List String}

private theorem declared_narrow (hsub : narrow ⊆ config.verbs) (c : Class) :
    declared { config with verbs := narrow } c =
      (declared config c).filter (Route.isRoute { config with verbs := narrow }) := by
  unfold declared
  rw [List.filter_filter]
  apply List.filter_congr
  intro m _
  cases hm : Route.isRoute { config with verbs := narrow } m with
  | false => rfl
  | true => rw [Route.isRoute_of_narrow hsub hm, Bool.and_self]

/-- With all verbs, a method takes the place of another one with the same key, but with the fewer
verbs it is no route and leaves its place to that one. -/
structure IsReplaced (config : Config) (narrow : List String) (handlers : OrderedMap Method)
    (m n : Method) : Prop where
  key : ∃ key, m.key? = some key ∧ n.key? = some key ∧ handlers.get? key = some n
  isRoute : Route.isRoute config n = true
  not_narrow : Route.isRoute { config with verbs := narrow } n = false

theorem find?_filter_of_pos {α : Type} {p q : α → Bool} {l : List α} {a : α}
    (h : l.find? p = some a) (hq : q a = true) : (l.filter q).find? p = some a := by
  obtain ⟨hp, front, back, rfl, hfront⟩ := List.find?_eq_some_iff_append.1 h
  rw [List.find?_filter, List.find?_eq_some_iff_append]
  refine ⟨by rw [hq, hp]; rfl, front, back, rfl, ?_⟩
  intro b hb
  simp [hfront b hb]

theorem mem_values_of_narrow (hsub : narrow ⊆ config.verbs) {few : OrderedMap Method}
    (hfew : ofLineage { config with verbs := narrow } classes = .ok few)
    (h : ofLineage config classes = .ok handlers) (hm : m ∈ few.values) :
    m ∈ handlers.values ∨ ∃ n, IsReplaced config narrow handlers m n := by
  obtain ⟨key, hkey, hget⟩ := exists_key_of_mem_values hfew hm
  have hdeclared : classes.reverse.flatMap (declared { config with verbs := narrow }) =
      (classes.reverse.flatMap (declared config)).filter
        (Route.isRoute { config with verbs := narrow }) := by
    rw [List.filter_flatMap]
    exact List.flatMap_congr fun c _ => declared_narrow hsub c
  rw [get?_ofLineage hfew, hdeclared, ← List.filter_reverse] at hget
  have hmem := List.mem_of_mem_filter (List.mem_of_find?_eq_some hget)
  cases hn : handlers.get? key with
  | none =>
    rw [get?_ofLineage h, List.find?_eq_none] at hn
    exact absurd (beq_iff_eq.2 hkey) (hn m hmem)
  | some n =>
    cases hroute : Route.isRoute { config with verbs := narrow } n with
    | true =>
      -- the last of all is among the fewer ones as well, so that it is the last of these
      rw [get?_ofLineage h] at hn
      obtain rfl := Option.some.inj (hget.symm.trans (find?_filter_of_pos hn hroute))
      exact .inl (OrderedMap.mem_values ((get?_ofLineage h key).trans hn))
    | false =>
      have hfound := hn
      rw [get?_ofLineage h] at hfound
      have hkey' := List.find?_some hfound
      have hall := isRoute_of_mem_values h (OrderedMap.mem_values hn)
      exact .inr ⟨n, ⟨key, hkey, beq_iff_eq.1 hkey', hn⟩, hall, hroute⟩

end JvmRoutes.Handler
