import JvmRoutes.Proofs.ClassFile.Layout

/-!
The tables of a class file are read as what they hold, in whatever order they stand and whatever
others stand between them.
-/
namespace JvmRoutes.ClassFile

variable {constants : List PoolConstant} {pool : ConstantPool}

/-- The attributes have every table that is the only one of its name. -/
structure Carries (constants : List PoolConstant) (tables : List Table) (m : Attributes) :
    Prop where
  absent : ∀ name, (∀ t ∈ tables, ¬ TextAt constants t.name name) → m.get? name = none
  present : ∀ name front t back, tables = front ++ t :: back → TextAt constants t.name name →
    (∀ u ∈ front ++ back, ¬ TextAt constants u.name name) → m.get? name = some t.content

/-- The name and the bytes of a table. -/
private def IsEntryOf (constants : List PoolConstant) (t : Table) (p : String × List UInt8) : Prop :=
  TextAt constants t.name p.1 ∧ p.2 = t.content

theorem textAt_injective {i : UInt16} {s t : String} (hs : TextAt constants i s)
    (ht : TextAt constants i t) : s = t := by
  have h := Option.some.inj (hs.symm.trans ht)
  injection h with h
  exact String.toList_inj.1 (Text.ModifiedUtf8.units_injective h)

private theorem forall₂_split {α β : Type} {R : α → β → Prop} {front back : List α} {a : α}
    {bs : List β} (h : List.Forall₂ R (front ++ a :: back) bs) :
    ∃ front' b back', bs = front' ++ b :: back' ∧ R a b ∧ List.Forall₂ R back back' := by
  induction front generalizing bs with
  | nil =>
    cases h with
    | cons hab hback => exact ⟨[], _, _, rfl, hab, hback⟩
  | cons c front ih =>
    cases h with
    | cons _ hrest =>
      obtain ⟨front', b, back', rfl, hab, hback⟩ := ih hrest
      exact ⟨_ :: front', b, back', rfl, hab, hback⟩

private theorem ne_of_mem_entries {tables : List Table} {pairs : List (String × List UInt8)}
    {name : String} (h : List.Forall₂ (IsEntryOf constants) tables pairs)
    (hn : ∀ t ∈ tables, ¬ TextAt constants t.name name) : ∀ p ∈ pairs, p.1 ≠ name := by
  induction h with
  | nil => simp
  | cons hentry _ ih =>
    intro p hp he
    rcases List.mem_cons.1 hp with rfl | hp
    · exact hn _ List.mem_cons_self (he ▸ hentry.1)
    · exact ih (fun t ht => hn t (List.mem_cons_of_mem _ ht)) p hp he

private theorem carries_ofList {tables : List Table} {pairs : List (String × List UInt8)}
    (h : List.Forall₂ (IsEntryOf constants) tables pairs) :
    Carries constants tables (OrderedMap.ofList pairs) := by
  refine ⟨fun name hn => OrderedMap.get?_ofList_eq_none (ne_of_mem_entries h hn), ?_⟩
  rintro name front t back rfl ht hn
  obtain ⟨front', ⟨key, content⟩, back', rfl, ⟨hkey, hcontent⟩, hback⟩ := forall₂_split h
  obtain rfl : key = name := textAt_injective hkey ht
  obtain rfl : content = t.content := hcontent
  exact OrderedMap.get?_ofList_append
    (ne_of_mem_entries hback fun u hu => hn u (List.mem_append_right _ hu))

private theorem mem_of_constantAt? {index : Nat} {c : PoolConstant}
    (h : constantAt? constants index = some c) : c ∈ constants := by
  induction constants generalizing index with
  | nil => simp [constantAt?] at h
  | cons d rest ih =>
    rw [constantAt?] at h
    split at h
    · exact Option.some.inj h ▸ List.mem_cons_self
    · split at h
      · simp at h
      · exact List.mem_cons_of_mem _ (ih h)

private theorem exists_entries (hp : ∀ c ∈ constants, c.IsPaired) {tables : List Table}
    (h : ∀ t ∈ tables, ∃ us, constantAt? constants t.name.toNat = some (.text us)) :
    ∃ pairs, List.Forall₂ (IsEntryOf constants) tables pairs := by
  induction tables with
  | nil => exact ⟨[], .nil⟩
  | cons t tables ih =>
    obtain ⟨us, hus⟩ := h t List.mem_cons_self
    obtain ⟨s, rfl⟩ := hp _ (mem_of_constantAt? hus)
    obtain ⟨pairs, hpairs⟩ := ih fun t ht => h t (List.mem_cons_of_mem _ ht)
    exact ⟨(s, t.content) :: pairs, .cons ⟨hus, rfl⟩ hpairs⟩

namespace ByteReader

theorem reads_tables (h : pool.Holds constants) (hp : ∀ c ∈ constants, c.IsPaired)
    {tables : List Table} (ht : TablesFit constants tables) :
    ∃ m, Reads (attributes pool) (tablesBytes tables) m ∧ Carries constants tables m := by
  obtain ⟨pairs, hpairs⟩ := exists_entries hp ht.named
  refine ⟨_, ?_, carries_ofList hpairs⟩
  have hitems : List.Forall₂ (Reads (do
      let name ← textRef pool
      let bytes ← take (← u4)
      pure (name, bytes))) (tables.map (·.bytes)) pairs := by
    rw [List.forall₂_map_left_iff]
    refine forall₂_imp_of_mem hpairs fun t hm p hentry => ?_
    obtain ⟨name, content⟩ := p
    obtain ⟨hname, rfl⟩ := hentry
    refine (reads_textRef h hname).bind ((reads_u4 (ht.sizes t hm)).bind ?_)
    exact (reads_take _).andThen (reads_pure _)
  have hc : (tables.map (·.bytes)).length < 65536 := by
    rw [List.length_map]
    exact ht.count
  refine (reads_u2 hc).bind ?_
  rw [hitems.length_eq]
  exact (reads_times hitems).andThen (reads_pure _)

end ByteReader

section Attributes

variable {α : Type} {tables : List Table} {m : Attributes} (hm : Carries constants tables m)
  {name : String}
include hm

theorem read?_eq_map {β : Type} {P : List UInt8 → α → Prop} {o : Option α} {f : α → β}
    (h : Says constants tables name P o) {r : ByteReader β}
    (hr : ∀ bytes a, P bytes a → r.Reads bytes (f a)) : m.read? name r = .ok (o.map f) := by
  cases h with
  | absent hn =>
    rw [Attributes.read?, hm.absent name hn]
    rfl
  | present hs ht hn ha =>
    rw [Attributes.read?, hm.present name _ _ _ hs ht hn]
    simp only [(hr _ _ ha).over_eq, Except.map, Option.map_some]

theorem read?_eq {P : List UInt8 → α → Prop} {o : Option α} (h : Says constants tables name P o)
    {r : ByteReader α} (hr : ∀ bytes a, P bytes a → r.Reads bytes a) : m.read? name r = .ok o := by
  have hmap := read?_eq_map hm h (f := id) hr
  rwa [Option.map_id, id] at hmap

theorem nested_eq {P : List UInt8 → List α → Prop} {o : Option (List α)}
    (h : Says constants tables name P o) {r : (depth : Nat) → ByteReader (List α)}
    (hr : ∀ bytes a depth, P bytes a → bytes.length < depth → (r depth).Reads bytes a) :
    m.nested name r = .ok (o.getD []) := by
  cases h with
  | absent hn =>
    rw [Attributes.nested, hm.absent name hn]
    rfl
  | present hs ht hn ha =>
    rw [Attributes.nested, hm.present name _ _ _ hs ht hn]
    exact (hr _ _ _ ha (Nat.lt_succ_self _)).over_eq

end Attributes

namespace ByteReader

variable (h : pool.Holds constants)
include h

theorem reads_signature {bytes : List UInt8} {s : String}
    (hs : SignatureLayout constants bytes s) : Reads (textRef pool) bytes s := by
  obtain ⟨hi⟩ := hs
  exact reads_textRef h hi

theorem reads_row {bytes : List UInt8} {row : VariableRow} (hr : RowLayout constants bytes row) :
    Reads (variableRow pool) bytes row := by
  obtain ⟨hn, ht⟩ := hr
  refine (reads_index _).bind ((reads_index _).bind ?_)
  refine (reads_textRef h hn).bind ((reads_textRef h ht).bind ?_)
  exact (reads_index _).andThen (reads_pure _)

theorem reads_rows {bytes : List UInt8} {rows : List VariableRow}
    (hr : RowsLayout constants bytes rows) : Reads (variableRows pool) bytes rows := by
  obtain ⟨hr, hc⟩ := hr
  exact reads_counted (hr.imp fun _ _ => reads_row h) hc

theorem reads_names {bytes : List UInt8} {names : List String}
    (hn : NamesLayout constants bytes names) :
    Reads (declaredNames pool) bytes (names.map some) := by
  obtain ⟨hn, hc⟩ := hn
  rename_i pieces
  refine (reads_u1_bigEndian hc).bind ?_
  have hlen : pieces.length = (names.map some).length := by rw [hn.length_eq, List.length_map]
  rw [hlen]
  refine reads_times ?_
  rw [List.forall₂_map_right_iff]
  refine hn.imp fun piece s hpiece => ?_
  obtain ⟨hi⟩ := hpiece
  rename_i i flags
  have hne : i.toNat ≠ 0 := fun hz => by
    rw [TextAt, hz] at hi
    cases constants <;> simp [constantAt?] at hi
  refine (reads_index i).bind ((reads_index flags).andThen ?_)
  rw [if_neg hne]
  exact (reads_lift (text_eq h hi)).andThen (reads_pure _)

end ByteReader

theorem variable_eq {generic : List VariableRow} {row : VariableRow} {v : LocalVariable}
    (h : IsVariableOf generic row v) : row.variable generic = v := by
  obtain ⟨start, name, type, slot⟩ := row
  obtain ⟨vname, vdescriptor, vsignature, vslot, vstart⟩ := v
  obtain ⟨rfl, rfl, rfl, rfl, hs⟩ := h
  have hsig : (generic.reverse.find? (VariableRow.sameVariable ⟨vstart, vname, vdescriptor, vslot⟩)).map
      (·.type) = vsignature := by
    cases hf : generic.reverse.find?
        (VariableRow.sameVariable ⟨vstart, vname, vdescriptor, vslot⟩) with
    | none =>
      cases vsignature with
      | none => rfl
      | some s =>
        have := List.find?_eq_none.1 hf _ (List.mem_reverse.2 ((hs s).1 rfl))
        simp [VariableRow.sameVariable] at this
    | some g =>
      obtain ⟨gstart, gname, gtype, gslot⟩ := g
      have hsame := List.find?_some hf
      have hmem := List.mem_reverse.1 (List.mem_of_find?_eq_some hf)
      simp only [VariableRow.sameVariable, Bool.and_eq_true, beq_iff_eq] at hsame
      obtain ⟨⟨rfl, rfl⟩, rfl⟩ := hsame
      exact ((hs gtype).2 hmem).symm
  rw [VariableRow.variable, hsig]

namespace ByteReader

/-- A reader of code finds the tables behind instructions and handlers. -/
theorem reads_code (h : pool.Holds constants) (hp : ∀ c ∈ constants, c.IsPaired)
    {bytes : List UInt8} {locals : List LocalVariable} (hc : CodeLayout constants bytes locals) :
    ∃ m, Reads (codeAttributes pool) bytes m ∧
      ∃ generic rows,
        m.read? "LocalVariableTypeTable" (variableRows pool) = .ok generic ∧
        m.read? "LocalVariableTable" (variableRows pool) = .ok rows ∧
        (rows.getD []).map (·.variable (generic.getD [])) = locals := by
  obtain ⟨hcode, hhandlers, htables, hgeneric, hrows, hlocals⟩ := hc
  rename_i stack slots code handlers tables generic rows
  obtain ⟨m, hm, hcarries⟩ := reads_tables h hp htables
  refine ⟨m, ?_, generic, rows, read?_eq hcarries hgeneric fun _ _ => reads_rows h,
    read?_eq hcarries hrows fun _ _ => reads_rows h, ?_⟩
  · have hpieces : (handlers.map (·.bytes)).flatten.length = handlers.length * 8 := by
      rw [List.length_flatten, List.map_map, Function.comp_def]
      simp [Handler.length_bytes]
    refine (reads_skip (by simp [indexBytes])).bind ((reads_u4 hcode).bind ?_)
    refine (reads_skip rfl).bind ?_
    rw [countedBytes, List.append_assoc, List.length_map]
    exact (reads_u2 hhandlers).bind ((reads_skip hpieces).bind hm)
  · generalize rows.getD [] = rows at hlocals
    induction hlocals with
    | nil => rfl
    | cons hv _ ih => rw [List.map_cons, variable_eq hv, ih]

end ByteReader

section Locals

variable (h : pool.Holds constants) (hp : ∀ c ∈ constants, c.IsPaired) {tables : List Table}
  {attributes : Attributes} (hm : Carries constants tables attributes)
include h hp hm

theorem localVariables_eq {code : Option (List LocalVariable)}
    (hc : Says constants tables "Code" (CodeLayout constants) code) :
    localVariables pool attributes = .ok (code.getD []) := by
  cases hc with
  | absent hn =>
    rw [localVariables, Attributes.read?, hm.absent "Code" hn]
    rfl
  | present hs ht hn ha =>
    obtain ⟨m, hread, generic, rows, hgeneric, hrows, hlocals⟩ := ByteReader.reads_code h hp ha
    rw [localVariables, Attributes.read?, hm.present "Code" _ _ _ hs ht hn]
    simp only [hread.over_eq, Except.map]
    change (do
      let generic := (← m.read? "LocalVariableTypeTable" (variableRows pool)).getD []
      let rows := (← m.read? "LocalVariableTable" (variableRows pool)).getD []
      return List.map (VariableRow.variable generic) rows : Except Fault (List LocalVariable)) = _
    rw [hgeneric, hrows]
    exact congrArg Except.ok hlocals

end Locals

end JvmRoutes.ClassFile
