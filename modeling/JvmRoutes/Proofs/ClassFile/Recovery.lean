import JvmRoutes.Proofs.ClassFile.ParameterNames

/-!
How the names and annotations of parameters are recovered: by the table of declared parameters, by
the variables in the slots that the descriptor gives to the parameters, and by position. A message
is written about each parameter of the last kind, and about no other.
-/
namespace JvmRoutes.ClassFile

open Signature

/-- What a class file says of the parameters of a method, and the method that is made of it. -/
structure Recovery where
  record : MethodRecord
  method : Method
  types : List JavaType
  declared : List DeclaredParameter
  visible : List (List Annotation)
  invisible : List (List Annotation)

/-- How many slots a value of the type takes: two if it is a long or a double itself. -/
def slotsOf : JavaType → Nat
  | .primitive .long | .primitive .double => 2
  | _ => 1

namespace Recovery

/-- The slot of the parameter at a position, behind that of the object and those of the parameters
in front of it. -/
def slot (x : Recovery) (i : Nat) : Nat :=
  (if x.method.isStatic then 0 else 1) + ((x.types.take i).map slotsOf).sum

/-- The entry that names the parameter at a position. Entries count if there is one for each
parameter, and only those with a name. -/
def entry? (x : Recovery) (i : Nat) : Option DeclaredParameter :=
  if x.declared.length = x.types.length then x.declared[i]?.filter (·.name ≠ 0) else none

/-- The first variable that is in the slot of the parameter from the first instruction on. -/
def row? (x : Recovery) (i : Nat) : Option LocalVariable :=
  x.method.locals.find? fun v => v.slot = x.slot i ∧ v.start = 0

/-- The positions of the parameters without an entry and without a variable. -/
def unnamed (x : Recovery) : List Nat :=
  (List.range x.types.length).filter fun i => (x.entry? i).isNone && (x.row? i).isNone

/-- A parameter is what the class file says of its position. -/
structure IsAt (x : Recovery) (pool : ConstantPool) (i : Nat) (p : FormalParameter) : Prop where
  declared : ∀ e, x.entry? i = some e → pool.text e.name = .ok p.name
  row : x.entry? i = none → ∀ v, x.row? i = some v → p.name = v.name
  position : x.entry? i = none → x.row? i = none → p.name = "arg" ++ toString i
  visible : p.visible = x.visible[i]?.getD []
  invisible : p.invisible = x.invisible[i]?.getD []

/-- The parameters of the method are those of its descriptor, one for each. -/
structure IsSound (x : Recovery) (front : Head) : Prop where
  decoded : x.record.decode front = .ok x.method
  locals : localVariables front.pool x.record.tables = .ok x.method.locals
  types : ∃ type, MethodSignature.parse x.method.descriptor = .ok type ∧ x.types = type.parameters
  declared : ∃ table, x.record.tables.read? "MethodParameters" declaredParameters = .ok table ∧
    x.declared = table.getD []
  visible : x.record.tables.parameterAnnotations front.pool true = .ok x.visible
  invisible : x.record.tables.parameterAnnotations front.pool false = .ok x.invisible
  length : x.method.parameters.length = x.types.length
  parameters : ∀ i p, x.method.parameters[i]? = some p → x.IsAt front.pool i p

/-- The names that a table gives to positions, if it has one for each of them. -/
def nameAt? (names : List (Option String)) (count i : Nat) : Option String :=
  if names.length = count then names[i]?.join else none

end Recovery

open Recovery

theorem slots_eq_slotsOf (t : JavaType) : t.slots = slotsOf t := by
  cases t with
  | primitive p => cases p <;> rfl
  | «variable» name => rfl
  | array component => rfl
  | object c => rfl

private theorem declared_eq_map_range (names : List (Option String)) (count : Nat) :
    (if names.length = count then names else List.replicate count none) =
      (List.range count).map (nameAt? names count) := by
  unfold nameAt?
  by_cases h : names.length = count
  · apply List.ext_getElem?
    intro i
    by_cases hi : i < count <;> simp [h, hi]
  · simp [h]

/-- The row of a slot is what a parameter there is named by. -/
theorem nameInSlot?_slot (x : Recovery) (i : Nat) :
    nameInSlot? x.method.locals (x.slot i) = (x.row? i).map (·.name) := by
  unfold nameInSlot? row?
  congr 2
  funext v
  rw [Bool.decide_and]
  rfl

/-- The slots of the parameters of a method, in their order. -/
theorem slotsFrom_eq_slot (x : Recovery) :
    slotsFrom (if x.method.isStatic then 0 else 1) x.types =
      (List.range x.types.length).map x.slot := by
  have hslots : JavaType.slots = slotsOf := funext slots_eq_slotsOf
  rw [slotsFrom_eq, hslots]
  rfl

section Entries

variable {x : Recovery} {pool : ConstantPool} {names : List (Option String)}
  (h : List.Forall₂ (fun e name => e.name? pool = .ok name) x.declared names)

include h

/-- An entry with a name gives that name to its position, and nothing else does. -/
theorem entry_spec (i : Nat) :
    (∀ e, x.entry? i = some e → ∃ name, pool.text e.name = .ok name ∧
        nameAt? names x.types.length i = some name) ∧
      (x.entry? i = none → nameAt? names x.types.length i = none) := by
  have hlength := h.length_eq
  have hrel := rel_getElem? h i
  unfold entry? nameAt?
  rw [← hlength]
  by_cases hcount : x.declared.length = x.types.length
  · rw [if_pos hcount, if_pos hcount]
    revert hrel
    generalize x.declared[i]? = e
    generalize names[i]? = name
    intro hrel
    cases hrel with
    | none => simp
    | @some e name hname =>
      obtain ⟨hz, rfl⟩ | ⟨hz, text, htext, rfl⟩ := DeclaredParameter.name?_eq_ok_iff.1 hname
      · simp [hz]
      · simp [hz, htext]
  · simp [hcount]

/-- The parameters without a name are those without an entry and without a row. -/
theorem isNone_name (i : Nat) :
    (nameAt? names x.types.length i <|> nameInSlot? x.method.locals (x.slot i)).isNone =
      ((x.entry? i).isNone && (x.row? i).isNone) := by
  obtain ⟨hsome, hnone⟩ := entry_spec h i
  rw [nameInSlot?_slot]
  cases he : x.entry? i with
  | none => cases x.row? i <;> simp [hnone he]
  | some e =>
    obtain ⟨name, -, hname⟩ := hsome e he
    simp [hname]

/-- The names of the parameters, with a message about each that is without one. -/
theorem namesFrom_slot (owner method : String) :
    namesFrom owner method x.method.locals 0
        ((slotsFrom (if x.method.isStatic then 0 else 1) x.types).zip
          ((List.range x.types.length).map (nameAt? names x.types.length))) =
      ⟨x.unnamed.map (missingName owner method),
        .ok ((List.range x.types.length).map fun i => (nameAt? names x.types.length i <|>
          nameInSlot? x.method.locals (x.slot i)).getD ("arg" ++ toString i))⟩ := by
  have hunnamed : (List.range x.types.length).filter (fun i => (nameAt? names x.types.length i <|>
      nameInSlot? x.method.locals (x.slot i)).isNone) = x.unnamed :=
    List.filter_congr fun i _ => isNone_name h i
  rw [slotsFrom_eq_slot, List.zip_map', List.range_eq_range', namesFrom_range',
    ← List.range_eq_range', hunnamed]

/-- A parameter with the name and the annotations of its position is what the class file says. -/
theorem isAt_of_name {i : Nat} {p : FormalParameter}
    (hname : p.name = (nameAt? names x.types.length i <|>
      nameInSlot? x.method.locals (x.slot i)).getD ("arg" ++ toString i))
    (hvisible : p.visible = x.visible[i]?.getD [])
    (hinvisible : p.invisible = x.invisible[i]?.getD []) : x.IsAt pool i p := by
  obtain ⟨hsome, hnone⟩ := entry_spec h i
  rw [nameInSlot?_slot] at hname
  constructor
  · intro e he
    obtain ⟨name, htext, hat⟩ := hsome e he
    simpa [hname, hat] using htext
  · intro he v hv
    simp [hname, hnone he, hv]
  · intro he hv
    simp [hname, hnone he, hv]
  · exact hvisible
  · exact hinvisible

end Entries

/-- The types of the parameters and the declared names, of which the names are made. -/
theorem exists_of_parameterNames {pool : ConstantPool} {owner method descriptor : String}
    {flags : Nat} {tables : Attributes} {locals : List LocalVariable} {messages : List Message}
    {names : List String}
    (h : parameterNames pool owner method descriptor flags tables locals = ⟨messages, .ok names⟩) :
    ∃ type declared, MethodSignature.parse descriptor = .ok type ∧
      tables.read? "MethodParameters" (declaredNames pool) = .ok declared ∧
      namesFrom owner method locals 0
        ((slotsFrom (if Method.staticFlag flags then 0 else 1) type.parameters).zip
          ((List.range type.parameters.length).map
            (nameAt? (declared.getD []) type.parameters.length))) = ⟨messages, .ok names⟩ := by
  unfold parameterNames at h
  obtain ⟨type, htype, h⟩ := Traced.ofExcept_bind_eq_iff.1 h
  obtain ⟨declared, hdeclared, h⟩ := Traced.ofExcept_bind_eq_iff.1 h
  refine ⟨type, declared, mapError_eq_ok_iff.1 htype, hdeclared, ?_⟩
  rw [← declared_eq_map_range]
  exact h

/-- What a method is made of, and the messages about it. -/
theorem exists_recovery {front : Head} {r : MethodRecord} {messages : List Message} {m : Method}
    (h : methodOf front.pool front.name r.flags r.name r.descriptor r.tables =
      ⟨messages, .ok m⟩) :
    ∃ x : Recovery, x.record = r ∧ x.method = m ∧ x.IsSound front ∧
      messages = x.unnamed.map (missingName front.name m.name) := by
  have hdecoded : r.decode front = .ok m := by rw [MethodRecord.decode, h]
  unfold methodOf at h
  obtain ⟨locals, hlocals, h⟩ := Traced.ofExcept_bind_eq_iff.1 h
  obtain ⟨visible, hvisible, h⟩ := Traced.ofExcept_bind_eq_iff.1 h
  obtain ⟨invisible, hinvisible, h⟩ := Traced.ofExcept_bind_eq_iff.1 h
  obtain ⟨written, names, back, hnames, h, hmessages⟩ := Traced.bind_eq_iff.1 h
  obtain ⟨signature, -, h⟩ := Traced.ofExcept_bind_eq_iff.1 h
  obtain ⟨own, -, h⟩ := Traced.ofExcept_bind_eq_iff.1 h
  obtain ⟨hidden, -, h⟩ := Traced.ofExcept_bind_eq_iff.1 h
  obtain ⟨rfl, rfl⟩ := Traced.pure_eq_iff.1 h
  rw [List.append_nil] at hmessages
  obtain ⟨type, found, htype, hfound, hnames⟩ := exists_of_parameterNames hnames
  obtain ⟨table, htable, hentries⟩ := exists_declaredParameters hfound
  let x : Recovery := {
    record := r
    method := {
      name := r.name, descriptor := r.descriptor, signature, flags := r.flags, locals,
      visible := own, invisible := hidden, parameters := formalParameters names visible invisible }
    types := type.parameters
    declared := table.getD []
    visible
    invisible }
  have heq := hnames.symm.trans (namesFrom_slot (x := x) hentries front.name r.name)
  rw [Traced.mk.injEq, Except.ok.injEq] at heq
  obtain ⟨hwritten, heq⟩ := heq
  have hlength : names.length = type.parameters.length := by
    rw [heq, List.length_map, List.length_range]
  refine ⟨x, rfl, rfl, ?_, hmessages.trans hwritten⟩
  constructor
  · exact hdecoded
  · exact hlocals
  · exact ⟨type, htype, rfl⟩
  · exact ⟨table, htable, rfl⟩
  · exact hvisible
  · exact hinvisible
  · rw [← hlength, ← List.length_map (·.name), map_name_formalParameters]
  · intro i p hp
    rw [getElem?_formalParameters, heq] at hp
    obtain ⟨name, hname, rfl⟩ := Option.map_eq_some_iff.1 hp
    rw [List.getElem?_map] at hname
    obtain ⟨j, hj, rfl⟩ := Option.map_eq_some_iff.1 hname
    obtain ⟨_, hat⟩ := List.getElem?_eq_some_iff.1 hj
    rw [List.getElem_range] at hat
    subst hat
    exact isAt_of_name hentries rfl rfl rfl

theorem exists_recovery_of_method {front : Head} {c last : Cursor} {messages : List Message}
    {m : Method} (h : method front.pool front.name c = ⟨messages, .ok (m, last)⟩) :
    ∃ x : Recovery, methodRecord front.pool c = .ok (x.record, last) ∧ x.method = m ∧
      x.IsSound front ∧ messages = x.unnamed.map (missingName front.name m.name) := by
  unfold method at h
  obtain ⟨flags, c₁, hflags, h⟩ := Decoder.ofReader_bind_eq_iff.1 h
  obtain ⟨name, c₂, hname, h⟩ := Decoder.ofReader_bind_eq_iff.1 h
  obtain ⟨descriptor, c₃, hdescriptor, h⟩ := Decoder.ofReader_bind_eq_iff.1 h
  obtain ⟨tables, c₄, htables, h⟩ := Decoder.ofReader_bind_eq_iff.1 h
  obtain ⟨hmethod, rfl⟩ := Decoder.lift_eq_iff.1 h
  obtain ⟨x, hrecord, hx⟩ := exists_recovery (r := { flags, name, descriptor, tables }) hmethod
  refine ⟨x, ?_, hx⟩
  rw [hrecord]
  exact ByteReader.bind_eq_ok.2 ⟨flags, c₁, hflags, ByteReader.bind_eq_ok.2 ⟨name, c₂, hname,
    ByteReader.bind_eq_ok.2 ⟨descriptor, c₃, hdescriptor, ByteReader.bind_eq_ok.2
      ⟨tables, c₄, htables, rfl⟩⟩⟩⟩

/-- What the methods are made of, and the messages about them. -/
theorem exists_recoveries {front : Head} {count : Nat} {c last : Cursor} {messages : List Message}
    {found : List Method}
    (h : methods front.pool front.name count c = ⟨messages, .ok (found, last)⟩) :
    ∃ xs : List Recovery, times count (methodRecord front.pool) c = .ok (xs.map (·.record), last) ∧
      xs.map (·.method) = found ∧ (∀ x ∈ xs, x.IsSound front) ∧
      messages = xs.flatMap fun x => x.unnamed.map (missingName front.name x.method.name) := by
  induction count generalizing c messages found with
  | zero =>
    obtain ⟨rfl, rfl, rfl⟩ := Decoder.pure_eq_iff.1 h
    exact ⟨[], rfl, rfl, by simp, rfl⟩
  | succ count ih =>
    obtain ⟨front', m, next, back, hm, hrest, rfl⟩ := Decoder.bind_eq_iff.1 h
    obtain ⟨written, others, last', back', hothers, hpure, rfl⟩ := Decoder.bind_eq_iff.1 hrest
    obtain ⟨rfl, rfl, rfl⟩ := Decoder.pure_eq_iff.1 hpure
    obtain ⟨x, hx, rfl, hsound, rfl⟩ := exists_recovery_of_method hm
    obtain ⟨xs, hxs, rfl, hall, rfl⟩ := ih hothers
    refine ⟨x :: xs, ?_, rfl, ?_, ?_⟩
    · exact ByteReader.bind_eq_ok.2 ⟨x.record, next, hx,
        ByteReader.bind_eq_ok.2 ⟨xs.map (·.record), last', hxs, rfl⟩⟩
    · exact List.forall_mem_cons.2 ⟨hsound, hall⟩
    · rw [List.append_nil, List.flatMap_cons]

/-- What is written when a class has been decoded. -/
def decodedMessage (front : Head) (origin : String) (count : Nat) : Message where
  level := .debug
  text := "Decoded " ++ front.name ++ " (class file version " ++ toString front.version ++
    ") from " ++ origin ++ ": " ++ toString count ++ " methods"

/-- What the methods of a class are made of, and all that is written on the way. -/
theorem exists_recoveries_of_decode {origin : String} {bytes : List UInt8} {messages : List Message}
    {c : Class} (h : decode origin bytes = ⟨messages, .ok c⟩) :
    ∃ (front : Head) (found : List Recovery),
      (methodRecords origin).over bytes = .ok (front, found.map (·.record)) ∧
      c.name = front.name ∧ c.methods = found.map (·.method) ∧ (∀ x ∈ found, x.IsSound front) ∧
      messages = (found.flatMap fun x => x.unnamed.map (missingName front.name x.method.name)) ++
        [decodedMessage front origin c.methods.length] := by
  obtain ⟨written, ⟨decoded, last⟩, back, hd, hpure, hmessages⟩ := Traced.bind_eq_iff.1 h
  obtain ⟨rfl, rfl⟩ := Traced.pure_eq_iff.1 hpure
  unfold decoder at hd
  obtain ⟨front, c₁, hfront, hd⟩ := Decoder.ofReader_bind_eq_iff.1 hd
  obtain ⟨count, c₂, hcount, hd⟩ := Decoder.ofReader_bind_eq_iff.1 hd
  obtain ⟨warned, methods, c₃, after, hmethods, hd, hwritten⟩ := Decoder.bind_eq_iff.1 hd
  obtain ⟨tables, c₄, -, hd⟩ := Decoder.ofReader_bind_eq_iff.1 hd
  obtain ⟨logged, _, c₅, rest, hlog, hd, hafter⟩ := Decoder.bind_eq_iff.1 hd
  obtain ⟨visible, -, hd⟩ := Decoder.lift_ofExcept_bind_eq_iff.1 hd
  obtain ⟨invisible, -, hd⟩ := Decoder.lift_ofExcept_bind_eq_iff.1 hd
  obtain ⟨signature, -, hd⟩ := Decoder.lift_ofExcept_bind_eq_iff.1 hd
  obtain ⟨rfl, rfl, rfl⟩ := Decoder.pure_eq_iff.1 hd
  obtain ⟨found, hrecords, hfound, hsound, hwarned⟩ := exists_recoveries hmethods
  have hlogged : logged = [decodedMessage front origin methods.length] := by
    have heq := (Decoder.lift_eq_iff.1 hlog).1
    exact (Traced.mk.inj heq).1.symm
  refine ⟨front, found, ?_, rfl, hfound.symm, hsound, ?_⟩
  · exact ByteReader.over_eq_ok.2 ⟨c₃, ByteReader.bind_eq_ok.2 ⟨front, c₁, hfront,
      ByteReader.bind_eq_ok.2 ⟨count, c₂, hcount,
        ByteReader.bind_eq_ok.2 ⟨_, c₃, hrecords, rfl⟩⟩⟩⟩
  · rw [hmessages, hwritten, hafter, hwarned, hlogged]
    simp only [List.append_nil]

/-- Of a class that has been decoded, each method has one parameter for each type of its descriptor,
with the name and the annotations that its file has for the position. A warning is written about
each parameter that is named by its position, and there is no other. -/
theorem parameters_of_decode {origin : String} {bytes : List UInt8} {c : Class}
    (h : (decode origin bytes).result = .ok c) :
    ∃ (front : Head) (found : List Recovery),
      (methodRecords origin).over bytes = .ok (front, found.map (·.record)) ∧
      c.methods = found.map (·.method) ∧ (∀ x ∈ found, x.IsSound front) ∧
      (decode origin bytes).messages.filter (·.level = .warning) =
        found.flatMap fun x => x.unnamed.map (missingName c.name x.method.name) := by
  rcases hd : decode origin bytes with ⟨messages, result⟩
  rw [hd] at h
  obtain rfl : result = .ok c := h
  obtain ⟨front, found, hrecords, hname, hmethods, hsound, rfl⟩ := exists_recoveries_of_decode hd
  have hwarnings : ∀ message ∈ found.flatMap fun x =>
      x.unnamed.map (missingName front.name x.method.name), message.level = .warning := by
    intro message hmem
    obtain ⟨x, -, hx⟩ := List.mem_flatMap.1 hmem
    obtain ⟨i, -, rfl⟩ := List.mem_map.1 hx
    rfl
  refine ⟨front, found, hrecords, hmethods, hsound, ?_⟩
  rw [hname, List.filter_append, List.filter_eq_self.2 (by simpa using hwarnings)]
  exact List.append_nil _

/-- The file of a class with a method of four parameters. The first and the third are named by rows,
the second is declared, and the fourth has no name. -/
def fourParametersFile : List UInt8 :=
  [0xCA, 0xFE, 0xBA, 0xBE, 0, 0, 0, 52, 0, 14,
    -- the class A with a method g(JI[DZ)V, the names of the tables and of its variables;
    7, 0, 2, 1, 0, 1, 65, 1, 0, 1, 103, 1, 0, 8, 40, 74, 73, 91, 68, 90, 41, 86, 1, 0, 4, 67, 111,
    100, 101, 1, 0, 18, 76, 111, 99, 97, 108, 86, 97, 114, 105, 97, 98, 108, 101, 84, 97, 98, 108,
    101, 1, 0, 16, 77, 101, 116, 104, 111, 100, 80, 97, 114, 97, 109, 101, 116, 101, 114, 115, 1,
    0, 34, 82, 117, 110, 116, 105, 109, 101, 86, 105, 115, 105, 98, 108, 101, 80, 97, 114, 97,
    109, 101, 116, 101, 114, 65, 110, 110, 111, 116, 97, 116, 105, 111, 110, 115, 1, 0, 5, 116,
    111, 116, 97, 108, 1, 0, 1, 110, 1, 0, 6, 118, 97, 108, 117, 101, 115, 1, 0, 1, 74, 1, 0, 3,
    76, 77, 59,
    0, 1, 0, 1, 0, 0, 0, 0, 0, 0, 0, 1, 0, 1, 0, 3, 0, 4, 0, 3,
    -- the rows, of which the first is valid only behind the first instructions;
    0, 5, 0, 0, 0, 71, 0, 2, 0, 6, 0, 0, 0, 1, 177, 0, 0, 0, 1, 0, 6, 0, 0, 0, 52, 0, 5, 0, 4, 0,
    1, 0, 10, 0, 12, 0, 5, 0, 0, 0, 1, 0, 9, 0, 12, 0, 1, 0, 0, 0, 1, 0, 9, 0, 12, 0, 3, 0, 0, 0,
    1, 0, 11, 0, 12, 0, 4, 0, 0, 0, 1, 0, 9, 0, 12, 0, 4,
    -- the declared parameters, of which the second has a name, and two lists of annotations
    0, 7, 0, 0, 0, 17, 4, 0, 0, 0, 0, 0, 10, 0, 0, 0, 0, 0, 0, 0, 0, 0, 0, 0, 8, 0, 0, 0, 9, 2, 0,
    0, 0, 1, 0, 13, 0, 0,
    0, 0]

private theorem parameters_fourParametersFile :
    ((decode "A.class" fourParametersFile).result.toOption.map
      (·.methods.map fun m => m.parameters.map fun p => (p.name, p.visible.map (·.typeName)))) =
        some [[("total", []), ("n", ["M"]), ("values", []), ("arg3", [])]] := by
  decide +kernel

theorem parameters_of_decode_fourParameters :
    ∃ (c : Class) (front : Head) (x : Recovery),
      (decode "A.class" fourParametersFile).result = .ok c ∧
      (methodRecords "A.class").over fourParametersFile = .ok (front, [x.record]) ∧
      c.methods = [x.method] ∧ x.IsSound front ∧
      (x.method.parameters.map fun p => (p.name, p.visible.map (·.typeName))) =
        [("total", []), ("n", ["M"]), ("values", []), ("arg3", [])] ∧
      (decode "A.class" fourParametersFile).messages.filter (·.level = .warning) =
        x.unnamed.map (missingName c.name x.method.name) ∧
      (decode "A.class" fourParametersFile).messages.filter (·.level = .warning) =
        [missingName "A" "g" 3] := by
  have hclass := parameters_fourParametersFile
  cases hc : (decode "A.class" fourParametersFile).result with
  | error fault =>
    rw [hc] at hclass
    contradiction
  | ok c =>
    rw [hc] at hclass
    obtain ⟨m, hm, hparameters⟩ := List.map_eq_singleton_iff.1 (Option.some.inj hclass)
    obtain ⟨front, found, hrecords, hmethods, hsound, hwarnings⟩ := parameters_of_decode hc
    obtain ⟨x, rfl, rfl⟩ := List.map_eq_singleton_iff.1 (hmethods.symm.trans hm)
    have hx : x.IsSound front := hsound x (List.mem_singleton_self x)
    rw [List.flatMap_cons, List.flatMap_nil, List.append_nil] at hwarnings
    refine ⟨c, front, x, rfl, hrecords, hm, hx, hparameters, hwarnings, ?_⟩
    decide +kernel

end JvmRoutes.ClassFile
