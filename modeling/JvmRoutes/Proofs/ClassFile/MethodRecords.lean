import JvmRoutes.Proofs.ClassFile.RoundTrip

/-!
The records of the methods in a class file, with the tables of which nothing but results is kept.
Each method of a class that has been decoded is made of one of them, and without declared names its
parameters are named by the variables in their slots.
-/
namespace JvmRoutes.ClassFile

/-- A method as a class file has it. -/
structure MethodRecord where
  flags : Nat
  name : String
  descriptor : String
  tables : Attributes

def methodRecord (pool : ConstantPool) : ByteReader MethodRecord := do
  let flags ← u2
  let name ← textRef pool
  let descriptor ← textRef pool
  let tables ← attributes pool
  return { flags, name, descriptor, tables }

def methodRecords (origin : String) : ByteReader (Head × List MethodRecord) := do
  let h ← head origin
  let records ← times (← u2) (methodRecord h.pool)
  return (h, records)

def MethodRecord.decode (h : Head) (r : MethodRecord) : Except Fault Method :=
  (methodOf h.pool h.name r.flags r.name r.descriptor r.tables).result

variable {α β : Type}

theorem times_bind_lift {r : ByteReader α} {f : α → Except Fault β} {count : Nat} {c c' : Cursor}
    {bs : List β} (h : times count (do liftM (f (← r)) : ByteReader β) c = .ok (bs, c')) :
    ∃ as, times count r c = .ok (as, c') ∧ List.Forall₂ (fun a b => f a = .ok b) as bs := by
  induction count generalizing c bs with
  | zero =>
    cases h
    exact ⟨[], rfl, .nil⟩
  | succ count ih =>
    obtain ⟨b, c₁, hb, h⟩ := ByteReader.bind_eq_ok.1 h
    obtain ⟨a, c₂, ha, hlift⟩ := ByteReader.bind_eq_ok.1 hb
    obtain ⟨rfl, hf⟩ := ByteReader.lift_eq_ok.1 hlift
    obtain ⟨others, c₃, hothers, h⟩ := ByteReader.bind_eq_ok.1 h
    cases h
    obtain ⟨as, has, hrest⟩ := ih hothers
    refine ⟨a :: as, ByteReader.bind_eq_ok.2 ⟨a, c₁, ha, ?_⟩, .cons hf hrest⟩
    exact ByteReader.bind_eq_ok.2 ⟨as, c', has, rfl⟩

theorem silent_method_eq (h : Head) : (method h.pool h.name).silent =
    (do liftM ((← methodRecord h.pool).decode h) : ByteReader Method) := by
  rw [silent_method]
  simp only [methodRecord, bind_assoc, pure_bind]
  rfl

/-- The methods of a class are made of the records in its file, one of each. -/
theorem exists_methodRecords {origin : String} {bytes : List UInt8} {c : Class}
    (h : (decode origin bytes).result = .ok c) :
    ∃ front records, (methodRecords origin).over bytes = .ok (front, records) ∧
      List.Forall₂ (fun r m => r.decode front = .ok m) records c.methods := by
  obtain ⟨last, h⟩ := decode_eq_ok.1 h
  rw [silent_decoder] at h
  obtain ⟨front, c₁, hfront, h⟩ := ByteReader.bind_eq_ok.1 h
  obtain ⟨count, c₂, hcount, h⟩ := ByteReader.bind_eq_ok.1 h
  obtain ⟨methods, c₃, hmethods, h⟩ := ByteReader.bind_eq_ok.1 h
  obtain ⟨tables, c₄, -, h⟩ := ByteReader.bind_eq_ok.1 h
  obtain ⟨visible, c₅, -, h⟩ := ByteReader.bind_eq_ok.1 h
  obtain ⟨invisible, c₆, -, h⟩ := ByteReader.bind_eq_ok.1 h
  obtain ⟨signature, c₇, -, h⟩ := ByteReader.bind_eq_ok.1 h
  cases h
  rw [silent_method_eq] at hmethods
  obtain ⟨records, hrecords, hdecoded⟩ := times_bind_lift hmethods
  refine ⟨front, records, ?_, hdecoded⟩
  have hread : methodRecords origin { rest := bytes } = .ok ((front, records), c₃) :=
    ByteReader.bind_eq_ok.2 ⟨front, c₁, hfront, ByteReader.bind_eq_ok.2 ⟨count, c₂, hcount,
      ByteReader.bind_eq_ok.2 ⟨records, c₃, hrecords, rfl⟩⟩⟩
  rw [ByteReader.over, hread]
  rfl

section Names

open Signature

variable {front : Head} {r : MethodRecord} {m : Method}

/-- A row is the only one about a slot from the first instruction on. -/
def IsOnlyRow (locals : List LocalVariable) (slot : Nat) (row : LocalVariable) : Prop :=
  locals.filter (fun v => v.slot == slot && v.start == 0) = [row]

def parameterSlots (m : Method) (type : MethodSignature) : List Nat :=
  slotsFrom (if m.isStatic then 0 else 1) type.parameters

private theorem nameInSlot?_of_isOnlyRow {locals : List LocalVariable} {slot : Nat}
    {row : LocalVariable} (h : IsOnlyRow locals slot row) :
    nameInSlot? locals slot = some row.name := by
  unfold nameInSlot?
  rw [← List.head?_filter, h]
  rfl

private theorem namesFrom_rows (owner method : String) {locals : List LocalVariable}
    (position : Nat) {slots : List Nat} {rows : List LocalVariable}
    (h : List.Forall₂ (IsOnlyRow locals) slots rows) :
    (namesFrom owner method locals position (slots.map (·, none))).result =
      .ok (rows.map (·.name)) := by
  induction h generalizing position with
  | nil => rfl
  | @cons slot row slots rows hrow _ ih =>
    have hn : (parameterName owner method locals position slot none).result = .ok row.name := by
      unfold parameterName
      rw [nameInSlot?_of_isOnlyRow hrow]
      rfl
    rw [List.map_cons, namesFrom, Traced.result_bind hn, Traced.result_bind (ih (position + 1))]
    rfl

theorem map_name_formalParameters (names : List String)
    (visible invisible : List (List Annotation)) :
    (formalParameters names visible invisible).map (·.name) = names := by
  induction names generalizing visible invisible with
  | nil => rfl
  | cons name rest ih => rw [formalParameters, List.map_cons, ih]

/-- What a method keeps of its record. -/
theorem MethodRecord.decode_eq_ok (h : r.decode front = .ok m) :
    m.name = r.name ∧ m.descriptor = r.descriptor ∧ m.flags = r.flags ∧
      localVariables front.pool r.tables = .ok m.locals ∧
      (parameterNames front.pool front.name m.name m.descriptor m.flags r.tables m.locals).result =
        .ok (m.parameters.map (·.name)) := by
  unfold decode at h
  rw [result_methodOf] at h
  obtain ⟨locals, hlocals, h⟩ := bind_eq_ok_iff.1 h
  obtain ⟨visibleLists, -, h⟩ := bind_eq_ok_iff.1 h
  obtain ⟨invisibleLists, -, h⟩ := bind_eq_ok_iff.1 h
  obtain ⟨names, hnames, h⟩ := bind_eq_ok_iff.1 h
  obtain ⟨signature, -, h⟩ := bind_eq_ok_iff.1 h
  obtain ⟨visible, -, h⟩ := bind_eq_ok_iff.1 h
  obtain ⟨invisible, -, h⟩ := bind_eq_ok_iff.1 h
  obtain rfl := Except.ok.inj h
  refine ⟨rfl, rfl, rfl, hlocals, hnames.trans ?_⟩
  rw [map_name_formalParameters]

private theorem zip_replicate_none (slots : List Nat) :
    slots.zip (List.replicate slots.length (none : Option String)) = slots.map (·, none) := by
  induction slots with
  | nil => rfl
  | cons slot rest ih =>
    rw [List.length_cons, List.replicate_succ, List.zip_cons_cons, ih, List.map_cons]

/-- Names that are not declared are missing for each of the slots. -/
theorem zip_undeclared (slots : List Nat) :
    slots.zip (if ([] : List (Option String)).length = slots.length then []
      else List.replicate slots.length (none : Option String)) = slots.map (·, none) := by
  cases slots with
  | nil => rfl
  | cons slot rest =>
    rw [if_neg (by simp)]
    exact zip_replicate_none (slot :: rest)

/-- Without declared names, parameters are named by the variables in their slots. -/
theorem MethodRecord.names_of_decode (h : r.decode front = .ok m)
    (hd : r.tables.get? "MethodParameters" = none) {type : MethodSignature}
    (ht : MethodSignature.parse m.descriptor = .ok type) {rows : List LocalVariable}
    (hr : List.Forall₂ (IsOnlyRow m.locals) (parameterSlots m type) rows) :
    m.parameters.map (·.name) = rows.map (·.name) := by
  obtain ⟨-, -, -, -, hnames⟩ := decode_eq_ok h
  have hdeclared : r.tables.read? "MethodParameters" (declaredNames front.pool) = .ok none := by
    rw [Attributes.read?, hd]
  have hrows : (parameterNames front.pool front.name m.name m.descriptor m.flags r.tables
      m.locals).result = .ok (rows.map (·.name)) := by
    rw [parameterNames, ht]
    refine (Traced.result_bind rfl _).trans ?_
    refine (Traced.result_bind (by rw [hdeclared]; rfl) _).trans ?_
    dsimp only [Option.getD_none]
    rw [← slotsFrom_length (if Method.staticFlag m.flags then 0 else 1), zip_undeclared]
    exact namesFrom_rows front.name m.name 0 hr
  exact Except.ok.inj (hnames.symm.trans hrows)

end Names

end JvmRoutes.ClassFile
