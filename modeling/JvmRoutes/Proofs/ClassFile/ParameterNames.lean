import JvmRoutes.Proofs.ClassFile.MethodRecords

/-!
The names of parameters, with the messages about those that have none: the entries of the table of
declared parameters, the slots of a list of types, and the names in the order of the parameters.
-/
namespace JvmRoutes.ClassFile

open Signature

variable {α β : Type}

/-- An entry of the table of declared parameters. Its name is at an index of the constants, which is
zero if it has none. -/
structure DeclaredParameter where
  name : Nat
  flags : Nat

def declaredParameter : ByteReader DeclaredParameter := do
  let name ← u2
  let flags ← u2
  return { name, flags }

def declaredParameters : ByteReader (List DeclaredParameter) := do
  let count ← u1
  times count declaredParameter

def DeclaredParameter.name? (pool : ConstantPool) (e : DeclaredParameter) :
    Except Fault (Option String) :=
  if e.name = 0 then .ok none else (pool.text e.name).map some

theorem DeclaredParameter.name?_eq_ok_iff {pool : ConstantPool} {e : DeclaredParameter}
    {name : Option String} : e.name? pool = .ok name ↔
      (e.name = 0 ∧ name = none) ∨
        (e.name ≠ 0 ∧ ∃ text, pool.text e.name = .ok text ∧ name = some text) := by
  unfold name?
  by_cases h : e.name = 0
  · simp [h, eq_comm]
  · cases pool.text e.name <;> simp [h, Except.map, eq_comm]

theorem declaredNames_eq (pool : ConstantPool) : declaredNames pool = (do
    let count ← u1
    times count (do liftM ((← declaredParameter).name? pool)) : ByteReader _) := by
  unfold declaredNames declaredParameter
  simp only [bind_assoc, pure_bind]
  congr 1
  funext count
  congr 1
  congr 1
  funext index
  congr 1
  funext flags
  unfold DeclaredParameter.name?
  dsimp only
  by_cases h : index = 0
  · rw [if_pos h, if_pos h]
    rfl
  · rw [if_neg h, if_neg h]
    cases pool.text index <;> rfl

/-- The declared names are those of the entries of the table. -/
theorem exists_declaredParameters {pool : ConstantPool} {tables : Attributes}
    {names : Option (List (Option String))}
    (h : tables.read? "MethodParameters" (declaredNames pool) = .ok names) :
    ∃ table, tables.read? "MethodParameters" declaredParameters = .ok table ∧
      List.Forall₂ (fun e name => e.name? pool = .ok name) (table.getD []) (names.getD []) := by
  unfold Attributes.read? at h ⊢
  cases hb : tables.get? "MethodParameters" with
  | none =>
    rw [hb] at h
    obtain rfl := Except.ok.inj h
    exact ⟨none, rfl, .nil⟩
  | some bytes =>
    simp only [hb] at h
    cases hover : (declaredNames pool).over bytes with
    | error f =>
      rw [hover] at h
      cases h
    | ok found =>
      rw [hover] at h
      obtain rfl := Except.ok.inj h
      obtain ⟨last, hread⟩ := ByteReader.over_eq_ok.1 hover
      rw [declaredNames_eq] at hread
      obtain ⟨count, next, hcount, hitems⟩ := ByteReader.bind_eq_ok.1 hread
      obtain ⟨entries, hentries, hnames⟩ := times_bind_lift hitems
      have htable : declaredParameters.over bytes = .ok entries :=
        ByteReader.over_eq_ok.2 ⟨last, ByteReader.bind_eq_ok.2 ⟨count, next, hcount, hentries⟩⟩
      refine ⟨some entries, ?_, hnames⟩
      dsimp only
      rw [htable]
      rfl

/-- What is written about a parameter without a name. -/
def missingName (owner method : String) (position : Nat) : Message where
  level := .warning
  text := "No parameter name for " ++ owner ++ "." ++ method ++ " parameter " ++
    toString position ++ ", compiled without -g?"

theorem parameterName_eq (owner method : String) (locals : List LocalVariable)
    (position slot : Nat) (declared : Option String) :
    parameterName owner method locals position slot declared =
      ⟨if (declared <|> nameInSlot? locals slot).isNone then [missingName owner method position]
        else [], .ok ((declared <|> nameInSlot? locals slot).getD ("arg" ++ toString position))⟩ := by
  unfold parameterName
  cases declared <|> nameInSlot? locals slot <;> rfl

/-- Names one after another, with a message about each that is missing. -/
theorem namesFrom_range' (owner method : String) (locals : List LocalVariable)
    (slot : Nat → Nat) (declared : Nat → Option String) (position count : Nat) :
    namesFrom owner method locals position
        ((List.range' position count).map fun i => (slot i, declared i)) =
      ⟨((List.range' position count).filter fun i =>
          (declared i <|> nameInSlot? locals (slot i)).isNone).map (missingName owner method),
        .ok ((List.range' position count).map fun i =>
          (declared i <|> nameInSlot? locals (slot i)).getD ("arg" ++ toString i))⟩ := by
  induction count generalizing position with
  | zero => rfl
  | succ count ih =>
    have hfirst := parameterName_eq owner method locals position (slot position) (declared position)
    have hrest (name : String) : (do return name :: (← namesFrom owner method locals (position + 1)
        ((List.range' (position + 1) count).map fun i => (slot i, declared i))) :
          Traced Fault (List String)) = ⟨_, .ok (name :: _)⟩ :=
      Traced.bind_eq_iff.2 ⟨_, _, [], ih (position + 1), rfl, (List.append_nil _).symm⟩
    rw [List.range'_succ, List.map_cons, namesFrom]
    refine Traced.bind_eq_iff.2 ⟨_, _, _, hfirst, hrest _, ?_⟩
    rw [List.filter_cons]
    split <;> simp

theorem slotsFrom_eq (slot : Nat) (types : List JavaType) :
    slotsFrom slot types =
      (List.range types.length).map fun i => slot + ((types.take i).map JavaType.slots).sum := by
  induction types generalizing slot with
  | nil => rfl
  | cons t rest ih =>
    rw [slotsFrom, ih, List.length_cons, List.range_succ_eq_map, List.map_cons, List.map_map]
    congr 1
    apply List.map_congr_left
    intro i _
    simp [Nat.add_assoc]

theorem getElem?_formalParameters (names : List String) (visible invisible : List (List Annotation))
    (i : Nat) : (formalParameters names visible invisible)[i]? = names[i]?.map fun name =>
      { name, visible := visible[i]?.getD [], invisible := invisible[i]?.getD [] } := by
  induction names generalizing visible invisible i with
  | nil => rfl
  | cons name rest ih =>
    cases i with
    | zero => cases visible <;> cases invisible <;> rfl
    | succ i =>
      rw [formalParameters, List.getElem?_cons_succ, List.getElem?_cons_succ, ih, List.getElem?_tail,
        List.getElem?_tail]

end JvmRoutes.ClassFile
