import JvmRoutes.Proofs.ClassFile.MethodRecords
import JvmRoutes.Proofs.Handler.Search
import JvmRoutes.Proofs.Loader.Faults

/-!
The variables that parameters of handlers are typed by. The decoder names a parameter by the row
about its slot, its type is then looked up by that name: the row found is the first with the name,
which is the one about the slot unless another row with one of the names stands in front of it.
-/
namespace JvmRoutes

/-- Whether making the inputs of a handler can fail for a fault although each parameter has a
variable. -/
def Fault.isOfInputs : Fault → Bool
  | malformedSignature _ => true
  | fault => fault.isOfLookup

theorem Fault.isOfInputs_of_isOfLookup (fault : Fault) (h : fault.isOfLookup = true) :
    fault.isOfInputs = true := by
  cases fault <;> first | rfl | exact h

namespace Handler

open ClassFile Loading Signature

variable {m : Method} {p : FormalParameter} {row : LocalVariable} {slot : Nat} {t : JavaType}

/-- A row that a lookup of the variable of a parameter comes to stands in front of another row. -/
def IsShadowed (m : Method) (p : FormalParameter) (isContinuation : Bool) (row : LocalVariable) :
    Prop :=
  ∃ front back, m.locals = front ++ row :: back ∧
    ∃ v ∈ front, v.name ∈ variableNames p isContinuation

private theorem name_mem_variableNames (p : FormalParameter) (isContinuation : Bool) :
    p.name ∈ variableNames p isContinuation := by
  cases isContinuation <;> simp [variableNames]

theorem variableOf_eq_ok {isContinuation : Bool} : variableOf m p isContinuation = .ok row ↔
    m.locals.find? (fun v => (variableNames p isContinuation).contains v.name) = some row := by
  simp only [variableOf]
  cases m.locals.find? fun v => (variableNames p isContinuation).contains v.name <;> simp

private theorem exists_variableOf (hn : p.name = row.name) (hm : row ∈ m.locals)
    (isContinuation : Bool) : ∃ v, variableOf m p isContinuation = .ok v := by
  have hname : row.name ∈ variableNames p isContinuation := hn ▸ name_mem_variableNames p _
  have hfound : (m.locals.find? fun v =>
      (variableNames p isContinuation).contains v.name).isSome = true :=
    List.find?_isSome.2 ⟨row, hm, List.contains_iff_mem.2 hname⟩
  obtain ⟨v, hv⟩ := Option.isSome_iff_exists.1 hfound
  exact ⟨v, variableOf_eq_ok.2 hv⟩

section OnlyRow

variable (hr : IsOnlyRow m.locals slot row)
include hr

private theorem mem_filter_of_isOnlyRow :
    row ∈ m.locals.filter fun v => v.slot == slot && v.start == 0 :=
  hr.symm ▸ List.mem_singleton_self row

private theorem mem_of_isOnlyRow : row ∈ m.locals :=
  List.mem_of_mem_filter (mem_filter_of_isOnlyRow hr)

/-- The only row about a slot stands in one place. -/
theorem notMem_front_of_isOnlyRow {front back : List LocalVariable}
    (h : m.locals = front ++ row :: back) : row ∉ front := by
  intro hm
  have hkept := (List.mem_filter.1 (mem_filter_of_isOnlyRow hr)).2
  have hsplit := hr
  unfold IsOnlyRow at hsplit
  rw [h, List.filter_append, List.filter_cons, if_pos hkept] at hsplit
  have hfront : row ∈ front.filter fun v => v.slot == slot && v.start == 0 :=
    List.mem_filter.2 ⟨hm, hkept⟩
  have hlength := congrArg List.length hsplit
  have hpositive := List.length_pos_of_mem hfront
  simp only [List.length_append, List.length_cons, List.length_nil] at hlength
  omega

/-- The variable of a parameter is the row about its slot unless that row is shadowed. -/
theorem variableOf_eq_row_iff (hn : p.name = row.name) (isContinuation : Bool) :
    variableOf m p isContinuation = .ok row ↔ ¬ IsShadowed m p isContinuation row := by
  rw [variableOf_eq_ok]
  constructor
  · rintro hfound ⟨front, back, hlocals, v, hv, hname⟩
    rw [hlocals, List.find?_append] at hfound
    have hsome : (front.find? fun w =>
        (variableNames p isContinuation).contains w.name).isSome = true :=
      List.find?_isSome.2 ⟨v, hv, List.contains_iff_mem.2 hname⟩
    obtain ⟨first, hfirst⟩ := Option.isSome_iff_exists.1 hsome
    rw [hfirst] at hfound
    obtain rfl := Option.some.inj hfound
    exact notMem_front_of_isOnlyRow hr hlocals (List.mem_of_find?_eq_some hfirst)
  · intro hfree
    obtain ⟨front, back, hlocals⟩ := List.append_of_mem (mem_of_isOnlyRow hr)
    refine List.find?_eq_some_iff_append.2 ⟨?_, front, back, hlocals, fun v hv => ?_⟩
    · exact List.contains_iff_mem.2 (hn ▸ name_mem_variableNames p isContinuation)
    · rw [Bool.not_eq_true', ← Bool.not_eq_true, List.contains_iff_mem]
      exact fun hname => hfree ⟨front, back, hlocals, v, hv, hname⟩

end OnlyRow

/-- The type of a row, from its generic signature if it has one, has the erasure of another. -/
def ErasesTo (row : LocalVariable) (t : JavaType) : Prop :=
  ∃ s, JavaType.parse (preferred row.descriptor row.signature) = .ok s ∧ s.erasure = t.erasure

private theorem preferred_of_plain (h : row.signature.getD "" = "") :
    preferred row.descriptor row.signature = row.descriptor := by
  cases hs : row.signature with
  | none => rfl
  | some signature =>
    rw [hs] at h
    obtain rfl : signature = "" := h
    rfl

/-- How a parameter is typed whose slot has a row with the type that the descriptor gives. -/
structure IsTypedBy (m : Method) (p : FormalParameter) (row : LocalVariable) (t : JavaType) :
    Prop where
  /-- Some row is found. -/
  found : ∀ isContinuation, ∃ v, variableOf m p isContinuation = .ok v
  /-- It is the row about the slot exactly if none with one of the names stands in front. -/
  own : ∀ isContinuation,
    variableOf m p isContinuation = .ok row ↔ ¬ IsShadowed m p isContinuation row
  /-- The type is then that of the row, from its generic signature if it has one. -/
  type : ∀ isContinuation, ¬ IsShadowed m p isContinuation row →
    typeOf m p isContinuation =
      (JavaType.parse (preferred row.descriptor row.signature)).mapError .malformedSignature
  /-- Its erasure is that of the type in the descriptor if the generic signature keeps to it. -/
  erasure : ∀ isContinuation, ¬ IsShadowed m p isContinuation row → ErasesTo row t →
    ∃ s, typeOf m p isContinuation = .ok s ∧ s.erasure = t.erasure
  /-- Without a generic signature it is that type itself. -/
  plain : ∀ isContinuation, ¬ IsShadowed m p isContinuation row → row.signature.getD "" = "" →
    typeOf m p isContinuation = .ok t

private theorem isTypedBy_of_isOnlyRow (hn : p.name = row.name) (hr : IsOnlyRow m.locals slot row)
    (ht : JavaType.parse row.descriptor = .ok t) : IsTypedBy m p row t := by
  have hown := variableOf_eq_row_iff hr hn
  have htype : ∀ isContinuation, ¬ IsShadowed m p isContinuation row →
      typeOf m p isContinuation =
        (JavaType.parse (preferred row.descriptor row.signature)).mapError .malformedSignature := by
    intro isContinuation hfree
    rw [typeOf, (hown isContinuation).2 hfree]
    rfl
  refine ⟨exists_variableOf hn (mem_of_isOnlyRow hr), hown, htype, ?_, ?_⟩
  · rintro isContinuation hfree ⟨s, hs, herasure⟩
    refine ⟨s, ?_, herasure⟩
    rw [htype isContinuation hfree, hs]
    rfl
  · intro isContinuation hfree hplain
    rw [htype isContinuation hfree, preferred_of_plain hplain, ht]
    rfl

/-- The inputs of a handler whose parameters have variables fail for lookups and for types that
cannot be read, never for a parameter without a type. -/
theorem failsFor_arguments {isEnum : String → Loading Bool}
    (he : ∀ name, FailsFor Fault.isOfInputs (isEnum name)) (config : Config)
    (hv : ∀ p ∈ m.parameters, ∀ isContinuation, ∃ v, variableOf m p isContinuation = .ok v) :
    FailsFor Fault.isOfInputs (arguments config isEnum m) := by
  have hmalformed {α : Type} (r : Except Malformed α) :
      FailsOnly Fault.isOfInputs (r.mapError .malformedSignature) :=
    failsOnly_mapError (f := Fault.malformedSignature) (fun _ => rfl) r
  apply closed_arguments (isClosed_failsFor Fault.isOfInputs) he config
  · exact failsFor_ofExcept ((hmalformed _).bind fun type => failsOnly_ok _)
  · intro p hp isContinuation
    obtain ⟨v, hv⟩ := hv p hp isContinuation
    apply failsFor_ofExcept
    rw [typeOf, hv]
    exact hmalformed _

theorem failsFor_isLoadedEnum (name : String) :
    FailsFor Fault.isOfInputs (isLoadedEnum name) := by
  have hfind : FailsFor Fault.isOfInputs (find name) := fun loader =>
    (failsFor_find name loader).mono Fault.isOfInputs_of_isOfLookup
  exact (isClosed_failsFor _).bind hfind fun found => (isClosed_failsFor _).pure _

theorem failsFor_of_mem_enums {isEnum : String → Loading Bool}
    (h : isEnum ∈ [noEnum, isLoadedEnum]) (name : String) :
    FailsFor Fault.isOfInputs (isEnum name) := by
  obtain rfl | rfl : isEnum = noEnum ∨ isEnum = isLoadedEnum := by simpa using h
  · exact (isClosed_failsFor _).pure false
  · exact failsFor_isLoadedEnum name

/-- The rows about the slots of the parameters, each the only one from the first instruction on and
of the type that the descriptor of the method gives. -/
structure AreParameterRows (m : Method) (type : MethodSignature) (rows : List LocalVariable) :
    Prop where
  only : List.Forall₂ (IsOnlyRow m.locals) (parameterSlots m type) rows
  typed : List.Forall₂ (fun row t => JavaType.parse row.descriptor = .ok t) rows type.parameters

/-- How the parameters of a method are typed that have a row each. -/
structure IsTypedByRows (m : Method) (type : MethodSignature) (rows : List LocalVariable) :
    Prop where
  /-- They have the names of the rows. -/
  names : m.parameters.map (·.name) = rows.map (·.name)
  parameters : List.Forall₂ (fun p own => IsTypedBy m p own.1 own.2) m.parameters
    (rows.zip type.parameters)
  /-- None of them lacks a type, whether enumerations are looked up or not. -/
  found : ∀ config, ∀ isEnum ∈ [noEnum, isLoadedEnum], ∀ loader method parameter,
    (outcome (arguments config isEnum m) loader).1 ≠
      .error (.parameterTypeNotFound method parameter)

private theorem forall₂_isTypedBy {slots : List Nat} {rows : List LocalVariable}
    {types : List JavaType} {parameters : List FormalParameter}
    (ho : List.Forall₂ (IsOnlyRow m.locals) slots rows)
    (ht : List.Forall₂ (fun row t => JavaType.parse row.descriptor = .ok t) rows types)
    (hn : parameters.map (·.name) = rows.map (·.name)) :
    List.Forall₂ (fun p own => IsTypedBy m p own.1 own.2) parameters (rows.zip types) := by
  induction ho generalizing types parameters with
  | nil =>
    cases ht
    rw [List.map_eq_nil_iff.1 hn]
    exact .nil
  | cons hrow _ ih =>
    obtain _ | ⟨htype, htypes⟩ := ht
    cases parameters with
    | nil => cases hn
    | cons p rest =>
      obtain ⟨hname, hnames⟩ := List.cons.inj hn
      exact .cons (isTypedBy_of_isOnlyRow hname hrow htype) (ih htypes hnames)

theorem AreParameterRows.isTypedByRows {type : MethodSignature} {rows : List LocalVariable}
    (h : AreParameterRows m type rows) (hn : m.parameters.map (·.name) = rows.map (·.name)) :
    IsTypedByRows m type rows := by
  have htyped := forall₂_isTypedBy h.only h.typed hn
  refine ⟨hn, htyped, fun config isEnum he loader method parameter hfault => ?_⟩
  have hv : ∀ p ∈ m.parameters, ∀ isContinuation, ∃ v, variableOf m p isContinuation = .ok v := by
    intro p hp
    have hfound := htyped.imp fun _ _ hown => And.intro hown.found hown
    exact ((List.forall₂_and_left _ _).1 hfound).1 p hp
  have hkind := failsFor_arguments (failsFor_of_mem_enums he) config hv loader _ hfault
  cases hkind

/-- Of a class that has been decoded, a method without declared names, whose table has the rows of
its parameters and any others, has its parameters named by these rows and typed by them as well
unless a row is shadowed. -/
theorem isTypedByRows_of_decode {origin : String} {bytes : List UInt8} {c : Class}
    (h : (decode origin bytes).result = .ok c) :
    ∃ front records, (methodRecords origin).over bytes = .ok (front, records) ∧
      List.Forall₂ (fun r m => r.decode front = .ok m ∧
        (r.tables.get? "MethodParameters" = none →
          ∀ type rows, MethodSignature.parse m.descriptor = .ok type →
            AreParameterRows m type rows → IsTypedByRows m type rows)) records c.methods := by
  obtain ⟨front, records, hrecords, hmethods⟩ := exists_methodRecords h
  refine ⟨front, records, hrecords, hmethods.imp fun r m hm => ⟨hm, ?_⟩⟩
  intro hd type rows ht hrows
  exact hrows.isTypedByRows (MethodRecord.names_of_decode hm hd ht hrows.only)

/-- The file of a class with a method of one number, in whose body another variable has the name of
the parameter. The row about that variable comes first. -/
def shadowingFile : List UInt8 :=
  [0xCA, 0xFE, 0xBA, 0xBE, 0, 0, 0, 52, 0, 10,
    -- the class A with a method f(I)V, the names of the tables, and x of the types I and LA;
    7, 0, 2, 1, 0, 1, 65, 1, 0, 1, 102, 1, 0, 4, 40, 73, 41, 86, 1, 0, 4, 67, 111, 100, 101,
    1, 0, 18, 76, 111, 99, 97, 108, 86, 97, 114, 105, 97, 98, 108, 101, 84, 97, 98, 108, 101,
    1, 0, 1, 120, 1, 0, 1, 73, 1, 0, 3, 76, 65, 59,
    0, 1, 0, 1, 0, 0, 0, 0, 0, 0,
    0, 1, 0, 9, 0, 3, 0, 4, 0, 1, 0, 5, 0, 0, 0, 42, 0, 0, 0, 2, 0, 0, 0, 2, 0, 177, 0, 0,
    -- the two rows of the table
    0, 1, 0, 6, 0, 0, 0, 22, 0, 2, 0, 1, 0, 1, 0, 7, 0, 9, 0, 1, 0, 0, 0, 1, 0, 7, 0, 8, 0, 0,
    0, 0]

def numberTaker : MethodSignature where
  typeParameters := none
  parameters := [.primitive .int]
  result := .primitive .void

def parameterRow : LocalVariable where
  name := "x"
  descriptor := "I"

def bodyRow : LocalVariable where
  name := "x"
  descriptor := "LA;"
  slot := 1
  start := 1

deriving instance DecidableEq for LocalVariable

private theorem exists_method_shadowingFile :
    ∃ c m, (decode "A.class" shadowingFile).result = .ok c ∧ c.methods = [m] ∧
      m.descriptor = "(I)V" ∧ m.flags = 9 ∧ m.locals = [bodyRow, parameterRow] := by
  have hclass : (decode "A.class" shadowingFile).result.toOption.map
      (·.methods.map fun m => (m.descriptor, m.flags, m.locals)) =
        some [("(I)V", 9, [bodyRow, parameterRow])] := by
    decide +kernel
  cases hc : (decode "A.class" shadowingFile).result with
  | error fault =>
    rw [hc] at hclass
    contradiction
  | ok c =>
    rw [hc] at hclass
    obtain ⟨m, hm, hfacts⟩ := List.map_eq_singleton_iff.1 (Option.some.inj hclass)
    simp only [Prod.mk.injEq] at hfacts
    exact ⟨c, m, rfl, hm, hfacts⟩

private theorem tables_shadowingFile {front : Head} {records : List MethodRecord}
    (h : (methodRecords "A.class").over shadowingFile = .ok (front, records)) :
    ∃ r, records = [r] ∧ r.tables.get? "MethodParameters" = none := by
  have htables : ((methodRecords "A.class").over shadowingFile).toOption.map
      (·.2.map (·.tables.get? "MethodParameters")) = some [none] := by
    decide +kernel
  rw [h] at htables
  exact List.map_eq_singleton_iff.1 (Option.some.inj htables)

theorem isTypedByRows_of_decode_shadowing :
    ∃ c m, (decode "A.class" shadowingFile).result = .ok c ∧ c.methods = [m] ∧
      IsTypedByRows m numberTaker [parameterRow] ∧
      ∀ p ∈ m.parameters, IsShadowed m p false parameterRow ∧
        typeOf m p false = .ok (.object (.outermost "A" none)) := by
  obtain ⟨c, m, hc, hm, hdescriptor, hflags, hlocals⟩ := exists_method_shadowingFile
  obtain ⟨front, records, hrecords, hmethods⟩ := isTypedByRows_of_decode hc
  obtain ⟨r, rfl, hdeclared⟩ := tables_shadowingFile hrecords
  rw [hm] at hmethods
  obtain ⟨⟨-, htyped⟩, -⟩ := List.forall₂_cons.1 hmethods
  have hrows : AreParameterRows m numberTaker [parameterRow] := by
    refine ⟨?_, .cons rfl .nil⟩
    rw [parameterSlots, Method.isStatic, hflags, hlocals]
    exact .cons rfl .nil
  have hparse : MethodSignature.parse m.descriptor = .ok numberTaker := by
    rw [hdescriptor]
    rfl
  have hrow := htyped hdeclared numberTaker [parameterRow] hparse hrows
  refine ⟨c, m, hc, hm, hrow, fun p hp => ?_⟩
  have hname : p.name = "x" := by
    have hx := List.mem_map_of_mem (f := (·.name)) hp
    rw [hrow.names] at hx
    exact List.mem_singleton.1 hx
  refine ⟨⟨[bodyRow], [], hlocals, bodyRow, List.mem_singleton_self _, ?_⟩, ?_⟩
  · rw [variableNames, hname]
    exact List.mem_singleton_self _
  · rw [typeOf, variableOf, hlocals, variableNames, hname]
    rfl

end Handler

end JvmRoutes
