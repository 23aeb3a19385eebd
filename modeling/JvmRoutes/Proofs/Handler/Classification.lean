import JvmRoutes.Proofs.Handler.Origin
import JvmRoutes.Proofs.Handler.Required

/-!
How the formal parameters of a handler are told apart: what the runtime supplies and what is taken
from the context is no input, and each of the others is a parameter of the request, a field of its
form or its body. The order of the formal parameters is kept.
-/
namespace JvmRoutes.Handler

open Loading Signature
open scoped List

structure TypedFormal where
  formal : FormalParameter
  type : JavaType

namespace TypedFormal

/-- The value comes from the request: the runtime does not supply it, and it is not taken from the
context. -/
def IsInput (config : Config) (x : TypedFormal) : Prop :=
  x.type.render ∉ config.ignoredTypes ∧ x.type.erasure ≠ config.continuationType ∧
    x.formal.location ≠ .context

instance (config : Config) : DecidablePred (IsInput config) := fun x =>
  inferInstanceAs (Decidable (x.type.render ∉ config.ignoredTypes ∧
    x.type.erasure ≠ config.continuationType ∧ x.formal.location ≠ .context))

def isRequired (config : Config) (x : TypedFormal) : Bool :=
  x.formal.isRequired config x.type.render

def parameter (config : Config) (x : TypedFormal) : Parameter where
  name := x.formal.inputName
  type := x.type.render
  location := x.formal.location
  required := x.isRequired config

def body (config : Config) (x : TypedFormal) : RequestBody where
  type := some x.type.render
  required := x.isRequired config
  mediaType := config.bodyMediaType

def field (config : Config) (schema : Schema) (isBean : Bool) (x : TypedFormal) : FormField where
  name := x.formal.inputName
  type := x.type.render
  schema
  required := x.isRequired config
  isBean

end TypedFormal

def inputsAt (config : Config) (locations : List Location) (typed : List TypedFormal) :
    List TypedFormal :=
  typed.filter fun x => x.IsInput config ∧ x.formal.location ∈ locations

/-- The fields of a form with their schemas, for which classes can be loaded. -/
inductive FieldsOf (config : Config) (isEnum : String → Loading Bool) :
    Loader → List TypedFormal → List FormField → Loader → Prop
  | nil (loader : Loader) : FieldsOf config isEnum loader [] [] loader
  | cons {x : TypedFormal} {rest : List TypedFormal} {fields : List FormField} {schema : Schema}
    {isBean : Bool} {first second third last : Loader}
    (hschema : outcome (Schema.ofType isEnum x.type) first = (.ok schema, second))
    (hbean : outcome (Schema.isBean isEnum x.type) second = (.ok isBean, third))
    (hrest : FieldsOf config isEnum third rest fields last) :
    FieldsOf config isEnum first (x :: rest) (x.field config schema isBean :: fields) last

/-- Formal parameters of a method have these types. Only the last of them can be the continuation,
whose variable goes by other names as well. -/
structure AreTyped (m : Method) (hasContinuation : Bool) (parameters : List FormalParameter)
    (typed : List TypedFormal) : Prop where
  formals : typed.map (·.formal) = parameters
  types : ∀ front x back, typed = front ++ x :: back →
    typeOf m x.formal (hasContinuation && back.isEmpty) = .ok x.type

/-- The inputs that formal parameters ask for, by their kinds. -/
structure AreInputs (config : Config) (isEnum : String → Loading Bool) (first last : Loader)
    (typed : List TypedFormal) (found : List Input) : Prop where
  parameters : found.filterMap Input.parameter? =
    (inputsAt config namedLocations typed).map (·.parameter config)
  fields : FieldsOf config isEnum first (inputsAt config [.form] typed)
    (found.filterMap Input.field?) last
  bodies : found.filterMap Input.body? = (inputsAt config [.body] typed).map (·.body config)

variable {config : Config} {isEnum : String → Loading Bool} {first next last : Loader} {m : Method}
  {hasContinuation : Bool} {typed typed' : List TypedFormal} {found found' : List Input}

theorem inputsAt_append (locations : List Location) (typed typed' : List TypedFormal) :
    inputsAt config locations (typed ++ typed') =
      inputsAt config locations typed ++ inputsAt config locations typed' := List.filter_append _ _

theorem FieldsOf.append {fields fields' : List FormField}
    (h : FieldsOf config isEnum first typed fields next)
    (h' : FieldsOf config isEnum next typed' fields' last) :
    FieldsOf config isEnum first (typed ++ typed') (fields ++ fields') last := by
  induction h with
  | nil => exact h'
  | cons hschema hbean _ ih => exact .cons hschema hbean (ih h')

theorem AreInputs.append (h : AreInputs config isEnum first next typed found)
    (h' : AreInputs config isEnum next last typed' found') :
    AreInputs config isEnum first last (typed ++ typed') (found ++ found') := by
  constructor
  · rw [List.filterMap_append, inputsAt_append, List.map_append, h.parameters, h'.parameters]
  · rw [List.filterMap_append, inputsAt_append]
    exact h.fields.append h'.fields
  · rw [List.filterMap_append, inputsAt_append, List.map_append, h.bodies, h'.bodies]

private theorem inputsAt_singleton_of_mem {locations : List Location} {x : TypedFormal}
    (hx : x.IsInput config) (hl : x.formal.location ∈ locations) :
    inputsAt config locations [x] = [x] :=
  List.filter_eq_self.2 fun y hy => by
    obtain rfl := List.mem_singleton.1 hy
    exact decide_eq_true ⟨hx, hl⟩

private theorem inputsAt_singleton_of_not {locations : List Location} {x : TypedFormal}
    (h : ¬ (x.IsInput config ∧ x.formal.location ∈ locations)) :
    inputsAt config locations [x] = [] :=
  List.filter_eq_nil_iff.2 fun y hy => by
    obtain rfl := List.mem_singleton.1 hy
    simpa using h

/-- What is no input leaves no trace. -/
theorem areInputs_nil {x : TypedFormal} (hx : ¬ x.IsInput config) :
    AreInputs config isEnum first first [x] [] := by
  have hnone (locations : List Location) : inputsAt config locations [x] = [] :=
    inputsAt_singleton_of_not fun h => hx h.1
  constructor
  · rw [hnone]
    rfl
  · rw [hnone]
    exact .nil first
  · rw [hnone]
    rfl

theorem areInputs_parameter {x : TypedFormal} (hx : x.IsInput config)
    (hl : x.formal.location ∈ namedLocations) :
    AreInputs config isEnum first first [x] [.parameter (x.parameter config)] := by
  have hform : x.formal.location ∉ [.form] := by
    intro h
    rw [List.mem_singleton.1 h] at hl
    exact absurd hl (by decide)
  have hbody : x.formal.location ∉ [.body] := by
    intro h
    rw [List.mem_singleton.1 h] at hl
    exact absurd hl (by decide)
  constructor
  · rw [inputsAt_singleton_of_mem hx hl]
    rfl
  · rw [inputsAt_singleton_of_not fun h => hform h.2]
    exact .nil first
  · rw [inputsAt_singleton_of_not fun h => hbody h.2]
    rfl

theorem areInputs_field {x : TypedFormal} {schema : Schema} {isBean : Bool}
    (hx : x.IsInput config) (hl : x.formal.location = .form)
    (hschema : outcome (Schema.ofType isEnum x.type) first = (.ok schema, next))
    (hbean : outcome (Schema.isBean isEnum x.type) next = (.ok isBean, last)) :
    AreInputs config isEnum first last [x] [.field (x.field config schema isBean)] := by
  have hnamed : x.formal.location ∉ namedLocations := by rw [hl]; decide
  have hbody : x.formal.location ∉ [.body] := by rw [hl]; decide
  constructor
  · rw [inputsAt_singleton_of_not fun h => hnamed h.2]
    rfl
  · rw [inputsAt_singleton_of_mem hx (List.mem_singleton.2 hl)]
    exact .cons hschema hbean (.nil last)
  · rw [inputsAt_singleton_of_not fun h => hbody h.2]
    rfl

theorem areInputs_body {x : TypedFormal} (hx : x.IsInput config) (hl : x.formal.location = .body) :
    AreInputs config isEnum first first [x] [.body (x.body config)] := by
  have hnamed : x.formal.location ∉ namedLocations := by rw [hl]; decide
  have hform : x.formal.location ∉ [.form] := by rw [hl]; decide
  constructor
  · rw [inputsAt_singleton_of_not fun h => hnamed h.2]
    rfl
  · rw [inputsAt_singleton_of_not fun h => hform h.2]
    exact .nil first
  · rw [inputsAt_singleton_of_mem hx (List.mem_singleton.2 hl)]
    rfl

/-- What one formal parameter asks for. -/
theorem areInputs_of_inputOfType {x : TypedFormal} {input : Option Input}
    (h : outcome (inputOfType config isEnum x.formal x.type) first = (.ok input, last)) :
    AreInputs config isEnum first last [x] input.toList := by
  have hpure : ∀ {r : Option Input}, outcome (pure r : Loading _) first = (.ok input, last) →
      r = input ∧ first = last := by
    intro r hr
    rw [outcome_pure] at hr
    obtain ⟨hr, hlast⟩ := Prod.mk.inj hr
    exact ⟨Except.ok.inj hr, hlast⟩
  unfold inputOfType at h
  by_cases hs : isSupplied config x.type = true
  · rw [if_pos hs, outcome_log_bind] at h
    obtain ⟨rfl, rfl⟩ := hpure h
    apply areInputs_nil
    intro hx
    rw [isSupplied_eq_false_iff.2 ⟨hx.1, hx.2.1⟩] at hs
    cases hs
  · rw [if_neg hs] at h
    have hinput (hl : x.formal.location ≠ .context) : x.IsInput config := by
      obtain ⟨hrender, herasure⟩ := isSupplied_eq_false_iff.1 (Bool.eq_false_iff.2 hs)
      exact ⟨hrender, herasure, hl⟩
    -- the four locations of parameters differ in nothing else
    have hnamed : ∀ l ∈ namedLocations, x.formal.location = l →
        AreInputs config isEnum first first [x] [.parameter
          { name := x.formal.inputName, type := x.type.render, location := l
            required := x.formal.isRequired config x.type.render }] := by
      intro l hl hx
      subst hx
      exact areInputs_parameter (hinput fun hc => by simp [hc, namedLocations] at hl) hl
    cases hl : x.formal.location with
    | context =>
      simp only [hl, Location.isExcluded, if_true] at h
      obtain ⟨rfl, rfl⟩ := hpure h
      exact areInputs_nil fun hx => hx.2.2 hl
    | body =>
      simp only [hl, Location.isExcluded, Bool.false_eq_true, if_false] at h
      obtain ⟨rfl, rfl⟩ := hpure h
      exact areInputs_body (hinput (by simp [hl])) hl
    | form =>
      simp only [hl, Location.isExcluded, Bool.false_eq_true, if_false] at h
      obtain ⟨schema, second, hschema, h⟩ := outcome_bind_eq_ok_iff.1 h
      obtain ⟨isBean, third, hbean, h⟩ := outcome_bind_eq_ok_iff.1 h
      obtain ⟨hfound, rfl⟩ := Prod.mk.inj h
      obtain rfl := Except.ok.inj hfound
      exact areInputs_field (hinput (by simp [hl])) hl hschema hbean
    | header | cookie | path | query =>
      simp only [hl, Location.isExcluded, Bool.false_eq_true, if_false] at h
      obtain ⟨rfl, rfl⟩ := hpure h
      exact hnamed _ (by decide) hl

theorem AreTyped.cons {p : FormalParameter} {rest : List FormalParameter} {t : JavaType}
    (ht : typeOf m p (hasContinuation && rest.isEmpty) = .ok t)
    (h : AreTyped m hasContinuation rest typed) :
    AreTyped m hasContinuation (p :: rest) (⟨p, t⟩ :: typed) := by
  constructor
  · rw [List.map_cons, h.formals]
  · intro front x back heq
    cases front with
    | nil =>
      obtain ⟨rfl, rfl⟩ := List.cons.inj heq
      rw [← h.formals, List.isEmpty_map] at ht
      exact ht
    | cons y front =>
      obtain ⟨-, heq⟩ := List.cons.inj heq
      exact h.types front x back heq

/-- What all formal parameters ask for, one after another. -/
theorem exists_areInputs {parameters : List FormalParameter}
    (h : outcome (inputs config isEnum m hasContinuation parameters) first = (.ok found, last)) :
    ∃ typed, AreTyped m hasContinuation parameters typed ∧
      AreInputs config isEnum first last typed found := by
  induction parameters generalizing first found with
  | nil =>
    rw [inputs, outcome_pure] at h
    obtain ⟨hfound, rfl⟩ := Prod.mk.inj h
    obtain rfl := Except.ok.inj hfound
    exact ⟨[], ⟨rfl, by simp⟩, ⟨rfl, .nil first, rfl⟩⟩
  | cons p rest ih =>
    unfold inputs at h
    obtain ⟨t, second, ht, h⟩ := outcome_bind_eq_ok_iff.1 h
    obtain ⟨input, third, hinput, h⟩ := outcome_bind_eq_ok_iff.1 h
    obtain ⟨others, fourth, hothers, h⟩ := outcome_bind_eq_ok_iff.1 h
    obtain ⟨hfound, rfl⟩ := Prod.mk.inj h
    obtain rfl := Except.ok.inj hfound
    obtain ⟨htype, rfl⟩ := Prod.mk.inj ht
    obtain ⟨typed, htyped, hinputs⟩ := ih hothers
    refine ⟨⟨p, t⟩ :: typed, htyped.cons htype, ?_⟩
    exact AreInputs.append (areInputs_of_inputOfType (x := ⟨p, t⟩) hinput) hinputs

/-- The inputs of a method: the parameters of the request, and a body. Fields of a form come before
any other body, and of several other bodies the last one counts. -/
structure IsClassified (config : Config) (isEnum : String → Loading Bool) (first last : Loader)
    (typed : List TypedFormal) (fields : List FormField) (found : Arguments) : Prop where
  parameters : found.parameters = (inputsAt config namedLocations typed).map (·.parameter config)
  form : FieldsOf config isEnum first (inputsAt config [.form] typed) fields last
  bean : ∀ f, fields = [f] → f.isBean = true → found.body =
    some { type := some f.type, required := f.required, mediaType := config.formMediaType }
  aggregate : fields ≠ [] → (∀ f, fields = [f] → f.isBean = false) →
    found.body = some (schemaBody config fields)
  other : fields = [] →
    found.body = ((inputsAt config [.body] typed).getLast?).map (·.body config)

/-- A form has a property for each field unless a bean is its only one. -/
theorem formBody_eq_schemaBody {fields : List FormField}
    (h : ∀ f, fields = [f] → f.isBean = false) : formBody config fields = schemaBody config fields := by
  match fields with
  | [] => rfl
  | [f] =>
    have hbean : f.isBean = false := h f rfl
    rw [formBody_singleton, hbean]
    rfl
  | _ :: _ :: _ => rfl

theorem AreInputs.isClassified (h : AreInputs config isEnum first last typed found) :
    IsClassified config isEnum first last typed (found.filterMap Input.field?)
      (assemble config found) := by
  have hbody : (assemble config found).body =
      if (found.filterMap Input.field?).isEmpty then (found.filterMap Input.body?).getLast?
      else some (formBody config (found.filterMap Input.field?)) := rfl
  constructor
  · exact h.parameters
  · exact h.fields
  · intro f hf hbean
    rw [hbody, hf, formBody_singleton, if_pos hbean]
    rfl
  · intro hne hlone
    rw [hbody, if_neg (by simpa using hne), formBody_eq_schemaBody hlone]
  · intro hnil
    rw [hbody, hnil, h.bodies, List.getLast?_map]
    rfl

/-- The formal parameters of a method with their types, of which its inputs are made. -/
theorem exists_isClassified {found : Arguments}
    (h : outcome (arguments config isEnum m) first = (.ok found, last)) :
    ∃ hasContinuation typed fields, takesContinuation config m = .ok hasContinuation ∧
      AreTyped m hasContinuation m.parameters typed ∧
      IsClassified config isEnum first last typed fields found := by
  unfold arguments at h
  obtain ⟨hasContinuation, second, hc, h⟩ := outcome_bind_eq_ok_iff.1 h
  obtain ⟨hcontinues, rfl⟩ := Prod.mk.inj hc
  obtain ⟨all, third, hall, h⟩ := outcome_bind_eq_ok_iff.1 h
  obtain ⟨hfound, rfl⟩ := Prod.mk.inj h
  obtain rfl := Except.ok.inj hfound
  obtain ⟨typed, htyped, hinputs⟩ := exists_areInputs hall
  exact ⟨hasContinuation, typed, all.filterMap Input.field?, hcontinues, htyped,
    hinputs.isClassified⟩

theorem inputsAt_cons (locations : List Location) (x : TypedFormal) (rest : List TypedFormal) :
    inputsAt config locations (x :: rest) =
      if x.IsInput config ∧ x.formal.location ∈ locations
      then x :: inputsAt config locations rest else inputsAt config locations rest := by
  unfold inputsAt
  rw [List.filter_cons]
  simp only [decide_eq_true_eq]

/-- Each input is at one kind of location. -/
theorem inputs_perm (config : Config) (typed : List TypedFormal) :
    inputsAt config namedLocations typed ++ inputsAt config [.form] typed ++
      inputsAt config [.body] typed ~ typed.filter (·.IsInput config) := by
  induction typed with
  | nil => exact .nil
  | cons x rest ih =>
    by_cases hx : x.IsInput config
    · have hkept : (x :: rest).filter (·.IsInput config) = x :: rest.filter (·.IsInput config) :=
        List.filter_cons_of_pos (decide_eq_true hx)
      rw [hkept, inputsAt_cons, inputsAt_cons, inputsAt_cons]
      cases hl : x.formal.location with
      | context => exact absurd hl hx.2.2
      | header | cookie | path | query => simpa [hx, namedLocations] using ih
      | form =>
        have hfield : inputsAt config namedLocations rest ++ x :: inputsAt config [.form] rest ++
            inputsAt config [.body] rest ~ x :: rest.filter (·.IsInput config) := by
          rw [List.append_assoc, List.cons_append]
          exact List.perm_middle.trans (.cons x (by rwa [← List.append_assoc]))
        simpa [hx, namedLocations] using hfield
      | body =>
        have hbody : inputsAt config namedLocations rest ++ inputsAt config [.form] rest ++
            x :: inputsAt config [.body] rest ~ x :: rest.filter (·.IsInput config) :=
          List.perm_middle.trans (.cons x ih)
        simpa [hx, namedLocations] using hbody
    · have hkept : (x :: rest).filter (·.IsInput config) = rest.filter (·.IsInput config) :=
        List.filter_cons_of_neg (by simpa using hx)
      simpa [hkept, inputsAt_cons, hx] using ih

/-- The formal parameters of a method that are inputs of a request are told apart by what their first
annotations say: they are the parameters of the request with names of their own, the fields of its
form, and the others, of which the last one is the body if there is no form. -/
theorem isClassified_of_arguments {config : Config} {isEnum : String → Loading Bool} {m : Method}
    {first last : Loader} {found : Arguments}
    (h : outcome (arguments config isEnum m) first = (.ok found, last)) :
    ∃ hasContinuation typed fields, takesContinuation config m = .ok hasContinuation ∧
      AreTyped m hasContinuation m.parameters typed ∧
      (∀ x ∈ typed, x.formal.IsAt x.formal.location ∧ x.formal.IsNamed x.formal.inputName) ∧
      inputsAt config namedLocations typed ++ inputsAt config [.form] typed ++
        inputsAt config [.body] typed ~ typed.filter (·.IsInput config) ∧
      IsClassified config isEnum first last typed fields found := by
  obtain ⟨hasContinuation, typed, fields, hc, htyped, hclassified⟩ := exists_isClassified h
  refine ⟨hasContinuation, typed, fields, hc, htyped, ?_, inputs_perm config typed, hclassified⟩
  intro x _
  exact ⟨FormalParameter.isAt_iff.2 rfl, FormalParameter.isNamed_iff.2 rfl⟩

/-- Settings with short names of the types that the runtime supplies. -/
def shortNames : Config := { ignoredTypes := ["C"], continuationType := "K" }

def everyKind : Method where
  name := "f"
  descriptor := "(LC;IIJZILK;)V"
  parameters := [
    { name := "context" },
    { name := "user", visible := [{ typeName := "io.jooby.annotations.ContextParam" }] },
    { name := "token"
      visible := [
        { typeName := "javax.inject.Named", values := ⟨[("value", .text " ")]⟩ },
        { typeName := "javax.ws.rs.HeaderParam", values := ⟨[("value", .text " X-Token ")]⟩ }] },
    { name := "limit", visible := [{ typeName := "io.jooby.annotations.QueryParam" }] },
    { name := "open", visible := [{ typeName := "io.jooby.annotations.FormParam" }] },
    { name := "note" },
    { name := "completion" }]
  locals := [
    { name := "context", descriptor := "LC;" },
    { name := "user", descriptor := "I" },
    { name := "token", descriptor := "I" },
    { name := "limit", descriptor := "J" },
    { name := "open", descriptor := "Z" },
    { name := "note", descriptor := "I" },
    { name := "$completion", descriptor := "LK;" }]

def everyKindParameters : List Parameter := [
  { name := "X-Token", type := "int", location := .header, required := true },
  { name := "limit", type := "long", location := .query, required := true }]

deriving instance DecidableEq for Parameter

private theorem exists_arguments_everyKind : ∃ found last,
    outcome (arguments shortNames noEnum everyKind) { store := .ofClasses [] } =
      (.ok found, last) ∧
    found.parameters = everyKindParameters ∧
    (found.body.map fun b => (b.type, b.requiredNames)) = some (none, ["open"]) := by
  have hview :
      (outcome (arguments shortNames noEnum everyKind) { store := .ofClasses [] }).1.toOption.map
        (fun found => (found.parameters, found.body.map fun b => (b.type, b.requiredNames))) =
      some (everyKindParameters, some (none, ["open"])) := by
    decide +kernel
  rcases hf : outcome (arguments shortNames noEnum everyKind) { store := .ofClasses [] } with
    ⟨result, last⟩
  rw [hf] at hview
  cases result with
  | error fault => cases hview
  | ok found =>
    obtain ⟨hparameters, hbody⟩ := Prod.mk.inj (Option.some.inj hview)
    exact ⟨found, last, rfl, hparameters, hbody⟩

theorem isClassified_of_arguments_everyKind : ∃ found last typed fields,
    outcome (arguments shortNames noEnum everyKind) { store := .ofClasses [] } =
      (.ok found, last) ∧
    AreTyped everyKind true everyKind.parameters typed ∧
    IsClassified shortNames noEnum { store := .ofClasses [] } last typed fields found ∧
    found.parameters = everyKindParameters ∧
    (found.body.map fun b => (b.type, b.requiredNames)) = some (none, ["open"]) := by
  obtain ⟨found, last, hfound, hparameters, hbody⟩ := exists_arguments_everyKind
  obtain ⟨hasContinuation, typed, fields, hc, htyped, -, -, hclassified⟩ :=
    isClassified_of_arguments hfound
  have hcontinues : (takesContinuation shortNames everyKind).toOption = some true := by
    decide +kernel
  rw [hc] at hcontinues
  obtain rfl : hasContinuation = true := Option.some.inj hcontinues
  exact ⟨found, last, typed, fields, hfound, htyped, hclassified, hparameters, hbody⟩

end JvmRoutes.Handler
