import JvmRoutes.Proofs.Handler.Inputs
import JvmRoutes.Proofs.Loader.InStep
import JvmRoutes.Proofs.OrderedMap

/-!
The inputs of a handler with and without the setting that a value of which nothing is known must be
given. Nothing but required flags depends on it, and it never takes one away.
-/
namespace JvmRoutes

/-- The settings with an answer to whether a value of which nothing is known must be given. -/
def Config.withUnmarked (config : Config) (required : Bool) : Config :=
  { config with unmarkedRequired := required }

/-- The value may be missing as far as its type, its location and its markers say. -/
structure FormalParameter.IsUnmarked (config : Config) (p : FormalParameter) (type : String) :
    Prop where
  type : type ∉ config.primitiveTypes
  location : p.location ≠ .path
  nullable : p.nullable? = none

/-- A flag without and with the setting: it is not given up with it, and it differs for a reason. -/
structure Weakens (reason : Prop) (off on : Bool) : Prop where
  le : off = true → on = true
  reason : off ≠ on → reason

namespace FormalParameter

variable {config : Config} {p : FormalParameter} {type : String}

theorem alwaysRequired_eq (l : Location) : l.alwaysRequired = true ↔ l = .path := by
  cases l <;> simp [Location.alwaysRequired]

theorem isRequired_of_isUnmarked (h : p.IsUnmarked config type) (required : Bool) :
    p.isRequired (config.withUnmarked required) type = required := by
  have hl : p.location.alwaysRequired = false := by
    rw [Bool.eq_false_iff, ne_eq, alwaysRequired_eq]
    exact h.location
  simp [isRequired, Config.withUnmarked, h.type, hl, h.nullable]

theorem isRequired_of_not_isUnmarked (h : ¬ p.IsUnmarked config type) (required : Bool) :
    p.isRequired (config.withUnmarked required) type = p.isRequired config type := by
  unfold isRequired Config.withUnmarked
  by_cases ht : type ∈ config.primitiveTypes
  · simp [ht]
  by_cases hl : p.location = .path
  · simp [hl, Location.alwaysRequired]
  cases hn : p.nullable? with
  | some nullable => rfl
  | none => exact absurd ⟨ht, hl, hn⟩ h

theorem weakens_isRequired (config : Config) (p : FormalParameter) (type : String) :
    Weakens (p.IsUnmarked config type) (p.isRequired (config.withUnmarked false) type)
      (p.isRequired (config.withUnmarked true) type) := by
  by_cases h : p.IsUnmarked config type
  · rw [isRequired_of_isUnmarked h, isRequired_of_isUnmarked h]
    exact ⟨fun _ => rfl, fun _ => h⟩
  · rw [isRequired_of_not_isUnmarked h, isRequired_of_not_isUnmarked h]
    exact ⟨id, fun hne => absurd rfl hne⟩

end FormalParameter

namespace Handler

open Loading Signature

variable {config : Config} {isEnum : String → Loading Bool} {first : Loader} {m : Method}
  {hasContinuation : Bool}

/-- Two inputs have nothing different but the flag, which weakens. -/
inductive Input.Weakens (reason : Prop) : Input → Input → Prop
  | parameter (p : Parameter) (required : Bool) (h : JvmRoutes.Weakens reason p.required required) :
    Weakens reason (.parameter p) (.parameter { p with required })
  | field (f : FormField) (required : Bool) (h : JvmRoutes.Weakens reason f.required required) :
    Weakens reason (.field f) (.field { f with required })
  | body (b : RequestBody) (required : Bool) (h : JvmRoutes.Weakens reason b.required required) :
    Weakens reason (.body b) (.body { b with required })

theorem Input.Weakens.imp {reason reason' : Prop} {off on : Input}
    (h : Input.Weakens reason off on) (hr : reason → reason') : Input.Weakens reason' off on := by
  cases h with
  | parameter q required hq => exact .parameter q required ⟨hq.le, fun hne => hr (hq.reason hne)⟩
  | field f required hf => exact .field f required ⟨hf.le, fun hne => hr (hf.reason hne)⟩
  | body b required hb => exact .body b required ⟨hb.le, fun hne => hr (hb.reason hne)⟩

/-- A formal parameter asks for the same with and without the setting, apart from the flag. -/
structure Asked.Weakens (config : Config) (off on : Asked) : Prop where
  formal_eq : on.formal = off.formal
  type_eq : on.type = off.type
  input : Option.Rel (Input.Weakens (off.formal.IsUnmarked config off.type.render))
    off.input on.input

theorem inStep_inputOfType (he : ∀ name, IsReporting (isEnum name)) (p : FormalParameter)
    (t : JavaType) :
    InStep first (Option.Rel (Input.Weakens (p.IsUnmarked config t.render)))
      (inputOfType (config.withUnmarked false) isEnum p t)
      (inputOfType (config.withUnmarked true) isEnum p t) := by
  have hflag := p.weakens_isRequired config t.render
  unfold inputOfType
  have hs : ∀ b, isSupplied (config.withUnmarked b) t = isSupplied config t := fun _ => rfl
  simp only [hs]
  cases isSupplied config t with
  | true =>
    exact (isSearch_log _ _).onlyFinds.inStep_bind fun _ _ => inStep_pure .none
  | false =>
    cases p.location with
    | context => exact inStep_pure .none
    | form =>
      have hschema := (Schema.isReporting_ofType he t).isSearch.onlyFinds
      have hbean := (Schema.isReporting_isBean he t).isSearch.onlyFinds
      refine hschema.inStep_bind fun schema _ => hbean.inStep_bind fun isBean _ => ?_
      exact inStep_pure (.some (.field _ _ hflag))
    | body => exact inStep_pure (.some (.body _ _ hflag))
    | header | cookie | path | query => exact inStep_pure (.some (.parameter _ _ hflag))

/-- Formal parameters with what they ask for, without the setting and with it. -/
structure AskedAlike (config : Config) (m : Method) (hasContinuation : Bool)
    (parameters : List FormalParameter) (asked asked' : List Asked) : Prop where
  off : AskedOf (config.withUnmarked false) m hasContinuation parameters asked
  on : AskedOf (config.withUnmarked true) m hasContinuation parameters asked'
  weakens : List.Forall₂ (Asked.Weakens config) asked asked'

theorem inStep_inputs (he : ∀ name, IsReporting (isEnum name))
    (parameters : List FormalParameter) :
    InStep first (fun found found' => ∃ asked asked',
        AskedAlike config m hasContinuation parameters asked asked' ∧
        found = asked.filterMap (·.input) ∧ found' = asked'.filterMap (·.input))
      (inputs (config.withUnmarked false) isEnum m hasContinuation parameters)
      (inputs (config.withUnmarked true) isEnum m hasContinuation parameters) := by
  induction parameters with
  | nil => exact inStep_pure ⟨[], [], ⟨.nil, .nil, .nil⟩, rfl, rfl⟩
  | cons p rest ih =>
    unfold inputs
    refine (isSearch_ofExcept _).onlyFinds.inStep_bind fun t ht => ?_
    apply (inStep_inputOfType he p t).comesTo.bind
    rintro input input' ⟨hinput, hoff, hon⟩
    apply ih.bind
    rintro _ _ ⟨asked, asked', hrest, rfl, rfl⟩
    have htype := ht.eq_of_ofExcept
    refine inStep_pure ⟨⟨p, t, input⟩ :: asked, ⟨p, t, input'⟩ :: asked', ?_, ?_, ?_⟩
    · exact
        { off := .cons (a := ⟨p, t, input⟩) htype (asks_of_comesTo he hoff) hrest.off
          on := .cons (a := ⟨p, t, input'⟩) htype (asks_of_comesTo he hon) hrest.on
          weakens := .cons ⟨rfl, rfl, hinput⟩ hrest.weakens }
    · cases input <;> rfl
    · cases input' <;> rfl

/-- An input stems from a value that may be missing as far as its type, its location and its
markers say. -/
def FromUnmarked (config : Config) (asked : List Asked) (input : Input) : Prop :=
  ∃ a ∈ asked, a.input = some input ∧ a.formal.IsUnmarked config a.type.render

end Handler

/-- Two parameters have nothing different but the flag, which weakens. -/
structure Parameter.Weakens (reason : Prop) (off on : Parameter) : Prop where
  eq : on = { off with required := on.required }
  flag : JvmRoutes.Weakens reason off.required on.required

namespace Json

def text? : Json → Option String
  | text s => some s
  | _ => none

/-- The names that a schema says must be given. Without a list of them there are none. -/
def requiredNames (schema : Json) : List String :=
  match schema.field? "required" with
  | some (.array names) => names.filterMap text?
  | _ => []

def withoutRequired : Json → Json
  | object fields => object (fields.filter (·.1 ≠ "required"))
  | other => other

end Json

namespace RequestBody

def requiredNames (b : RequestBody) : List String := (b.schema.map Json.requiredNames).getD []

def property? (b : RequestBody) (name : String) : Option Json :=
  (b.schema.bind (·.field? "properties")).bind (·.field? name)

/-- A body stands for a form field alone, or has a property for it. -/
def Holds (b : RequestBody) (f : Handler.FormField) : Prop :=
  b.type = some f.type ∨ (b.property? f.name).isSome

open Handler in
/-- Two bodies have nothing different but what must be given. Nothing of that is given up, and
what is added goes back to inputs that may be missing. -/
structure Weakens (config : Config) (asked : List Asked) (off on : RequestBody) : Prop where
  type_eq : on.type = off.type
  mediaType_eq : on.mediaType = off.mediaType
  schema_eq : on.schema.map Json.withoutRequired = off.schema.map Json.withoutRequired
  flag : JvmRoutes.Weakens (FromUnmarked config asked (.body off) ∨
    ∃ f, off.Holds f ∧ FromUnmarked config asked (.field f)) off.required on.required
  names : off.requiredNames.Sublist on.requiredNames
  added : ∀ name, off.requiredNames.count name ≠ on.requiredNames.count name →
    ∃ f, f.name = name ∧ off.Holds f ∧ FromUnmarked config asked (.field f)

end RequestBody

namespace Handler

open Loading

/-- Two form fields have nothing different but the flag, which weakens. -/
structure FormField.Weakens (reason : Prop) (off on : FormField) : Prop where
  eq : on = { off with required := on.required }
  flag : JvmRoutes.Weakens reason off.required on.required

theorem FormField.Weakens.name_eq {reason : Prop} {off on : FormField}
    (h : off.Weakens reason on) : on.name = off.name := by
  rw [h.eq]

section Form

variable {config : Config} {asked : List Asked} {reason : FormField → Prop}
  {fields fields' : List FormField}

def requiredFields (fields : List FormField) : List String :=
  (fields.filter (·.required)).map (·.name)

theorem requiredFields_cons (f : FormField) (rest : List FormField) :
    requiredFields (f :: rest) =
      if f.required then f.name :: requiredFields rest else requiredFields rest := by
  unfold requiredFields
  cases hr : f.required <;> simp [hr]

section Weakening

variable (h : List.Forall₂ (fun f f' => f.Weakens (reason f) f') fields fields')
include h

private theorem sublist_requiredFields :
    (requiredFields fields).Sublist (requiredFields fields') := by
  induction h with
  | nil => exact List.Sublist.refl _
  | @cons f f' rest rest' hf _ ih =>
    rw [requiredFields_cons, requiredFields_cons, hf.name_eq]
    cases hoff : f.required with
    | true =>
      rw [hf.flag.le hoff]
      exact ih.cons_cons _
    | false =>
      cases f'.required with
      | true => exact ih.cons _
      | false => exact ih

/-- A name that must be given more often with the setting belongs to a field with a reason. -/
theorem exists_reason_of_count_ne {name : String}
    (hn : (requiredFields fields).count name ≠ (requiredFields fields').count name) :
    ∃ f ∈ fields, f.name = name ∧ reason f := by
  induction h with
  | nil => exact absurd rfl hn
  | @cons f f' rest rest' hf _ ih =>
    by_cases hflag : f.required ≠ f'.required ∧ f.name = name
    · exact ⟨f, List.mem_cons_self, hflag.2, hf.flag.reason hflag.1⟩
    -- the field counts for both or for none, and the difference is behind it
    have hrest : (requiredFields rest).count name ≠ (requiredFields rest').count name := by
      intro he
      apply hn
      rw [requiredFields_cons, requiredFields_cons, hf.name_eq]
      cases hoff : f.required <;> cases hon : f'.required <;>
        simp_all [List.count_cons]
    obtain ⟨g, hg, hfound⟩ := ih hrest
    exact ⟨g, List.mem_cons_of_mem f hg, hfound⟩

theorem weakens_any :
    JvmRoutes.Weakens (∃ f ∈ fields, reason f) (fields.any (·.required))
      (fields'.any (·.required)) := by
  induction h with
  | nil => exact ⟨id, fun hne => absurd rfl hne⟩
  | @cons f f' rest rest' hf _ ih =>
    simp only [List.any_cons]
    constructor
    · intro hany
      rcases Bool.or_eq_true_iff.1 hany with hr | hr
      · simp [hf.flag.le hr]
      · simp [ih.le hr]
    · intro hne
      by_cases hflag : f.required = f'.required
      · rw [hflag] at hne
        obtain ⟨g, hg, hreason⟩ := ih.reason fun he => hne (by rw [he])
        exact ⟨g, List.mem_cons_of_mem f hg, hreason⟩
      · exact ⟨f, List.mem_cons_self, hf.flag.reason hflag⟩

private theorem properties_eq :
    fields'.map (fun f => (f.name, f.schema.toJson)) =
      fields.map fun f => (f.name, f.schema.toJson) := by
  induction h with
  | nil => rfl
  | cons hf _ ih =>
    rw [List.map_cons, List.map_cons, ih, hf.eq]

end Weakening

private theorem textValues_texts (names : List String) :
    (names.map Json.text).filterMap Json.text? = names := by
  rw [List.filterMap_map]
  exact List.filterMap_some

theorem requiredNames_formSchema (fields : List FormField) :
    (formSchema fields).requiredNames = requiredFields fields := by
  unfold formSchema
  dsimp only
  change Json.requiredNames (.object (_ ++
    if (requiredFields fields).isEmpty then [] else [(_, .texts (requiredFields fields))])) = _
  cases hr : requiredFields fields with
  | nil => rfl
  | cons name rest => exact textValues_texts (name :: rest)

private theorem withoutRequired_formSchema (fields : List FormField) :
    (formSchema fields).withoutRequired = .object [("type", .text "object"),
      ("properties", .object
        (OrderedMap.ofList (fields.map fun f => (f.name, f.schema.toJson))).entries)] := by
  unfold formSchema Json.withoutRequired
  cases (fields.filter (·.required)).map (·.name) <;> rfl

private theorem property?_formSchema {f : FormField} (hf : f ∈ fields) {b : RequestBody}
    (hb : b.schema = some (formSchema fields)) : (b.property? f.name).isSome := by
  have hp : b.property? f.name =
      (OrderedMap.ofList (fields.map fun f => (f.name, f.schema.toJson))).get? f.name := by
    unfold RequestBody.property?
    rw [hb]
    rfl
  rw [hp, OrderedMap.get?_ofList, Option.isSome_map, List.find?_isSome]
  refine ⟨(f.name, f.schema.toJson), ?_, beq_self_eq_true f.name⟩
  exact List.mem_reverse.2 (List.mem_map.2 ⟨f, hf, rfl⟩)

/-- The body of a form with a property for each field. -/
def schemaBody (config : Config) (fields : List FormField) : RequestBody :=
  { schema := some (formSchema fields), required := fields.any (·.required),
    mediaType := config.formMediaType }

theorem formBody_singleton (config : Config) (f : FormField) :
    formBody config [f] =
      if f.isBean then
        { type := some f.type, required := f.required, mediaType := config.formMediaType }
      else schemaBody config [f] := rfl

theorem weakens_schemaBody (config : Config)
    (h : List.Forall₂ (fun f f' => f.Weakens (FromUnmarked config asked (.field f)) f')
      fields fields') :
    (schemaBody config fields).Weakens config asked (schemaBody config fields') := by
  have hholds : ∀ f ∈ fields, (schemaBody config fields).Holds f :=
    fun f hf => .inr (property?_formSchema hf rfl)
  have hnames : ∀ fs, (schemaBody config fs).requiredNames = requiredFields fs :=
    requiredNames_formSchema
  have hany := weakens_any h
  refine ⟨rfl, rfl, ?_, ⟨hany.le, ?_⟩, ?_, ?_⟩
  · change some (formSchema fields').withoutRequired = some (formSchema fields).withoutRequired
    rw [withoutRequired_formSchema, withoutRequired_formSchema, properties_eq h]
  · intro hne
    obtain ⟨f, hf, hreason⟩ := hany.reason hne
    exact .inr ⟨f, hholds f hf, hreason⟩
  · rw [hnames, hnames]
    exact sublist_requiredFields h
  · intro name hcount
    rw [hnames, hnames] at hcount
    obtain ⟨f, hf, hname, hreason⟩ := exists_reason_of_count_ne h hcount
    exact ⟨f, hname, hholds f hf, hreason⟩

/-- Whether a form is a bean alone or has a schema does not depend on the flags of its fields. -/
theorem weakens_formBody (config : Config)
    (h : List.Forall₂ (fun f f' => f.Weakens (FromUnmarked config asked (.field f)) f')
      fields fields') :
    (formBody config fields).Weakens config asked (formBody config fields') := by
  cases h with
  | nil => exact weakens_schemaBody config .nil
  | @cons f f' rest rest' hf hrest =>
    cases hrest with
    | cons hg hrest => exact weakens_schemaBody config (.cons hf (.cons hg hrest))
    | nil =>
      have hbean : f'.isBean = f.isBean := by rw [hf.eq]
      have htype : f'.type = f.type := by rw [hf.eq]
      rw [formBody_singleton, formBody_singleton, hbean, htype]
      split
      · refine ⟨rfl, rfl, rfl, ⟨hf.flag.le, ?_⟩, List.Sublist.refl _, fun _ hn => absurd rfl hn⟩
        exact fun hne => .inr ⟨f, .inl rfl, hf.flag.reason hne⟩
      · exact weakens_schemaBody config (.cons hf .nil)

end Form

private theorem rel_getLast? {α : Type} {R : α → α → Prop} {l l' : List α}
    (h : List.Forall₂ R l l') : Option.Rel R l.getLast? l'.getLast? := by
  rw [List.getLast?_eq_head?_reverse, List.getLast?_eq_head?_reverse, List.head?_eq_getElem?,
    List.head?_eq_getElem?]
  exact rel_getElem? (List.rel_reverse h) 0

section Inputs

variable {config : Config} {asked asked' : List Asked} {found found' : List Input}

theorem weakens_filterMap_input (h : List.Forall₂ (Asked.Weakens config) asked asked') :
    List.Forall₂ (fun input input' => Input.Weakens (FromUnmarked config asked input) input input')
      (asked.filterMap (·.input)) (asked'.filterMap (·.input)) := by
  -- each pair is among the asked ones, so that a reason can name it
  have hmem := (List.forall₂_and_left _ _).2 ⟨fun _ ha => ha, h⟩
  refine List.rel_filterMap ?_ hmem
  rintro a a' ⟨ha, hweakens⟩
  have hinput := hweakens.input
  change Option.Rel _ a.input a'.input
  have hfrom : ∀ input, a.input = some input → a.formal.IsUnmarked config a.type.render →
      FromUnmarked config asked input := fun input hi hu => ⟨a, ha, hi, hu⟩
  revert hinput hfrom
  generalize a.input = off
  generalize a'.input = on
  intro hinput hfrom
  cases hinput with
  | none => exact .none
  | some hinput => exact .some (hinput.imp (hfrom _ rfl))

variable (h : List.Forall₂ (fun input input' =>
  Input.Weakens (FromUnmarked config asked input) input input') found found')
include h

theorem weakens_parameters :
    List.Forall₂ (fun q q' => Parameter.Weakens (FromUnmarked config asked (.parameter q)) q q')
      (found.filterMap Input.parameter?) (found'.filterMap Input.parameter?) := by
  refine List.rel_filterMap ?_ h
  intro input input' hinput
  cases hinput with
  | parameter q required hq => exact .some ⟨rfl, hq⟩
  | field | body => exact .none

theorem weakens_fields :
    List.Forall₂ (fun f f' => FormField.Weakens (FromUnmarked config asked (.field f)) f f')
      (found.filterMap Input.field?) (found'.filterMap Input.field?) := by
  refine List.rel_filterMap ?_ h
  intro input input' hinput
  cases hinput with
  | field f required hf => exact .some ⟨rfl, hf⟩
  | parameter | body => exact .none

theorem weakens_bodies :
    List.Forall₂ (RequestBody.Weakens config asked)
      (found.filterMap Input.body?) (found'.filterMap Input.body?) := by
  refine List.rel_filterMap ?_ h
  intro input input' hinput
  cases hinput with
  | body b required hb =>
    refine .some ⟨rfl, rfl, rfl, ⟨hb.le, fun hne => .inl (hb.reason hne)⟩, ?_, ?_⟩
    · exact List.Sublist.refl _
    · exact fun _ hn => absurd rfl hn
  | parameter | field => exact .none

theorem weakens_assemble :
    Option.Rel (RequestBody.Weakens config asked)
      (assemble config found).body (assemble config found').body := by
  have hfields := weakens_fields h
  have hempty : (found'.filterMap Input.field?).isEmpty =
      (found.filterMap Input.field?).isEmpty := by
    rw [Bool.eq_iff_iff, List.isEmpty_iff_length_eq_zero, List.isEmpty_iff_length_eq_zero,
      hfields.length_eq]
  unfold assemble
  dsimp only
  rw [hempty]
  split
  · exact rel_getLast? (weakens_bodies h)
  · exact .some (weakens_formBody config hfields)

end Inputs

end Handler

open Handler in
structure Arguments.Weakens (config : Config) (m : Method) (hasContinuation : Bool)
    (asked asked' : List Asked) (off on : Arguments) : Prop where
  stemsOff : StemsFrom (config.withUnmarked false) m off hasContinuation asked
  stemsOn : StemsFrom (config.withUnmarked true) m on hasContinuation asked'
  inputs : List.Forall₂ (Asked.Weakens config) asked asked'
  parameters : List.Forall₂
    (fun q q' => Parameter.Weakens (FromUnmarked config asked (.parameter q)) q q')
    off.parameters on.parameters
  body : Option.Rel (RequestBody.Weakens config asked) off.body on.body

namespace Handler

open Loading

variable {config : Config} {isEnum : String → Loading Bool} {first : Loader} {m : Method}
  {hasContinuation : Bool}

theorem AskedAlike.arguments {asked asked' : List Asked}
    (hc : takesContinuation config m = .ok hasContinuation)
    (h : AskedAlike config m hasContinuation m.parameters asked asked') :
    Arguments.Weakens config m hasContinuation asked asked'
      (assemble config (asked.filterMap (·.input)))
      (assemble config (asked'.filterMap (·.input))) :=
  have hinputs := weakens_filterMap_input h.weakens
  { stemsOff := stemsFrom_of_askedOf hc h.off
    stemsOn := stemsFrom_of_askedOf hc h.on
    inputs := h.weakens
    parameters := weakens_parameters hinputs
    body := weakens_assemble hinputs }

theorem inStep_arguments (he : ∀ name, IsReporting (isEnum name)) (config : Config) (m : Method) :
    InStep first (fun off on => ∃ hasContinuation asked asked',
        Arguments.Weakens config m hasContinuation asked asked' off on)
      (arguments (config.withUnmarked false) isEnum m)
      (arguments (config.withUnmarked true) isEnum m) := by
  refine (isSearch_ofExcept _).onlyFinds.inStep_bind fun hasContinuation hc => ?_
  apply (inStep_inputs he m.parameters).bind
  rintro _ _ ⟨asked, asked', h, rfl, rfl⟩
  exact inStep_pure ⟨hasContinuation, asked, asked', h.arguments hc.eq_of_ofExcept⟩

end Handler

end JvmRoutes
