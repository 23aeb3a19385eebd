import JvmRoutes.Proofs.Handler.Classification

/-!
The schema of a form that is put together from its fields. It has one property for each name, and
names the fields that must be given. Of fields with one name it names each, so that a name comes
there as often as it must be given.
-/
namespace JvmRoutes

namespace OrderedMap

variable {α : Type}

private theorem mem_keys_ofList {pairs : List (String × α)} {name : String} :
    name ∈ (ofList pairs).keys ↔ ∃ pair ∈ pairs, pair.1 = name := by
  rw [keys_ofList, List.mem_eraseDups, List.mem_map]

end OrderedMap

def Json.propertyNames (schema : Json) : List String :=
  match schema.field? "properties" with
  | some (.object properties) => properties.map (·.1)
  | _ => []

namespace Handler

open Loading

/-- A schema has the properties of a form with these fields, and names those that must be given. -/
structure IsFormOf (fields : List FormField) (schema : Json) : Prop where
  properties : ∀ name, name ∈ schema.propertyNames ↔ ∃ f ∈ fields, f.name = name
  nodup : schema.propertyNames.Nodup
  present : (schema.field? "required").isSome ↔ ∃ f ∈ fields, f.required = true
  list : ∀ names, schema.field? "required" = some names → names = .texts schema.requiredNames
  required : ∀ name, name ∈ schema.requiredNames ↔ ∃ f ∈ fields, f.required = true ∧ f.name = name
  nodup_required : schema.requiredNames.Nodup ↔
    fields.Pairwise fun f g => f.required = true → g.required = true → f.name ≠ g.name

variable {fields : List FormField}

private theorem propertyNames_formSchema (fields : List FormField) :
    (formSchema fields).propertyNames =
      (OrderedMap.ofList (fields.map fun f => (f.name, f.schema.toJson))).keys := rfl

theorem mem_requiredFields {name : String} :
    name ∈ requiredFields fields ↔ ∃ f ∈ fields, f.required = true ∧ f.name = name := by
  unfold requiredFields
  simp only [List.mem_map, List.mem_filter, and_assoc]

theorem nodup_requiredFields : (requiredFields fields).Nodup ↔
    fields.Pairwise fun f g => f.required = true → g.required = true → f.name ≠ g.name := by
  unfold requiredFields List.Nodup
  rw [List.pairwise_map, List.pairwise_filter]

private theorem field?_required_formSchema (fields : List FormField) :
    (formSchema fields).field? "required" =
      if (requiredFields fields).isEmpty then none else some (.texts (requiredFields fields)) := by
  change (Json.object (_ ++ if (requiredFields fields).isEmpty then []
    else [("required", .texts (requiredFields fields))])).field? "required" = _
  cases (requiredFields fields).isEmpty <;> rfl

private theorem isSome_required_formSchema (fields : List FormField) :
    ((formSchema fields).field? "required").isSome ↔ ∃ f ∈ fields, f.required = true := by
  rw [field?_required_formSchema]
  cases hnames : requiredFields fields with
  | nil =>
    simp only [List.isEmpty_nil, if_true, Option.isSome_none, Bool.false_eq_true, false_iff]
    intro h
    obtain ⟨f, hf, hrequired⟩ := h
    have hmem : f.name ∈ requiredFields fields := mem_requiredFields.2 ⟨f, hf, hrequired, rfl⟩
    rw [hnames] at hmem
    cases hmem
  | cons name rest =>
    simp only [List.isEmpty_cons, Bool.false_eq_true, if_false, Option.isSome_some, true_iff]
    have hmem : name ∈ requiredFields fields := by
      rw [hnames]
      exact List.mem_cons_self
    obtain ⟨f, hf, hrequired, -⟩ := mem_requiredFields.1 hmem
    exact ⟨f, hf, hrequired⟩

theorem isFormOf_formSchema (fields : List FormField) : IsFormOf fields (formSchema fields) := by
  constructor
  · intro name
    rw [propertyNames_formSchema, OrderedMap.mem_keys_ofList]
    constructor
    · intro h
      obtain ⟨pair, hpair, rfl⟩ := h
      obtain ⟨f, hf, rfl⟩ := List.mem_map.1 hpair
      exact ⟨f, hf, rfl⟩
    · intro h
      obtain ⟨f, hf, rfl⟩ := h
      exact ⟨_, List.mem_map.2 ⟨f, hf, rfl⟩, rfl⟩
  · rw [propertyNames_formSchema]
    exact OrderedMap.nodup_keys_ofList _
  · exact isSome_required_formSchema fields
  · intro names hnames
    rw [field?_required_formSchema] at hnames
    rw [requiredNames_formSchema]
    by_cases hempty : (requiredFields fields).isEmpty
    · rw [if_pos hempty] at hnames
      cases hnames
    · rw [if_neg hempty] at hnames
      exact (Option.some.inj hnames).symm
  · intro name
    rw [requiredNames_formSchema]
    exact mem_requiredFields
  · rw [requiredNames_formSchema]
    exact nodup_requiredFields

variable {config : Config} {isEnum : String → Loading Bool} {first last : Loader} {m : Method}
  {typed : List TypedFormal} {found : Arguments} {b : RequestBody} {schema : Json}

/-- Only the body of a form that is put together from its fields has a schema of its own. -/
theorem IsClassified.eq_schemaBody (h : IsClassified config isEnum first last typed fields found)
    (hb : found.body = some b) (hs : b.schema = some schema) : b = schemaBody config fields := by
  by_cases hnil : fields = []
  · rw [h.other hnil] at hb
    obtain ⟨x, -, rfl⟩ := Option.map_eq_some_iff.1 hb
    cases hs
  by_cases hlone : ∃ f, fields = [f] ∧ f.isBean = true
  · obtain ⟨f, hf, hbean⟩ := hlone
    rw [h.bean f hf hbean] at hb
    obtain rfl := Option.some.inj hb
    cases hs
  · have haggregate : ∀ f, fields = [f] → f.isBean = false := by
      intro f hf
      by_contra hbean
      exact hlone ⟨f, hf, Bool.eq_true_of_not_eq_false hbean⟩
    rw [h.aggregate hnil haggregate] at hb
    exact (Option.some.inj hb).symm

/-- The schema of the body of a method is that of a form with the fields that its formal parameters
ask for, and the body must be given if one of them must be. -/
theorem isFormOf_of_arguments {found : Arguments}
    (h : outcome (arguments config isEnum m) first = (.ok found, last))
    (hb : found.body = some b) (hs : b.schema = some schema) :
    ∃ hasContinuation typed fields, takesContinuation config m = .ok hasContinuation ∧
      AreTyped m hasContinuation m.parameters typed ∧
      FieldsOf config isEnum first (inputsAt config [.form] typed) fields last ∧
      IsFormOf fields schema ∧ (b.required = true ↔ (schema.field? "required").isSome) := by
  obtain ⟨hasContinuation, typed, fields, hc, htyped, hclassified⟩ := exists_isClassified h
  obtain rfl := hclassified.eq_schemaBody hb hs
  obtain rfl : formSchema fields = schema := Option.some.inj hs
  refine ⟨hasContinuation, typed, fields, hc, htyped, hclassified.form,
    isFormOf_formSchema fields, ?_⟩
  rw [isSome_required_formSchema]
  exact List.any_eq_true

def sameName : Method where
  name := "f"
  descriptor := "(II)V"
  parameters := [
    { name := "x"
      visible := [
        { typeName := "io.jooby.annotations.FormParam", values := ⟨[("value", .text "a")]⟩ }] },
    { name := "y"
      visible := [
        { typeName := "io.jooby.annotations.FormParam", values := ⟨[("value", .text "a")]⟩ }] }]
  locals := [{ name := "x", descriptor := "I" }, { name := "y", descriptor := "I" }]

private theorem exists_arguments_sameName : ∃ found last b schema,
    outcome (arguments {} noEnum sameName) { store := .ofClasses [] } = (.ok found, last) ∧
      found.body = some b ∧ b.schema = some schema ∧ schema.propertyNames = ["a"] ∧
      schema.requiredNames = ["a", "a"] := by
  have hview : (outcome (arguments {} noEnum sameName) { store := .ofClasses [] }).1.toOption.bind
      (fun found => (found.body.bind (·.schema)).map fun schema =>
        (schema.propertyNames, schema.requiredNames)) = some (["a"], ["a", "a"]) := by
    decide +kernel
  rcases hf : outcome (arguments {} noEnum sameName) { store := .ofClasses [] } with ⟨result, last⟩
  rw [hf] at hview
  cases result with
  | error fault => cases hview
  | ok found =>
    obtain ⟨schema, hschema, hnames⟩ := Option.map_eq_some_iff.1 hview
    obtain ⟨b, hb, hs⟩ := Option.bind_eq_some_iff.1 hschema
    obtain ⟨hproperties, hrequired⟩ := Prod.mk.inj hnames
    exact ⟨found, last, b, schema, rfl, hb, hs, hproperties, hrequired⟩

theorem isFormOf_of_arguments_sameName : ∃ found last b schema fields,
    outcome (arguments {} noEnum sameName) { store := .ofClasses [] } = (.ok found, last) ∧
      found.body = some b ∧ b.schema = some schema ∧ IsFormOf fields schema ∧
      schema.propertyNames = ["a"] ∧ schema.requiredNames = ["a", "a"] := by
  obtain ⟨found, last, b, schema, hfound, hb, hs, hproperties, hrequired⟩ :=
    exists_arguments_sameName
  obtain ⟨hasContinuation, typed, fields, -, -, -, hform, -⟩ := isFormOf_of_arguments hfound hb hs
  exact ⟨found, last, b, schema, fields, hfound, hb, hs, hform, hproperties, hrequired⟩

end Handler

end JvmRoutes
