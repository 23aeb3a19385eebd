import JvmRoutes.Proofs.Handler.Search
import JvmRoutes.Proofs.Loader.Results

/-!
What the formal parameters of a handler ask of a request, and which of them its inputs stem from.
-/
namespace JvmRoutes.Handler

open Loading Signature

variable {config : Config} {isEnum : String → Loading Bool} {first : Loader} {m : Method}
  {hasContinuation : Bool} {p : FormalParameter} {t : JavaType}

/-- The locations of inputs with a name of their own that are no form fields. -/
def namedLocations : List Location := [.header, .cookie, .path, .query]

/-- What a formal parameter of some type can ask of a request. -/
inductive Asks (config : Config) (p : FormalParameter) (t : JavaType) : Option Input → Prop
  | supplied (hs : isSupplied config t = true) : Asks config p t none
  | context (hl : p.location = .context) : Asks config p t none
  | body (hs : isSupplied config t = false) (hl : p.location = .body) :
    Asks config p t (some (.body
      { type := some t.render
        required := p.isRequired config t.render
        mediaType := config.bodyMediaType }))
  | field (hs : isSupplied config t = false) (hl : p.location = .form) (schema : Schema)
    (isBean : Bool) :
    Asks config p t (some (.field
      { name := p.inputName
        type := t.render
        schema
        required := p.isRequired config t.render
        isBean }))
  | parameter (hs : isSupplied config t = false) (hl : p.location ∈ namedLocations) :
    Asks config p t (some (.parameter
      { name := p.inputName
        type := t.render
        location := p.location
        required := p.isRequired config t.render }))

theorem asks_of_comesTo (he : ∀ name, IsReporting (isEnum name)) {input : Option Input}
    (h : ComesTo first (inputOfType config isEnum p t) input) : Asks config p t input := by
  unfold inputOfType at h
  cases hs : isSupplied config t with
  | true =>
    simp only [hs, if_true] at h
    obtain ⟨_, -, h⟩ := h.bind (isSearch_log _ _).onlyFinds
    obtain rfl := h.eq_of_pure
    exact .supplied hs
  | false =>
    simp only [hs, Bool.false_eq_true, if_false] at h
    -- the four locations of parameters differ in nothing else
    have hnamed : ∀ l, p.location = l → l ∈ namedLocations → Asks config p t (some (.parameter
        { name := p.inputName, type := t.render, location := l
          required := p.isRequired config t.render })) := by
      rintro l rfl hl
      exact .parameter hs hl
    cases hl : p.location with
    | context =>
      simp only [hl, Location.isExcluded, if_true] at h
      obtain rfl := h.eq_of_pure
      exact .context hl
    | body =>
      simp only [hl, Location.isExcluded, Bool.false_eq_true, if_false] at h
      obtain rfl := h.eq_of_pure
      exact .body hs hl
    | form =>
      simp only [hl, Location.isExcluded, Bool.false_eq_true, if_false] at h
      obtain ⟨schema, -, h⟩ := h.bind (Schema.isReporting_ofType he t).isSearch.onlyFinds
      obtain ⟨isBean, -, h⟩ := h.bind (Schema.isReporting_isBean he t).isSearch.onlyFinds
      obtain rfl := h.eq_of_pure
      exact .field hs hl schema isBean
    | header | cookie | path | query =>
      simp only [hl, Location.isExcluded, Bool.false_eq_true, if_false] at h
      obtain rfl := h.eq_of_pure
      exact hnamed _ hl (by decide)

/-- A formal parameter with its type and with what it asks of a request. -/
structure Asked where
  formal : FormalParameter
  type : JavaType
  input : Option Input

/-- Formal parameters of a method have these types and ask for these inputs. -/
inductive AskedOf (config : Config) (m : Method) (hasContinuation : Bool) :
    List FormalParameter → List Asked → Prop
  | nil : AskedOf config m hasContinuation [] []
  | cons {rest : List FormalParameter} {a : Asked} {others : List Asked}
    (htype : typeOf m a.formal (hasContinuation && rest.isEmpty) = .ok a.type)
    (hasks : Asks config a.formal a.type a.input)
    (hrest : AskedOf config m hasContinuation rest others) :
    AskedOf config m hasContinuation (a.formal :: rest) (a :: others)

theorem AskedOf.asks {parameters : List FormalParameter} {asked : List Asked}
    (h : AskedOf config m hasContinuation parameters asked) :
    ∀ a ∈ asked, Asks config a.formal a.type a.input := by
  induction h with
  | nil => exact nofun
  | cons _ hasks _ ih => exact List.forall_mem_cons.2 ⟨hasks, ih⟩

theorem exists_asked_of_inputs (he : ∀ name, IsReporting (isEnum name))
    {parameters : List FormalParameter} {found : List Input}
    (h : ComesTo first (inputs config isEnum m hasContinuation parameters) found) :
    ∃ asked : List Asked, AskedOf config m hasContinuation parameters asked ∧
      found = asked.filterMap (·.input) := by
  induction parameters generalizing found with
  | nil =>
    obtain rfl := h.eq_of_pure
    exact ⟨[], .nil, rfl⟩
  | cons p rest ih =>
    unfold inputs at h
    obtain ⟨t, ht, h⟩ := h.bind (isSearch_ofExcept _).onlyFinds
    obtain ⟨input, hinput, h⟩ := h.bind (isReporting_inputOfType he config p t).isSearch.onlyFinds
    obtain ⟨others, hothers, h⟩ :=
      h.bind (isReporting_inputs he config m hasContinuation rest).isSearch.onlyFinds
    obtain rfl := h.eq_of_pure
    obtain ⟨asked, hasked, rfl⟩ := ih hothers
    have hcons : AskedOf config m hasContinuation (p :: rest) (⟨p, t, input⟩ :: asked) :=
      .cons (a := ⟨p, t, input⟩) ht.eq_of_ofExcept (asks_of_comesTo he hinput) hasked
    refine ⟨_, hcons, ?_⟩
    cases input <;> rfl

theorem exists_asked_of_arguments (he : ∀ name, IsReporting (isEnum name)) {found : Arguments}
    (h : ComesTo first (arguments config isEnum m) found) :
    ∃ hasContinuation asked, takesContinuation config m = .ok hasContinuation ∧
      AskedOf config m hasContinuation m.parameters asked ∧
      found = assemble config (asked.filterMap (·.input)) := by
  unfold arguments at h
  obtain ⟨hasContinuation, hc, h⟩ := h.bind (isSearch_ofExcept _).onlyFinds
  obtain ⟨all, hall, h⟩ :=
    h.bind (isReporting_inputs he config m hasContinuation _).isSearch.onlyFinds
  obtain rfl := h.eq_of_pure
  obtain ⟨asked, hasked, rfl⟩ := exists_asked_of_inputs he hall
  exact ⟨hasContinuation, asked, hc.eq_of_ofExcept, hasked, rfl⟩

theorem isSupplied_eq_false_iff : isSupplied config t = false ↔
    t.render ∉ config.ignoredTypes ∧ t.erasure ≠ config.continuationType := by
  simp [isSupplied]

theorem Asks.eq_none {input : Option Input} (h : Asks config p t input)
    (hs : isSupplied config t = true) : input = none := by
  cases h with
  | supplied | context => rfl
  | body hf | field hf | parameter hf =>
    rw [hs] at hf
    contradiction

theorem Asks.isSupplied_eq_false {input : Input} (h : Asks config p t (some input)) :
    isSupplied config t = false := by
  cases hs : isSupplied config t with
  | false => rfl
  | true => exact absurd (h.eq_none hs) (Option.some_ne_none input)

theorem Asks.eq_of_parameter {q : Parameter} (h : Asks config p t (some (.parameter q))) :
    p.location ∈ namedLocations ∧ q =
      { name := p.inputName
        type := t.render
        location := p.location
        required := p.isRequired config t.render } := by
  cases h with
  | parameter hs hl => exact ⟨hl, rfl⟩

theorem isRequired_of_path {type : String} (h : p.location = .path) :
    p.isRequired config type = true := by
  simp [FormalParameter.isRequired, h, Location.alwaysRequired]

theorem isRequired_of_primitive {type : String} (h : type ∈ config.primitiveTypes) :
    p.isRequired config type = true := by
  simp [FormalParameter.isRequired, h]

/-- A parameter in the path or of a primitive type is required, whatever its annotations say. -/
theorem Asks.required {q : Parameter} (h : Asks config p t (some (.parameter q)))
    (hq : q.location = .path ∨ q.type ∈ config.primitiveTypes) : q.required = true := by
  obtain ⟨-, rfl⟩ := h.eq_of_parameter
  rcases hq with hpath | hprimitive
  · exact isRequired_of_path hpath
  · exact isRequired_of_primitive hprimitive

theorem Input.eq_of_parameter? {input : Input} {q : Parameter} (h : input.parameter? = some q) :
    input = .parameter q := by
  cases input with
  | parameter q' => rw [Option.some.inj h]
  | field f => contradiction
  | body b => contradiction

theorem Input.eq_of_field? {input : Input} {f : FormField} (h : input.field? = some f) :
    input = .field f := by
  cases input with
  | field f' => rw [Option.some.inj h]
  | parameter q => contradiction
  | body b => contradiction

theorem Input.eq_of_body? {input : Input} {b : RequestBody} (h : input.body? = some b) :
    input = .body b := by
  cases input with
  | body b' => rw [Option.some.inj h]
  | parameter q => contradiction
  | field f => contradiction

private theorem mem_of_mem_filterMap {α : Type} {f : Input → Option α} {g : α → Input}
    (hf : ∀ {input a}, f input = some a → input = g a) {all : List Input} {a : α}
    (h : a ∈ all.filterMap f) : g a ∈ all := by
  obtain ⟨input, hm, hi⟩ := List.mem_filterMap.1 h
  exact hf hi ▸ hm

private theorem eq_of_type_formBody {fields : List FormField} {type : String}
    (h : (formBody config fields).type = some type) : ∃ f ∈ fields, f.type = type := by
  unfold formBody at h
  split at h
  · rename_i f
    split at h
    · exact ⟨f, List.mem_singleton_self f, Option.some.inj h⟩
    · contradiction
  · contradiction

/-- A body of a type is a body among the inputs or stands for a form field of that type. -/
theorem exists_input_of_body {all : List Input} {b : RequestBody} {type : String}
    (h : (assemble config all).body = some b) (ht : b.type = some type) :
    .body b ∈ all ∨ ∃ f, .field f ∈ all ∧ f.type = type := by
  unfold assemble at h
  dsimp only at h
  split at h
  · have hm := List.mem_of_getLast? h
    exact .inl (mem_of_mem_filterMap Input.eq_of_body? hm)
  · obtain rfl := Option.some.inj h
    obtain ⟨f, hm, hf⟩ := eq_of_type_formBody ht
    exact .inr ⟨f, mem_of_mem_filterMap Input.eq_of_field? hm, hf⟩

/-- The inputs stem from formal parameters of a method. What the runtime supplies is none of them:
a parameter, or a body of a type, always goes back to a formal parameter of another type. -/
structure StemsFrom (config : Config) (m : Method) (inputs : Arguments) (hasContinuation : Bool)
    (asked : List Asked) : Prop where
  continuation : takesContinuation config m = .ok hasContinuation
  formals : AskedOf config m hasContinuation m.parameters asked
  inputs_eq : inputs = assemble config (asked.filterMap (·.input))
  supplied : ∀ a ∈ asked, a.type.render ∈ config.ignoredTypes ∨
    a.type.erasure = config.continuationType → a.input = none
  parameter : ∀ q ∈ inputs.parameters, ∃ a ∈ asked, a.input = some (.parameter q) ∧
    a.type.render ∉ config.ignoredTypes ∧ a.type.erasure ≠ config.continuationType
  body : ∀ b type, inputs.body = some b → b.type = some type → ∃ a ∈ asked,
    (a.input = some (.body b) ∨ ∃ f : FormField, a.input = some (.field f) ∧ f.type = type) ∧
      a.type.render ∉ config.ignoredTypes ∧ a.type.erasure ≠ config.continuationType

variable {asked : List Asked}

private theorem exists_asked_of_mem {input : Input} (h : input ∈ asked.filterMap (·.input)) :
    ∃ a ∈ asked, a.input = some input := List.mem_filterMap.1 h

theorem stemsFrom_of_askedOf (hc : takesContinuation config m = .ok hasContinuation)
    (h : AskedOf config m hasContinuation m.parameters asked) :
    StemsFrom config m (assemble config (asked.filterMap (·.input))) hasContinuation asked := by
  have hother : ∀ a ∈ asked, ∀ input, a.input = some input →
      a.type.render ∉ config.ignoredTypes ∧ a.type.erasure ≠ config.continuationType := by
    intro a ha input hi
    have hasks := h.asks a ha
    rw [hi] at hasks
    exact isSupplied_eq_false_iff.1 hasks.isSupplied_eq_false
  refine ⟨hc, h, rfl, ?_, ?_, ?_⟩
  · intro a ha hs
    cases hi : a.input with
    | none => rfl
    | some input =>
      obtain ⟨hrender, herasure⟩ := hother a ha input hi
      exact absurd hs (not_or.2 ⟨hrender, herasure⟩)
  · intro q hq
    obtain ⟨a, ha, hi⟩ := exists_asked_of_mem (mem_of_mem_filterMap Input.eq_of_parameter? hq)
    exact ⟨a, ha, hi, hother a ha _ hi⟩
  · intro b type hb ht
    rcases exists_input_of_body hb ht with hm | ⟨f, hm, hf⟩
    · obtain ⟨a, ha, hi⟩ := exists_asked_of_mem hm
      exact ⟨a, ha, .inl hi, hother a ha _ hi⟩
    · obtain ⟨a, ha, hi⟩ := exists_asked_of_mem hm
      exact ⟨a, ha, .inr ⟨f, hi, hf⟩, hother a ha _ hi⟩

end JvmRoutes.Handler
