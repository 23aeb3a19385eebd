import JvmRoutes.Log
import Mathlib.Data.List.Forall2

/-! What becomes of results and failures, whatever messages come with them. -/
namespace JvmRoutes

variable {ε α β : Type}

/-- A sequence succeeds exactly when both of its steps do. -/
theorem bind_eq_ok_iff {x : Except ε α} {f : α → Except ε β} {b : β} :
    x >>= f = .ok b ↔ ∃ a, x = .ok a ∧ f a = .ok b := by
  cases x with
  | error e =>
    constructor
    · intro h
      contradiction
    · intro h
      obtain ⟨a, h, -⟩ := h
      contradiction
  | ok a =>
    constructor
    · intro h
      exact ⟨a, rfl, h⟩
    · intro h
      obtain ⟨a', h, hf⟩ := h
      obtain rfl := Except.ok.inj h
      exact hf

theorem bind_eq_error_iff {x : Except ε α} {f : α → Except ε β} {e : ε} :
    x >>= f = .error e ↔ x = .error e ∨ ∃ a, x = .ok a ∧ f a = .error e := by
  cases x <;> simp [bind, Except.bind]

theorem map_eq_error_iff {x : Except ε α} {f : α → β} {e : ε} :
    x.map f = .error e ↔ x = .error e := by
  cases x <;> simp [Except.map]

theorem mapError_eq_ok_iff {ε' : Type} {g : ε → ε'} {x : Except ε α} {a : α} :
    x.mapError g = .ok a ↔ x = .ok a := by
  cases x <;> simp [Except.mapError]

theorem mapError_eq_error_iff {ε' : Type} {g : ε → ε'} {x : Except ε α} {e' : ε'} :
    x.mapError g = .error e' ↔ ∃ e, x = .error e ∧ g e = e' := by
  cases x <;> simp [Except.mapError]

/-- A list goes through exactly when each of its items does. -/
theorem mapM_eq_ok_iff {f : α → Except ε β} {as : List α} {bs : List β} :
    as.mapM f = .ok bs ↔ List.Forall₂ (fun a b => f a = .ok b) as bs := by
  induction as generalizing bs with
  | nil => cases bs <;> simp [pure, Except.pure]
  | cons a rest ih =>
    rw [List.mapM_cons, bind_eq_ok_iff, List.forall₂_cons_left_iff]
    constructor
    · rintro ⟨b, hb, h⟩
      obtain ⟨others, hrest, h⟩ := bind_eq_ok_iff.1 h
      obtain rfl := Except.ok.inj h
      exact ⟨b, others, hb, ih.1 hrest, rfl⟩
    · rintro ⟨b, others, hb, hrest, rfl⟩
      exact ⟨b, hb, bind_eq_ok_iff.2 ⟨others, ih.2 hrest, rfl⟩⟩

/-- Lists that are related item by item are related at each position. -/
theorem rel_getElem? {R : α → β → Prop} {as : List α} {bs : List β} (h : List.Forall₂ R as bs)
    (i : Nat) : Option.Rel R as[i]? bs[i]? := by
  induction h generalizing i with
  | nil => exact .none
  | cons hab _ ih =>
    cases i with
    | zero => exact .some hab
    | succ i => exact ih i

namespace Traced

theorem result_bind {x : Traced ε α} {a : α} (h : x.result = .ok a) (f : α → Traced ε β) :
    (x >>= f).result = (f a).result := by
  change (x.andThen f).result = _
  rw [andThen, h]

theorem result_bind_error {x : Traced ε α} {e : ε} (h : x.result = .error e)
    (f : α → Traced ε β) : (x >>= f).result = .error e := by
  change (x.andThen f).result = _
  rw [andThen, h]

@[simp] theorem result_andThen (x : Traced ε α) (f : α → Traced ε β) :
    (x >>= f).result = x.result >>= fun a => (f a).result := by
  cases h : x.result with
  | error e => exact result_bind_error h f
  | ok a => exact result_bind h f

@[simp] theorem result_ofExcept (x : Except ε α) : (ofExcept x).result = x := rfl

@[simp] theorem result_pure (a : α) : (pure a : Traced ε α).result = .ok a := rfl

/-- A sequence that succeeds writes the messages of its steps. -/
theorem bind_eq_iff {x : Traced ε α} {f : α → Traced ε β} {messages : List Message} {b : β} :
    x >>= f = ⟨messages, .ok b⟩ ↔ ∃ front a back, x = ⟨front, .ok a⟩ ∧ f a = ⟨back, .ok b⟩ ∧
      messages = front ++ back := by
  obtain ⟨front, result⟩ := x
  change andThen _ f = _ ↔ _
  cases result with
  | error e => simp [andThen]
  | ok a =>
    rcases h : f a with ⟨back, result⟩
    constructor
    · intro heq
      simp only [andThen, h, mk.injEq] at heq
      obtain ⟨rfl, rfl⟩ := heq
      exact ⟨front, a, back, rfl, h, rfl⟩
    · intro heq
      obtain ⟨front', a', back', hx, hf, rfl⟩ := heq
      simp only [mk.injEq, Except.ok.injEq] at hx
      obtain ⟨rfl, rfl⟩ := hx
      simp only [andThen, hf]

theorem ofExcept_eq_iff {x : Except ε α} {messages : List Message} {a : α} :
    ofExcept x = ⟨messages, .ok a⟩ ↔ messages = [] ∧ x = .ok a := by
  simp [ofExcept, eq_comm]

theorem pure_eq_iff {messages : List Message} {a b : α} :
    (pure a : Traced ε α) = ⟨messages, .ok b⟩ ↔ messages = [] ∧ a = b := by
  have h : (pure a : Traced ε α) = ofExcept (.ok a) := rfl
  rw [h, ofExcept_eq_iff, Except.ok.injEq]

/-- A step without messages leaves those of the steps behind it. -/
theorem ofExcept_bind_eq_iff {x : Except ε α} {f : α → Traced ε β} {messages : List Message}
    {b : β} :
    ofExcept x >>= f = ⟨messages, .ok b⟩ ↔ ∃ a, x = .ok a ∧ f a = ⟨messages, .ok b⟩ := by
  rw [bind_eq_iff]
  constructor
  · intro h
    obtain ⟨front, a, back, hx, hf, rfl⟩ := h
    obtain ⟨rfl, ha⟩ := ofExcept_eq_iff.1 hx
    exact ⟨a, ha, hf⟩
  · intro h
    obtain ⟨a, hx, hf⟩ := h
    exact ⟨[], a, messages, ofExcept_eq_iff.2 ⟨rfl, hx⟩, hf, rfl⟩

end Traced

end JvmRoutes
