import JvmRoutes.Proofs.ClassFile.Locality
import JvmRoutes.Proofs.Log

/-! What decoders make of bytes, whatever messages they write. -/
namespace JvmRoutes.ClassFile

variable {α β : Type}

namespace Decoder

def silent (d : Decoder α) : ByteReader α := fun c => (d c).result

@[simp] theorem silent_pure (a : α) : silent (pure a) = pure a := rfl

@[simp] theorem silent_ofReader (r : ByteReader α) : silent (ofReader r) = r := rfl

@[simp] theorem silent_bind (d : Decoder α) (f : α → Decoder β) :
    silent (d >>= f) = d.silent >>= fun a => (f a).silent := by
  funext c
  exact Traced.result_andThen (d c) fun p => f p.1 p.2

@[simp] theorem silent_lift (x : Traced Fault α) :
    silent (liftM x : Decoder α) = (liftM x.result : ByteReader α) := by
  funext c
  exact Traced.result_andThen x fun a => pure (a, c)

/-- Made of readers, one after another, and of what comes with messages. -/
inductive IsSequence : {α : Type} → Decoder α → Prop
  | ofReader {α : Type} {r : ByteReader α} (h : r.IsSequence) : IsSequence (Decoder.ofReader r)
  | lift {α : Type} (x : Traced Fault α) : IsSequence (liftM x : Decoder α)
  | bind {α β : Type} {d : Decoder α} {f : α → Decoder β} (hd : IsSequence d)
    (hf : ∀ a, IsSequence (f a)) : IsSequence (d >>= f)

theorem isSequence_pure (a : α) : IsSequence (pure a) := .lift (pure a)

theorem IsSequence.silent {d : Decoder α} (h : d.IsSequence) : d.silent.IsSequence := by
  induction h with
  | ofReader h => exact h
  | lift x =>
    rw [silent_lift]
    exact .lift _
  | bind _ _ ihd ihf =>
    rw [silent_bind]
    exact ihd.bind ihf

/-- A decoder that succeeds writes the messages of its steps. -/
theorem bind_eq_iff {d : Decoder α} {f : α → Decoder β} {c last : Cursor}
    {messages : List Message} {b : β} :
    (d >>= f) c = ⟨messages, .ok (b, last)⟩ ↔ ∃ front a next back, d c = ⟨front, .ok (a, next)⟩ ∧
      f a next = ⟨back, .ok (b, last)⟩ ∧ messages = front ++ back := by
  change (d c >>= fun p => f p.1 p.2) = _ ↔ _
  rw [Traced.bind_eq_iff]
  simp only [Prod.exists]

theorem ofReader_bind_eq_iff {r : ByteReader α} {f : α → Decoder β} {c last : Cursor}
    {messages : List Message} {b : β} :
    (ofReader r >>= f) c = ⟨messages, .ok (b, last)⟩ ↔
      ∃ a next, r c = .ok (a, next) ∧ f a next = ⟨messages, .ok (b, last)⟩ := by
  change (Traced.ofExcept (r c) >>= fun p => f p.1 p.2) = _ ↔ _
  rw [Traced.ofExcept_bind_eq_iff]
  simp only [Prod.exists]

theorem lift_eq_iff {x : Traced Fault α} {c last : Cursor} {messages : List Message} {a : α} :
    (liftM x : Decoder α) c = ⟨messages, .ok (a, last)⟩ ↔ x = ⟨messages, .ok a⟩ ∧ c = last := by
  change (x >>= fun a => pure (a, c)) = _ ↔ _
  rw [Traced.bind_eq_iff]
  constructor
  · intro h
    obtain ⟨front, b, back, hx, hpure, rfl⟩ := h
    obtain ⟨rfl, heq⟩ := Traced.pure_eq_iff.1 hpure
    simp only [Prod.mk.injEq] at heq
    obtain ⟨rfl, rfl⟩ := heq
    rw [List.append_nil]
    exact ⟨hx, rfl⟩
  · intro h
    obtain ⟨hx, rfl⟩ := h
    exact ⟨messages, a, [], hx, rfl, (List.append_nil _).symm⟩

theorem lift_ofExcept_bind_eq_iff {x : Except Fault α} {f : α → Decoder β} {c last : Cursor}
    {messages : List Message} {b : β} :
    ((liftM (Traced.ofExcept x) : Decoder α) >>= f) c = ⟨messages, .ok (b, last)⟩ ↔
      ∃ a, x = .ok a ∧ f a c = ⟨messages, .ok (b, last)⟩ := by
  rw [← Traced.ofExcept_bind_eq_iff]
  cases x <;> rfl

theorem pure_eq_iff {c last : Cursor} {messages : List Message} {a b : α} :
    (pure a : Decoder α) c = ⟨messages, .ok (b, last)⟩ ↔ messages = [] ∧ a = b ∧ c = last := by
  have h : (pure a : Decoder α) c = pure (a, c) := rfl
  rw [h, Traced.pure_eq_iff, Prod.mk.injEq]

end Decoder

open Decoder

theorem silent_method (pool : ConstantPool) (owner : String) : (method pool owner).silent = (do
    let flags ← u2
    let name ← textRef pool
    let descriptor ← textRef pool
    let tables ← attributes pool
    liftM (methodOf pool owner flags name descriptor tables).result) := by
  simp only [method, silent_bind, silent_ofReader, silent_lift]

/-- Methods are read one after another. -/
theorem silent_methods (pool : ConstantPool) (owner : String) (count : Nat) :
    (methods pool owner count).silent = times count (method pool owner).silent := by
  induction count with
  | zero => rfl
  | succ count ih => simp only [methods, times, silent_bind, silent_pure, ih]

theorem silent_decoder (origin : String) : (decoder origin).silent = (do
    let h ← head origin
    let count ← u2
    let methods ← times count (method h.pool h.name).silent
    let tables ← attributes h.pool
    let visible ← liftM (tables.annotations h.pool true)
    let invisible ← liftM (tables.annotations h.pool false)
    let signature ← liftM (tables.signature? h.pool)
    return {
      name := h.name, superclass := h.superclass, methods, visible, invisible, flags := h.flags,
      signature, interfaces := h.interfaces }) := by
  simp only [decoder, silent_bind, silent_ofReader, silent_lift, silent_methods, silent_pure]
  rfl

/-- The result of a method, step by step. -/
theorem result_methodOf (pool : ConstantPool) (owner : String) (flags : Nat)
    (name descriptor : String) (tables : Attributes) :
    (methodOf pool owner flags name descriptor tables).result = (do
      let locals ← localVariables pool tables
      let visibleLists ← tables.parameterAnnotations pool true
      let invisibleLists ← tables.parameterAnnotations pool false
      let names ← (parameterNames pool owner name descriptor flags tables locals).result
      let signature ← tables.signature? pool
      let visible ← tables.annotations pool true
      let invisible ← tables.annotations pool false
      return {
        name, descriptor, signature, flags, locals, visible, invisible,
        parameters := formalParameters names visibleLists invisibleLists }) := by
  simp only [methodOf, Traced.result_andThen, Traced.result_ofExcept, Traced.result_pure]
  rfl

theorem result_decode (origin : String) (bytes : List UInt8) :
    (decode origin bytes).result = (decoder origin).silent.over bytes := by
  change (decoder origin { rest := bytes } >>= fun p => pure p.1).result = _
  rw [Traced.result_andThen, ByteReader.over, silent]
  cases (decoder origin { rest := bytes }).result <;> rfl

theorem head_of_origin {origin : String} {c c' : Cursor} {h : Head}
    (hh : head origin c = .ok (h, c')) (other : String) : head other c = .ok (h, c') := by
  unfold head at hh ⊢
  obtain ⟨number, c₁, hn, hh⟩ := ByteReader.bind_eq_ok.1 hh
  refine ByteReader.bind_eq_ok.2 ⟨number, c₁, hn, ?_⟩
  by_cases hm : number ≠ magic
  · rw [if_pos hm] at hh
    contradiction
  · rw [if_neg hm] at hh ⊢
    exact hh

theorem ByteReader.over_eq_ok {r : ByteReader α} {bytes : List UInt8} {a : α} :
    r.over bytes = .ok a ↔ ∃ last, r { rest := bytes } = .ok (a, last) := by
  unfold ByteReader.over
  cases r { rest := bytes } with
  | error f => simp [Except.map]
  | ok p => simp [Except.map, Prod.ext_iff]

theorem decode_eq_ok {origin : String} {bytes : List UInt8} {c : Class} :
    (decode origin bytes).result = .ok c ↔
      ∃ c', (decoder origin).silent { rest := bytes } = .ok (c, c') := by
  rw [result_decode, ByteReader.over_eq_ok]

/-- A class does not depend on where its bytes come from. -/
theorem decode_of_origin {origin : String} {bytes : List UInt8} {c : Class}
    (h : (decode origin bytes).result = .ok c) (other : String) :
    (decode other bytes).result = .ok c := by
  rw [decode_eq_ok, silent_decoder] at h ⊢
  obtain ⟨c', h⟩ := h
  obtain ⟨front, c₁, hf, h⟩ := ByteReader.bind_eq_ok.1 h
  exact ⟨c', ByteReader.bind_eq_ok.2 ⟨front, c₁, head_of_origin hf other, h⟩⟩

private theorem head_of_otherOrigin (origin other : String) (c : Cursor) :
    head origin c = head other c ∨
      head origin c = .error (.otherFormat origin) ∧ head other c = .error (.otherFormat other) := by
  have hhead : ∀ o, head o c = u4 c >>= fun p =>
      (if p.1 ≠ magic then throw (.otherFormat o) else _ : ByteReader Head) p.2 := fun o => rfl
  rw [hhead, hhead]
  cases u4 c with
  | error f => exact .inl rfl
  | ok p =>
    by_cases hm : p.1 ≠ magic
    · right
      simp only [bind, Except.bind, if_pos hm]
      exact ⟨rfl, rfl⟩
    · left
      simp only [bind, Except.bind, if_neg hm]

/-- Bytes fail in the same way wherever they come from, unless they are no class file at all. -/
theorem decode_of_otherOrigin (origin other : String) (bytes : List UInt8) :
    (decode origin bytes).result = (decode other bytes).result ∨
      (decode origin bytes).result = .error (.otherFormat origin) ∧
        (decode other bytes).result = .error (.otherFormat other) := by
  simp only [result_decode, silent_decoder, ByteReader.over]
  change Except.map _ (head origin _ >>= _) = Except.map _ (head other _ >>= _) ∨
    Except.map _ (head origin _ >>= _) = _ ∧ Except.map _ (head other _ >>= _) = _
  rcases head_of_otherOrigin origin other { rest := bytes } with h | ⟨h, h'⟩
  · rw [h]
    exact .inl rfl
  · rw [h, h']
    exact .inr ⟨rfl, rfl⟩

end JvmRoutes.ClassFile
