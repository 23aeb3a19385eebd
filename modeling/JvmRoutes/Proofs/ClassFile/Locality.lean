import JvmRoutes.Proofs.ClassFile.PoolLayout

/-!
Readers see nothing but the bytes that they take. So a reader that fails does so behind bytes that
the readers in front of it take, whatever else there is.
-/
namespace JvmRoutes.ClassFile

variable {α β : Type}

/-- A failure where the format is not broken. -/
def EscapesWith (x : Except Fault α) (f : Fault) : Prop := x = .error f ∧ f.breaksFormat = false

theorem not_escapes_ok (a : α) (f : Fault) : ¬ EscapesWith (.ok a) f := by
  intro h
  obtain ⟨h, -⟩ := h
  cases h

theorem not_escapes_error {f : Fault} (hf : f.breaksFormat = true) (g : Fault) :
    ¬ EscapesWith (.error f : Except Fault α) g := by
  intro h
  obtain ⟨h, hg⟩ := h
  cases h
  rw [hf] at hg
  cases hg

theorem escapesWith_bind_iff {x : Except Fault α} {g : α → Except Fault β} {f : Fault} :
    EscapesWith (x >>= g) f ↔ EscapesWith x f ∨ ∃ a, x = .ok a ∧ EscapesWith (g a) f := by
  cases x with
  | error e => simp [EscapesWith, Bind.bind, Except.bind]
  | ok a => simp [EscapesWith, Bind.bind, Except.bind]

/-- A failure behind a result that breaks the format or is one. -/
theorem escapesWith_bind {x : Except Fault α} {g : α → Except Fault β} {f : Fault}
    (hx : ∀ f, ¬ EscapesWith x f) :
    EscapesWith (x >>= g) f ↔ ∃ a, x = .ok a ∧ EscapesWith (g a) f := by
  rw [escapesWith_bind_iff]
  exact or_iff_right (hx f)

namespace ByteReader

theorem bind_eq_ok {r : ByteReader α} {g : α → ByteReader β} {c c'' : Cursor} {b : β} :
    (r >>= g) c = .ok (b, c'') ↔ ∃ a c', r c = .ok (a, c') ∧ g a c' = .ok (b, c'') := by
  change (r c >>= fun p => g p.1 p.2) = _ ↔ _
  cases h : r c with
  | error f => simp [Bind.bind, Except.bind]
  | ok p => exact ⟨fun hb => ⟨p.1, p.2, rfl, hb⟩, fun ⟨a, c', ha, hb⟩ => by cases ha; exact hb⟩

theorem lift_eq_ok {x : Except Fault α} {c c' : Cursor} {a : α} :
    (liftM x : ByteReader α) c = .ok (a, c') ↔ c' = c ∧ x = .ok a := by
  cases x with
  | error f => exact iff_of_false (fun h => by cases h) fun h => by cases h.2
  | ok b =>
    constructor
    · intro h
      cases h
      exact ⟨rfl, rfl⟩
    · intro h
      obtain ⟨rfl, h⟩ := h
      cases h
      rfl

/-- What the reader makes of bytes depends on nothing but those that it takes. -/
def IsLocal (r : ByteReader α) : Prop :=
  ∀ c a c', r c = .ok (a, c') → ∃ bytes, c.rest = bytes ++ c'.rest ∧ Reads r bytes a

theorem isLocal_pure (a : α) : IsLocal (pure a) := by
  intro c b c' h
  cases h
  exact ⟨[], rfl, reads_pure a⟩

theorem isLocal_throw (f : Fault) : IsLocal (throw f : ByteReader α) := by
  intro c b c' h
  cases h

theorem isLocal_lift (x : Except Fault α) : IsLocal (liftM x : ByteReader α) := by
  cases x with
  | error f => exact isLocal_throw f
  | ok a => exact isLocal_pure a

theorem IsLocal.bind {r : ByteReader α} {g : α → ByteReader β} (hr : r.IsLocal)
    (hg : ∀ a, (g a).IsLocal) : (r >>= g).IsLocal := by
  intro c b c'' h
  obtain ⟨a, c', ha, hb⟩ := bind_eq_ok.1 h
  obtain ⟨front, hfront, hreads⟩ := hr c a c' ha
  obtain ⟨back, hback, hreads'⟩ := hg a c' b c'' hb
  exact ⟨front ++ back, by rw [hfront, hback, List.append_assoc], hreads.bind hreads'⟩

theorem isLocal_u1 : IsLocal u1 := by
  rintro ⟨offset, bytes⟩ a c' h
  unfold u1 at h
  split at h
  · rename_i b rest hb
    obtain rfl : bytes = b :: rest := hb
    cases h
    exact ⟨[b], rfl, reads_u1 b⟩
  · cases h

theorem isLocal_u2 : IsLocal u2 := by
  rintro ⟨offset, bytes⟩ a c' h
  unfold u2 at h
  split at h
  · rename_i b d rest hb
    obtain rfl : bytes = b :: d :: rest := hb
    cases h
    exact ⟨[b, d], rfl, fun _ _ => rfl⟩
  · cases h

theorem isLocal_u4 : IsLocal u4 := by
  rintro ⟨offset, bytes⟩ a c' h
  unfold u4 at h
  split at h
  · rename_i b d e g rest hb
    obtain rfl : bytes = b :: d :: e :: g :: rest := hb
    cases h
    exact ⟨[b, d, e, g], rfl, fun _ _ => rfl⟩
  · cases h

theorem isLocal_take (size : Nat) : IsLocal (take size) := by
  rintro ⟨offset, bytes⟩ a c' h
  simp only [take] at h
  split at h
  · rename_i hs
    cases h
    refine ⟨bytes.take size, (List.take_append_drop size bytes).symm, ?_⟩
    have := reads_take (bytes.take size)
    rwa [hs] at this
  · cases h

theorem IsLocal.times {item : ByteReader α} (h : item.IsLocal) (count : Nat) :
    IsLocal (times count item) := by
  induction count with
  | zero => exact isLocal_pure []
  | succ count ih => exact h.bind fun _ => ih.bind fun _ => isLocal_pure _

/-- Made of numbers and chunks that are read one after another. -/
inductive IsSequence : {α : Type} → ByteReader α → Prop
  | u1 : IsSequence ClassFile.u1
  | u2 : IsSequence ClassFile.u2
  | u4 : IsSequence ClassFile.u4
  | take (size : Nat) : IsSequence (ClassFile.take size)
  | lift {α : Type} (x : Except Fault α) : IsSequence (liftM x : ByteReader α)
  | bind {α β : Type} {r : ByteReader α} {g : α → ByteReader β} (hr : IsSequence r)
    (hg : ∀ a, IsSequence (g a)) : IsSequence (r >>= g)

theorem IsSequence.isLocal {r : ByteReader α} (h : r.IsSequence) : r.IsLocal := by
  induction h with
  | u1 => exact isLocal_u1
  | u2 => exact isLocal_u2
  | u4 => exact isLocal_u4
  | take size => exact isLocal_take size
  | lift x => exact isLocal_lift x
  | bind _ _ ihr ihg => exact ihr.bind ihg

theorem isSequence_pure (a : α) : IsSequence (pure a) := .lift (.ok a)

theorem isSequence_throw (f : Fault) : IsSequence (throw f : ByteReader α) := .lift (.error f)

theorem isSequence_skip (size : Nat) : IsSequence (skip size) :=
  (IsSequence.take size).bind fun _ => isSequence_pure _

theorem IsSequence.times {item : ByteReader α} (h : item.IsSequence) (count : Nat) :
    IsSequence (times count item) := by
  induction count with
  | zero => exact isSequence_pure []
  | succ count ih => exact h.bind fun _ => ih.bind fun _ => isSequence_pure _

theorem reads_u1_iff {bytes : List UInt8} {n : Nat} :
    Reads u1 bytes n ↔ ∃ b : UInt8, bytes = [b] ∧ n = b.toNat := by
  constructor
  · intro h
    have h' := h 0 []
    rw [List.append_nil] at h'
    unfold u1 at h'
    split at h'
    · rename_i b rest hb
      obtain rfl : bytes = b :: rest := hb
      simp only [Except.ok.injEq, Prod.mk.injEq, Cursor.mk.injEq] at h'
      obtain ⟨rfl, -, rfl⟩ := h'
      exact ⟨b, rfl, rfl⟩
    · cases h'
  · intro h
    obtain ⟨b, rfl, rfl⟩ := h
    exact reads_u1 b

theorem reads_u2_iff {bytes : List UInt8} {n : Nat} :
    Reads u2 bytes n ↔ ∃ i : UInt16, bytes = indexBytes i ∧ n = i.toNat := by
  constructor
  · intro h
    have h' := h 0 []
    rw [List.append_nil] at h'
    unfold u2 at h'
    split at h'
    · rename_i a b rest hb
      obtain rfl : bytes = a :: b :: rest := hb
      simp only [Except.ok.injEq, Prod.mk.injEq, Cursor.mk.injEq] at h'
      obtain ⟨rfl, -, rfl⟩ := h'
      have hlt : a.toNat * 256 + b.toNat < 65536 := by
        have := a.toNat_lt
        have := b.toNat_lt
        omega
      have hi : (UInt16.ofNat (a.toNat * 256 + b.toNat)).toNat = a.toNat * 256 + b.toNat := by
        simpa using hlt
      have hu : unsigned [a, b] = a.toNat * 256 + b.toNat := by simp [unsigned]
      refine ⟨UInt16.ofNat (a.toNat * 256 + b.toNat), ?_, hi.symm⟩
      rw [indexBytes, hi, ← hu]
      exact (bigEndian_unsigned [a, b]).symm
    · cases h'
  · intro h
    obtain ⟨i, rfl, rfl⟩ := h
    exact reads_index i

theorem reads_u4_iff {bytes : List UInt8} {n : Nat} :
    Reads u4 bytes n ↔ n < 2 ^ 32 ∧ bytes = bigEndian 4 n := by
  constructor
  · intro h
    have h' := h 0 []
    rw [List.append_nil] at h'
    unfold u4 at h'
    split at h'
    · rename_i a b d e rest hb
      obtain rfl : bytes = a :: b :: d :: e :: rest := hb
      simp only [Except.ok.injEq, Prod.mk.injEq, Cursor.mk.injEq] at h'
      obtain ⟨rfl, -, rfl⟩ := h'
      have hu : unsigned [a, b, d, e] =
          ((a.toNat * 256 + b.toNat) * 256 + d.toNat) * 256 + e.toNat := by simp [unsigned]
      rw [← hu]
      refine ⟨?_, (bigEndian_unsigned [a, b, d, e]).symm⟩
      have := a.toNat_lt
      have := b.toNat_lt
      have := d.toNat_lt
      have := e.toNat_lt
      omega
    · cases h'
  · intro h
    obtain ⟨h, rfl⟩ := h
    exact reads_u4 h

theorem reads_take_iff {bytes chunk : List UInt8} {size : Nat} :
    Reads (take size) bytes chunk ↔ bytes.length = size ∧ chunk = bytes := by
  constructor
  · intro h
    have h' := h 0 []
    simp only [List.append_nil, take] at h'
    split at h'
    · rename_i hs
      injection h' with h'
      injection h' with hchunk hcursor
      injection hcursor with hoffset hrest
      rw [List.drop_eq_nil_iff] at hrest
      rw [List.take_of_length_le hrest] at hs hchunk
      exact ⟨hs, hchunk.symm⟩
    · cases h'
  · intro h
    obtain ⟨rfl, rfl⟩ := h
    exact reads_take chunk

theorem reads_pure_iff {bytes : List UInt8} {a b : α} :
    Reads (pure a) bytes b ↔ bytes = [] ∧ b = a := by
  constructor
  · intro h
    obtain ⟨rfl, hc⟩ := Prod.mk.inj (Except.ok.inj (h 0 []))
    rw [List.append_nil] at hc
    exact ⟨(Cursor.mk.inj hc).2, rfl⟩
  · intro h
    obtain ⟨rfl, rfl⟩ := h
    exact reads_pure _

theorem reads_lift_iff {bytes : List UInt8} {x : Except Fault α} {a : α} :
    Reads (liftM x) bytes a ↔ bytes = [] ∧ x = .ok a := by
  cases x with
  | error f =>
    refine iff_of_false (fun h => ?_) (fun h => ?_)
    · have h' := h 0 []
      cases h'
    · cases h.2
  | ok b =>
    rw [Except.ok.injEq, eq_comm (a := b)]
    exact reads_pure_iff

/-- The parts of a reader take one part of the bytes each. -/
theorem reads_bind_iff {r : ByteReader α} {g : α → ByteReader β} (hr : r.IsLocal)
    (hg : ∀ a, (g a).IsLocal) {bytes : List UInt8} {b : β} :
    Reads (r >>= g) bytes b ↔
      ∃ front back a, bytes = front ++ back ∧ Reads r front a ∧ Reads (g a) back b := by
  constructor
  · intro h
    have h' := h 0 []
    rw [List.append_nil] at h'
    obtain ⟨a, c', ha, hb⟩ := bind_eq_ok.1 h'
    obtain ⟨front, hfront, hreads⟩ := hr _ _ _ ha
    obtain ⟨back, hback, hreads'⟩ := hg a _ _ _ hb
    rw [List.append_nil] at hback
    refine ⟨front, back, a, ?_, hreads, hreads'⟩
    rw [← hback]
    exact hfront
  · intro h
    obtain ⟨front, back, a, rfl, hreads, hreads'⟩ := h
    exact hreads.bind hreads'

/-- A reader used again and again takes a piece for each item. -/
theorem reads_times_iff {item : ByteReader α} (h : item.IsLocal) {count : Nat} {bytes : List UInt8}
    {items : List α} : Reads (times count item) bytes items ↔ ∃ pieces,
      bytes = pieces.flatten ∧ pieces.length = count ∧ List.Forall₂ (Reads item) pieces items := by
  induction count generalizing bytes items with
  | zero =>
    rw [times, reads_pure_iff]
    constructor
    · intro h
      obtain ⟨rfl, rfl⟩ := h
      exact ⟨[], rfl, rfl, .nil⟩
    · intro h
      obtain ⟨pieces, rfl, hlen, hp⟩ := h
      obtain rfl : pieces = [] := List.length_eq_zero_iff.1 hlen
      cases hp
      exact ⟨rfl, rfl⟩
  | succ count ih =>
    have hrest (a : α) : IsLocal (times count item >>= fun rest => pure (a :: rest)) :=
      (h.times count).bind fun _ => isLocal_pure _
    rw [times, reads_bind_iff h hrest]
    constructor
    · intro h
      obtain ⟨front, back, a, rfl, ha, hback⟩ := h
      rw [reads_bind_iff (h.times count) fun _ => isLocal_pure _] at hback
      obtain ⟨back, last, rest, rfl, hr, hlast⟩ := hback
      obtain ⟨rfl, rfl⟩ := reads_pure_iff.1 hlast
      obtain ⟨pieces, rfl, hlen, hp⟩ := ih.1 hr
      exact ⟨front :: pieces, by rw [List.append_nil, List.flatten_cons], congrArg (· + 1) hlen,
        .cons ha hp⟩
    · intro h
      obtain ⟨pieces, rfl, hlen, hp⟩ := h
      cases hp with
      | nil => cases hlen
      | @cons front a pieces items ha hp =>
        refine ⟨front, pieces.flatten, a, rfl, ha, ?_⟩
        exact (ih.2 ⟨pieces, rfl, Nat.succ.inj hlen, hp⟩).andThen (reads_pure _)

/-- A reader leaves no more bytes than there were. -/
theorem IsLocal.length_le {r : ByteReader α} (h : r.IsLocal) {c c' : Cursor} {a : α}
    (hc : r c = .ok (a, c')) : c'.rest.length ≤ c.rest.length := by
  obtain ⟨bytes, hb, -⟩ := h c a c' hc
  rw [hb, List.length_append]
  exact Nat.le_add_left _ _

theorem Reads.of_eq_ok {r : ByteReader α} (h : r.IsLocal) {offset : Nat} {bytes : List UInt8}
    {a : α} {c' : Cursor} (hc : r ⟨offset, bytes⟩ = .ok (a, c')) :
    ∃ front back, bytes = front ++ back ∧ Reads r front a ∧ c' = ⟨offset + front.length, back⟩ := by
  obtain ⟨front, hfront, hreads⟩ := h _ _ _ hc
  refine ⟨front, c'.rest, hfront, hreads, ?_⟩
  have hfront : bytes = front ++ c'.rest := hfront
  rw [hfront, hreads offset c'.rest] at hc
  exact (congrArg Prod.snd (Except.ok.inj hc)).symm

/-- The reader fails where the format is not broken. -/
def Escapes (r : ByteReader α) (c : Cursor) (f : Fault) : Prop := EscapesWith (r c) f

/-- The reader fails only where the format is broken. -/
def KeepsFormat (r : ByteReader α) : Prop := ∀ c f, ¬ r.Escapes c f

theorem escapes_over {r : ByteReader α} {bytes : List UInt8} {f : Fault} :
    EscapesWith (r.over bytes) f ↔ r.Escapes ⟨0, bytes⟩ f := by
  unfold Escapes EscapesWith ByteReader.over
  cases r ⟨0, bytes⟩ <;> simp [Except.map]

theorem escapes_lift {x : Except Fault α} {c : Cursor} {f : Fault} :
    Escapes (liftM x) c f ↔ EscapesWith x f := by
  cases x with
  | error e =>
    constructor <;>
    · intro h
      obtain ⟨h, hf⟩ := h
      cases h
      exact ⟨rfl, hf⟩
  | ok a => exact iff_of_false (not_escapes_ok _ f) (not_escapes_ok a f)

theorem escapes_bind_iff {r : ByteReader α} {g : α → ByteReader β} {c : Cursor} {f : Fault} :
    (r >>= g).Escapes c f ↔
      r.Escapes c f ∨ ∃ a c', r c = .ok (a, c') ∧ (g a).Escapes c' f := by
  change EscapesWith (r c >>= fun p => g p.1 p.2) f ↔ _
  rw [escapesWith_bind_iff, Prod.exists]
  rfl

theorem keepsFormat_pure (a : α) : KeepsFormat (pure a) := by
  rintro c f ⟨h, -⟩
  cases h

theorem keepsFormat_lift {x : Except Fault α} (h : ∀ f, ¬ EscapesWith x f) :
    KeepsFormat (liftM x : ByteReader α) := fun _ f hf => h f (escapes_lift.1 hf)

theorem keepsFormat_throw {f : Fault} (hf : f.breaksFormat = true) :
    KeepsFormat (throw f : ByteReader α) := keepsFormat_lift (not_escapes_error hf)

theorem KeepsFormat.bind {r : ByteReader α} {g : α → ByteReader β} (hr : r.KeepsFormat)
    (hg : ∀ a, (g a).KeepsFormat) : (r >>= g).KeepsFormat := by
  intro c f h
  obtain h | ⟨a, c', -, h⟩ := escapes_bind_iff.1 h
  · exact hr c f h
  · exact hg a c' f h

theorem keepsFormat_u1 : KeepsFormat u1 := by
  rintro c f ⟨h, hf⟩
  unfold u1 at h
  split at h <;> cases h
  cases hf

theorem keepsFormat_u2 : KeepsFormat u2 := by
  rintro c f ⟨h, hf⟩
  unfold u2 at h
  split at h <;> cases h
  cases hf

theorem keepsFormat_u4 : KeepsFormat u4 := by
  rintro c f ⟨h, hf⟩
  unfold u4 at h
  split at h <;> cases h
  cases hf

theorem keepsFormat_take (size : Nat) : KeepsFormat (take size) := by
  rintro c f ⟨h, hf⟩
  simp only [take] at h
  split at h <;> cases h
  cases hf

theorem keepsFormat_skip (size : Nat) : KeepsFormat (skip size) :=
  (keepsFormat_take size).bind fun _ => keepsFormat_pure _

theorem KeepsFormat.times {item : ByteReader α} (h : item.KeepsFormat) (count : Nat) :
    KeepsFormat (times count item) := by
  induction count with
  | zero => exact keepsFormat_pure []
  | succ count ih => exact h.bind fun _ => ih.bind fun _ => keepsFormat_pure _

/-- In front of a reader that keeps the format, another one escapes where it does so alone. -/
theorem escapes_bind_left {r : ByteReader α} {g : α → ByteReader β}
    (hg : ∀ a, (g a).KeepsFormat) {c : Cursor} {f : Fault} :
    (r >>= g).Escapes c f ↔ r.Escapes c f := by
  rw [escapes_bind_iff]
  refine ⟨fun h => h.resolve_right ?_, Or.inl⟩
  intro h
  obtain ⟨a, c', -, h⟩ := h
  exact hg a c' f h

/-- Behind a reader that keeps the format, another one escapes from the bytes that are left. -/
theorem escapes_bind {r : ByteReader α} {g : α → ByteReader β} (hl : r.IsLocal)
    (hk : r.KeepsFormat) {offset : Nat} {bytes : List UInt8} {f : Fault} :
    (r >>= g).Escapes ⟨offset, bytes⟩ f ↔ ∃ front back a, bytes = front ++ back ∧
      r.Reads front a ∧ (g a).Escapes ⟨offset + front.length, back⟩ f := by
  rw [escapes_bind_iff]
  constructor
  · intro h
    rcases h with h | ⟨a, c', ha, h⟩
    · exact absurd h (hk _ _)
    · obtain ⟨front, back, rfl, hreads, rfl⟩ := Reads.of_eq_ok hl ha
      exact ⟨front, back, a, rfl, hreads, h⟩
  · intro h
    obtain ⟨front, back, a, rfl, hreads, h⟩ := h
    exact Or.inr ⟨a, _, hreads offset back, h⟩

theorem escapes_u1 {g : Nat → ByteReader α} {offset : Nat} {bytes : List UInt8}
    {f : Fault} : (u1 >>= g).Escapes ⟨offset, bytes⟩ f ↔ ∃ (b : UInt8) (rest : List UInt8),
      bytes = b :: rest ∧ (g b.toNat).Escapes ⟨offset + 1, rest⟩ f := by
  rw [escapes_bind isLocal_u1 keepsFormat_u1]
  constructor
  · intro h
    obtain ⟨front, back, n, rfl, hn, h⟩ := h
    obtain ⟨b, rfl, rfl⟩ := reads_u1_iff.1 hn
    exact ⟨b, back, rfl, h⟩
  · intro h
    obtain ⟨b, rest, rfl, h⟩ := h
    exact ⟨[b], rest, _, rfl, reads_u1 b, h⟩

theorem escapes_u2 {g : Nat → ByteReader α} {offset : Nat} {bytes : List UInt8}
    {f : Fault} : (u2 >>= g).Escapes ⟨offset, bytes⟩ f ↔ ∃ (i : UInt16) (rest : List UInt8),
      bytes = indexBytes i ++ rest ∧
        (g i.toNat).Escapes ⟨offset + (indexBytes i).length, rest⟩ f := by
  rw [escapes_bind isLocal_u2 keepsFormat_u2]
  constructor
  · intro h
    obtain ⟨front, back, n, rfl, hn, h⟩ := h
    obtain ⟨i, rfl, rfl⟩ := reads_u2_iff.1 hn
    exact ⟨i, back, rfl, h⟩
  · intro h
    obtain ⟨i, rest, rfl, h⟩ := h
    exact ⟨_, rest, _, rfl, reads_index i, h⟩

/-- Behind items that are read, and fewer than there should be, the bytes miss one. -/
inductive ItemMisses (item : ByteReader α) (Misses : List UInt8 → Fault → Prop) :
    (count : Nat) → List UInt8 → Fault → Prop
  | mk {pieces : List (List UInt8)} {items : List α} {count : Nat} {bytes : List UInt8} {f : Fault}
    (hp : List.Forall₂ (Reads item) pieces items) (hlt : pieces.length < count)
    (h : Misses bytes f) : ItemMisses item Misses count (pieces.flatten ++ bytes) f

private theorem itemMisses_succ_iff {item : ByteReader α} {Misses : List UInt8 → Fault → Prop}
    {count : Nat} {bytes : List UInt8} {f : Fault} :
    ItemMisses item Misses (count + 1) bytes f ↔ Misses bytes f ∨
      ∃ front back a, bytes = front ++ back ∧ Reads item front a ∧
        ItemMisses item Misses count back f := by
  constructor
  · intro h
    obtain ⟨hp, hlt, h⟩ := h
    cases hp with
    | nil => exact Or.inl h
    | cons ha hp =>
      exact Or.inr ⟨_, _, _, List.append_assoc _ _ _, ha, hp, Nat.lt_of_succ_lt_succ hlt, h⟩
  · intro h
    rcases h with h | ⟨front, back, a, rfl, ha, hp, hlt, h⟩
    · exact ItemMisses.mk .nil (Nat.succ_pos _) h
    · rw [← List.append_assoc]
      exact ItemMisses.mk (.cons ha hp) (Nat.succ_lt_succ hlt) h

/-- A reader of many items escapes from one of them. -/
theorem escapes_times {item : ByteReader α} {Misses : List UInt8 → Fault → Prop} (hl : item.IsLocal)
    {bytes : List UInt8} {f : Fault} (h : ∀ offset rest, rest.length ≤ bytes.length →
      (item.Escapes ⟨offset, rest⟩ f ↔ Misses rest f)) (offset count : Nat) :
    (times count item).Escapes ⟨offset, bytes⟩ f ↔ ItemMisses item Misses count bytes f := by
  induction count generalizing offset bytes with
  | zero =>
    refine ⟨fun he => absurd he (keepsFormat_pure [] _ _), fun hi => ?_⟩
    obtain ⟨-, hlt, -⟩ := hi
    exact absurd hlt (Nat.not_lt_zero _)
  | succ count ih =>
    have htail {back : List UInt8} (hb : back.length ≤ bytes.length) (offset : Nat) (a : α) :
        (times count item >>= fun rest => pure (a :: rest)).Escapes ⟨offset, back⟩ f ↔
          ItemMisses item Misses count back f := by
      rw [escapes_bind_left fun _ => keepsFormat_pure _]
      exact ih (fun offset rest hr => h offset rest (hr.trans hb)) offset
    rw [itemMisses_succ_iff, times, escapes_bind_iff, h offset bytes le_rfl]
    refine or_congr Iff.rfl ⟨?_, ?_⟩
    · intro h
      obtain ⟨a, c', ha, he⟩ := h
      obtain ⟨front, back, rfl, hreads, rfl⟩ := Reads.of_eq_ok hl ha
      exact ⟨front, back, a, rfl, hreads, (htail (by simp) _ a).1 he⟩
    · intro h
      obtain ⟨front, back, a, rfl, hreads, hm⟩ := h
      exact ⟨a, _, hreads offset back, (htail (by simp) _ a).2 hm⟩

end ByteReader

end JvmRoutes.ClassFile
