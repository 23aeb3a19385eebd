import JvmRoutes.ClassFile.Decode
import Mathlib.Data.List.Forall2
import Mathlib.Tactic.Ring

/-! Readers that take certain bytes for a value, whatever follows them. -/
namespace JvmRoutes.ClassFile

variable {α β : Type}

/-- A number in `size` bytes, the highest first. -/
def bigEndian : (size : Nat) → Nat → List UInt8
  | 0, _ => []
  | size + 1, n => UInt8.ofNat (n / 256 ^ size) :: bigEndian size n

@[simp] theorem length_bigEndian (size n : Nat) : (bigEndian size n).length = size := by
  induction size with
  | zero => rfl
  | succ size ih => simp [bigEndian, ih]

/-- Bytes spell what stands in front of the last one, and the last one. -/
theorem unsigned_foldl (bytes : List UInt8) (n : Nat) :
    bytes.foldl (fun n b => n * 256 + b.toNat) n = n * 256 ^ bytes.length + unsigned bytes := by
  induction bytes generalizing n with
  | nil => simp [unsigned]
  | cons b rest ih =>
    have h : unsigned (b :: rest) = b.toNat * 256 ^ rest.length + unsigned rest := by
      have := ih (0 * 256 + b.toNat)
      simpa [unsigned] using this
    rw [List.foldl_cons, ih, h, List.length_cons, pow_succ]
    ring

theorem unsigned_cons (b : UInt8) (rest : List UInt8) :
    unsigned (b :: rest) = b.toNat * 256 ^ rest.length + unsigned rest := by
  have := unsigned_foldl rest (0 * 256 + b.toNat)
  simpa [unsigned] using this

/-- A number is spelled by its bytes, as far as they have room for it. -/
theorem unsigned_bigEndian (size n : Nat) : unsigned (bigEndian size n) = n % 256 ^ size := by
  induction size with
  | zero => simp [bigEndian, unsigned, Nat.mod_one]
  | succ size ih =>
    have hb : (UInt8.ofNat (n / 256 ^ size)).toNat = n / 256 ^ size % 256 := by simp
    rw [bigEndian, unsigned_cons, hb, length_bigEndian, ih, pow_succ,
      Nat.mod_mul, mul_comm, add_comm]

/-- What does not fit into the bytes leaves no trace in them. -/
theorem bigEndian_add (size n m : Nat) : bigEndian size (m * 256 ^ size + n) = bigEndian size n := by
  induction size generalizing m n with
  | zero => rfl
  | succ size ih =>
    have hsplit : m * 256 ^ (size + 1) + n = m * 256 * 256 ^ size + n := by ring
    have hhead : (m * 256 * 256 ^ size + n) / 256 ^ size = m * 256 + n / 256 ^ size := by
      rw [Nat.add_comm, Nat.add_mul_div_right _ _ (Nat.pow_pos (by decide)), Nat.add_comm]
    rw [bigEndian, bigEndian, hsplit, ih, hhead]
    congr 1
    apply UInt8.toNat_inj.1
    simp

/-- Bytes are what the number that they spell is written with. -/
theorem bigEndian_unsigned (bytes : List UInt8) :
    bigEndian bytes.length (unsigned bytes) = bytes := by
  induction bytes with
  | nil => rfl
  | cons b rest ih =>
    have hlt : unsigned rest < 256 ^ rest.length := by
      rw [← ih, unsigned_bigEndian, length_bigEndian]
      exact Nat.mod_lt _ (Nat.pow_pos (by decide))
    have hdiv : (b.toNat * 256 ^ rest.length + unsigned rest) / 256 ^ rest.length = b.toNat := by
      rw [Nat.add_comm, Nat.add_mul_div_right _ _ (Nat.pow_pos (by decide)),
        Nat.div_eq_of_lt hlt, Nat.zero_add]
    rw [List.length_cons, bigEndian, unsigned_cons, hdiv, bigEndian_add, ih, UInt8.ofNat_toNat]

/-- Of a list related to another one, only its members matter. -/
theorem forall₂_imp_of_mem {α β : Type} {R S : α → β → Prop} {as : List α} {bs : List β}
    (h : List.Forall₂ R as bs) (hi : ∀ a ∈ as, ∀ b, R a b → S a b) : List.Forall₂ S as bs := by
  induction h with
  | nil => exact .nil
  | cons hab _ ih =>
    exact .cons (hi _ List.mem_cons_self _ hab) (ih fun a ha => hi a (List.mem_cons_of_mem _ ha))

namespace ByteReader

/-- The reader takes the bytes for the value, wherever they stand and whatever follows them. -/
def Reads (r : ByteReader α) (bytes : List UInt8) (a : α) : Prop :=
  ∀ offset rest, r ⟨offset, bytes ++ rest⟩ = .ok (a, ⟨offset + bytes.length, rest⟩)

theorem reads_pure (a : α) : Reads (pure a) [] a := fun _ _ => rfl

theorem reads_lift {x : Except Fault α} {a : α} (h : x = .ok a) :
    Reads (liftM x : ByteReader α) [] a := by
  subst h
  exact fun _ _ => rfl

theorem Reads.bind {r : ByteReader α} {f : α → ByteReader β} {front back : List UInt8} {a : α}
    {b : β} (hr : Reads r front a) (hf : Reads (f a) back b) :
    Reads (r >>= f) (front ++ back) b := by
  intro offset rest
  have h := hr offset (back ++ rest)
  have h' := hf (offset + front.length) rest
  rw [List.append_assoc, List.length_append, ← Nat.add_assoc, ← h']
  change (r ⟨offset, front ++ (back ++ rest)⟩ >>= fun p => f p.1 p.2) = _
  rw [h]
  rfl

/-- A reader in front of one that needs no bytes. -/
theorem Reads.andThen {r : ByteReader α} {f : α → ByteReader β} {bytes : List UInt8} {a : α}
    {b : β} (hr : Reads r bytes a) (hf : Reads (f a) [] b) : Reads (r >>= f) bytes b := by
  have h := hr.bind hf
  rwa [List.append_nil] at h

/-- The two parts of a reader in front of a third one. -/
theorem Reads.bindBoth {γ : Type} {r : ByteReader α} {f : α → ByteReader β} {g : β → ByteReader γ}
    {front back : List UInt8} {b : β} {c : γ} (hr : Reads (r >>= f) front b)
    (hg : Reads (g b) back c) : Reads (r >>= fun a => f a >>= g) (front ++ back) c := by
  rw [← bind_assoc]
  exact hr.bind hg

theorem reads_u1 (b : UInt8) : Reads u1 [b] b.toNat := fun _ _ => rfl

theorem reads_u1_bigEndian {n : Nat} (h : n < 256) : Reads u1 (bigEndian 1 n) n := by
  intro offset rest
  have hn : (UInt8.ofNat (n / 256 ^ 0)).toNat = n := by simpa using h
  change Except.ok (_, _) = _
  rw [hn]
  rfl

theorem reads_u2 {n : Nat} (h : n < 65536) : Reads u2 (bigEndian 2 n) n := by
  intro offset rest
  have hn : unsigned (bigEndian 2 n) = n := by
    rw [unsigned_bigEndian]
    exact Nat.mod_eq_of_lt h
  have hu : ∀ a b : UInt8, a.toNat * 256 + b.toNat = unsigned [a, b] := fun a b => by
    simp [unsigned]
  change Except.ok (_ * 256 + _, _) = _
  rw [hu]
  exact congrArg (fun m => Except.ok (m, _)) hn

theorem reads_u4 {n : Nat} (h : n < 2 ^ 32) : Reads u4 (bigEndian 4 n) n := by
  intro offset rest
  have hn : unsigned (bigEndian 4 n) = n := by
    rw [unsigned_bigEndian]
    exact Nat.mod_eq_of_lt h
  have hu : ∀ a b c d : UInt8,
      ((a.toNat * 256 + b.toNat) * 256 + c.toNat) * 256 + d.toNat = unsigned [a, b, c, d] :=
    fun a b c d => by simp [unsigned]
  change Except.ok (((_ * 256 + _) * 256 + _) * 256 + _, _) = _
  rw [hu]
  exact congrArg (fun m => Except.ok (m, _)) hn

theorem reads_take (bytes : List UInt8) : Reads (take bytes.length) bytes bytes := by
  intro offset rest
  simp [take]

theorem reads_skip {bytes : List UInt8} {size : Nat} (h : bytes.length = size) :
    Reads (skip size) bytes () := by
  subst h
  exact (reads_take bytes).andThen (reads_pure ())

/-- A reader used again and again takes one piece after another. -/
theorem reads_times {item : ByteReader α} {pieces : List (List UInt8)} {values : List α}
    (h : List.Forall₂ (Reads item) pieces values) :
    Reads (times values.length item) pieces.flatten values := by
  induction h with
  | nil => exact reads_pure []
  | cons hd _ ih => exact hd.bind (ih.andThen (reads_pure _))

theorem Reads.over_eq {r : ByteReader α} {bytes : List UInt8} {a : α} (h : Reads r bytes a) :
    r.over bytes = .ok a := by
  have h' := h 0 []
  rw [List.append_nil] at h'
  simp only [ByteReader.over, h']
  rfl

end ByteReader

end JvmRoutes.ClassFile
