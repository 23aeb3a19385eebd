import JvmRoutes.Proofs.ClassFile.Locality

/-!
Where the constants of a class file fail although the format is not broken: at a text that has no
characters.
-/
namespace JvmRoutes.ClassFile

open ByteReader

/-- Behind constants that are read, with indices from `index` on, a text has no characters, and is
one of the next `count` indices. -/
inductive TextMisses : (index count : Nat) → List UInt8 → Prop
  | here {index count : Nat} {raw rest : List UInt8} (hc : 0 < count) (hl : raw.length < 65536)
    (h : Text.ModifiedUtf8.decode? raw = none) :
    TextMisses index count (1 :: (bigEndian 2 raw.length ++ (raw ++ rest)))
  | behind {index count : Nat} {k : Constant} {front rest : List UInt8}
    (hk : Reads (constant index) front k)
    (h : TextMisses (index + k.width) (count - k.width) rest) :
    TextMisses index count (front ++ rest)

theorem TextMisses.pos {index count : Nat} {bytes : List UInt8} (h : TextMisses index count bytes) :
    0 < count := by
  induction h with
  | here hc => exact hc
  | behind _ _ ih => omega

theorem isSequence_textOf (raw : List UInt8) : IsSequence (textOf raw) := by
  unfold textOf
  split
  · exact isSequence_pure _
  · exact isSequence_throw _

theorem isSequence_constantBody (tag index : Nat) : IsSequence (constantBody tag index) := by
  unfold constantBody
  split
  · exact IsSequence.u2.bind fun _ => (IsSequence.take _).bind fun _ =>
      (isSequence_textOf _).bind fun _ => isSequence_pure _
  iterate 4 exact (IsSequence.take _).bind fun _ => isSequence_pure _
  iterate 2 exact IsSequence.u2.bind fun _ => isSequence_pure _
  · split
    · exact (isSequence_skip _).bind fun _ => isSequence_pure _
    · exact isSequence_throw _

theorem isSequence_constant (index : Nat) : IsSequence (constant index) :=
  IsSequence.u1.bind fun _ => isSequence_constantBody _ index

theorem isSequence_constants (index : Nat) (afterWide : Bool) (count : Nat) :
    IsSequence (constants index afterWide count) := by
  induction count generalizing index afterWide with
  | zero => exact isSequence_pure []
  | succ count ih =>
    cases afterWide with
    | false =>
      exact (isSequence_constant index).bind fun _ => (ih _ _).bind fun _ => isSequence_pure _
    | true => exact (ih _ _).bind fun _ => isSequence_pure _

theorem isSequence_pool : IsSequence ConstantPool.read :=
  IsSequence.u2.bind fun _ => (isSequence_constants _ _ _).bind fun _ => isSequence_pure _

theorem escapes_textOf {raw : List UInt8} {c : Cursor} {f : Fault} :
    (textOf raw).Escapes c f ↔ Text.ModifiedUtf8.decode? raw = none ∧ f = .malformedText := by
  unfold textOf
  split
  · rename_i cs h
    exact iff_of_false (keepsFormat_pure _ _ _) (by simp [h])
  · rename_i h
    rw [and_iff_right h]
    constructor
    · intro h
      obtain ⟨hf, -⟩ := h
      cases hf
      rfl
    · rintro rfl
      exact ⟨rfl, rfl⟩

theorem escapes_text {offset : Nat} {bytes : List UInt8} {f : Fault} :
    ByteReader.Escapes (do return Constant.text (← textOf (← take (← u2)))) ⟨offset, bytes⟩ f ↔
      f = .malformedText ∧ ∃ raw rest : List UInt8, raw.length < 65536 ∧
        Text.ModifiedUtf8.decode? raw = none ∧ bytes = bigEndian 2 raw.length ++ (raw ++ rest) := by
  rw [escapes_u2]
  constructor
  · intro h
    obtain ⟨i, rest, rfl, h⟩ := h
    rw [escapes_bind (isLocal_take _) (keepsFormat_take _)] at h
    obtain ⟨front, back, raw, rfl, hraw, h⟩ := h
    rw [escapes_bind_left fun _ => keepsFormat_pure _, escapes_textOf] at h
    obtain ⟨hlen, rfl⟩ := reads_take_iff.1 hraw
    refine ⟨h.2, raw, back, hlen ▸ i.toNat_lt, h.1, ?_⟩
    rw [indexBytes, hlen]
  · intro h
    obtain ⟨rfl, raw, rest, hl, h, rfl⟩ := h
    have hi : (UInt16.ofNat raw.length).toNat = raw.length := by simpa using hl
    refine ⟨UInt16.ofNat raw.length, raw ++ rest, by rw [indexBytes, hi], ?_⟩
    rw [escapes_bind (isLocal_take _) (keepsFormat_take _)]
    refine ⟨raw, rest, raw, rfl, reads_take_iff.2 ⟨hi.symm, rfl⟩, ?_⟩
    rw [escapes_bind_left fun _ => keepsFormat_pure _, escapes_textOf]
    exact ⟨h, rfl⟩

theorem escapes_constantBody {tag index offset : Nat} {bytes : List UInt8} {f : Fault} :
    (constantBody tag index).Escapes ⟨offset, bytes⟩ f ↔ tag = 1 ∧ f = .malformedText ∧
      ∃ raw rest : List UInt8, raw.length < 65536 ∧ Text.ModifiedUtf8.decode? raw = none ∧
        bytes = bigEndian 2 raw.length ++ (raw ++ rest) := by
  unfold constantBody
  split
  · rw [and_iff_right rfl]
    exact escapes_text
  iterate 4
    exact iff_of_false ((keepsFormat_take _).bind (fun _ => keepsFormat_pure _) _ _) (by simp)
  iterate 2
    exact iff_of_false (keepsFormat_u2.bind (fun _ => keepsFormat_pure _) _ _) (by simp)
  · rename_i hne _ _ _ _ _ _
    refine iff_of_false ?_ fun h => hne h.1
    split
    · exact (keepsFormat_skip _).bind (fun _ => keepsFormat_pure _) _ _
    · exact keepsFormat_throw rfl _ _

theorem escapes_constant {index offset : Nat} {bytes : List UInt8} {f : Fault} :
    (constant index).Escapes ⟨offset, bytes⟩ f ↔ f = .malformedText ∧
      ∃ raw rest : List UInt8, raw.length < 65536 ∧ Text.ModifiedUtf8.decode? raw = none ∧
        bytes = 1 :: (bigEndian 2 raw.length ++ (raw ++ rest)) := by
  rw [constant, escapes_u1]
  constructor
  · intro h
    obtain ⟨b, rest, rfl, h⟩ := h
    obtain ⟨hb, rfl, raw, rest, hl, hd, rfl⟩ := escapes_constantBody.1 h
    obtain rfl : b = 1 := UInt8.toNat_inj.1 hb
    exact ⟨rfl, raw, rest, hl, hd, rfl⟩
  · intro h
    obtain ⟨rfl, raw, rest, hl, hd, rfl⟩ := h
    exact ⟨1, _, rfl, escapes_constantBody.2 ⟨rfl, rfl, raw, rest, hl, hd, rfl⟩⟩

/-- Constants escape from their bytes at the first text that has no characters. -/
theorem escapes_constants {f : Fault} (count : Nat) : ∀ (index offset : Nat) (bytes : List UInt8),
    ((constants index false count).Escapes ⟨offset, bytes⟩ f ↔
      f = .malformedText ∧ TextMisses index count bytes) ∧
    ((constants index true count).Escapes ⟨offset, bytes⟩ f ↔
      f = .malformedText ∧ TextMisses (index + 1) (count - 1) bytes) := by
  induction count with
  | zero =>
    refine fun index offset bytes => ⟨?_, ?_⟩ <;>
    exact iff_of_false (keepsFormat_pure [] _ _) fun h => absurd h.2.pos (Nat.not_lt_zero _)
  | succ count ih =>
    intro index offset bytes
    constructor
    · have htail (k : Constant) (offset : Nat) (rest : List UInt8) :
          (constants (index + 1) k.isWide count >>= fun tail => pure (some k :: tail)).Escapes
              ⟨offset, rest⟩ f ↔
            f = .malformedText ∧ TextMisses (index + k.width) (count + 1 - k.width) rest := by
        rw [escapes_bind_left fun _ => keepsFormat_pure _, Constant.width]
        cases k.isWide with
        | false => exact (ih (index + 1) offset rest).1
        | true => exact (ih (index + 1) offset rest).2
      rw [constants, if_neg Bool.false_ne_true, escapes_bind_iff, escapes_constant]
      constructor
      · intro h
        rcases h with ⟨rfl, raw, rest, hl, hd, rfl⟩ | ⟨k, c', hk, h⟩
        · exact ⟨rfl, .here (Nat.succ_pos _) hl hd⟩
        · have hlocal := (isSequence_constant index).isLocal
          obtain ⟨front, back, rfl, hreads, rfl⟩ := Reads.of_eq_ok hlocal hk
          have hm := (htail _ _ _).1 h
          exact ⟨hm.1, .behind hreads hm.2⟩
      · intro h
        obtain ⟨rfl, h⟩ := h
        cases h with
        | here _ hl hd => exact Or.inl ⟨rfl, _, _, hl, hd, rfl⟩
        | behind hreads h => exact Or.inr ⟨_, _, hreads _ _, (htail _ _ _).2 ⟨rfl, h⟩⟩
    · rw [constants, if_pos rfl, escapes_bind_left fun _ => keepsFormat_pure _]
      exact (ih (index + 1) offset bytes).1

theorem escapes_pool {offset : Nat} {bytes : List UInt8} {f : Fault} :
    ConstantPool.read.Escapes ⟨offset, bytes⟩ f ↔ f = .malformedText ∧
      ∃ (count : UInt16) (rest : List UInt8), bytes = indexBytes count ++ rest ∧
        TextMisses 1 (count.toNat - 1) rest := by
  rw [ConstantPool.read, escapes_u2]
  constructor
  · intro h
    obtain ⟨count, rest, rfl, h⟩ := h
    rw [escapes_bind_left fun _ => keepsFormat_pure _] at h
    have hm := (escapes_constants _ _ _ _).1.1 h
    exact ⟨hm.1, count, rest, rfl, hm.2⟩
  · intro h
    obtain ⟨rfl, count, rest, rfl, h⟩ := h
    refine ⟨count, rest, rfl, ?_⟩
    rw [escapes_bind_left fun _ => keepsFormat_pure _]
    exact (escapes_constants _ _ _ _).1.2 ⟨rfl, h⟩

/-- Half a pair of surrogates has no characters. -/
theorem decode?_encode_eq_none {us : List UInt16} (h : ¬ (PoolConstant.text us).IsPaired) :
    Text.ModifiedUtf8.decode? (Text.ModifiedUtf8.encode us) = none := by
  cases hd : Text.ModifiedUtf8.decode? (Text.ModifiedUtf8.encode us) with
  | none => rfl
  | some cs =>
    have hs : us = Text.ModifiedUtf8.units (String.ofList cs).toList := by
      rw [String.toList_ofList]
      exact Text.ModifiedUtf8.decode?_encode_eq_some_iff.1 hd
    exact absurd ⟨_, hs⟩ h

theorem textMisses_of_not_isPaired {pool : List PoolConstant} (hf : ∀ c ∈ pool, c.Fits)
    (hp : ∃ c ∈ pool, ¬ c.IsPaired) (index : Nat) (rest : List UInt8) :
    TextMisses index (widths pool) (pool.flatMap (·.bytes) ++ rest) := by
  induction pool generalizing index with
  | nil =>
    obtain ⟨c, hc, -⟩ := hp
    cases hc
  | cons c pool ih =>
    rw [List.flatMap_cons, List.append_assoc, widths_cons]
    by_cases hc : c.IsPaired
    · obtain ⟨k, hk⟩ := PoolConstant.exists_kept hc
      have hw : k.width = c.width := hk.width_eq.symm
      refine .behind (reads_constant hk (hf c List.mem_cons_self) index) ?_
      rw [hw, Nat.add_sub_cancel_left]
      refine ih (fun c hc => hf c (List.mem_cons_of_mem _ hc)) ?_ _
      obtain ⟨d, hd, hp⟩ := hp
      rcases List.mem_cons.1 hd with rfl | hd
      · exact absurd hc hp
      · exact ⟨d, hd, hp⟩
    · cases c with
      | text us =>
        have hl : (Text.ModifiedUtf8.encode us).length < 65536 := hf _ List.mem_cons_self
        rw [PoolConstant.bytes, List.cons_append, List.append_assoc]
        exact .here (by simp [PoolConstant.width]) hl (decode?_encode_eq_none hc)
      | _ => exact absurd trivial hc

end JvmRoutes.ClassFile
