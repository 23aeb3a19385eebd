import JvmRoutes.Text.ModifiedUtf8
import Mathlib.Tactic.Common

/-! Modified UTF-8 by code units of sixteen bits, each of which is written by itself. -/
namespace JvmRoutes.Text.ModifiedUtf8

/-- The code units of a character: itself, or a pair of surrogates. -/
def unitsOf (c : Char) : List UInt16 :=
  if c.toNat < 0x10000 then [UInt16.ofNat c.toNat]
  else [UInt16.ofNat (0xD800 + (c.toNat - 0x10000) / 0x400),
    UInt16.ofNat (0xDC00 + (c.toNat - 0x10000) % 0x400)]

def units (cs : List Char) : List UInt16 := cs.flatMap unitsOf

/-- The bytes of a code unit. Zero takes two, so that no byte is zero. -/
def unitBytes (u : UInt16) : List UInt8 :=
  if 0 < u.toNat ∧ u.toNat < 0x80 then [UInt8.ofNat u.toNat]
  else if u.toNat < 0x800 then
    [UInt8.ofNat (0xC0 + u.toNat / 0x40), UInt8.ofNat (0x80 + u.toNat % 0x40)]
  else
    [UInt8.ofNat (0xE0 + u.toNat / 0x1000), UInt8.ofNat (0x80 + u.toNat / 0x40 % 0x40),
      UInt8.ofNat (0x80 + u.toNat % 0x40)]

def encode (us : List UInt16) : List UInt8 := us.flatMap unitBytes

theorem le_toNat_of_not_lt {a b : UInt8} (h : ¬ a < b) : b.toNat ≤ a.toNat :=
  UInt8.le_iff_toNat_le.1 (UInt8.not_lt.1 h)

theorem not_lt_of_le_toNat {a b : UInt8} (h : b.toNat ≤ a.toNat) : ¬ a < b :=
  UInt8.not_lt.2 (UInt8.le_iff_toNat_le.2 h)

section Forms

variable (a b c : UInt8) (rest : List UInt8)

theorem decode?_short (h : a.toNat < 0x80) :
    decode? (a :: rest) = (decode? rest).map (Char.ofNat a.toNat :: ·) := by
  have ha : a < 0x80 := UInt8.lt_iff_toNat_lt.2 h
  conv => lhs; unfold decode?
  rw [if_pos ha]

theorem decode?_two (h : 0x80 ≤ a.toNat) (h' : a.toNat < 0xE0) :
    decode? (a :: b :: rest) = (two? a b).bind fun ch => (decode? rest).map (ch :: ·) := by
  have ha : ¬ a < 0x80 := not_lt_of_le_toNat h
  have ha' : a < 0xE0 := UInt8.lt_iff_toNat_lt.2 h'
  conv => lhs; unfold decode?
  simp only [if_neg ha, if_pos ha']
  rfl

theorem decode?_three (h : 0xE0 ≤ a.toNat) (h' : a.toNat < 0xF0) :
    decode? (a :: b :: c :: rest) = (unit? a b c).bind fun n =>
      if !isHigh n && !isLow n then (decode? rest).map (Char.ofNat n :: ·)
      else match rest with
      | d :: e :: f :: rest =>
        (unit? d e f).bind fun low => (pair? n low).bind fun ch => (decode? rest).map (ch :: ·)
      | _ => none := by
  have ha : ¬ a < 0x80 := not_lt_of_le_toNat (Nat.le_trans (by decide) h)
  have ha' : ¬ a < 0xE0 := not_lt_of_le_toNat h
  have ha'' : a < 0xF0 := UInt8.lt_iff_toNat_lt.2 h'
  conv => lhs; unfold decode?
  simp only [if_neg ha, if_neg ha', if_pos ha'']
  rfl

end Forms

/-- A byte that continues a sequence carries six bits. -/
theorem isTail_ofNat {n : Nat} (h : n < 0x40) : isTail (UInt8.ofNat (0x80 + n)) = true := by
  have hn : (UInt8.ofNat (0x80 + n)).toNat = 0x80 + n := by simp; omega
  rw [isTail, Bool.and_eq_true, decide_eq_true_iff, decide_eq_true_iff, UInt8.le_iff_toNat_le,
    UInt8.le_iff_toNat_le, hn]
  exact ⟨Nat.le_add_right _ _, by simp; omega⟩

private theorem two?_ofNat {n : Nat} (h : 0x80 ≤ n) (h' : n < 0x800) :
    two? (UInt8.ofNat (0xC0 + n / 0x40)) (UInt8.ofNat (0x80 + n % 0x40)) =
      some (Char.ofNat n) := by
  have ha : (UInt8.ofNat (0xC0 + n / 0x40)).toNat = 0xC0 + n / 0x40 := by simp; omega
  have hb : (UInt8.ofNat (0x80 + n % 0x40)).toNat = 0x80 + n % 0x40 := by simp; omega
  have hne : UInt8.ofNat (0xC0 + n / 0x40) ≠ 0xC0 := fun e => by
    rw [e] at ha
    simp at ha
    omega
  have hlo : (0xC2 : UInt8) ≤ UInt8.ofNat (0xC0 + n / 0x40) := by
    rw [UInt8.le_iff_toNat_le, ha]
    simp
    omega
  have hhi : UInt8.ofNat (0xC0 + n / 0x40) ≤ 0xDF := by
    rw [UInt8.le_iff_toNat_le, ha]
    simp
    omega
  have hp : payload (0xC0 + n / 0x40 - 0xC0) [UInt8.ofNat (0x80 + n % 0x40)] = n := by
    simp only [payload, List.foldl_cons, List.foldl_nil, hb]
    omega
  simp only [two?, hne, decide_false, Bool.false_and, hlo, hhi, decide_true,
    isTail_ofNat (Nat.mod_lt n (by decide : 0 < 0x40)), Bool.and_self, ha, hp, if_true]
  rfl

theorem unit?_ofNat {n : Nat} (h : 0x800 ≤ n) (h' : n < 0x10000) :
    unit? (UInt8.ofNat (0xE0 + n / 0x1000)) (UInt8.ofNat (0x80 + n / 0x40 % 0x40))
      (UInt8.ofNat (0x80 + n % 0x40)) = some n := by
  have ha : (UInt8.ofNat (0xE0 + n / 0x1000)).toNat = 0xE0 + n / 0x1000 := by simp; omega
  have hb : (UInt8.ofNat (0x80 + n / 0x40 % 0x40)).toNat = 0x80 + n / 0x40 % 0x40 := by
    simp; omega
  have hc : (UInt8.ofNat (0x80 + n % 0x40)).toNat = 0x80 + n % 0x40 := by simp; omega
  have hlo : (0xE0 : UInt8) ≤ UInt8.ofNat (0xE0 + n / 0x1000) := by
    rw [UInt8.le_iff_toNat_le, ha]
    simp
  have hhi : UInt8.ofNat (0xE0 + n / 0x1000) ≤ 0xEF := by
    rw [UInt8.le_iff_toNat_le, ha]
    simp
    omega
  have hp : payload (0xE0 + n / 0x1000 - 0xE0)
      [UInt8.ofNat (0x80 + n / 0x40 % 0x40), UInt8.ofNat (0x80 + n % 0x40)] = n := by
    simp only [payload, List.foldl_cons, List.foldl_nil, hb, hc]
    omega
  simp only [unit?, hlo, hhi, decide_true, isTail_ofNat (Nat.mod_lt n (by decide : 0 < 0x40)),
    isTail_ofNat (Nat.mod_lt (n / 0x40) (by decide : 0 < 0x40)), Bool.and_self, ha, hp, if_true, h]

def IsSurrogate (u : UInt16) : Prop := 0xD800 ≤ u.toNat ∧ u.toNat < 0xE000

instance (u : UInt16) : Decidable (IsSurrogate u) := inferInstanceAs (Decidable (_ ∧ _))

/-- A code unit that is no surrogate stands for a character of its own. -/
theorem decode?_unitBytes {u : UInt16} (h : ¬ IsSurrogate u) (rest : List UInt8) :
    decode? (unitBytes u ++ rest) = (decode? rest).map (Char.ofNat u.toNat :: ·) := by
  have hu : u.toNat < 0x10000 := u.toNat_lt
  unfold unitBytes
  split
  · rename_i hs
    have hn : (UInt8.ofNat u.toNat).toNat = u.toNat := by simp; omega
    rw [List.singleton_append, decode?_short _ _ (by omega), hn]
  · rename_i hs
    split
    · rename_i ht
      have ha : (UInt8.ofNat (0xC0 + u.toNat / 0x40)).toNat = 0xC0 + u.toNat / 0x40 := by
        simp; omega
      rw [List.cons_append, List.singleton_append, decode?_two _ _ _ (by omega) (by omega)]
      rcases Nat.eq_zero_or_pos u.toNat with hz | hz
      · rw [hz]
        rfl
      · rw [two?_ofNat (by omega) ht]
        rfl
    · rename_i ht
      have ha : (UInt8.ofNat (0xE0 + u.toNat / 0x1000)).toNat = 0xE0 + u.toNat / 0x1000 := by
        simp; omega
      have hh : (!isHigh u.toNat && !isLow u.toNat) = true := by
        simp only [IsSurrogate] at h
        simp [isHigh, isLow]
        omega
      rw [List.cons_append, List.cons_append, List.singleton_append,
        decode?_three _ _ _ _ (by omega) (by omega), unit?_ofNat (by omega) hu]
      simp only [Option.bind_some, hh, if_true]

def pairOf (high low : UInt16) : Char :=
  Char.ofNat (0x10000 + (high.toNat - 0xD800) * 1024 + (low.toNat - 0xDC00))

/-- The characters of code units, if each surrogate is part of a pair. -/
def characters? : List UInt16 → Option (List Char)
  | [] => some []
  | u :: rest =>
    if IsSurrogate u then
      match rest with
      | [] => none
      | v :: rest =>
        if isHigh u.toNat && isLow v.toNat then (characters? rest).map (pairOf u v :: ·) else none
    else (characters? rest).map (Char.ofNat u.toNat :: ·)

private theorem unit?_none {a : UInt8} (h : a.toNat < 0xE0) (b c : UInt8) : unit? a b c = none := by
  have ha : ¬ (0xE0 : UInt8) ≤ a := fun hn => by
    have := UInt8.le_iff_toNat_le.1 hn
    simp at this
    omega
  simp [unit?, ha]

private theorem unitBytes_short {u : UInt16} (h : u.toNat < 0x800) :
    ∃ a rest, unitBytes u = a :: rest ∧ a.toNat < 0xE0 := by
  unfold unitBytes
  split
  · exact ⟨_, _, rfl, by simp; omega⟩
  · exact ⟨_, _, rfl, by simp; omega⟩

/-- A surrogate asks for another one behind it. -/
private theorem decode?_surrogate {u : UInt16} (h : IsSurrogate u) (rest : List UInt8) :
    decode? (unitBytes u ++ rest) =
      match rest with
      | d :: e :: f :: rest => (unit? d e f).bind fun low =>
        (pair? u.toNat low).bind fun ch => (decode? rest).map (ch :: ·)
      | _ => none := by
  have hu : u.toNat < 0x10000 := u.toNat_lt
  obtain ⟨hlo, hhi⟩ := h
  have ha : (UInt8.ofNat (0xE0 + u.toNat / 0x1000)).toNat = 0xE0 + u.toNat / 0x1000 := by
    simp; omega
  have hh : (!isHigh u.toNat && !isLow u.toNat) = false := by
    simp [isHigh, isLow]
    omega
  rw [unitBytes, if_neg (by omega), if_neg (by omega), List.cons_append, List.cons_append,
    List.singleton_append, decode?_three _ _ _ _ (by omega) (by omega), unit?_ofNat (by omega) hu]
  simp only [Option.bind_some, hh, Bool.false_eq_true, if_false]

/-- What stands behind a surrogate is the other half of a pair, or the bytes have no text. -/
theorem decode?_surrogate_unit {u : UInt16} (h : IsSurrogate u) (v : UInt16)
    (rest : List UInt8) :
    decode? (unitBytes u ++ (unitBytes v ++ rest)) =
      if isHigh u.toNat && isLow v.toNat then (decode? rest).map (pairOf u v :: ·) else none := by
  have hv : v.toNat < 0x10000 := v.toNat_lt
  rw [decode?_surrogate h]
  by_cases hs : v.toNat < 0x800
  · have hl : isLow v.toNat = false := by simp [isLow]; omega
    rw [hl, Bool.and_false, if_neg Bool.false_ne_true]
    obtain ⟨a, tail, hb, ha⟩ := unitBytes_short hs
    rw [hb, List.cons_append]
    split
    · rename_i heq
      injection heq with hd
      rw [← hd, unit?_none ha]
      rfl
    · rfl
  · rw [unitBytes, if_neg (by omega), if_neg hs]
    simp only [List.cons_append, List.nil_append, unit?_ofNat (Nat.le_of_not_lt hs) hv,
      Option.bind_some, pair?]
    split <;> rfl

private theorem characters?_cons {u : UInt16} (h : ¬ IsSurrogate u) (rest : List UInt16) :
    characters? (u :: rest) = (characters? rest).map (Char.ofNat u.toNat :: ·) := by
  conv => lhs; unfold characters?
  rw [if_neg h]

/-- Bytes of code units have the text of the units. -/
theorem decode?_encode (us : List UInt16) : decode? (encode us) = characters? us := by
  induction us using characters?.induct with
  | case1 => rfl
  | case2 u h =>
    have hd := decode?_surrogate h []
    rw [List.append_nil] at hd
    simp [encode, characters?, h, hd]
  | case3 u h v rest hp ih =>
    have hd := decode?_surrogate_unit h v (encode rest)
    rw [if_pos hp, ih] at hd
    simpa [encode, characters?, h, hp] using hd
  | case4 u h v rest hp =>
    have hd := decode?_surrogate_unit h v (encode rest)
    rw [if_neg hp] at hd
    simpa [encode, characters?, h, hp] using hd
  | case5 u rest h ih =>
    have hd := decode?_unitBytes h (encode rest)
    rw [ih] at hd
    rw [characters?_cons h, ← hd]
    rfl

theorem toNat_ofNat {n : Nat} (h : n.isValidChar) : (Char.ofNat n).toNat = n := by
  rw [Char.ofNat, dif_pos h]
  rfl

/-- A pair of surrogates is what stands for its character. -/
theorem unitsOf_pairOf {u v : UInt16} (h : (isHigh u.toNat && isLow v.toNat) = true) :
    unitsOf (pairOf u v) = [u, v] := by
  simp only [isHigh, isLow, Bool.and_eq_true, decide_eq_true_eq] at h
  have hv : (0x10000 + (u.toNat - 0xD800) * 1024 + (v.toNat - 0xDC00)).isValidChar :=
    Or.inr ⟨by omega, by omega⟩
  have hn : (pairOf u v).toNat = 0x10000 + (u.toNat - 0xD800) * 1024 + (v.toNat - 0xDC00) :=
    toNat_ofNat hv
  have hu' : 0xD800 + (0x10000 + (u.toNat - 0xD800) * 1024 + (v.toNat - 0xDC00) - 0x10000) / 0x400 =
      u.toNat := by omega
  have hv' : 0xDC00 + (0x10000 + (u.toNat - 0xD800) * 1024 + (v.toNat - 0xDC00) - 0x10000) % 0x400 =
      v.toNat := by omega
  rw [unitsOf, hn, if_neg (by omega), hu', hv', UInt16.ofNat_toNat, UInt16.ofNat_toNat]

private theorem unitsOf_ofNat {u : UInt16} (h : ¬ IsSurrogate u) :
    unitsOf (Char.ofNat u.toNat) = [u] := by
  have hu : u.toNat < 0x10000 := u.toNat_lt
  have hv : u.toNat.isValidChar := by
    simp only [IsSurrogate, not_and, Nat.not_lt] at h
    rcases Nat.lt_or_ge u.toNat 0xD800 with hl | hl
    · exact Or.inl hl
    · exact Or.inr ⟨by have := h hl; omega, by omega⟩
  have hn : (Char.ofNat u.toNat).toNat = u.toNat := toNat_ofNat hv
  rw [unitsOf, hn, if_pos hu, UInt16.ofNat_toNat]

/-- Code units that have a text are the units of that text. -/
theorem eq_units_of_characters? {us : List UInt16} {cs : List Char} (h : characters? us = some cs) :
    us = units cs := by
  induction us using characters?.induct generalizing cs with
  | case1 =>
    obtain rfl : [] = cs := Option.some.inj h
    rfl
  | case2 u hs => simp [characters?, hs] at h
  | case3 u hs v rest hp ih =>
    simp only [characters?, hs, hp, if_true] at h
    obtain ⟨ds, hd, rfl⟩ := Option.map_eq_some_iff.1 h
    rw [ih hd, units, units, List.flatMap_cons, unitsOf_pairOf hp]
    rfl
  | case4 u hs v rest hp => simp [characters?, hs, hp] at h
  | case5 u rest hs ih =>
    rw [characters?_cons hs] at h
    obtain ⟨ds, hd, rfl⟩ := Option.map_eq_some_iff.1 h
    rw [ih hd, units, units, List.flatMap_cons, unitsOf_ofNat hs]
    rfl

theorem toNat_lt (c : Char) : c.toNat < 0x110000 := by
  have hv : c.toNat.isValidChar := c.valid
  rcases hv with hv | hv <;> omega

/-- Up to U+FFFF, a character is no surrogate. -/
theorem not_isSurrogate_char {c : Char} (h : c.toNat < 0x10000) :
    ¬ IsSurrogate (UInt16.ofNat c.toNat) := by
  have hn : (UInt16.ofNat c.toNat).toNat = c.toNat := by simp; omega
  have hv : c.toNat.isValidChar := c.valid
  rw [IsSurrogate, hn]
  rcases hv with hv | hv <;> omega

/-- Above U+FFFF, a character has a pair of surrogates. -/
theorem exists_pair {c : Char} (h : 0x10000 ≤ c.toNat) : ∃ u v, unitsOf c = [u, v] ∧
    IsSurrogate u ∧ (isHigh u.toNat && isLow v.toNat) = true ∧ pairOf u v = c := by
  have hlt := toNat_lt c
  have hu : (UInt16.ofNat (0xD800 + (c.toNat - 0x10000) / 0x400)).toNat =
      0xD800 + (c.toNat - 0x10000) / 0x400 := by simp; omega
  have hv : (UInt16.ofNat (0xDC00 + (c.toNat - 0x10000) % 0x400)).toNat =
      0xDC00 + (c.toNat - 0x10000) % 0x400 := by simp; omega
  refine ⟨_, _, if_neg (Nat.not_lt.2 h), ?_, ?_, ?_⟩
  · rw [IsSurrogate, hu]
    omega
  · rw [hu, hv]
    simp only [isHigh, isLow, Bool.and_eq_true, decide_eq_true_eq]
    omega
  · have hn : 0x10000 + (0xD800 + (c.toNat - 0x10000) / 0x400 - 0xD800) * 1024 +
        (0xDC00 + (c.toNat - 0x10000) % 0x400 - 0xDC00) = c.toNat := by omega
    rw [pairOf, hu, hv, hn, Char.ofNat_toNat]

private theorem characters?_unitsOf (c : Char) (rest : List UInt16) :
    characters? (unitsOf c ++ rest) = (characters? rest).map (c :: ·) := by
  by_cases h : c.toNat < 0x10000
  · have hn : (UInt16.ofNat c.toNat).toNat = c.toNat := by simp; omega
    rw [unitsOf, if_pos h, List.singleton_append, characters?_cons (not_isSurrogate_char h), hn,
      Char.ofNat_toNat]
  · obtain ⟨u, v, hunits, hs, hp, hc⟩ := exists_pair (Nat.le_of_not_lt h)
    simp only [hunits, List.cons_append, List.nil_append, characters?, hs, hp, hc, if_true]

/-- The units of a text have that text. -/
theorem characters?_units (cs : List Char) : characters? (units cs) = some cs := by
  induction cs with
  | nil => rfl
  | cons c cs ih => rw [units, List.flatMap_cons, ← units, characters?_unitsOf, ih, Option.map_some]

/-- Bytes of code units have a text exactly when the units are those of the text. -/
theorem decode?_encode_eq_some_iff {us : List UInt16} {cs : List Char} :
    decode? (encode us) = some cs ↔ us = units cs := by
  rw [decode?_encode]
  exact ⟨eq_units_of_characters?, fun h => h ▸ characters?_units cs⟩

theorem units_injective {cs ds : List Char} (h : units cs = units ds) : cs = ds := by
  have hc := characters?_units cs
  rw [h, characters?_units] at hc
  exact (Option.some.inj hc).symm

end JvmRoutes.Text.ModifiedUtf8
