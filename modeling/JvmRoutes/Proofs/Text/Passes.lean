import JvmRoutes.Proofs.Text.Forms

/-!
Modified UTF-8 in three passes: the two bytes of NUL become one, the bytes are read as UTF-8 in which
halves of pairs count as characters, and the halves are put together. The passes give the same text
as reading form by form, since none of them reaches across the end of a form.
-/
namespace JvmRoutes.Text.ModifiedUtf8

variable {ch : Char} {cs : List Char} {u : UInt16} {us : List UInt16} {a b : UInt8}
  {form rest bytes : List UInt8}

/-- The two bytes of NUL as one, wherever they come. -/
def shortenNul : List UInt8 → List UInt8
  | a :: b :: rest =>
    if a = 0xC0 ∧ b = 0x80 then 0 :: shortenNul rest else a :: shortenNul (b :: rest)
  | bytes => bytes

/-- The code units of bytes in UTF-8, in which halves of pairs count as characters. -/
def units? : List UInt8 → Option (List UInt16)
  | [] => some []
  | a :: rest =>
    if a < 0x80 then (units? rest).map (UInt16.ofNat a.toNat :: ·)
    else match rest with
    | [] => none
    | b :: rest =>
      if a < 0xE0 then
        if 0xC2 ≤ a && isTail b then
          (units? rest).map (UInt16.ofNat (payload (a.toNat - 0xC0) [b]) :: ·)
        else none
      else match rest with
      | [] => none
      | c :: rest =>
        if a < 0xF0 then do
          let n ← unit? a b c
          (units? rest).map (UInt16.ofNat n :: ·)
        else match rest with
        | [] => none
        | d :: rest => do
          let ch ← four? a b c d
          (units? rest).map (unitsOf ch ++ ·)

/-- The text that the three passes give. -/
def byPasses? (bytes : List UInt8) : Option (List Char) :=
  (units? (shortenNul bytes)).bind characters?

/-- The bytes of a code unit in UTF-8, which has one byte for zero. -/
def shortBytes (u : UInt16) : List UInt8 := if u = 0 then [0] else unitBytes u

/-- Bytes are code units, one after another, with each unit by itself or with both halves of a pair
in one. -/
inductive IsSpelled : List UInt16 → List UInt8 → Prop
  | nil : IsSpelled [] []
  | unit (u : UInt16) {us : List UInt16} {rest : List UInt8} (h : IsSpelled us rest) :
    IsSpelled (u :: us) (shortBytes u ++ rest)
  | pair {ch : Char} {us : List UInt16} {rest : List UInt8} (hch : 0x10000 ≤ ch.toNat)
    (h : IsSpelled us rest) : IsSpelled (unitsOf ch ++ us) (String.utf8EncodeChar ch ++ rest)

section Reading

variable (a b c d : UInt8) (rest : List UInt8)

theorem units?_short (h : a.toNat < 0x80) :
    units? (a :: rest) = (units? rest).map (UInt16.ofNat a.toNat :: ·) := by
  have ha : a < 0x80 := UInt8.lt_iff_toNat_lt.2 h
  conv => lhs; unfold units?
  rw [if_pos ha]

theorem units?_two (h : 0x80 ≤ a.toNat) (h' : a.toNat < 0xE0) :
    units? (a :: b :: rest) =
      if 0xC2 ≤ a && isTail b then
        (units? rest).map (UInt16.ofNat (payload (a.toNat - 0xC0) [b]) :: ·)
      else none := by
  have ha : ¬ a < 0x80 := not_lt_of_le_toNat h
  have ha' : a < 0xE0 := UInt8.lt_iff_toNat_lt.2 h'
  conv => lhs; unfold units?
  simp only [if_neg ha, if_pos ha']

theorem units?_three (h : 0xE0 ≤ a.toNat) (h' : a.toNat < 0xF0) :
    units? (a :: b :: c :: rest) =
      (unit? a b c).bind fun n => (units? rest).map (UInt16.ofNat n :: ·) := by
  have ha : ¬ a < 0x80 := not_lt_of_le_toNat (Nat.le_trans (by decide) h)
  have ha' : ¬ a < 0xE0 := not_lt_of_le_toNat h
  have ha'' : a < 0xF0 := UInt8.lt_iff_toNat_lt.2 h'
  conv => lhs; unfold units?
  simp only [if_neg ha, if_neg ha', if_pos ha'']
  rfl

theorem units?_four (h : 0xF0 ≤ a.toNat) :
    units? (a :: b :: c :: d :: rest) =
      (four? a b c d).bind fun ch => (units? rest).map (unitsOf ch ++ ·) := by
  have ha : ¬ a < 0x80 := not_lt_of_le_toNat (Nat.le_trans (by decide) h)
  have ha' : ¬ a < 0xE0 := not_lt_of_le_toNat (Nat.le_trans (by decide) h)
  have ha'' : ¬ a < 0xF0 := not_lt_of_le_toNat h
  conv => lhs; unfold units?
  simp only [if_neg ha, if_neg ha', if_neg ha'']
  rfl

end Reading

theorem units?_shortBytes (u : UInt16) (rest : List UInt8) :
    units? (shortBytes u ++ rest) = (units? rest).map (u :: ·) := by
  have hu : u.toNat < 0x10000 := u.toNat_lt
  unfold shortBytes
  by_cases hz : u = 0
  · rw [if_pos hz, hz]
    exact units?_short 0 rest (by decide)
  have hpos : 0 < u.toNat := Nat.pos_of_ne_zero fun h => hz (UInt16.toNat_inj.1 h)
  rw [if_neg hz, unitBytes]
  by_cases h1 : u.toNat < 0x80
  · have hn : (UInt8.ofNat u.toNat).toNat = u.toNat := by simp; omega
    rw [if_pos ⟨hpos, h1⟩, List.singleton_append, units?_short _ _ (by omega), hn,
      UInt16.ofNat_toNat]
  rw [if_neg (by omega)]
  by_cases h2 : u.toNat < 0x800
  · have ha : (UInt8.ofNat (0xC0 + u.toNat / 0x40)).toNat = 0xC0 + u.toNat / 0x40 := by simp; omega
    have hb : (UInt8.ofNat (0x80 + u.toNat % 0x40)).toNat = 0x80 + u.toNat % 0x40 := by simp; omega
    have hlo : (0xC2 : UInt8) ≤ UInt8.ofNat (0xC0 + u.toNat / 0x40) := by
      rw [UInt8.le_iff_toNat_le, ha]
      simp
      omega
    have hp : payload (0xC0 + u.toNat / 0x40 - 0xC0) [UInt8.ofNat (0x80 + u.toNat % 0x40)] =
        u.toNat := by
      simp only [payload, List.foldl_cons, List.foldl_nil, hb]
      omega
    rw [if_pos h2, List.cons_append, List.singleton_append,
      units?_two _ _ _ (by omega) (by omega), ha, hp, UInt16.ofNat_toNat, if_pos]
    simp only [hlo, isTail_ofNat (Nat.mod_lt u.toNat (by decide : 0 < 0x40)), decide_true,
      Bool.and_self]
  · have ha : (UInt8.ofNat (0xE0 + u.toNat / 0x1000)).toNat = 0xE0 + u.toNat / 0x1000 := by
      simp; omega
    rw [if_neg h2, List.cons_append, List.cons_append, List.singleton_append,
      units?_three _ _ _ _ (by omega) (by omega), unit?_ofNat (by omega) hu, Option.bind_some,
      UInt16.ofNat_toNat]

theorem units?_pair (h : 0x10000 ≤ ch.toNat) (rest : List UInt8) :
    units? (String.utf8EncodeChar ch ++ rest) = (units? rest).map (unitsOf ch ++ ·) := by
  have ha : 0xF0 ≤ (UInt8.ofNat (0xF0 + ch.toNat / 0x40000)).toNat := by
    have := toNat_lt ch
    simp
    omega
  have hfour := four?_eq_some_iff.2 ⟨h, (utf8EncodeChar_four h).symm⟩
  rw [utf8EncodeChar_four h, List.cons_append, List.cons_append, List.cons_append,
    List.singleton_append, units?_four _ _ _ _ _ ha, hfour, Option.bind_some]

/-- Bytes of a unit other than zero are its short ones. -/
theorem shortBytes_ofNat {n : Nat} (h : 0 < n) (h' : n < 0x10000) :
    shortBytes (UInt16.ofNat n) = unitBytes (UInt16.ofNat n) := by
  have hn : (UInt16.ofNat n).toNat = n := by simp; omega
  have hne : UInt16.ofNat n ≠ 0 := by
    intro hz
    rw [hz] at hn
    simp at hn
    omega
  rw [shortBytes, if_neg hne]

private theorem shortBytes_toNat (h : a.toNat < 0x80) :
    shortBytes (UInt16.ofNat a.toNat) = [a] := by
  have hn : (UInt16.ofNat a.toNat).toNat = a.toNat := by simp
  by_cases hz : a.toNat = 0
  · obtain rfl : a = 0 := UInt8.toNat_inj.1 hz
    rfl
  · rw [shortBytes_ofNat (by omega) (by omega), unitBytes, hn, if_pos (by omega), UInt8.ofNat_toNat]

private theorem isSpelled_of_units? (h : units? bytes = some us) : IsSpelled us bytes := by
  induction bytes using units?.induct generalizing us with
  | case1 =>
    obtain rfl := Option.some.inj h
    exact .nil
  | case2 a rest ha ih =>
    have ha' : a.toNat < 0x80 := UInt8.lt_iff_toNat_lt.1 ha
    rw [units?_short a rest ha'] at h
    obtain ⟨vs, hvs, rfl⟩ := Option.map_eq_some_iff.1 h
    have hspelled := (ih hvs).unit (UInt16.ofNat a.toNat)
    rwa [shortBytes_toNat ha'] at hspelled
  | case3 a ha => simp [units?, ha] at h
  | case4 a ha b rest ha' htail ih =>
    have hlo : 0x80 ≤ a.toNat := le_toNat_of_not_lt ha
    have hhi : a.toNat < 0xE0 := UInt8.lt_iff_toNat_lt.1 ha'
    rw [units?_two a b rest hlo hhi, if_pos htail] at h
    obtain ⟨vs, hvs, rfl⟩ := Option.map_eq_some_iff.1 h
    simp only [Bool.and_eq_true, decide_eq_true_eq, UInt8.le_iff_toNat_le] at htail
    obtain ⟨hn, hn', hbytes⟩ := eq_unitBytes_of_two htail.1 hhi htail.2
    have hspelled := (ih hvs).unit (UInt16.ofNat (payload (a.toNat - 0xC0) [b]))
    rwa [shortBytes_ofNat (by omega) (by omega), ← hbytes] at hspelled
  | case5 a ha b rest ha' htail =>
    have hlo : 0x80 ≤ a.toNat := le_toNat_of_not_lt ha
    rw [units?_two a b rest hlo (UInt8.lt_iff_toNat_lt.1 ha'), if_neg htail] at h
    cases h
  | case6 a ha b ha' => simp [units?, ha, ha'] at h
  | case7 a ha b ha' c rest ha'' ih =>
    have hlo : 0xE0 ≤ a.toNat := le_toNat_of_not_lt ha'
    rw [units?_three a b c rest hlo (UInt8.lt_iff_toNat_lt.1 ha'')] at h
    obtain ⟨n, hunit, h⟩ := Option.bind_eq_some_iff.1 h
    obtain ⟨vs, hvs, rfl⟩ := Option.map_eq_some_iff.1 h
    obtain ⟨hn, hn', hbytes⟩ := eq_unitBytes_of_unit? hunit
    have hspelled := (ih hvs).unit (UInt16.ofNat n)
    rwa [shortBytes_ofNat (by omega) hn', ← hbytes] at hspelled
  | case8 a ha b ha' c ha'' => simp [units?, ha, ha', ha''] at h
  | case9 a ha b ha' c ha'' d rest ih =>
    have hlo : 0xF0 ≤ a.toNat := le_toNat_of_not_lt ha''
    rw [units?_four a b c d rest hlo] at h
    obtain ⟨ch, hfour, h⟩ := Option.bind_eq_some_iff.1 h
    obtain ⟨vs, hvs, rfl⟩ := Option.map_eq_some_iff.1 h
    obtain ⟨hch, hbytes⟩ := four?_eq_some_iff.1 hfour
    have hspelled := (ih hvs).pair hch
    rwa [← hbytes] at hspelled

theorem units?_eq_some_iff : units? bytes = some us ↔ IsSpelled us bytes := by
  constructor
  · exact isSpelled_of_units?
  · intro h
    induction h with
    | nil => rfl
    | unit u _ ih => rw [units?_shortBytes, ih, Option.map_some]
    | pair hch _ ih => rw [units?_pair hch, ih, Option.map_some]

theorem shortenNul_cons (h : ¬ (a = 0xC0 ∧ rest.head? = some 0x80)) :
    shortenNul (a :: rest) = a :: shortenNul rest := by
  cases rest with
  | nil => rfl
  | cons b rest =>
    rw [shortenNul, if_neg]
    simpa using h

/-- The bytes of a form other than the long one of NUL are kept. -/
theorem shortenNul_append (h : ∀ a ∈ form, a ≠ 0xC0) (rest : List UInt8) :
    shortenNul (form ++ rest) = form ++ shortenNul rest := by
  induction form with
  | nil => rfl
  | cons a form ih =>
    have ha : a ≠ 0xC0 := h a List.mem_cons_self
    rw [List.cons_append, shortenNul_cons fun hn => ha hn.1, List.cons_append,
      ih fun b hb => h b (List.mem_cons_of_mem a hb)]

/-- A byte comes from itself, or is the NUL of two bytes. -/
theorem exists_of_shortenNul_cons (h : shortenNul bytes = a :: rest) :
    ∃ back, shortenNul back = rest ∧ (bytes = a :: back ∨ a = 0 ∧ bytes = 0xC0 :: 0x80 :: back) := by
  match bytes with
  | [] => cases h
  | [b] =>
    obtain ⟨rfl, rfl⟩ := List.cons.inj h
    exact ⟨[], rfl, .inl rfl⟩
  | b :: c :: back =>
    rw [shortenNul] at h
    by_cases hnul : b = 0xC0 ∧ c = 0x80
    · rw [if_pos hnul] at h
      obtain ⟨rfl, rfl⟩ := List.cons.inj h
      obtain ⟨rfl, rfl⟩ := hnul
      exact ⟨back, rfl, .inr ⟨rfl, rfl⟩⟩
    · rw [if_neg hnul] at h
      obtain ⟨rfl, rfl⟩ := List.cons.inj h
      exact ⟨c :: back, rfl, .inl rfl⟩

/-- Bytes other than zero come from themselves. -/
theorem exists_of_shortenNul_append (hform : ∀ a ∈ form, a ≠ 0)
    (h : shortenNul bytes = form ++ rest) :
    ∃ back, bytes = form ++ back ∧ shortenNul back = rest := by
  induction form generalizing bytes with
  | nil => exact ⟨bytes, rfl, h⟩
  | cons a form ih =>
    obtain ⟨back, hback, hbytes⟩ := exists_of_shortenNul_cons h
    have ha : a ≠ 0 := hform a List.mem_cons_self
    obtain ⟨last, rfl, hlast⟩ := ih (fun b hb => hform b (List.mem_cons_of_mem a hb)) hback
    rcases hbytes with rfl | hnul
    · exact ⟨last, rfl, hlast⟩
    · exact absurd hnul.1 ha

section Bytes

private theorem ofNat_ne {n : Nat} (h : n < 0x100) (hz : n ≠ 0) (hn : n ≠ 0xC0) :
    UInt8.ofNat n ≠ 0 ∧ UInt8.ofNat n ≠ 0xC0 := by
  have hto : (UInt8.ofNat n).toNat = n := by simp; omega
  constructor
  · intro he
    rw [he] at hto
    exact hz hto.symm
  · intro he
    rw [he] at hto
    exact hn hto.symm

/-- Of a unit other than zero no byte is zero, and none opens the long form of NUL. -/
theorem ne_of_mem_unitBytes (hu : u ≠ 0) (h : a ∈ unitBytes u) : a ≠ 0 ∧ a ≠ 0xC0 := by
  have hlt : u.toNat < 0x10000 := u.toNat_lt
  have hpos : 0 < u.toNat := Nat.pos_of_ne_zero fun h => hu (UInt16.toNat_inj.1 h)
  unfold unitBytes at h
  split at h
  · obtain rfl := List.mem_singleton.1 h
    exact ofNat_ne (by omega) (by omega) (by omega)
  split at h
  · simp only [List.mem_cons, List.not_mem_nil, or_false] at h
    rcases h with rfl | rfl
    · exact ofNat_ne (by omega) (by omega) (by omega)
    · exact ofNat_ne (by omega) (by omega) (by omega)
  · simp only [List.mem_cons, List.not_mem_nil, or_false] at h
    rcases h with rfl | rfl | rfl
    · exact ofNat_ne (by omega) (by omega) (by omega)
    · exact ofNat_ne (by omega) (by omega) (by omega)
    · exact ofNat_ne (by omega) (by omega) (by omega)

private theorem ne_of_mem_four (hch : 0x10000 ≤ ch.toNat) (h : a ∈ String.utf8EncodeChar ch) :
    a ≠ 0 ∧ a ≠ 0xC0 := by
  have hlt := toNat_lt ch
  rw [utf8EncodeChar_four hch] at h
  simp only [List.mem_cons, List.not_mem_nil, or_false] at h
  rcases h with rfl | rfl | rfl | rfl
  · exact ofNat_ne (by omega) (by omega) (by omega)
  · exact ofNat_ne (by omega) (by omega) (by omega)
  · exact ofNat_ne (by omega) (by omega) (by omega)
  · exact ofNat_ne (by omega) (by omega) (by omega)

private theorem ne_of_mem_shortBytes (h : a ∈ shortBytes u) : a ≠ 0xC0 := by
  unfold shortBytes at h
  by_cases hu : u = 0
  · rw [if_pos hu] at h
    rw [List.mem_singleton.1 h]
    decide
  · rw [if_neg hu] at h
    exact (ne_of_mem_unitBytes hu h).2

/-- Up to U+FFFF, UTF-8 has the short bytes of the unit of a character. -/
theorem utf8EncodeChar_eq_shortBytes (h : ch.toNat < 0x10000) :
    String.utf8EncodeChar ch = shortBytes (UInt16.ofNat ch.toNat) := by
  by_cases hz : ch.toNat = 0
  · rw [utf8EncodeChar_one (by omega), hz]
    rfl
  · rw [utf8EncodeChar_eq_unitBytes (by omega) h, shortBytes_ofNat (by omega) h]

end Bytes

/-- Halves of pairs are not zero. -/
theorem ne_zero_of_pair {v : UInt16} (h : (isHigh u.toNat && isLow v.toNat) = true) :
    u ≠ 0 ∧ v ≠ 0 := by
  simp only [isHigh, isLow, Bool.and_eq_true, decide_eq_true_eq] at h
  constructor
  · rintro rfl
    exact absurd h.1.1 (by decide)
  · rintro rfl
    exact absurd h.2.1 (by decide)

/-- A form spells the units of its character when the long NUL is one byte. -/
theorem IsForm.isSpelled (hc : IsForm ch form) (h : IsSpelled us (shortenNul rest)) :
    IsSpelled (unitsOf ch ++ us) (shortenNul (form ++ rest)) := by
  cases hc with
  | shortest =>
    by_cases hsmall : ch.toNat < 0x10000
    · rw [unitsOf, if_pos hsmall, utf8EncodeChar_eq_shortBytes hsmall,
        shortenNul_append fun a ha => ne_of_mem_shortBytes ha]
      exact h.unit _
    · have hch : 0x10000 ≤ ch.toNat := Nat.le_of_not_lt hsmall
      rw [shortenNul_append fun a ha => (ne_of_mem_four hch ha).2]
      exact h.pair hch
  | nul => exact h.unit 0
  | pair hch =>
    obtain ⟨u, v, hunits, -, hpair, -⟩ := exists_pair hch
    obtain ⟨hu, hv⟩ := ne_zero_of_pair hpair
    rw [encode_pair hunits, List.append_assoc,
      shortenNul_append fun a ha => (ne_of_mem_unitBytes hu ha).2,
      shortenNul_append fun a ha => (ne_of_mem_unitBytes hv ha).2, hunits]
    have hspelled := (h.unit v).unit u
    rwa [shortBytes, if_neg hu, shortBytes, if_neg hv] at hspelled

theorem IsWritten.isSpelled (h : IsWritten cs bytes) : IsSpelled (units cs) (shortenNul bytes) := by
  induction h with
  | nil => exact .nil
  | cons hc _ ih => exact hc.isSpelled ih

theorem unitsOf_ne_nil (ch : Char) : unitsOf ch ≠ [] := by
  unfold unitsOf
  split <;> simp

theorem IsSpelled.eq_nil (h : IsSpelled [] bytes) : bytes = [] := by
  generalize hus : [] = us at h
  cases h with
  | nil => rfl
  | unit => cases hus
  | pair => exact absurd (List.append_eq_nil_iff.1 hus.symm).1 (unitsOf_ne_nil _)

/-- A unit stands by itself, or it opens a pair in one. -/
theorem IsSpelled.of_cons (h : IsSpelled (u :: us) bytes) :
    (∃ rest, bytes = shortBytes u ++ rest ∧ IsSpelled us rest) ∨
      ∃ ch v vs rest, 0x10000 ≤ ch.toNat ∧ unitsOf ch = [u, v] ∧ us = v :: vs ∧
        bytes = String.utf8EncodeChar ch ++ rest ∧ IsSpelled vs rest := by
  generalize hus : u :: us = all at h
  cases h with
  | nil => cases hus
  | unit w hrest =>
    obtain ⟨rfl, rfl⟩ := List.cons.inj hus
    exact .inl ⟨_, rfl, hrest⟩
  | @pair ch vs rest hch hrest =>
    obtain ⟨w, v, hunits, -, -, -⟩ := exists_pair hch
    rw [hunits] at hus
    obtain ⟨rfl, rfl⟩ := List.cons.inj hus
    exact .inr ⟨ch, v, vs, rest, hch, hunits, rfl, rfl, hrest⟩

/-- What spells the unit of a character starts with UTF-8, or with the long NUL. -/
theorem exists_isForm_of_small (hch : ch.toNat < 0x10000)
    (h : IsSpelled (unitsOf ch ++ us) (shortenNul bytes)) :
    ∃ form back, bytes = form ++ back ∧ IsForm ch form ∧ IsSpelled us (shortenNul back) := by
  have hshortest : IsForm ch (shortBytes (UInt16.ofNat ch.toNat)) :=
    utf8EncodeChar_eq_shortBytes hch ▸ .shortest ch
  rw [unitsOf, if_pos hch, List.singleton_append] at h
  rcases h.of_cons with ⟨rest, hbytes, hrest⟩ | ⟨other, v, vs, rest, hother, hunits, -⟩
  · by_cases hz : UInt16.ofNat ch.toNat = 0
    · rw [hz] at hbytes hshortest
      obtain ⟨back, rfl, hback⟩ := exists_of_shortenNul_cons hbytes
      rcases hback with rfl | ⟨-, rfl⟩
      · exact ⟨[0], back, rfl, hshortest, hrest⟩
      · have hnul : ch = '\x00' := by
          have hn : (UInt16.ofNat ch.toNat).toNat = ch.toNat := by simp; omega
          rw [hz] at hn
          exact Char.toNat_inj.1 hn.symm
        exact ⟨[0xC0, 0x80], back, rfl, hnul ▸ .nul, hrest⟩
    · have hne : ∀ a ∈ shortBytes (UInt16.ofNat ch.toNat), a ≠ 0 := by
        intro a ha
        rw [shortBytes, if_neg hz] at ha
        exact (ne_of_mem_unitBytes hz ha).1
      obtain ⟨back, rfl, rfl⟩ := exists_of_shortenNul_append hne hbytes
      exact ⟨_, back, rfl, hshortest, hrest⟩
  · -- the unit of a character is no half of a pair
    obtain ⟨w, v', hpair, hs, -, -⟩ := exists_pair hother
    rw [hpair] at hunits
    obtain ⟨rfl, -⟩ := List.cons.inj hunits
    exact absurd hs (not_isSurrogate_char hch)

/-- What spells a pair has both halves in one, or each by itself. -/
theorem exists_isForm_of_large (hch : 0x10000 ≤ ch.toNat)
    (h : IsSpelled (unitsOf ch ++ us) (shortenNul bytes)) :
    ∃ form back, bytes = form ++ back ∧ IsForm ch form ∧ IsSpelled us (shortenNul back) := by
  obtain ⟨u, v, hunits, -, hpair, rfl⟩ := exists_pair hch
  obtain ⟨hu, hv⟩ := ne_zero_of_pair hpair
  rw [hunits] at h
  rcases h.of_cons with ⟨rest, hbytes, hrest⟩ | ⟨other, w, ws, rest, hother, hw, hus, hbytes, hrest⟩
  · rw [shortBytes, if_neg hu] at hbytes
    obtain ⟨back, rfl, rfl⟩ :=
      exists_of_shortenNul_append (fun a ha => (ne_of_mem_unitBytes hu ha).1) hbytes
    rcases hrest.of_cons with ⟨rest, hbytes', hrest⟩ | ⟨other, w, ws, rest, hother, hw, -⟩
    · rw [shortBytes, if_neg hv] at hbytes'
      obtain ⟨last, rfl, rfl⟩ :=
        exists_of_shortenNul_append (fun a ha => (ne_of_mem_unitBytes hv ha).1) hbytes'
      refine ⟨unitBytes u ++ unitBytes v, last, (List.append_assoc ..).symm, ?_, hrest⟩
      rw [← encode_pair hunits]
      exact .pair hch
    · -- the second half of a pair opens no other one
      obtain ⟨u', v', hunits', -, hpair', -⟩ := exists_pair hother
      obtain ⟨rfl, -⟩ := List.cons.inj (hw.symm.trans hunits')
      simp only [isHigh, isLow, Bool.and_eq_true, decide_eq_true_eq] at hpair hpair'
      omega
  · obtain ⟨rfl, rfl⟩ := List.cons.inj hus
    have heq : other = pairOf u v := by
      obtain ⟨u', v', hunits', -, -, hother'⟩ := exists_pair hother
      obtain ⟨rfl, hv'⟩ := List.cons.inj (hw.symm.trans hunits')
      obtain ⟨rfl, -⟩ := List.cons.inj hv'
      exact hother'.symm
    obtain ⟨back, rfl, rfl⟩ :=
      exists_of_shortenNul_append (fun a ha => (ne_of_mem_four hother ha).1) hbytes
    exact ⟨_, back, rfl, heq ▸ .shortest other, hrest⟩

theorem shortenNul_eq_nil (h : shortenNul bytes = []) : bytes = [] := by
  match bytes with
  | [] => rfl
  | [a] => cases h
  | a :: b :: rest =>
    rw [shortenNul] at h
    split at h
    · cases h
    · cases h

private theorem isWritten_of_isSpelled (h : IsSpelled (units cs) (shortenNul bytes)) :
    IsWritten cs bytes := by
  induction cs generalizing bytes with
  | nil =>
    obtain rfl := shortenNul_eq_nil h.eq_nil
    exact .nil
  | cons ch cs ih =>
    have hfirst : ∃ form back, bytes = form ++ back ∧ IsForm ch form ∧
        IsSpelled (units cs) (shortenNul back) := by
      by_cases hch : ch.toNat < 0x10000
      · exact exists_isForm_of_small hch h
      · exact exists_isForm_of_large (Nat.le_of_not_lt hch) h
    obtain ⟨form, back, rfl, hc, hcs⟩ := hfirst
    exact .cons hc (ih hcs)

theorem byPasses?_eq_some_iff : byPasses? bytes = some cs ↔ IsWritten cs bytes := by
  unfold byPasses?
  rw [Option.bind_eq_some_iff]
  constructor
  · intro h
    obtain ⟨us, hus, hcs⟩ := h
    obtain rfl := eq_units_of_characters? hcs
    exact isWritten_of_isSpelled (units?_eq_some_iff.1 hus)
  · intro h
    exact ⟨units cs, units?_eq_some_iff.2 h.isSpelled, characters?_units cs⟩

/-- Reading form by form gives the text of the three passes. -/
theorem decode?_eq_byPasses? (bytes : List UInt8) : decode? bytes = byPasses? bytes := by
  apply Option.ext
  intro cs
  rw [decode?_eq_some_iff, byPasses?_eq_some_iff]

end JvmRoutes.Text.ModifiedUtf8
