import JvmRoutes.Proofs.Text.CodeUnits

/-!
The forms in which characters can be written: UTF-8, a pair of surrogates of three bytes each above
U+FFFF, and two bytes for NUL. Bytes have a text exactly when they are forms of its characters, one
after another.
-/
namespace JvmRoutes.Text.ModifiedUtf8

variable {ch : Char} {cs : List Char} {a b c d : UInt8} {n : Nat} {form bytes : List UInt8}

/-- What a character can be written as. -/
inductive IsForm : Char → List UInt8 → Prop
  /-- UTF-8, which takes as few bytes as the character has room in. -/
  | shortest (ch : Char) : IsForm ch (String.utf8EncodeChar ch)
  /-- Two bytes for NUL, neither of which is zero. -/
  | nul : IsForm '\x00' [0xC0, 0x80]
  /-- The surrogates of a character above U+FFFF, with three bytes each. -/
  | pair {ch : Char} (h : 0x10000 ≤ ch.toNat) : IsForm ch (encode (unitsOf ch))

/-- Bytes are forms of characters, one after another. -/
inductive IsWritten : List Char → List UInt8 → Prop
  | nil : IsWritten [] []
  | cons {ch : Char} {cs : List Char} {form rest : List UInt8} (hc : IsForm ch form)
    (hcs : IsWritten cs rest) : IsWritten (ch :: cs) (form ++ rest)

theorem isTail_iff : isTail b = true ↔ 0x80 ≤ b.toNat ∧ b.toNat < 0xC0 := by
  have h : b.toNat ≤ 0xBF ↔ b.toNat < 0xC0 := Nat.lt_succ_iff.symm
  simp [isTail, UInt8.le_iff_toNat_le, h]

private theorem ofNat_eq_of_toNat {m : Nat} (h : a.toNat = m) : UInt8.ofNat m = a := by
  rw [← h, UInt8.ofNat_toNat]

section Shortest

theorem utf8EncodeChar_one (h : ch.toNat < 0x80) :
    String.utf8EncodeChar ch = [UInt8.ofNat ch.toNat] := by
  have hv : ch.val.toNat ≤ 127 := Nat.le_of_lt_succ h
  rw [String.utf8EncodeChar, if_pos hv]
  rfl

/-- Of a character up to U+FFFF other than NUL, UTF-8 has the bytes of its code unit. -/
theorem utf8EncodeChar_eq_unitBytes (h : 0 < ch.toNat) (h' : ch.toNat < 0x10000) :
    String.utf8EncodeChar ch = unitBytes (UInt16.ofNat ch.toNat) := by
  have hu : (UInt16.ofNat ch.toNat).toNat = ch.toNat := by simp; omega
  have hv : ch.val.toNat = ch.toNat := rfl
  unfold String.utf8EncodeChar unitBytes
  rw [hu, hv]
  dsimp only
  by_cases h1 : ch.toNat < 0x80
  · rw [if_pos (by omega), if_pos ⟨h, h1⟩]
  by_cases h2 : ch.toNat < 0x800
  · have ha : ch.toNat / 64 % 32 + 192 = 0xC0 + ch.toNat / 0x40 := by omega
    rw [if_neg (by omega), if_pos (by omega), if_neg (by omega), if_pos h2, ha, Nat.add_comm 128]
  · have ha : ch.toNat / 4096 % 16 + 224 = 0xE0 + ch.toNat / 0x1000 := by omega
    rw [if_neg (by omega), if_neg (by omega), if_pos (by omega), if_neg (by omega), if_neg h2, ha,
      Nat.add_comm 128, Nat.add_comm 128]

theorem utf8EncodeChar_four (h : 0x10000 ≤ ch.toNat) :
    String.utf8EncodeChar ch =
      [UInt8.ofNat (0xF0 + ch.toNat / 0x40000), UInt8.ofNat (0x80 + ch.toNat / 0x1000 % 0x40),
        UInt8.ofNat (0x80 + ch.toNat / 0x40 % 0x40), UInt8.ofNat (0x80 + ch.toNat % 0x40)] := by
  have hlt := toNat_lt ch
  have hv : ch.val.toNat = ch.toNat := rfl
  have ha : ch.toNat / 262144 % 8 + 240 = 0xF0 + ch.toNat / 0x40000 := by omega
  unfold String.utf8EncodeChar
  rw [hv]
  dsimp only
  rw [if_neg (by omega), if_neg (by omega), if_neg (by omega), ha, Nat.add_comm 128,
    Nat.add_comm 128, Nat.add_comm 128]

end Shortest

/-- A unit in its two-byte form has no shorter one, NUL apart. -/
theorem eq_unitBytes_of_two (ha : 0xC2 ≤ a.toNat) (ha' : a.toNat < 0xE0) (hb : isTail b = true) :
    0x80 ≤ payload (a.toNat - 0xC0) [b] ∧ payload (a.toNat - 0xC0) [b] < 0x800 ∧
      [a, b] = unitBytes (UInt16.ofNat (payload (a.toNat - 0xC0) [b])) := by
  rw [isTail_iff] at hb
  have hn : payload (a.toNat - 0xC0) [b] = (a.toNat - 0xC0) * 64 + (b.toNat - 0x80) := rfl
  have hu : (UInt16.ofNat (payload (a.toNat - 0xC0) [b])).toNat = payload (a.toNat - 0xC0) [b] := by
    simp; omega
  refine ⟨by omega, by omega, ?_⟩
  rw [unitBytes, hu, if_neg (by omega), if_pos (by omega), ofNat_eq_of_toNat (a := a) (by omega),
    ofNat_eq_of_toNat (a := b) (by omega)]

/-- The two-byte forms are those of NUL and of characters from U+0080 to U+07FF. -/
theorem isForm_of_two? (h : two? a b = some ch) : IsForm ch [a, b] := by
  unfold two? at h
  split at h
  · rename_i hnul
    simp only [Bool.and_eq_true, decide_eq_true_eq] at hnul
    obtain ⟨rfl, rfl⟩ := hnul
    obtain rfl := Option.some.inj h
    exact .nul
  split at h
  · rename_i hbytes
    simp only [Bool.and_eq_true, decide_eq_true_eq, UInt8.le_iff_toNat_le] at hbytes
    obtain ⟨⟨ha, ha'⟩, hb⟩ := hbytes
    obtain ⟨hlo, hhi, hform⟩ := eq_unitBytes_of_two ha (Nat.lt_succ_of_le ha') hb
    have hn : ch.toNat = payload (a.toNat - 0xC0) [b] := by
      obtain rfl := Option.some.inj h
      exact toNat_ofNat (Or.inl (by omega))
    rw [hform, ← hn, ← utf8EncodeChar_eq_unitBytes (by omega) (by omega)]
    exact .shortest ch
  · contradiction

/-- A unit in its three-byte form has no shorter one. -/
theorem eq_unitBytes_of_unit? (h : unit? a b c = some n) :
    0x800 ≤ n ∧ n < 0x10000 ∧ [a, b, c] = unitBytes (UInt16.ofNat n) := by
  unfold unit? at h
  dsimp only [payload, List.foldl_cons, List.foldl_nil] at h
  split at h
  · rename_i hbytes
    simp only [Bool.and_eq_true, decide_eq_true_eq, isTail_iff, UInt8.le_iff_toNat_le] at hbytes
    obtain ⟨⟨⟨ha, ha'⟩, hb⟩, hc⟩ := hbytes
    change 0xE0 ≤ a.toNat at ha
    change a.toNat ≤ 0xEF at ha'
    split at h
    · rename_i hlo
      have hn := Option.some.inj h
      have hhi : n < 0x10000 := by omega
      have hu : (UInt16.ofNat n).toNat = n := by simp; omega
      refine ⟨by omega, hhi, ?_⟩
      rw [unitBytes, hu, if_neg (by omega), if_neg (by omega),
        ofNat_eq_of_toNat (a := a) (by omega), ofNat_eq_of_toNat (a := b) (by omega),
        ofNat_eq_of_toNat (a := c) (by omega)]
    · contradiction
  · contradiction

/-- The four-byte forms are those of UTF-8. -/
theorem four?_eq_some_iff : four? a b c d = some ch ↔
    0x10000 ≤ ch.toNat ∧ [a, b, c, d] = String.utf8EncodeChar ch := by
  constructor
  · intro h
    unfold four? at h
    dsimp only [payload, List.foldl_cons, List.foldl_nil] at h
    split at h
    · rename_i hbytes
      simp only [Bool.and_eq_true, decide_eq_true_eq, isTail_iff, UInt8.le_iff_toNat_le] at hbytes
      obtain ⟨⟨⟨⟨ha, ha'⟩, hb⟩, hc⟩, hd⟩ := hbytes
      change 0xF0 ≤ a.toNat at ha
      change a.toNat ≤ 0xF4 at ha'
      split at h
      · rename_i hrange
        simp only [Bool.and_eq_true, decide_eq_true_eq] at hrange
        have hv : ((((a.toNat - 0xF0) * 64 + (b.toNat - 0x80)) * 64 + (c.toNat - 0x80)) * 64 +
            (d.toNat - 0x80)).isValidChar := Or.inr ⟨by omega, by omega⟩
        have hn : ch.toNat = (((a.toNat - 0xF0) * 64 + (b.toNat - 0x80)) * 64 +
            (c.toNat - 0x80)) * 64 + (d.toNat - 0x80) := by
          rw [← Option.some.inj h, toNat_ofNat hv]
        refine ⟨by omega, ?_⟩
        rw [utf8EncodeChar_four (by omega), ofNat_eq_of_toNat (a := a) (by omega),
          ofNat_eq_of_toNat (a := b) (by omega), ofNat_eq_of_toNat (a := c) (by omega),
          ofNat_eq_of_toNat (a := d) (by omega)]
      · cases h
    · cases h
  · intro h
    obtain ⟨hlo, hbytes⟩ := h
    rw [utf8EncodeChar_four hlo] at hbytes
    simp only [List.cons.injEq, and_true] at hbytes
    obtain ⟨rfl, rfl, rfl, rfl⟩ := hbytes
    have hhi := toNat_lt ch
    have ha : (UInt8.ofNat (0xF0 + ch.toNat / 0x40000)).toNat = 0xF0 + ch.toNat / 0x40000 := by
      simp; omega
    have hb : (UInt8.ofNat (0x80 + ch.toNat / 0x1000 % 0x40)).toNat =
        0x80 + ch.toNat / 0x1000 % 0x40 := by simp; omega
    have hc : (UInt8.ofNat (0x80 + ch.toNat / 0x40 % 0x40)).toNat =
        0x80 + ch.toNat / 0x40 % 0x40 := by simp; omega
    have hd : (UInt8.ofNat (0x80 + ch.toNat % 0x40)).toNat = 0x80 + ch.toNat % 0x40 := by
      simp; omega
    have hlead : 0xF0 ≤ UInt8.ofNat (0xF0 + ch.toNat / 0x40000) ∧
        UInt8.ofNat (0xF0 + ch.toNat / 0x40000) ≤ 0xF4 := by
      rw [UInt8.le_iff_toNat_le, UInt8.le_iff_toNat_le, ha]
      constructor
      · simp
      · simp; omega
    have hp : payload (0xF0 + ch.toNat / 0x40000 - 0xF0)
        [UInt8.ofNat (0x80 + ch.toNat / 0x1000 % 0x40), UInt8.ofNat (0x80 + ch.toNat / 0x40 % 0x40),
          UInt8.ofNat (0x80 + ch.toNat % 0x40)] = ch.toNat := by
      simp only [payload, List.foldl_cons, List.foldl_nil, hb, hc, hd]
      omega
    have hrange : (decide (0x10000 ≤ ch.toNat) && decide (ch.toNat ≤ 0x10FFFF)) = true := by
      simp only [Bool.and_eq_true, decide_eq_true_eq]
      omega
    simp only [four?, hlead.1, hlead.2, decide_true,
      isTail_ofNat (Nat.mod_lt _ (by decide : 0 < 0x40)), Bool.and_self, if_true, ha, hp, hrange,
      Char.ofNat_toNat]

theorem decode?_four (h : 0xF0 ≤ a.toNat) (rest : List UInt8) :
    decode? (a :: b :: c :: d :: rest) =
      (four? a b c d).bind fun ch => (decode? rest).map (ch :: ·) := by
  have ha : ¬ a < 0x80 := not_lt_of_le_toNat (Nat.le_trans (by decide) h)
  have ha' : ¬ a < 0xE0 := not_lt_of_le_toNat (Nat.le_trans (by decide) h)
  have ha'' : ¬ a < 0xF0 := not_lt_of_le_toNat h
  conv => lhs; unfold decode?
  simp only [if_neg ha, if_neg ha', if_neg ha'']
  rfl

theorem decode?_shortest (ch : Char) (rest : List UInt8) :
    decode? (String.utf8EncodeChar ch ++ rest) = (decode? rest).map (ch :: ·) := by
  by_cases h1 : ch.toNat < 0x80
  · have hn : (UInt8.ofNat ch.toNat).toNat = ch.toNat := by simp; omega
    rw [utf8EncodeChar_one h1, List.singleton_append, decode?_short _ _ (by omega), hn,
      Char.ofNat_toNat]
  by_cases h2 : ch.toNat < 0x10000
  · have hu : (UInt16.ofNat ch.toNat).toNat = ch.toNat := by simp; omega
    rw [utf8EncodeChar_eq_unitBytes (by omega) h2, decode?_unitBytes (not_isSurrogate_char h2), hu,
      Char.ofNat_toNat]
  · have hlo : 0x10000 ≤ ch.toNat := Nat.le_of_not_lt h2
    have ha : 0xF0 ≤ (UInt8.ofNat (0xF0 + ch.toNat / 0x40000)).toNat := by
      have := toNat_lt ch
      simp
      omega
    have hfour := four?_eq_some_iff.2 ⟨hlo, (utf8EncodeChar_four hlo).symm⟩
    rw [utf8EncodeChar_four hlo, List.cons_append, List.cons_append, List.cons_append,
      List.singleton_append, decode?_four ha, hfour, Option.bind_some]

theorem encode_pair {u v : UInt16} (h : unitsOf ch = [u, v]) :
    encode (unitsOf ch) = unitBytes u ++ unitBytes v := by
  rw [h, encode, List.flatMap_cons, List.flatMap_cons, List.flatMap_nil, List.append_nil]

theorem decode?_pair (h : 0x10000 ≤ ch.toNat) (rest : List UInt8) :
    decode? (encode (unitsOf ch) ++ rest) = (decode? rest).map (ch :: ·) := by
  obtain ⟨u, v, hunits, hs, hp, hch⟩ := exists_pair h
  rw [encode_pair hunits, List.append_assoc, decode?_surrogate_unit hs, if_pos hp, hch]

/-- A form is read as its character, whatever follows it. -/
theorem IsForm.decode? (h : IsForm ch form) (rest : List UInt8) :
    ModifiedUtf8.decode? (form ++ rest) = (ModifiedUtf8.decode? rest).map (ch :: ·) := by
  cases h with
  | shortest => exact decode?_shortest ch rest
  | nul => exact decode?_unitBytes (u := 0) (by decide) rest
  | pair h => exact decode?_pair h rest

theorem IsWritten.decode? (h : IsWritten cs bytes) : ModifiedUtf8.decode? bytes = some cs := by
  induction h with
  | nil => rfl
  | cons hc _ ih => rw [hc.decode?, ih, Option.map_some]

/-- A unit that is no surrogate is the character of its form. -/
theorem isForm_of_unit? (h : unit? a b c = some n) (hn : (!isHigh n && !isLow n) = true) :
    IsForm (Char.ofNat n) [a, b, c] := by
  obtain ⟨hlo, hhi, hbytes⟩ := eq_unitBytes_of_unit? h
  simp only [isHigh, isLow, Bool.and_eq_true, Bool.not_eq_true', Bool.and_eq_false_iff,
    decide_eq_false_iff_not] at hn
  have hv : n.isValidChar := by
    by_cases hlt : n < 0xD800
    · exact Or.inl hlt
    · exact Or.inr ⟨by omega, by omega⟩
  have hform : String.utf8EncodeChar (Char.ofNat n) = [a, b, c] := by
    rw [utf8EncodeChar_eq_unitBytes (by rw [toNat_ofNat hv]; omega) (by rwa [toNat_ofNat hv]),
      toNat_ofNat hv, hbytes]
  rw [← hform]
  exact .shortest _

/-- Two units that are a pair of surrogates are a form of its character. -/
theorem isForm_of_pair? {d e f : UInt8} {low : Nat} (h : unit? a b c = some n)
    (hl : unit? d e f = some low) (hp : pair? n low = some ch) :
    IsForm ch ([a, b, c] ++ [d, e, f]) := by
  obtain ⟨-, hhi, hbytes⟩ := eq_unitBytes_of_unit? h
  obtain ⟨-, hhi', hbytes'⟩ := eq_unitBytes_of_unit? hl
  have hu : (UInt16.ofNat n).toNat = n := by simp; omega
  have hv : (UInt16.ofNat low).toNat = low := by simp; omega
  unfold pair? at hp
  split at hp
  · rename_i hpair
    have hch : pairOf (UInt16.ofNat n) (UInt16.ofNat low) = ch := by
      rw [pairOf, hu, hv]
      exact Option.some.inj hp
    have hunits : unitsOf ch = [UInt16.ofNat n, UInt16.ofNat low] := by
      rw [← hch]
      exact unitsOf_pairOf (by rw [hu, hv]; exact hpair)
    have hform : encode (unitsOf ch) = [a, b, c] ++ [d, e, f] := by
      rw [encode_pair hunits, hbytes, hbytes']
    have hlarge : 0x10000 ≤ ch.toNat := by
      by_contra hsmall
      rw [unitsOf, if_pos (Nat.lt_of_not_le hsmall)] at hunits
      have hlength := congrArg List.length hunits
      simp at hlength
    rw [← hform]
    exact .pair hlarge
  · cases hp

/-- Bytes that have a text are forms of its characters. -/
theorem isWritten_of_decode? (h : decode? bytes = some cs) : IsWritten cs bytes := by
  induction bytes using decode?.induct generalizing cs with
  | case1 =>
    obtain rfl := Option.some.inj h
    exact .nil
  | case2 a rest ha ih =>
    have ha' : a.toNat < 0x80 := UInt8.lt_iff_toNat_lt.1 ha
    rw [decode?_short a rest ha'] at h
    obtain ⟨ds, hds, rfl⟩ := Option.map_eq_some_iff.1 h
    have hn : (Char.ofNat a.toNat).toNat = a.toNat := toNat_ofNat (Or.inl (by omega))
    have hform : String.utf8EncodeChar (Char.ofNat a.toNat) = [a] := by
      rw [utf8EncodeChar_one (by omega), hn, UInt8.ofNat_toNat]
    have hc : IsForm (Char.ofNat a.toNat) [a] := hform ▸ .shortest _
    exact .cons hc (ih hds)
  | case3 a ha => simp [decode?, ha] at h
  | case4 a ha b rest ha' ih =>
    have hlo : 0x80 ≤ a.toNat := le_toNat_of_not_lt ha
    rw [decode?_two a b rest hlo (UInt8.lt_iff_toNat_lt.1 ha')] at h
    obtain ⟨ch, htwo, h⟩ := Option.bind_eq_some_iff.1 h
    obtain ⟨ds, hds, rfl⟩ := Option.map_eq_some_iff.1 h
    exact .cons (isForm_of_two? htwo) (ih hds)
  | case5 a ha b ha' => simp [decode?, ha, ha'] at h
  | case6 a ha b ha' c rest ha'' ih ihPair =>
    have hlo : 0xE0 ≤ a.toNat := le_toNat_of_not_lt ha'
    rw [decode?_three a b c rest hlo (UInt8.lt_iff_toNat_lt.1 ha'')] at h
    obtain ⟨n, hunit, h⟩ := Option.bind_eq_some_iff.1 h
    split at h
    · rename_i hn
      obtain ⟨ds, hds, rfl⟩ := Option.map_eq_some_iff.1 h
      exact .cons (isForm_of_unit? hunit hn) (ih hds)
    split at h
    · rename_i d e f rest
      obtain ⟨low, hlow, h⟩ := Option.bind_eq_some_iff.1 h
      obtain ⟨ch, hpair, h⟩ := Option.bind_eq_some_iff.1 h
      obtain ⟨ds, hds, rfl⟩ := Option.map_eq_some_iff.1 h
      exact .cons (isForm_of_pair? hunit hlow hpair) (ihPair hds)
    · cases h
  | case7 a ha b ha' c ha'' => simp [decode?, ha, ha', ha''] at h
  | case8 a ha b ha' c ha'' d rest ih =>
    have hlo : 0xF0 ≤ a.toNat := le_toNat_of_not_lt ha''
    rw [decode?_four hlo] at h
    obtain ⟨ch, hfour, h⟩ := Option.bind_eq_some_iff.1 h
    obtain ⟨ds, hds, rfl⟩ := Option.map_eq_some_iff.1 h
    have hc : IsForm ch [a, b, c, d] := (four?_eq_some_iff.1 hfour).2 ▸ .shortest ch
    exact .cons hc (ih hds)

theorem decode?_eq_some_iff : decode? bytes = some cs ↔ IsWritten cs bytes :=
  ⟨isWritten_of_decode?, IsWritten.decode?⟩

end JvmRoutes.Text.ModifiedUtf8
