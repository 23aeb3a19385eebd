import JvmRoutes.Proofs.ClassFile.PoolEscape
import JvmRoutes.Proofs.ClassFile.Texts

/-!
References to the constants of a class file. Each index leads to the constant that starts at it, if
this is of the kind that is asked for, and is refused in all other cases.
-/
namespace JvmRoutes.ClassFile

open ByteReader

/-- The bytes are a well-formed constant, of which this is kept. They are laid out as the format has
it, but for a text, whose characters may have any of their forms. Half a pair of surrogates is no
character. -/
inductive IsConstant : List UInt8 → Constant → Prop
  | text {raw : List UInt8} {s : String} (hl : raw.length < 65536)
    (h : Text.ModifiedUtf8.IsWritten s.toList raw) :
    IsConstant (1 :: (bigEndian 2 raw.length ++ raw)) (.text s)
  | laidOut {c : PoolConstant} {k : Constant} (h : c.Kept k) (hf : c.Fits) : IsConstant c.bytes k

theorem IsConstant.reads {bytes : List UInt8} {k : Constant} (h : IsConstant bytes k)
    (index : Nat) : Reads (constant index) bytes k := by
  cases h with
  | @text raw s hl h =>
    have htext : Reads (textOf raw) [] s := fun _ _ =>
      textOf_eq_ok_iff.2 (Text.ModifiedUtf8.decode?_eq_some_iff.2 h)
    refine (reads_u1 1).bind ((reads_u2 hl).bind ?_)
    exact (reads_take raw).andThen (htext.andThen (reads_pure _))
  | laidOut h hf => exact reads_constant h hf index

/-- The constant starts at the index, which is the first one behind those that the constants in front
of it take. The first constant starts at one. -/
def StartsAt (kept : List Constant) (i : Nat) (k : Constant) : Prop :=
  ∃ front back, kept = front ++ k :: back ∧ i = indexCount front + 1

/-- No constant starts at the index, which is zero, or behind all of them, or the second one of a wide
constant. -/
def IsGap (kept : List Constant) (i : Nat) : Prop :=
  i = 0 ∨ indexCount kept < i ∨ ∃ j k, StartsAt kept j k ∧ k.isWide = true ∧ i = j + 1

section Indices

variable {kept : List Constant} {i : Nat} {k k' : Constant}

theorem entriesOf_append_cons (front back : List Constant) (k : Constant) :
    entriesOf (front ++ k :: back) =
      entriesOf front ++ ((if k.isWide then [some k, none] else [some k]) ++ entriesOf back) := by
  rw [entriesOf, List.flatMap_append, List.flatMap_cons, ← entriesOf, ← entriesOf]

theorem StartsAt.cons (h : StartsAt kept i k) (first : Constant) :
    StartsAt (first :: kept) (first.width + i) k := by
  obtain ⟨front, back, rfl, rfl⟩ := h
  exact ⟨first :: front, back, rfl, by rw [indexCount_cons, Nat.add_assoc]⟩

private theorem startsAt_one (k : Constant) (kept : List Constant) : StartsAt (k :: kept) 1 k :=
  ⟨[], kept, rfl, rfl⟩

/-- Every index belongs to a constant unless it is zero or too large. -/
theorem exists_startsAt_or_isGap (kept : List Constant) (i : Nat) :
    (∃ k, StartsAt kept i k) ∨ IsGap kept i := by
  induction kept generalizing i with
  | nil =>
    refine .inr ?_
    rcases Nat.eq_zero_or_pos i with hi | hi
    · exact .inl hi
    · exact .inr (.inl hi)
  | cons first kept ih =>
    rcases Nat.lt_or_ge first.width i with hlt | hle
    · obtain ⟨j, rfl⟩ := Nat.exists_eq_add_of_lt hlt
      rw [Nat.add_assoc]
      rcases ih (j + 1) with ⟨k, hk⟩ | hz | hlarge | ⟨j', k, hk, hw, hj⟩
      · exact .inl ⟨k, hk.cons first⟩
      · cases hz
      · refine .inr (.inr (.inl ?_))
        rw [indexCount_cons]
        omega
      · exact .inr (.inr (.inr ⟨_, k, hk.cons first, hw, by rw [hj, Nat.add_assoc]⟩))
    · -- The index is one of those of the first constant unless it is zero.
      have hcases : i = 0 ∨ i = 1 ∨ first.isWide = true ∧ i = 2 := by
        unfold Constant.width at hle
        split at hle
        · rename_i hw
          rw [and_iff_right hw]
          omega
        · omega
      rcases hcases with hi | rfl | ⟨hw, rfl⟩
      · exact .inr (.inl hi)
      · exact .inl ⟨first, startsAt_one first kept⟩
      · exact .inr (.inr (.inr ⟨1, first, startsAt_one first kept, hw, rfl⟩))

theorem find?_poolOf (i : Nat) : (poolOf kept).find? (i + 1) = (entriesOf kept)[i]?.join := by
  simp [ConstantPool.find?, poolOf]

theorem StartsAt.find?_eq (h : StartsAt kept i k) : (poolOf kept).find? i = some k := by
  obtain ⟨front, back, rfl, rfl⟩ := h
  rw [find?_poolOf, entriesOf_append_cons, ← length_entriesOf,
    List.getElem?_append_right (Nat.le_refl _), Nat.sub_self]
  split <;> rfl

theorem IsGap.find?_eq (h : IsGap kept i) : (poolOf kept).find? i = none := by
  rcases h with rfl | hlarge | ⟨j, k, ⟨front, back, rfl, rfl⟩, hw, rfl⟩
  · rfl
  · obtain ⟨j, rfl⟩ := Nat.exists_eq_add_of_lt hlarge
    have hnone : (entriesOf kept)[indexCount kept + j]? = none := by
      rw [← length_entriesOf]
      exact List.getElem?_eq_none (Nat.le_add_right _ _)
    rw [find?_poolOf, hnone]
    rfl
  · rw [find?_poolOf, entriesOf_append_cons, ← length_entriesOf,
      List.getElem?_append_right (Nat.le_add_right _ 1), Nat.add_sub_cancel_left, if_pos hw]
    rfl

/-- An index leads to the constant that starts at it, and to nothing else. -/
theorem find?_eq_some_iff : (poolOf kept).find? i = some k ↔ StartsAt kept i k := by
  refine ⟨fun h => ?_, StartsAt.find?_eq⟩
  rcases exists_startsAt_or_isGap kept i with ⟨k', hk'⟩ | hgap
  · have he : k' = k := Option.some.inj (hk'.find?_eq.symm.trans h)
    rwa [he] at hk'
  · rw [hgap.find?_eq] at h
    cases h

theorem StartsAt.unique (h : StartsAt kept i k) (h' : StartsAt kept i k') : k' = k :=
  Option.some.inj (h'.find?_eq.symm.trans h.find?_eq)

theorem StartsAt.not_isGap (h : StartsAt kept i k) : ¬ IsGap kept i := by
  intro hgap
  have hfind := h.find?_eq
  rw [hgap.find?_eq] at hfind
  cases hfind

/-- One constant starts at every index but the gaps. -/
theorem existsUnique_startsAt_iff : (∃! k, StartsAt kept i k) ↔ ¬ IsGap kept i := by
  constructor
  · rintro ⟨k, hk, -⟩
    exact hk.not_isGap
  · intro h
    obtain ⟨k, hk⟩ := (exists_startsAt_or_isGap kept i).resolve_right h
    exact ⟨k, hk, fun _ hk' => hk.unique hk'⟩

end Indices

section Answers

variable (kept : List Constant) (i : Nat)

/-- What is answered for the text at an index. -/
inductive TextAnswer : Except Fault String → Prop
  | found {s : String} (h : StartsAt kept i (.text s)) : TextAnswer (.ok s)
  | refused (h : ∀ s, ¬ StartsAt kept i (.text s)) : TextAnswer (.error (.badReference i))

/-- What is answered for the name of the class at an index. -/
inductive ClassNameAnswer : Except Fault String → Prop
  | found {name : Nat} {s : String} (h : StartsAt kept i (.className name))
    (hs : StartsAt kept name (.text s)) : ClassNameAnswer (.ok (TypeName.dotted s))
  | unnamed {name : Nat} (h : StartsAt kept i (.className name))
    (hs : ∀ s, ¬ StartsAt kept name (.text s)) : ClassNameAnswer (.error (.badReference name))
  | refused (h : ∀ name, ¬ StartsAt kept i (.className name)) :
    ClassNameAnswer (.error (.badReference i))

/-- What is answered for the value at an index. -/
inductive ValueAnswer : Except Fault Element → Prop
  | text {s : String} (h : StartsAt kept i (.text s)) : ValueAnswer (.ok (.text s))
  | integer {n : Int} (h : StartsAt kept i (.integer n)) : ValueAnswer (.ok (.integer n))
  | long {n : Int} (h : StartsAt kept i (.long n)) : ValueAnswer (.ok (.integer n))
  | float {x : Decimal.Binary64} (h : StartsAt kept i (.float x)) : ValueAnswer (.ok (.real x))
  | double {x : Decimal.Binary64} (h : StartsAt kept i (.double x)) : ValueAnswer (.ok (.real x))
  | string {text : Nat} {s : String} (h : StartsAt kept i (.string text))
    (hs : StartsAt kept text (.text s)) : ValueAnswer (.ok (.text s))
  | textless {text : Nat} (h : StartsAt kept i (.string text))
    (hs : ∀ s, ¬ StartsAt kept text (.text s)) : ValueAnswer (.error (.badReference text))
  | refused (h : ∀ k, StartsAt kept i k → k = .other ∨ ∃ name, k = .className name) :
    ValueAnswer (.error (.badReference i))

/-- An index is resolved exactly or refused, whatever is asked for. -/
structure ConstantPool.Resolves (pool : ConstantPool) : Prop where
  text : TextAnswer kept i (pool.text i)
  className : ClassNameAnswer kept i (pool.className i)
  value : ValueAnswer kept i (pool.value i)

theorem textAnswer_poolOf : TextAnswer kept i ((poolOf kept).text i) := by
  unfold ConstantPool.text
  split
  · rename_i s h
    exact .found (find?_eq_some_iff.1 h)
  · rename_i hne
    exact .refused fun s hs => hne s hs.find?_eq

theorem classNameAnswer_poolOf : ClassNameAnswer kept i ((poolOf kept).className i) := by
  unfold ConstantPool.className
  split
  · rename_i name h
    have hi := find?_eq_some_iff.1 h
    have htext := textAnswer_poolOf kept name
    generalize (poolOf kept).text name = answer at htext
    cases htext with
    | found hs => exact .found hi hs
    | refused hs => exact .unnamed hi hs
  · rename_i hne
    exact .refused fun name hname => hne name hname.find?_eq

theorem valueAnswer_poolOf : ValueAnswer kept i ((poolOf kept).value i) := by
  unfold ConstantPool.value
  split
  · rename_i s h
    exact .text (find?_eq_some_iff.1 h)
  · rename_i n h
    exact .integer (find?_eq_some_iff.1 h)
  · rename_i n h
    exact .long (find?_eq_some_iff.1 h)
  · rename_i x h
    exact .float (find?_eq_some_iff.1 h)
  · rename_i x h
    exact .double (find?_eq_some_iff.1 h)
  · rename_i text h
    have hi := find?_eq_some_iff.1 h
    have htext := textAnswer_poolOf kept text
    generalize (poolOf kept).text text = answer at htext
    cases htext with
    | found hs => exact .string hi hs
    | refused hs => exact .textless hi hs
  · rename_i htext hinteger hlong hfloat hdouble hstring
    refine .refused fun k hk => ?_
    have hfind := hk.find?_eq
    cases k with
    | text s => exact (htext s hfind).elim
    | integer n => exact (hinteger n hfind).elim
    | float x => exact (hfloat x hfind).elim
    | long n => exact (hlong n hfind).elim
    | double x => exact (hdouble x hfind).elim
    | className name => exact .inr ⟨name, rfl⟩
    | string text => exact (hstring text hfind).elim
    | other => exact .inl rfl

end Answers

/-- Well-formed constants with the count of their indices in front are read from exactly their bytes.
Each index is then resolved to what the constant that starts at it holds, or refused. -/
theorem resolves_of_isConstant {pieces : List (List UInt8)} {kept : List Constant}
    (h : List.Forall₂ IsConstant pieces kept) (hc : indexCount kept + 1 < 65536) :
    ∃ pool : ConstantPool,
      Reads ConstantPool.read (bigEndian 2 (indexCount kept + 1) ++ pieces.flatten) pool ∧
        ∀ i, pool.Resolves kept i ∧ ((∃! k, StartsAt kept i k) ↔ ¬ IsGap kept i) := by
  have hpieces : List.Forall₂ (fun piece k => ∀ index, Reads (constant index) piece k)
      pieces kept := h.imp fun _ _ hk => hk.reads
  refine ⟨poolOf kept, reads_pool hpieces hc, fun i => ⟨⟨?_, ?_, ?_⟩, existsUnique_startsAt_iff⟩⟩
  · exact textAnswer_poolOf kept i
  · exact classNameAnswer_poolOf kept i
  · exact valueAnswer_poolOf kept i

/-- A name, its class, a long number, two strings, of which one refers to the class, a character of
four bytes and a field. -/
def mixedPieces : List (List UInt8) :=
  [[1, 0, 3, 65, 47, 98], [7, 0, 1], [5, 0, 0, 0, 0, 0, 0, 0, 5], [8, 0, 1], [8, 0, 2],
    [1, 0, 4, 0xF0, 0x9F, 0x98, 0x80], [9, 0, 2, 0, 5]]

def mixedKept : List Constant :=
  [.text "A/b", .className 1, .long 5, .string 1, .string 2, .text "😀", .other]

theorem resolves_of_isConstant_mixed :
    List.Forall₂ IsConstant mixedPieces mixedKept ∧ indexCount mixedKept + 1 = 9 ∧
      ∃ pool : ConstantPool, Reads ConstantPool.read (0 :: 9 :: mixedPieces.flatten) pool ∧
        (∀ i, pool.Resolves mixedKept i ∧
          ((∃! k, StartsAt mixedKept i k) ↔ ¬ IsGap mixedKept i)) ∧
        pool.className 2 = .ok "A.b" ∧ pool.value 3 = .ok (.integer 5) ∧
        pool.value 4 = .error (.badReference 4) ∧ pool.value 5 = .ok (.text "A/b") ∧
        pool.value 6 = .error (.badReference 2) ∧ pool.text 7 = .ok "😀" ∧
        pool.value 8 = .error (.badReference 8) ∧ pool.text 9 = .error (.badReference 9) := by
  have hname : IsConstant [1, 0, 3, 65, 47, 98] (.text "A/b") := by
    have hl : ([65, 47, 98] : List UInt8).length < 65536 := by simp
    exact .text hl (Text.ModifiedUtf8.isWritten_of_decode? rfl)
  have hface : IsConstant [1, 0, 4, 0xF0, 0x9F, 0x98, 0x80] (.text "😀") := by
    have hl : ([0xF0, 0x9F, 0x98, 0x80] : List UInt8).length < 65536 := by simp
    exact .text hl (Text.ModifiedUtf8.isWritten_of_decode? (by decide +kernel))
  have hpieces : List.Forall₂ IsConstant mixedPieces mixedKept :=
    .cons hname (.cons (.laidOut (.className 1) trivial) (.cons (.laidOut (.long 5) trivial)
      (.cons (.laidOut (.string 1) trivial) (.cons (.laidOut (.string 2) trivial)
        (.cons hface (.cons (.laidOut (.code (.fieldRef 2 5)) trivial) .nil))))))
  have hcount : indexCount mixedKept + 1 = 9 := rfl
  obtain ⟨pool, hread, hresolves⟩ := resolves_of_isConstant hpieces (by omega)
  rw [hcount] at hread
  have hpool : poolOf mixedKept = pool := by
    have hown := reads_pool (hpieces.imp fun _ _ hk => hk.reads) (by decide)
    exact (Prod.mk.inj (Except.ok.inj ((hown 0 []).symm.trans (hread 0 [])))).1
  subst hpool
  exact ⟨hpieces, hcount, poolOf mixedKept, hread, hresolves, rfl, rfl, rfl, rfl, rfl, rfl, rfl, rfl⟩

end JvmRoutes.ClassFile
