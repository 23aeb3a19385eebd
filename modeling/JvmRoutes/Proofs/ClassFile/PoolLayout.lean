import JvmRoutes.Proofs.ClassFile.Reading
import JvmRoutes.Proofs.Text.CodeUnits

/-!
The constants of a class file as its format lays them out. Reading them gives every one of them at
the index that it starts at, if no text holds half a pair of surrogates.
-/
namespace JvmRoutes.ClassFile

/-- What a constant says that only code refers to. Numbers are indices of other constants. -/
inductive CodeConstant
  | fieldRef (owner nameAndType : UInt16)
  | methodRef (owner nameAndType : UInt16)
  | interfaceMethodRef (owner nameAndType : UInt16)
  | nameAndType (name descriptor : UInt16)
  | methodHandle (kind : UInt8) (reference : UInt16)
  | methodType (descriptor : UInt16)
  | dynamic (bootstrap nameAndType : UInt16)
  | invokeDynamic (bootstrap nameAndType : UInt16)
  | moduleName (name : UInt16)
  | packageName (name : UInt16)
  deriving DecidableEq, Repr

inductive PoolConstant
  | text (units : List UInt16)
  | integer (n : Int32)
  | float (bits : UInt32)
  | long (n : Int64)
  | double (bits : UInt64)
  | className (name : UInt16)
  | string (value : UInt16)
  | code (c : CodeConstant)
  deriving DecidableEq, Repr

def indexBytes (n : UInt16) : List UInt8 := bigEndian 2 n.toNat

namespace CodeConstant

/-- The number that says of which kind a constant is. -/
def tag : CodeConstant → UInt8
  | fieldRef _ _ => 9
  | methodRef _ _ => 10
  | interfaceMethodRef _ _ => 11
  | nameAndType _ _ => 12
  | methodHandle _ _ => 15
  | methodType _ => 16
  | dynamic _ _ => 17
  | invokeDynamic _ _ => 18
  | moduleName _ => 19
  | packageName _ => 20

def payload : CodeConstant → List UInt8
  | fieldRef a b | methodRef a b | interfaceMethodRef a b | nameAndType a b | dynamic a b
  | invokeDynamic a b => indexBytes a ++ indexBytes b
  | methodHandle kind reference => kind :: indexBytes reference
  | methodType a | moduleName a | packageName a => indexBytes a

end CodeConstant

namespace PoolConstant

def bytes : PoolConstant → List UInt8
  | text us =>
    1 :: (bigEndian 2 (Text.ModifiedUtf8.encode us).length ++ Text.ModifiedUtf8.encode us)
  | integer n => 3 :: bigEndian 4 n.toUInt32.toNat
  | float bits => 4 :: bigEndian 4 bits.toNat
  | long n => 5 :: bigEndian 8 n.toUInt64.toNat
  | double bits => 6 :: bigEndian 8 bits.toNat
  | className name => 7 :: indexBytes name
  | string value => 8 :: indexBytes value
  | code c => c.tag :: c.payload

def width : PoolConstant → Nat
  | long _ | double _ => 2
  | _ => 1

/-- Whether the bytes of a text are no more than its length can say. -/
def Fits : PoolConstant → Prop
  | text us => (Text.ModifiedUtf8.encode us).length < 65536
  | _ => True

/-- Whether a text, if the constant is one, has its surrogates in pairs. -/
def IsPaired : PoolConstant → Prop
  | text us => ∃ s : String, us = Text.ModifiedUtf8.units s.toList
  | _ => True

/-- What is kept of a constant. -/
inductive Kept : PoolConstant → Constant → Prop
  | text {us : List UInt16} {s : String} (h : us = Text.ModifiedUtf8.units s.toList) :
    Kept (text us) (.text s)
  | integer (n : Int32) : Kept (integer n) (.integer n.toInt)
  | float (bits : UInt32) : Kept (float bits) (.float (.ofBinary32 bits))
  | long (n : Int64) : Kept (long n) (.long n.toInt)
  | double (bits : UInt64) : Kept (double bits) (.double ⟨bits⟩)
  | className (name : UInt16) : Kept (className name) (.className name.toNat)
  | string (value : UInt16) : Kept (string value) (.string value.toNat)
  | code (c : CodeConstant) : Kept (code c) .other

theorem Kept.width_eq {c : PoolConstant} {k : Constant} (h : Kept c k) :
    c.width = if k.isWide then 2 else 1 := by
  cases h <;> rfl

/-- Of every constant something is kept, unless it is a text with half a pair of surrogates. -/
theorem exists_kept {c : PoolConstant} (h : c.IsPaired) : ∃ k, Kept c k := by
  cases c with
  | text us =>
    obtain ⟨s, hs⟩ := h
    exact ⟨_, .text hs⟩
  | integer n => exact ⟨_, .integer n⟩
  | float bits => exact ⟨_, .float bits⟩
  | long n => exact ⟨_, .long n⟩
  | double bits => exact ⟨_, .double bits⟩
  | className name => exact ⟨_, .className name⟩
  | string value => exact ⟨_, .string value⟩
  | code c => exact ⟨_, .code c⟩

end PoolConstant

section Numbers

private theorem signed_bigEndian {size n : Nat} (h : n < 256 ^ size) :
    signed (bigEndian size n) = if 2 * n < 256 ^ size then (n : Int) else n - 256 ^ size := by
  have hp : ((Nat.pow 256 size : Nat) : Int) = 256 ^ size := Int.natCast_pow 256 size
  rw [signed, unsigned_bigEndian, Nat.mod_eq_of_lt h, length_bigEndian]
  simp only [hp]
  rfl

private theorem signed_int32 (n : Int32) : signed (bigEndian 4 n.toUInt32.toNat) = n.toInt := by
  rw [signed_bigEndian n.toUInt32.toNat_lt, Int32.toInt, BitVec.toInt_eq_toNat_cond]
  rfl

private theorem signed_int64 (n : Int64) : signed (bigEndian 8 n.toUInt64.toNat) = n.toInt := by
  rw [signed_bigEndian n.toUInt64.toNat_lt, Int64.toInt, BitVec.toInt_eq_toNat_cond]
  rfl

private theorem ofNat_unsigned_uint32 (bits : UInt32) :
    UInt32.ofNat (unsigned (bigEndian 4 bits.toNat)) = bits := by
  have h : bits.toNat < 256 ^ 4 := bits.toNat_lt
  rw [unsigned_bigEndian, Nat.mod_eq_of_lt h, UInt32.ofNat_toNat]

private theorem ofNat_unsigned_uint64 (bits : UInt64) :
    UInt64.ofNat (unsigned (bigEndian 8 bits.toNat)) = bits := by
  have h : bits.toNat < 256 ^ 8 := bits.toNat_lt
  rw [unsigned_bigEndian, Nat.mod_eq_of_lt h, UInt64.ofNat_toNat]

end Numbers

namespace ByteReader

theorem reads_index (n : UInt16) : Reads u2 (indexBytes n) n.toNat := reads_u2 n.toNat_lt

/-- The next bytes of a known number. -/
theorem reads_bigEndian (size n : Nat) :
    Reads (take size) (bigEndian size n) (bigEndian size n) := by
  have h := reads_take (bigEndian size n)
  rwa [length_bigEndian] at h

theorem reads_textOf {us : List UInt16} {s : String} (h : us = Text.ModifiedUtf8.units s.toList) :
    Reads (textOf (Text.ModifiedUtf8.encode us)) [] s := by
  have hd := Text.ModifiedUtf8.decode?_encode_eq_some_iff.2 h
  rw [textOf, hd]
  simpa using reads_pure (String.ofList s.toList)

theorem reads_constantBody {c : PoolConstant} {k : Constant} (h : c.Kept k) (hf : c.Fits)
    (index : Nat) : ∃ tag payload, c.bytes = tag :: payload ∧
      Reads (constantBody tag.toNat index) payload k := by
  cases h with
  | text hs =>
    refine ⟨_, _, rfl, (reads_u2 hf).bind ?_⟩
    exact (reads_take _).andThen ((reads_textOf hs).andThen (reads_pure _))
  | integer n =>
    refine ⟨_, _, rfl, (reads_bigEndian _ _).andThen ?_⟩
    rw [signed_int32]
    exact reads_pure _
  | float bits =>
    refine ⟨_, _, rfl, (reads_bigEndian _ _).andThen ?_⟩
    rw [ofNat_unsigned_uint32]
    exact reads_pure _
  | long n =>
    refine ⟨_, _, rfl, (reads_bigEndian _ _).andThen ?_⟩
    rw [signed_int64]
    exact reads_pure _
  | double bits =>
    refine ⟨_, _, rfl, (reads_bigEndian _ _).andThen ?_⟩
    rw [ofNat_unsigned_uint64]
    exact reads_pure _
  | className name => exact ⟨_, _, rfl, (reads_index name).andThen (reads_pure _)⟩
  | string value => exact ⟨_, _, rfl, (reads_index value).andThen (reads_pure _)⟩
  | code c =>
    refine ⟨_, _, rfl, ?_⟩
    have hs : Reads (do skip c.payload.length; return Constant.other) c.payload Constant.other :=
      (reads_skip rfl).andThen (reads_pure _)
    cases c <;> exact hs

/-- A constant is read from its bytes. -/
theorem reads_constant {c : PoolConstant} {k : Constant} (h : c.Kept k) (hf : c.Fits)
    (index : Nat) : Reads (constant index) c.bytes k := by
  obtain ⟨tag, payload, hb, hr⟩ := reads_constantBody h hf index
  rw [hb]
  exact (reads_u1 tag).bind hr

end ByteReader

def widths (pool : List PoolConstant) : Nat := (pool.map (·.width)).sum

theorem widths_cons (c : PoolConstant) (pool : List PoolConstant) :
    widths (c :: pool) = c.width + widths pool := by
  simp [widths]

/-- The constant that starts at an index. The first one starts at one. -/
def constantAt? : List PoolConstant → (index : Nat) → Option PoolConstant
  | [], _ => none
  | c :: rest, index =>
    if index = 1 then some c
    else if index ≤ c.width then none
    else constantAt? rest (index - c.width)

/-- The bytes of constants, with the count of indices in front of them. -/
def poolBytes (pool : List PoolConstant) : List UInt8 :=
  bigEndian 2 (widths pool + 1) ++ pool.flatMap (·.bytes)

def Constant.width (k : Constant) : Nat := if k.isWide then 2 else 1

def indexCount (kept : List Constant) : Nat := (kept.map (·.width)).sum

theorem indexCount_cons (k : Constant) (kept : List Constant) :
    indexCount (k :: kept) = k.width + indexCount kept := by
  simp [indexCount]

/-- What the indices of constants have. -/
def entriesOf (kept : List Constant) : List (Option Constant) :=
  kept.flatMap fun k => if k.isWide then [some k, none] else [some k]

/-- As many entries are made of a constant as it takes indices. -/
theorem Constant.length_entries (k : Constant) :
    (if k.isWide then [some k, none] else [some k]).length = k.width := by
  unfold Constant.width
  split <;> rfl

theorem length_entriesOf (kept : List Constant) : (entriesOf kept).length = indexCount kept := by
  induction kept with
  | nil => rfl
  | cons k kept ih =>
    rw [indexCount_cons, ← ih, ← k.length_entries, entriesOf, List.flatMap_cons,
      List.length_append, ← entriesOf]

/-- The constants of the pool that is read from constants of which these are kept. -/
def poolOf (kept : List Constant) : ConstantPool := ⟨(entriesOf kept).toArray⟩

namespace ByteReader

variable {pieces : List (List UInt8)} {kept : List Constant}

/-- Constants one after another are read with as many indices as they take. -/
theorem reads_constants
    (h : List.Forall₂ (fun piece k => ∀ index, Reads (constant index) piece k) pieces kept)
    (index : Nat) :
    Reads (constants index false (indexCount kept)) pieces.flatten (entriesOf kept) := by
  induction h generalizing index with
  | nil => exact reads_pure []
  | @cons piece k pieces kept hk _ ih =>
    rw [List.flatten_cons, indexCount_cons, Nat.add_comm, Constant.width, entriesOf,
      List.flatMap_cons, ← entriesOf]
    cases hw : k.isWide with
    | false =>
      rw [if_neg Bool.false_ne_true, if_neg Bool.false_ne_true]
      refine (hk index).bind (Reads.andThen ?_ (reads_pure _))
      rw [hw]
      exact ih (index + 1)
    | true =>
      rw [if_pos rfl, if_pos rfl]
      refine (hk index).bind (Reads.andThen ?_ (reads_pure _))
      rw [hw]
      exact (ih (index + 1 + 1)).andThen (reads_pure _)

/-- The pool is read from the count of its indices and the bytes of its constants. -/
theorem reads_pool
    (h : List.Forall₂ (fun piece k => ∀ index, Reads (constant index) piece k) pieces kept)
    (hc : indexCount kept + 1 < 65536) :
    Reads ConstantPool.read (bigEndian 2 (indexCount kept + 1) ++ pieces.flatten)
      (poolOf kept) := by
  refine (reads_u2 hc).bind ?_
  rw [Nat.add_sub_cancel]
  exact (reads_constants h 1).andThen (reads_pure _)

end ByteReader

/-- What is kept of constants takes the indices that they take. -/
theorem indexCount_eq_widths {pool : List PoolConstant} {kept : List Constant}
    (h : List.Forall₂ PoolConstant.Kept pool kept) : indexCount kept = widths pool := by
  induction h with
  | nil => rfl
  | cons hk _ ih => rw [indexCount_cons, widths_cons, ih, hk.width_eq, Constant.width]

/-- A constant stands at the index that it starts at. -/
theorem getElem?_entriesOf {pool : List PoolConstant} {kept : List Constant}
    (h : List.Forall₂ PoolConstant.Kept pool kept) {index : Nat} {c : PoolConstant}
    (hc : constantAt? pool (index + 1) = some c) :
    ∃ k, (entriesOf kept)[index]? = some (some k) ∧ c.Kept k := by
  induction h generalizing index with
  | nil => simp [constantAt?] at hc
  | @cons d k pool kept hk _ ih =>
    have hw := hk.width_eq
    simp only [constantAt?] at hc
    rw [entriesOf, List.flatMap_cons, ← entriesOf]
    split at hc
    · rename_i hi
      obtain rfl : d = c := Option.some.inj hc
      obtain rfl : index = 0 := by omega
      exact ⟨k, by split <;> rfl, hk⟩
    · split at hc
      · simp at hc
      · rename_i hi hle
        have hsub : index + 1 - d.width = index - d.width + 1 := by omega
        rw [hsub] at hc
        obtain ⟨k', hk', hkept⟩ := ih hc
        refine ⟨k', ?_, hkept⟩
        have hlen := k.length_entries.trans hw.symm
        rw [List.getElem?_append_right (by omega), hlen, hk']

/-- Every constant is found at the index that it starts at. -/
def ConstantPool.Holds (pool : ConstantPool) (constants : List PoolConstant) : Prop :=
  ∀ index c, constantAt? constants index = some c → ∃ k, pool.find? index = some k ∧ c.Kept k

/-- Constants with their surrogates in pairs are read as a pool that holds them. -/
theorem exists_reads_pool {constants : List PoolConstant} (hw : widths constants < 65535)
    (hf : ∀ c ∈ constants, c.Fits) (hp : ∀ c ∈ constants, c.IsPaired) :
    ∃ pool : ConstantPool, ByteReader.Reads ConstantPool.read (poolBytes constants) pool ∧
      pool.Holds constants := by
  have hk : ∃ kept, List.Forall₂ PoolConstant.Kept constants kept := by
    clear hw hf
    induction constants with
    | nil => exact ⟨[], .nil⟩
    | cons c rest ih =>
      obtain ⟨k, hk⟩ := PoolConstant.exists_kept (hp c List.mem_cons_self)
      obtain ⟨kept, hkept⟩ := ih fun c hc => hp c (List.mem_cons_of_mem _ hc)
      exact ⟨k :: kept, .cons hk hkept⟩
  obtain ⟨kept, hk⟩ := hk
  refine ⟨poolOf kept, ?_, fun index c hc => ?_⟩
  · have hpieces : List.Forall₂ (fun piece k => ∀ index, ByteReader.Reads (constant index) piece k)
        (constants.map (·.bytes)) kept := by
      rw [List.forall₂_map_left_iff]
      exact forall₂_imp_of_mem hk fun c hc k hk => ByteReader.reads_constant hk (hf c hc)
    have hcount := indexCount_eq_widths hk
    have hread := ByteReader.reads_pool hpieces (by omega)
    rwa [hcount, ← List.flatMap_def] at hread
  · cases index with
    | zero =>
      cases constants with
      | nil => simp [constantAt?] at hc
      | cons d rest => simp [constantAt?] at hc
    | succ index =>
      obtain ⟨k, hentry, hkept⟩ := getElem?_entriesOf hk hc
      exact ⟨k, by simp [ConstantPool.find?, poolOf, hentry], hkept⟩

end JvmRoutes.ClassFile
