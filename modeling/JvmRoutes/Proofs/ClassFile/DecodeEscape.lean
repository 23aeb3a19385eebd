import JvmRoutes.Proofs.ClassFile.AnnotationEscape
import JvmRoutes.Proofs.ClassFile.PoolEscape
import JvmRoutes.Proofs.ClassFile.Silence

/-!
Decoding fails where the format is not broken at two places only: at a constant text that has no
characters, and at a character in an annotation that is given by something else than the code of
one.
-/
namespace JvmRoutes.ClassFile

open ByteReader

section Tables

variable {pool : ConstantPool} {tables : Attributes}

theorem not_escapes_read? {α : Type} {name : String} {r : ByteReader α} (h : r.KeepsFormat)
    (f : Fault) : ¬ EscapesWith (tables.read? name r) f := by
  unfold Attributes.read?
  split
  · exact not_escapes_ok _ f
  · exact not_escapes_map fun he => h _ f (escapes_over.1 he)

theorem not_escapes_signature? (f : Fault) : ¬ EscapesWith (tables.signature? pool) f :=
  not_escapes_read? (keepsFormat_textRef pool) f

theorem keepsFormat_variableRows : KeepsFormat (variableRows pool) := by
  refine keepsFormat_u2.bind fun count => KeepsFormat.times ?_ count
  exact keepsFormat_u2.bind fun _ => keepsFormat_u2.bind fun _ =>
    (keepsFormat_textRef pool).bind fun _ => (keepsFormat_textRef pool).bind fun _ =>
      keepsFormat_u2.bind fun _ => keepsFormat_pure _

theorem keepsFormat_codeAttributes : KeepsFormat (codeAttributes pool) :=
  (keepsFormat_skip 4).bind fun _ => keepsFormat_u4.bind fun _ => (keepsFormat_skip _).bind fun _ =>
    keepsFormat_u2.bind fun _ => (keepsFormat_skip _).bind fun _ => keepsFormat_attributes pool

theorem not_escapes_localVariables (f : Fault) : ¬ EscapesWith (localVariables pool tables) f := by
  unfold localVariables
  rw [escapesWith_bind (not_escapes_read? keepsFormat_codeAttributes)]
  intro h
  obtain ⟨code, -, h⟩ := h
  rw [escapesWith_bind (not_escapes_read? keepsFormat_variableRows)] at h
  obtain ⟨generic, -, h⟩ := h
  rw [escapesWith_bind (not_escapes_read? keepsFormat_variableRows)] at h
  obtain ⟨rows, -, h⟩ := h
  exact not_escapes_ok _ f h

theorem keepsFormat_declaredNames : KeepsFormat (declaredNames pool) := by
  refine keepsFormat_u1.bind fun count => KeepsFormat.times ?_ count
  refine keepsFormat_u2.bind fun index => keepsFormat_u2.bind fun _ => ?_
  split
  · exact keepsFormat_pure _
  · exact (keepsFormat_lift (not_escapes_text pool _)).bind fun _ => keepsFormat_pure _

private theorem exists_namesFrom (owner method : String) (locals : List LocalVariable)
    (position : Nat) (slots : List (Nat × Option String)) :
    ∃ names, (namesFrom owner method locals position slots).result = .ok names := by
  induction slots generalizing position with
  | nil => exact ⟨[], rfl⟩
  | cons slot rest ih =>
    obtain ⟨index, declared⟩ := slot
    obtain ⟨names, hnames⟩ := ih (position + 1)
    have hname : ∃ name, (parameterName owner method locals position index declared).result =
        .ok name := by
      unfold parameterName
      split
      · exact ⟨_, rfl⟩
      · exact ⟨_, rfl⟩
    obtain ⟨name, hname⟩ := hname
    refine ⟨name :: names, ?_⟩
    rw [namesFrom, Traced.result_bind hname, Traced.result_bind hnames, Traced.result_pure]

theorem not_escapes_parameterNames {owner method descriptor : String} {flags : Nat}
    {locals : List LocalVariable} (f : Fault) :
    ¬ EscapesWith (parameterNames pool owner method descriptor flags tables locals).result f := by
  have hparse (f : Fault) : ¬ EscapesWith ((Signature.MethodSignature.parse descriptor).mapError
      (Fault.badDescriptor owner method)) f := by
    cases Signature.MethodSignature.parse descriptor with
    | error e => exact not_escapes_error rfl f
    | ok type => exact not_escapes_ok type f
  rw [parameterNames, Traced.result_andThen, Traced.result_ofExcept, escapesWith_bind hparse]
  intro h
  obtain ⟨type, -, h⟩ := h
  rw [Traced.result_andThen, Traced.result_ofExcept,
    escapesWith_bind (not_escapes_read? keepsFormat_declaredNames)] at h
  obtain ⟨declared, -, h⟩ := h
  obtain ⟨names, hnames⟩ := exists_namesFrom owner method locals 0 _
  rw [hnames] at h
  exact not_escapes_ok names f h

/-- The table of some name has such a character. -/
def TableMisses (tables : Attributes) (name : String) (Misses : List UInt8 → Fault → Prop)
    (f : Fault) : Prop := ∃ bytes, tables.get? name = some bytes ∧ Misses bytes f

theorem escapes_nested {α : Type} {name : String} {r : (depth : Nat) → ByteReader (List α)}
    {r' : ByteReader (List α)} {Misses : List UInt8 → Fault → Prop} {f : Fault}
    (hr : ∀ depth (c : Cursor), c.rest.length < depth → r depth c = r' c)
    (h : ∀ bytes, r'.Escapes ⟨0, bytes⟩ f ↔ Misses bytes f) :
    EscapesWith (tables.nested name r) f ↔ TableMisses tables name Misses f := by
  unfold Attributes.nested TableMisses
  split
  · rename_i hn
    exact iff_of_false (not_escapes_ok _ f) (by simp [hn])
  · rename_i bytes hb
    have hdepth : (r (bytes.length + 1)).Escapes ⟨0, bytes⟩ f ↔ r'.Escapes ⟨0, bytes⟩ f := by
      unfold ByteReader.Escapes
      rw [hr (bytes.length + 1) ⟨0, bytes⟩ (Nat.lt_succ_self _)]
    rw [escapes_over, hdepth, h]
    simp [hb]

theorem escapes_annotationTable {visible : Bool} {f : Fault} :
    EscapesWith (tables.annotations pool visible) f ↔ TableMisses tables
      (if visible then "RuntimeVisibleAnnotations" else "RuntimeInvisibleAnnotations")
      (AnnotationsMiss pool visible) f :=
  escapes_nested (fun _ _ => annotationList_eq) fun _ => escapes_annotationsReader

theorem escapes_parameterAnnotationTable {visible : Bool} {f : Fault} :
    EscapesWith (tables.parameterAnnotations pool visible) f ↔ TableMisses tables
      (if visible then "RuntimeVisibleParameterAnnotations"
        else "RuntimeInvisibleParameterAnnotations")
      (ParameterAnnotationsMiss pool visible) f :=
  escapes_nested (fun _ _ => parameterAnnotationLists_eq) fun _ => escapes_parameterAnnotationsReader

end Tables

section Methods

variable (pool : ConstantPool) (owner : String)

/-- An annotation of a method has such a character, and what is read before has no fault. -/
inductive MethodTablesMiss (name descriptor : String) (flags : Nat) (tables : Attributes) :
    Fault → Prop
  | visibleLists {locals : List LocalVariable} {f : Fault}
    (hlocals : localVariables pool tables = .ok locals)
    (h : TableMisses tables "RuntimeVisibleParameterAnnotations"
      (ParameterAnnotationsMiss pool true) f) :
    MethodTablesMiss name descriptor flags tables f
  | invisibleLists {locals : List LocalVariable} {visibleLists : List (List Annotation)} {f : Fault}
    (hlocals : localVariables pool tables = .ok locals)
    (hvisibleLists : tables.parameterAnnotations pool true = .ok visibleLists)
    (h : TableMisses tables "RuntimeInvisibleParameterAnnotations"
      (ParameterAnnotationsMiss pool false) f) :
    MethodTablesMiss name descriptor flags tables f
  | visible {locals : List LocalVariable} {visibleLists invisibleLists : List (List Annotation)}
    {names : List String} {signature : Option String} {f : Fault}
    (hlocals : localVariables pool tables = .ok locals)
    (hvisibleLists : tables.parameterAnnotations pool true = .ok visibleLists)
    (hinvisibleLists : tables.parameterAnnotations pool false = .ok invisibleLists)
    (hnames : (parameterNames pool owner name descriptor flags tables locals).result = .ok names)
    (hsignature : tables.signature? pool = .ok signature)
    (h : TableMisses tables "RuntimeVisibleAnnotations" (AnnotationsMiss pool true) f) :
    MethodTablesMiss name descriptor flags tables f
  | invisible {locals : List LocalVariable} {visibleLists invisibleLists : List (List Annotation)}
    {names : List String} {signature : Option String} {visible : List Annotation} {f : Fault}
    (hlocals : localVariables pool tables = .ok locals)
    (hvisibleLists : tables.parameterAnnotations pool true = .ok visibleLists)
    (hinvisibleLists : tables.parameterAnnotations pool false = .ok invisibleLists)
    (hnames : (parameterNames pool owner name descriptor flags tables locals).result = .ok names)
    (hsignature : tables.signature? pool = .ok signature)
    (hvisible : tables.annotations pool true = .ok visible)
    (h : TableMisses tables "RuntimeInvisibleAnnotations" (AnnotationsMiss pool false) f) :
    MethodTablesMiss name descriptor flags tables f

theorem escapes_methodOf {name descriptor : String} {flags : Nat} {tables : Attributes}
    {f : Fault} : EscapesWith (methodOf pool owner flags name descriptor tables).result f ↔
      MethodTablesMiss pool owner name descriptor flags tables f := by
  rw [result_methodOf, escapesWith_bind not_escapes_localVariables]
  constructor
  · intro h
    obtain ⟨locals, hlocals, h⟩ := h
    obtain h | ⟨visibleLists, hvisibleLists, h⟩ := escapesWith_bind_iff.1 h
    · exact .visibleLists hlocals (escapes_parameterAnnotationTable.1 h)
    obtain h | ⟨invisibleLists, hinvisibleLists, h⟩ := escapesWith_bind_iff.1 h
    · exact .invisibleLists hlocals hvisibleLists (escapes_parameterAnnotationTable.1 h)
    obtain ⟨names, hnames, h⟩ := (escapesWith_bind not_escapes_parameterNames).1 h
    obtain ⟨signature, hsignature, h⟩ := (escapesWith_bind not_escapes_signature?).1 h
    obtain h | ⟨visible, hvisible, h⟩ := escapesWith_bind_iff.1 h
    · exact .visible hlocals hvisibleLists hinvisibleLists hnames hsignature
        (escapes_annotationTable.1 h)
    obtain h | ⟨invisible, -, h⟩ := escapesWith_bind_iff.1 h
    · exact .invisible hlocals hvisibleLists hinvisibleLists hnames hsignature hvisible
        (escapes_annotationTable.1 h)
    exact absurd h (not_escapes_ok _ f)
  · intro h
    cases h with
    | visibleLists hlocals h =>
      refine ⟨_, hlocals, escapesWith_bind_iff.2 (Or.inl ?_)⟩
      exact escapes_parameterAnnotationTable.2 h
    | invisibleLists hlocals hvisibleLists h =>
      refine ⟨_, hlocals, escapesWith_bind_iff.2 (Or.inr ⟨_, hvisibleLists, ?_⟩)⟩
      exact escapesWith_bind_iff.2 (Or.inl (escapes_parameterAnnotationTable.2 h))
    | visible hlocals hvisibleLists hinvisibleLists hnames hsignature h =>
      refine ⟨_, hlocals, escapesWith_bind_iff.2 (Or.inr ⟨_, hvisibleLists, ?_⟩)⟩
      refine escapesWith_bind_iff.2 (Or.inr ⟨_, hinvisibleLists, ?_⟩)
      refine escapesWith_bind_iff.2 (Or.inr ⟨_, hnames, ?_⟩)
      refine escapesWith_bind_iff.2 (Or.inr ⟨_, hsignature, ?_⟩)
      exact escapesWith_bind_iff.2 (Or.inl (escapes_annotationTable.2 h))
    | invisible hlocals hvisibleLists hinvisibleLists hnames hsignature hvisible h =>
      refine ⟨_, hlocals, escapesWith_bind_iff.2 (Or.inr ⟨_, hvisibleLists, ?_⟩)⟩
      refine escapesWith_bind_iff.2 (Or.inr ⟨_, hinvisibleLists, ?_⟩)
      refine escapesWith_bind_iff.2 (Or.inr ⟨_, hnames, ?_⟩)
      refine escapesWith_bind_iff.2 (Or.inr ⟨_, hsignature, ?_⟩)
      refine escapesWith_bind_iff.2 (Or.inr ⟨_, hvisible, ?_⟩)
      exact escapesWith_bind_iff.2 (Or.inl (escapes_annotationTable.2 h))

/-- The bytes start with a method that has such an annotation. -/
inductive MethodMisses : List UInt8 → Fault → Prop
  | mk {flags name descriptor : UInt16} {n d : String} {front rest : List UInt8}
    {tables : Attributes} {f : Fault} (hn : pool.text name.toNat = .ok n)
    (hd : pool.text descriptor.toNat = .ok d) (ht : Reads (attributes pool) front tables)
    (h : MethodTablesMiss pool owner n d flags.toNat tables f) :
    MethodMisses (indexBytes flags ++ (indexBytes name ++ (indexBytes descriptor ++
      (front ++ rest)))) f

theorem isSequence_method : (method pool owner).IsSequence :=
  (Decoder.IsSequence.ofReader .u2).bind fun _ =>
    (Decoder.IsSequence.ofReader isSequence_textRef).bind fun _ =>
      (Decoder.IsSequence.ofReader isSequence_textRef).bind fun _ =>
        (Decoder.IsSequence.ofReader (isSequence_attributes pool)).bind fun _ => .lift _

theorem isLocal_method : IsLocal (method pool owner).silent :=
  (isSequence_method pool owner).silent.isLocal

theorem escapes_method {offset : Nat} {bytes : List UInt8} {f : Fault} :
    (method pool owner).silent.Escapes ⟨offset, bytes⟩ f ↔ MethodMisses pool owner bytes f := by
  rw [silent_method, escapes_u2]
  constructor
  · intro h
    obtain ⟨flags, rest, rfl, h⟩ := h
    rw [escapes_textRef] at h
    obtain ⟨name, n, rest, rfl, hn, h⟩ := h
    rw [escapes_textRef] at h
    obtain ⟨descriptor, d, rest, rfl, hd, h⟩ := h
    rw [escapes_bind (isLocal_attributes pool) (keepsFormat_attributes pool)] at h
    obtain ⟨front, back, tables, rfl, ht, h⟩ := h
    exact .mk hn hd ht ((escapes_methodOf pool owner).1 (escapes_lift.1 h))
  · intro h
    obtain ⟨hn, hd, ht, h⟩ := h
    refine ⟨_, _, rfl, ?_⟩
    rw [escapes_textRef]
    refine ⟨_, _, _, rfl, hn, ?_⟩
    rw [escapes_textRef]
    refine ⟨_, _, _, rfl, hd, ?_⟩
    rw [escapes_bind (isLocal_attributes pool) (keepsFormat_attributes pool)]
    exact ⟨_, _, _, rfl, ht, escapes_lift.2 ((escapes_methodOf pool owner).2 h)⟩

end Methods

section Files

theorem keepsFormat_field (pool : ConstantPool) : KeepsFormat (field pool) :=
  (keepsFormat_skip 6).bind fun _ => (keepsFormat_attributes pool).bind fun _ => keepsFormat_pure _

theorem isSequence_field (pool : ConstantPool) : IsSequence (field pool) :=
  (isSequence_skip 6).bind fun _ => (isSequence_attributes pool).bind fun _ => isSequence_pure _

theorem keepsFormat_superclass? (pool : ConstantPool) : KeepsFormat (superclass? pool) := by
  refine keepsFormat_u2.bind fun index => ?_
  split
  · exact keepsFormat_pure _
  · exact (keepsFormat_lift (not_escapes_className pool _)).bind fun _ => keepsFormat_pure _

theorem isSequence_superclass? (pool : ConstantPool) : IsSequence (superclass? pool) := by
  refine IsSequence.u2.bind fun index => ?_
  split
  · exact isSequence_pure _
  · exact (IsSequence.lift _).bind fun _ => isSequence_pure _

/-- What stands between the constants and the methods. -/
def headBehind (version : Nat) (pool : ConstantPool) : ByteReader Head := do
  let flags ← u2
  let name ← classRef pool
  let superclass ← superclass? pool
  let interfaces ← times (← u2) (classRef pool)
  let _ ← times (← u2) (field pool)
  return { version, pool, flags, name, superclass, interfaces }

private theorem head_eq (origin : String) : head origin = (do
    let number ← u4
    if number ≠ magic then throw (.otherFormat origin)
    else do
      let _ ← u2
      let version ← u2
      let pool ← ConstantPool.read
      headBehind version pool) := by
  refine congrArg (u4 >>= ·) (funext fun number => ?_)
  split <;> rfl

theorem isSequence_headBehind (version : Nat) (pool : ConstantPool) :
    IsSequence (headBehind version pool) :=
  IsSequence.u2.bind fun _ => (isSequence_classRef pool).bind fun _ =>
    (isSequence_superclass? pool).bind fun _ => IsSequence.u2.bind fun _ =>
      ((isSequence_classRef pool).times _).bind fun _ => IsSequence.u2.bind fun _ =>
        ((isSequence_field pool).times _).bind fun _ => isSequence_pure _

theorem keepsFormat_headBehind (version : Nat) (pool : ConstantPool) :
    KeepsFormat (headBehind version pool) :=
  keepsFormat_u2.bind fun _ => (keepsFormat_classRef pool).bind fun _ =>
    (keepsFormat_superclass? pool).bind fun _ => keepsFormat_u2.bind fun _ =>
      ((keepsFormat_classRef pool).times _).bind fun _ => keepsFormat_u2.bind fun _ =>
        ((keepsFormat_field pool).times _).bind fun _ => keepsFormat_pure _

theorem isSequence_head (origin : String) : IsSequence (head origin) := by
  rw [head_eq]
  refine IsSequence.u4.bind fun number => ?_
  split
  · exact isSequence_throw _
  · exact IsSequence.u2.bind fun _ => IsSequence.u2.bind fun _ => isSequence_pool.bind fun _ =>
      isSequence_headBehind _ _

/-- In front of the methods, only the constants escape from their bytes. -/
theorem escapes_head {origin : String} {offset : Nat} {bytes : List UInt8} {f : Fault} :
    (head origin).Escapes ⟨offset, bytes⟩ f ↔ f = .malformedText ∧
      ∃ (minor major count : UInt16) (rest : List UInt8), TextMisses 1 (count.toNat - 1) rest ∧
        bytes = bigEndian 4 magic ++
          (indexBytes minor ++ (indexBytes major ++ (indexBytes count ++ rest))) := by
  rw [head_eq, escapes_bind isLocal_u4 keepsFormat_u4]
  constructor
  · intro h
    obtain ⟨front, back, number, rfl, hnumber, h⟩ := h
    split at h
    · exact absurd h (keepsFormat_throw rfl _ _)
    rename_i hmagic
    obtain rfl : number = magic := not_not.1 hmagic
    obtain ⟨-, rfl⟩ := reads_u4_iff.1 hnumber
    rw [escapes_u2] at h
    obtain ⟨minor, rest, rfl, h⟩ := h
    rw [escapes_u2] at h
    obtain ⟨major, rest, rfl, h⟩ := h
    rw [escapes_bind_left (keepsFormat_headBehind _), escapes_pool] at h
    obtain ⟨hf, count, rest, rfl, h⟩ := h
    exact ⟨hf, minor, major, count, rest, h, rfl⟩
  · intro h
    obtain ⟨hf, minor, major, count, rest, h, rfl⟩ := h
    refine ⟨_, _, magic, rfl, reads_u4_iff.2 ⟨by decide, rfl⟩, ?_⟩
    rw [if_neg (not_not.2 rfl), escapes_u2]
    refine ⟨minor, _, rfl, ?_⟩
    rw [escapes_u2]
    refine ⟨major, _, rfl, ?_⟩
    rw [escapes_bind_left (keepsFormat_headBehind _), escapes_pool]
    exact ⟨hf, count, rest, rfl, h⟩

/-- An annotation of a class has such a character. The visible ones are read first. -/
inductive ClassTablesMiss (pool : ConstantPool) (tables : Attributes) : Fault → Prop
  | visible {f : Fault}
    (h : TableMisses tables "RuntimeVisibleAnnotations" (AnnotationsMiss pool true) f) :
    ClassTablesMiss pool tables f
  | invisible {visible : List Annotation} {f : Fault}
    (hvisible : tables.annotations pool true = .ok visible)
    (h : TableMisses tables "RuntimeInvisibleAnnotations" (AnnotationsMiss pool false) f) :
    ClassTablesMiss pool tables f

/-- The bytes start like a class file, up to a text that has no characters or to a character that is
given by something else than the code of one. -/
inductive FileMisses (origin : String) : List UInt8 → Fault → Prop
  | text {minor major count : UInt16} {rest : List UInt8} (h : TextMisses 1 (count.toNat - 1) rest) :
    FileMisses origin (bigEndian 4 magic ++
      (indexBytes minor ++ (indexBytes major ++ (indexBytes count ++ rest)))) .malformedText
  | method {front rest : List UInt8} {head : Head} {count : UInt16} {f : Fault}
    (hh : Reads (ClassFile.head origin) front head)
    (h : ItemMisses (ClassFile.method head.pool head.name).silent
      (MethodMisses head.pool head.name) count.toNat rest f) :
    FileMisses origin (front ++ (indexBytes count ++ rest)) f
  | annotations {front back rest : List UInt8} {head : Head} {count : UInt16}
    {pieces : List (List UInt8)} {methods : List Method} {tables : Attributes} {f : Fault}
    (hh : Reads (ClassFile.head origin) front head) (hc : pieces.length = count.toNat)
    (hm : List.Forall₂ (Reads (ClassFile.method head.pool head.name).silent) pieces methods)
    (ht : Reads (attributes head.pool) back tables) (h : ClassTablesMiss head.pool tables f) :
    FileMisses origin (front ++ (indexBytes count ++ (pieces.flatten ++ (back ++ rest)))) f

private theorem escapes_classTables {α : Type} {pool : ConstantPool} {tables : Attributes}
    {g : List Annotation → List Annotation → Option String → α} {c : Cursor} {f : Fault} :
    ByteReader.Escapes (do
      let visible ← liftM (tables.annotations pool true)
      let invisible ← liftM (tables.annotations pool false)
      let signature ← liftM (tables.signature? pool)
      return g visible invisible signature) c f ↔ ClassTablesMiss pool tables f := by
  have hsignature (visible invisible : List Annotation) : KeepsFormat (do
      let signature ← liftM (tables.signature? pool)
      return g visible invisible signature) :=
    (keepsFormat_lift not_escapes_signature?).bind fun _ => keepsFormat_pure _
  rw [ByteReader.escapes_bind_iff, escapes_lift, escapes_annotationTable]
  constructor
  · intro h
    rcases h with h | ⟨visible, c', hvisible, h⟩
    · exact .visible h
    · obtain ⟨rfl, hv⟩ := lift_eq_ok.1 hvisible
      rw [escapes_bind_left (hsignature visible), escapes_lift, escapes_annotationTable] at h
      exact .invisible hv h
  · intro h
    rcases h with h | ⟨hvisible, h⟩
    · exact Or.inl h
    · refine Or.inr ⟨_, c, lift_eq_ok.2 ⟨rfl, hvisible⟩, ?_⟩
      rw [escapes_bind_left (hsignature _), escapes_lift, escapes_annotationTable]
      exact h

theorem escapes_decoder {origin : String} {offset : Nat} {bytes : List UInt8} {f : Fault} :
    (decoder origin).silent.Escapes ⟨offset, bytes⟩ f ↔ FileMisses origin bytes f := by
  have hmethods (head : Head) (count : UInt16) (offset : Nat) (rest : List UInt8) :
      (times count.toNat (method head.pool head.name).silent).Escapes ⟨offset, rest⟩ f ↔
        ItemMisses (method head.pool head.name).silent (MethodMisses head.pool head.name)
          count.toNat rest f :=
    escapes_times (isLocal_method _ _) (fun _ _ _ => escapes_method _ _) _ _
  rw [silent_decoder, ByteReader.escapes_bind_iff, escapes_head]
  constructor
  · intro h
    rcases h with ⟨rfl, minor, major, count, rest, h, rfl⟩ | ⟨head, c', hhead, h⟩
    · exact .text h
    obtain ⟨front, rest, rfl, hh, rfl⟩ := Reads.of_eq_ok (isSequence_head origin).isLocal hhead
    rw [escapes_u2] at h
    obtain ⟨count, rest, rfl, h⟩ := h
    obtain h | ⟨methods, c', hmethods', h⟩ := ByteReader.escapes_bind_iff.1 h
    · exact .method hh ((hmethods _ _ _ _).1 h)
    obtain ⟨front', rest, rfl, hms, rfl⟩ := Reads.of_eq_ok ((isLocal_method _ _).times _) hmethods'
    obtain ⟨pieces, rfl, hlen, hp⟩ := (reads_times_iff (isLocal_method _ _)).1 hms
    rw [escapes_bind (isLocal_attributes _) (keepsFormat_attributes _)] at h
    obtain ⟨back, rest, tables, rfl, ht, h⟩ := h
    exact .annotations hh hlen hp ht (escapes_classTables.1 h)
  · intro h
    cases h with
    | text h => exact Or.inl ⟨rfl, _, _, _, _, h, rfl⟩
    | method hh h =>
      refine Or.inr ⟨_, _, hh _ _, ?_⟩
      rw [escapes_u2]
      exact ⟨_, _, rfl, ByteReader.escapes_bind_iff.2 (Or.inl ((hmethods _ _ _ _).2 h))⟩
    | annotations hh hlen hp ht h =>
      have hms := (reads_times_iff (isLocal_method _ _)).2 ⟨_, rfl, hlen, hp⟩
      refine Or.inr ⟨_, _, hh _ _, ?_⟩
      rw [escapes_u2]
      refine ⟨_, _, rfl, ByteReader.escapes_bind_iff.2 (Or.inr ⟨_, _, hms _ _, ?_⟩)⟩
      rw [escapes_bind (isLocal_attributes _) (keepsFormat_attributes _)]
      exact ⟨_, _, _, rfl, ht, escapes_classTables.2 h⟩

/-- Bytes are refused although they do not break the format exactly if they start like a class file
up to a text that has no characters, or to a character in an annotation that is given by something
else than the code of one. -/
theorem decode_escapes_iff (origin : String) (bytes : List UInt8) (f : Fault) :
    (decode origin bytes).result = .error f ∧ f.breaksFormat = false ↔
      FileMisses origin bytes f := by
  rw [result_decode]
  exact escapes_over.trans escapes_decoder

end Files

end JvmRoutes.ClassFile
