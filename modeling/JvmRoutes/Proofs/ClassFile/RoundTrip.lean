import JvmRoutes.Proofs.ClassFile.DecodeEscape
import JvmRoutes.Proofs.ClassFile.TableReading

/-!
Reading undoes writing: a class file is decoded to the class that it holds, in whatever layout. The
one exception is a file with half a pair of surrogates in a text, which has no characters.
-/
namespace JvmRoutes.ClassFile

variable {constants : List PoolConstant} {pool : ConstantPool}

theorem slotsFrom_length (slot : Nat) (types : List Signature.JavaType) :
    (slotsFrom slot types).length = types.length := by
  induction types generalizing slot with
  | nil => rfl
  | cons t rest ih => simp [slotsFrom, ih]

/-- Declared names are taken as they are. -/
theorem namesFrom_declared (owner method : String) (locals : List LocalVariable) (position : Nat)
    {slots : List Nat} {names : List String} (h : slots.length = names.length) :
    (namesFrom owner method locals position (slots.zip (names.map some))).result = .ok names := by
  induction slots generalizing names position with
  | nil =>
    obtain rfl : names = [] := List.length_eq_zero_iff.1 h.symm
    rfl
  | cons slot slots ih =>
    cases names with
    | nil => simp at h
    | cons name names =>
      have ih' := ih (position + 1) (Nat.succ.inj h)
      rw [List.map_cons, List.zip_cons_cons, namesFrom]
      have hn : (parameterName owner method locals position slot (some name)).result = .ok name :=
        rfl
      rw [Traced.result_bind hn, Traced.result_bind ih']
      rfl

theorem formalParameters_eq {parameters : List FormalParameter}
    {visible invisible : List (List Annotation)}
    (hv : AreAnnotationsOf visible (parameters.map (·.visible)))
    (hi : AreAnnotationsOf invisible (parameters.map (·.invisible))) :
    formalParameters (parameters.map (·.name)) visible invisible = parameters := by
  induction parameters generalizing visible invisible with
  | nil => rfl
  | cons p rest ih =>
    have htail {lists ofParameters : List (List Annotation)} {first : List Annotation}
        (h : AreAnnotationsOf lists (first :: ofParameters)) :
        first = lists.headD [] ∧ AreAnnotationsOf lists.tail ofParameters := by
      refine ⟨?_, fun i hlt => ?_⟩
      · have := h 0 (Nat.succ_pos _)
        cases lists <;> exact this
      · have := h (i + 1) (Nat.succ_lt_succ hlt)
        cases lists <;> exact this
    rw [List.map_cons] at hv hi
    obtain ⟨hv0, hvs⟩ := htail hv
    obtain ⟨hi0, his⟩ := htail hi
    rw [List.map_cons, formalParameters, ih hvs his, ← hv0, ← hi0]

section Methods

variable (h : pool.Holds constants)
include h

theorem parameterNames_eq {tables : List Table} {attributes : Attributes}
    (hm : Carries constants tables attributes) {m : Method}
    (ht : MethodTables constants tables m) (owner : String) (locals : List LocalVariable) :
    (parameterNames pool owner m.name m.descriptor m.flags attributes locals).result =
      .ok (m.parameters.map (·.name)) := by
  obtain ⟨type, htype, hcount⟩ := ht.descriptor
  obtain ⟨names, hnames, heq⟩ := ht.names
  have hread := read?_eq_map hm hnames fun _ _ => ByteReader.reads_names h
  have hdeclared : (names.map (·.map some)).getD [] = (m.parameters.map (·.name)).map some := by
    rw [heq]
    cases names <;> rfl
  have hlen : ((m.parameters.map (·.name)).map some).length = type.parameters.length := by
    rw [List.length_map, List.length_map, hcount]
  rw [parameterNames, htype]
  refine (Traced.result_bind rfl _).trans ((Traced.result_bind (by rw [hread]; rfl) _).trans ?_)
  rw [hdeclared]
  dsimp only
  rw [if_pos hlen]
  exact namesFrom_declared _ _ _ _ (by rw [slotsFrom_length, List.length_map, hcount])

theorem methodOf_eq (hp : ∀ c ∈ constants, c.IsPaired) {tables : List Table}
    {attributes : Attributes} (hm : Carries constants tables attributes) {m : Method}
    (ht : MethodTables constants tables m) (owner : String) :
    (methodOf pool owner m.flags m.name m.descriptor attributes).result = .ok m := by
  obtain ⟨code, hcode, hlocals⟩ := ht.locals
  obtain ⟨visible, hvisible, hv⟩ := ht.visible
  obtain ⟨invisible, hinvisible, hi⟩ := ht.invisible
  obtain ⟨visibleLists, hvisibleLists, hvs⟩ := ht.visibleLists
  obtain ⟨invisibleLists, hinvisibleLists, his⟩ := ht.invisibleLists
  have rlocals : localVariables pool attributes = .ok m.locals := by
    rw [localVariables_eq h hp hm hcode, hlocals]
  have rvisibleLists : attributes.parameterAnnotations pool true = .ok (visibleLists.getD []) :=
    nested_eq hm hvisibleLists fun _ _ _ hl hd =>
      ByteReader.reads_parameterAnnotationLists h hl hd
  have rinvisibleLists : attributes.parameterAnnotations pool false =
      .ok (invisibleLists.getD []) :=
    nested_eq hm hinvisibleLists fun _ _ _ hl hd =>
      ByteReader.reads_parameterAnnotationLists h hl hd
  have rsignature : attributes.signature? pool = .ok m.signature :=
    read?_eq hm ht.signature fun _ _ => ByteReader.reads_signature h
  have rvisible : attributes.annotations pool true = .ok m.visible := by
    rw [hv]
    exact nested_eq hm hvisible fun _ _ _ hl hd => ByteReader.reads_annotationList h hl hd
  have rinvisible : attributes.annotations pool false = .ok m.invisible := by
    rw [hi]
    exact nested_eq hm hinvisible fun _ _ _ hl hd => ByteReader.reads_annotationList h hl hd
  rw [result_methodOf, rlocals, rvisibleLists, rinvisibleLists, rsignature, rvisible, rinvisible]
  have rnames := parameterNames_eq h hm ht owner m.locals
  change (do
    let names ← (parameterNames pool owner m.name m.descriptor m.flags attributes m.locals).result
    return { m with parameters := formalParameters names _ _ } : Except Fault Method) = _
  rw [rnames]
  change Except.ok { m with parameters := formalParameters _ _ _ } = _
  rw [formalParameters_eq hvs his]

theorem reads_method (hp : ∀ c ∈ constants, c.IsPaired) {bytes : List UInt8} {m : Method}
    (hm : MethodLayout constants bytes m) (owner : String) :
    ByteReader.Reads (method pool owner).silent bytes m := by
  obtain ⟨hf, hn, hd, ht⟩ := hm
  obtain ⟨attributes, hread, hcarries⟩ := ByteReader.reads_tables h hp ht.fit
  rw [silent_method]
  refine (ByteReader.reads_index _).bind ?_
  rw [hf]
  refine (ByteReader.reads_textRef h hn).bind ((ByteReader.reads_textRef h hd).bind ?_)
  exact hread.andThen (ByteReader.reads_lift (methodOf_eq h hp hcarries ht owner))

end Methods

section Heads

variable (h : pool.Holds constants)
include h

theorem reads_superclass {i : UInt16} {superclass : Option String}
    (hs : SuperclassAt constants i superclass) :
    ByteReader.Reads (superclass? pool) (indexBytes i) superclass := by
  cases hs with
  | absent => exact (ByteReader.reads_index 0).andThen (ByteReader.reads_pure none)
  | present hi =>
    have hne : i.toNat ≠ 0 := fun hz => by
      obtain ⟨-, text, hc, -⟩ := hi
      rw [hz] at hc
      cases constants <;> simp [constantAt?] at hc
    refine (ByteReader.reads_index i).andThen ?_
    rw [if_neg hne]
    exact (ByteReader.reads_lift (className_eq h hi)).andThen (ByteReader.reads_pure _)

theorem reads_field (hp : ∀ c ∈ constants, c.IsPaired) {bytes : List UInt8}
    (hf : FieldLayout constants bytes) : ByteReader.Reads (field pool) bytes () := by
  obtain ⟨ht⟩ := hf
  obtain ⟨attributes, hread, -⟩ := ByteReader.reads_tables h hp ht
  exact (ByteReader.reads_skip (by simp [indexBytes])).bind
    (hread.andThen (ByteReader.reads_pure ()))

end Heads

/-- What stands in front of the methods is read, if all texts have their surrogates in pairs. -/
theorem reads_head (minor major : UInt16) {flags name superclass : UInt16} {interfaces : List UInt16}
    {fields : List (List UInt8)} {c : Class} (hp : ∀ c ∈ constants, c.IsPaired)
    (hconstants : ConstantsFit constants) (hflags : flags.toNat = c.flags)
    (hname : ClassAt constants name c.name)
    (hsuperclass : SuperclassAt constants superclass c.superclass)
    (hinterfaces : List.Forall₂ (ClassAt constants) interfaces c.interfaces)
    (hinterfacesCount : interfaces.length < 65536)
    (hfields : ∀ piece ∈ fields, FieldLayout constants piece) (hfieldsCount : fields.length < 65536)
    (origin : String) :
    ∃ pool : ConstantPool, pool.Holds constants ∧
      ByteReader.Reads (head origin)
        (headBytes constants minor major flags name superclass interfaces fields)
        { version := major.toNat, pool, flags := c.flags, name := c.name,
          superclass := c.superclass, interfaces := c.interfaces } := by
  obtain ⟨pool, hpool, h⟩ := exists_reads_pool hconstants.indices hconstants.texts hp
  refine ⟨pool, h, (ByteReader.reads_u4 (by decide)).bind ?_⟩
  rw [if_neg (by simp)]
  refine (ByteReader.reads_index minor).bind ((ByteReader.reads_index major).bind (hpool.bind ?_))
  refine (ByteReader.reads_index flags).bind ?_
  rw [hflags]
  refine (ByteReader.reads_classRef h hname).bind ((reads_superclass h hsuperclass).bind ?_)
  have hitems : List.Forall₂ (ByteReader.Reads (classRef pool)) (interfaces.map indexBytes)
      c.interfaces := by
    rw [List.forall₂_map_left_iff]
    exact hinterfaces.imp fun _ _ => ByteReader.reads_classRef h
  have hunits : List.Forall₂ (ByteReader.Reads (field pool)) fields
      (List.replicate fields.length ()) := by
    clear hfieldsCount
    induction fields with
    | nil => exact .nil
    | cons piece rest ih =>
      exact .cons (reads_field h hp (hfields piece List.mem_cons_self))
        (ih fun piece hm => hfields piece (List.mem_cons_of_mem _ hm))
  have hlen : (interfaces.map indexBytes).length < 65536 := by rwa [List.length_map]
  refine (ByteReader.reads_counted hitems hlen).bindBoth ?_
  have hf := (ByteReader.reads_counted hunits hfieldsCount).andThen (f := fun _ => pure
    (Head.mk major.toNat pool c.flags c.name c.superclass c.interfaces)) (ByteReader.reads_pure _)
  rwa [bind_assoc] at hf

/-- A class file whose texts have their surrogates in pairs holds the class that it is a layout
of. -/
theorem decode_layout {bytes : List UInt8} {c : Class} (h : FileLayout constants bytes c)
    (hp : ∀ c ∈ constants, c.IsPaired) (origin : String) :
    (decode origin bytes).result = .ok c := by
  obtain ⟨hconstants, hflags, hname, hsuperclass, hinterfaces, hinterfacesCount, hfields,
    hfieldsCount, hmethods, hmethodsCount, htables⟩ := h
  rename_i minor major flags name superclass interfaces fields methods tables
  obtain ⟨pool, h, hhead⟩ := reads_head minor major hp hconstants hflags hname hsuperclass
    hinterfaces hinterfacesCount hfields hfieldsCount origin
  obtain ⟨attributes, hread, hcarries⟩ := ByteReader.reads_tables h hp htables.fit
  obtain ⟨visible, hvisible, hv⟩ := htables.visible
  obtain ⟨invisible, hinvisible, hi⟩ := htables.invisible
  have rvisible : attributes.annotations pool true = .ok c.visible := by
    rw [hv]
    exact nested_eq hcarries hvisible fun _ _ _ hl hd => ByteReader.reads_annotationList h hl hd
  have rinvisible : attributes.annotations pool false = .ok c.invisible := by
    rw [hi]
    exact nested_eq hcarries hinvisible fun _ _ _ hl hd => ByteReader.reads_annotationList h hl hd
  have rsignature : attributes.signature? pool = .ok c.signature :=
    read?_eq hcarries htables.signature fun _ _ => ByteReader.reads_signature h
  have hitems : List.Forall₂ (ByteReader.Reads (method pool c.name).silent) methods c.methods :=
    hmethods.imp fun _ _ hm => reads_method h hp hm c.name
  have hend := (ByteReader.reads_lift rvisible).andThen (f := fun visible => do
    let invisible ← liftM (attributes.annotations pool false)
    let signature ← liftM (attributes.signature? pool)
    return { c with visible, invisible, signature }) ((ByteReader.reads_lift rinvisible).andThen
      ((ByteReader.reads_lift rsignature).andThen (ByteReader.reads_pure c)))
  have hfile : ByteReader.Reads (decoder origin).silent
      (headBytes constants minor major flags name superclass interfaces fields ++
        (countedBytes methods ++ tablesBytes tables)) c := by
    rw [silent_decoder]
    refine hhead.bind ((ByteReader.reads_counted hitems hmethodsCount).bindBoth ?_)
    exact hread.andThen hend
  rw [result_decode]
  exact hfile.over_eq

/-- Half a pair of surrogates in a text stops the decoder at the constants. -/
theorem fileMisses_of_not_isPaired (hconstants : ConstantsFit constants)
    (hp : ∃ k ∈ constants, ¬ k.IsPaired) (origin : String)
    (minor major flags name superclass : UInt16) (interfaces : List UInt16)
    (fields : List (List UInt8)) (rest : List UInt8) :
    FileMisses origin
      (headBytes constants minor major flags name superclass interfaces fields ++ rest)
      .malformedText := by
  have hcount : (UInt16.ofNat (widths constants + 1)).toNat = widths constants + 1 := by
    have := hconstants.indices
    simp
    omega
  have hpool : poolBytes constants =
      indexBytes (UInt16.ofNat (widths constants + 1)) ++ constants.flatMap (·.bytes) := by
    rw [poolBytes, indexBytes, hcount]
  have hmisses (rest : List UInt8) :
      TextMisses 1 ((UInt16.ofNat (widths constants + 1)).toNat - 1)
        (constants.flatMap (·.bytes) ++ rest) := by
    rw [hcount, Nat.add_sub_cancel]
    exact textMisses_of_not_isPaired hconstants.texts hp 1 rest
  have hfile : FileMisses origin (bigEndian 4 magic ++ (indexBytes minor ++ (indexBytes major ++
      (indexBytes (UInt16.ofNat (widths constants + 1)) ++ (constants.flatMap (·.bytes) ++
        (indexBytes flags ++ (indexBytes name ++ (indexBytes superclass ++
          (countedBytes (interfaces.map indexBytes) ++ (countedBytes fields ++ rest))))))))))
      .malformedText := .text (hmisses _)
  simpa only [headBytes, hpool, List.append_assoc] using hfile

/-- A class file with half a pair of surrogates in a text is refused, whatever refers to the text. -/
theorem decode_layout_surrogate {bytes : List UInt8} {c : Class} (h : FileLayout constants bytes c)
    (hp : ∃ k ∈ constants, ¬ k.IsPaired) (origin : String) :
    (decode origin bytes).result = .error .malformedText := by
  obtain ⟨hconstants⟩ := h
  have hmisses := fileMisses_of_not_isPaired hconstants hp origin
  exact ((decode_escapes_iff origin _ _).2 (hmisses _ _ _ _ _ _ _ _)).1

/-- A layout of a class is decoded to that class, unless one of its constants is a text with half a
pair of surrogates. Such a text is enough for the whole file to be refused, also where nothing that
is kept of the class refers to it. -/
theorem decode_fileLayout {bytes : List UInt8} {c : Class} (h : FileLayout constants bytes c)
    (origin : String) :
    ((∀ k ∈ constants, k.IsPaired) → (decode origin bytes).result = .ok c) ∧
      ((∃ k ∈ constants, ¬ k.IsPaired) → (decode origin bytes).result = .error .malformedText) :=
  ⟨fun hp => decode_layout h hp origin, fun hp => decode_layout_surrogate h hp origin⟩

section Field

open Text.ModifiedUtf8 (units encode)

/-- The constants of a class with a field that starts with a text. -/
def fieldConstants (us : List UInt16) : List PoolConstant :=
  [.text (units "A".toList), .className 1, .text (units "s".toList),
    .text (units "Ljava/lang/String;".toList), .text (units "ConstantValue".toList), .string 7,
    .text us]

def fieldFile (us : List UInt16) : List UInt8 :=
  headBytes (fieldConstants us) 0 52 0x21 2 0 []
    [indexBytes 0x18 ++ indexBytes 3 ++ indexBytes 4 ++ tablesBytes [⟨5, indexBytes 6⟩]] ++
      (countedBytes [] ++ tablesBytes [])

/-- What is kept of a class with a field that starts with a text. -/
def fieldClass : Class where
  name := "A"
  superclass := none
  methods := []
  visible := []
  invisible := []
  flags := 0x21
  signature := none
  interfaces := []

private theorem fileLayout_field {us : List UInt16} (h : (encode us).length < 65536) :
    FileLayout (fieldConstants us) (fieldFile us) fieldClass := by
  have hnone {α : Type} (name : String) (P : List UInt8 → α → Prop) :
      Says (fieldConstants us) [] name P none := .absent fun t ht => by cases ht
  have hempty : TablesFit (fieldConstants us) [] :=
    ⟨by decide, nofun, nofun⟩
  have hfield : TablesFit (fieldConstants us) [⟨5, indexBytes 6⟩] := by
    refine ⟨by decide, fun t ht => ?_, fun t ht => ?_⟩
    · obtain rfl := List.mem_singleton.1 ht
      exact ⟨_, rfl⟩
    · obtain rfl := List.mem_singleton.1 ht
      decide
  have hfits : ∀ k ∈ fieldConstants us, k.Fits := by
    simp only [fieldConstants, List.forall_mem_cons, PoolConstant.Fits]
    exact ⟨by decide, trivial, by decide, by decide, by decide, trivial, h, nofun⟩
  refine .mk ⟨by simp [fieldConstants, widths, PoolConstant.width], hfits⟩ rfl
    ⟨by decide, 1, rfl, rfl⟩ .absent .nil (by decide) (fun piece hm => ?_) (by decide) .nil
    (by decide) ⟨hempty, hnone _ _, ⟨none, hnone _ _, rfl⟩, ⟨none, hnone _ _, rfl⟩⟩
  obtain rfl := List.mem_singleton.1 hm
  exact .mk hfield

/-- A field may start with any text, but half a pair of surrogates spoils its class. -/
theorem decode_fileLayout_field :
    (decode "A.class" (fieldFile (units "ok".toList))).result = .ok fieldClass ∧
      (decode "A.class" (fieldFile [0xD800])).result = .error .malformedText := by
  refine ⟨(decode_fileLayout (fileLayout_field (by decide)) _).1 ?_,
    (decode_fileLayout (fileLayout_field (by decide)) _).2 ?_⟩
  · simp only [fieldConstants, List.forall_mem_cons, PoolConstant.IsPaired]
    exact ⟨⟨_, rfl⟩, trivial, ⟨_, rfl⟩, ⟨_, rfl⟩, ⟨_, rfl⟩, trivial, ⟨_, rfl⟩, nofun⟩
  · refine ⟨.text [0xD800], by simp [fieldConstants], ?_⟩
    intro h
    obtain ⟨s, hs⟩ := h
    have hnone := Text.ModifiedUtf8.characters?_units s.toList
    rw [← hs] at hnone
    cases hnone

end Field

end JvmRoutes.ClassFile
