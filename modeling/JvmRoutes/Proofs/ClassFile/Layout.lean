import JvmRoutes.Proofs.ClassFile.AnnotationLayout

/-!
Class files as their format lays them out: which bytes are a file that holds a class, with constants
at any indices, attributes in any order, and attributes and fields of which nothing is kept.
-/
namespace JvmRoutes.ClassFile

structure Table where
  name : UInt16
  content : List UInt8

def Table.bytes (t : Table) : List UInt8 :=
  indexBytes t.name ++ (bigEndian 4 t.content.length ++ t.content)

def tablesBytes (tables : List Table) : List UInt8 := countedBytes (tables.map (·.bytes))

variable (constants : List PoolConstant)

/-- Every table has a name, and no table has more bytes than its length can say. -/
structure TablesFit (tables : List Table) : Prop where
  count : tables.length < 65536
  named : ∀ t ∈ tables, ∃ us, constantAt? constants t.name.toNat = some (.text us)
  sizes : ∀ t ∈ tables, t.content.length < 2 ^ 32

/-- What the table of some name holds, and nothing without it. No other table has the name. -/
inductive Says {α : Type} (tables : List Table) (name : String) (P : List UInt8 → α → Prop) :
    Option α → Prop
  | absent (h : ∀ t ∈ tables, ¬ TextAt constants t.name name) : Says tables name P none
  | present {front back : List Table} {t : Table} {a : α} (hs : tables = front ++ t :: back)
    (ht : TextAt constants t.name name)
    (hn : ∀ u ∈ front ++ back, ¬ TextAt constants u.name name) (ha : P t.content a) :
    Says tables name P (some a)

inductive SignatureLayout : List UInt8 → String → Prop
  | mk {i : UInt16} {s : String} (hi : TextAt constants i s) : SignatureLayout (indexBytes i) s

inductive RowLayout : List UInt8 → VariableRow → Prop
  | mk {start size name type slot : UInt16} {s t : String} (hn : TextAt constants name s)
    (ht : TextAt constants type t) :
    RowLayout (indexBytes start ++ (indexBytes size ++ (indexBytes name ++
      (indexBytes type ++ indexBytes slot)))) ⟨start.toNat, s, t, slot.toNat⟩

inductive RowsLayout : List UInt8 → List VariableRow → Prop
  | mk {pieces : List (List UInt8)} {rows : List VariableRow}
    (hr : List.Forall₂ (RowLayout constants) pieces rows) (hc : pieces.length < 65536) :
    RowsLayout (countedBytes pieces) rows

/-- The variable is that of the row. Its signature is the type that a generic row gives to it. -/
structure IsVariableOf (generic : List VariableRow) (row : VariableRow) (v : LocalVariable) :
    Prop where
  name : v.name = row.name
  descriptor : v.descriptor = row.type
  slot : v.slot = row.slot
  start : v.start = row.start
  signature : ∀ s, v.signature = some s ↔ ⟨row.start, row.name, s, row.slot⟩ ∈ generic

/-- Where exceptions are handled: from and to an instruction, at one, and of which class. -/
structure Handler where
  first : UInt16
  last : UInt16
  target : UInt16
  caught : UInt16

def Handler.bytes (h : Handler) : List UInt8 :=
  indexBytes h.first ++ indexBytes h.last ++ indexBytes h.target ++ indexBytes h.caught

theorem Handler.length_bytes (h : Handler) : h.bytes.length = 8 := by
  simp [bytes, indexBytes]

/-- The bytes are the code of a method with local variables. -/
inductive CodeLayout : List UInt8 → List LocalVariable → Prop
  | mk {stack slots : UInt16} {code : List UInt8} {handlers : List Handler}
    {tables : List Table} {generic rows : Option (List VariableRow)} {locals : List LocalVariable}
    (hcode : code.length < 2 ^ 32) (hhandlers : handlers.length < 65536)
    (htables : TablesFit constants tables)
    (hgeneric : Says constants tables "LocalVariableTypeTable" (RowsLayout constants) generic)
    (hrows : Says constants tables "LocalVariableTable" (RowsLayout constants) rows)
    (hlocals : List.Forall₂ (IsVariableOf (generic.getD [])) (rows.getD []) locals) :
    CodeLayout (indexBytes stack ++ indexBytes slots ++ (bigEndian 4 code.length ++ (code ++
      (countedBytes (handlers.map (·.bytes)) ++ tablesBytes tables)))) locals

/-- The bytes declare the name of a parameter, with flags of which nothing is kept. -/
inductive NameLayout : List UInt8 → String → Prop
  | mk {i flags : UInt16} {s : String} (hi : TextAt constants i s) :
    NameLayout (indexBytes i ++ indexBytes flags) s

inductive NamesLayout : List UInt8 → List String → Prop
  | mk {pieces : List (List UInt8)} {names : List String}
    (hn : List.Forall₂ (NameLayout constants) pieces names) (hc : pieces.length < 256) :
    NamesLayout (bigEndian 1 pieces.length ++ pieces.flatten) names

/-- The lists of annotations stand behind the parameters of their positions. The lists may end
before the parameters. -/
def AreAnnotationsOf (lists : List (List Annotation)) (ofParameters : List (List Annotation)) :
    Prop := ∀ (i : Nat) (h : i < ofParameters.length), ofParameters[i] = lists.getD i []

structure MethodTables (tables : List Table) (m : Method) : Prop where
  fit : TablesFit constants tables
  locals : ∃ code, Says constants tables "Code" (CodeLayout constants) code ∧
    m.locals = code.getD []
  signature : Says constants tables "Signature" (SignatureLayout constants) m.signature
  visible : ∃ annotations, Says constants tables "RuntimeVisibleAnnotations"
    (AnnotationsLayout constants true) annotations ∧ m.visible = annotations.getD []
  invisible : ∃ annotations, Says constants tables "RuntimeInvisibleAnnotations"
    (AnnotationsLayout constants false) annotations ∧ m.invisible = annotations.getD []
  visibleLists : ∃ lists, Says constants tables "RuntimeVisibleParameterAnnotations"
    (ParameterAnnotationsLayout constants true) lists ∧
    AreAnnotationsOf (lists.getD []) (m.parameters.map (·.visible))
  invisibleLists : ∃ lists, Says constants tables "RuntimeInvisibleParameterAnnotations"
    (ParameterAnnotationsLayout constants false) lists ∧
    AreAnnotationsOf (lists.getD []) (m.parameters.map (·.invisible))
  names : ∃ names, Says constants tables "MethodParameters" (NamesLayout constants) names ∧
    m.parameters.map (·.name) = names.getD []
  descriptor : ∃ type, Signature.MethodSignature.parse m.descriptor = .ok type ∧
    type.parameters.length = m.parameters.length

inductive MethodLayout : List UInt8 → Method → Prop
  | mk {flags name descriptor : UInt16} {tables : List Table} {m : Method}
    (hf : flags.toNat = m.flags) (hn : TextAt constants name m.name)
    (hd : TextAt constants descriptor m.descriptor) (ht : MethodTables constants tables m) :
    MethodLayout (indexBytes flags ++ (indexBytes name ++ (indexBytes descriptor ++
      tablesBytes tables))) m

inductive FieldLayout : List UInt8 → Prop
  | mk {flags name descriptor : UInt16} {tables : List Table} (ht : TablesFit constants tables) :
    FieldLayout (indexBytes flags ++ indexBytes name ++ indexBytes descriptor ++
      tablesBytes tables)

/-- The superclass is at the index, which is zero if there is none. -/
inductive SuperclassAt : UInt16 → Option String → Prop
  | absent : SuperclassAt 0 none
  | present {i : UInt16} {name : String} (hi : ClassAt constants i name) :
    SuperclassAt i (some name)

structure ClassTables (tables : List Table) (c : Class) : Prop where
  fit : TablesFit constants tables
  signature : Says constants tables "Signature" (SignatureLayout constants) c.signature
  visible : ∃ annotations, Says constants tables "RuntimeVisibleAnnotations"
    (AnnotationsLayout constants true) annotations ∧ c.visible = annotations.getD []
  invisible : ∃ annotations, Says constants tables "RuntimeInvisibleAnnotations"
    (AnnotationsLayout constants false) annotations ∧ c.invisible = annotations.getD []

/-- The constants take no more indices, and no text of them more bytes, than can be counted. -/
structure ConstantsFit : Prop where
  indices : widths constants < 65535
  texts : ∀ c ∈ constants, c.Fits

/-- The bytes in front of the methods: the magic number, the version, the constants, the names of the
class and what it extends, and the fields. -/
def headBytes (minor major flags name superclass : UInt16) (interfaces : List UInt16)
    (fields : List (List UInt8)) : List UInt8 :=
  bigEndian 4 magic ++ (indexBytes minor ++ (indexBytes major ++ (poolBytes constants ++
    (indexBytes flags ++ (indexBytes name ++ (indexBytes superclass ++
    (countedBytes (interfaces.map indexBytes) ++ countedBytes fields)))))))

/-- The bytes are a class file that holds the class and has the constants. -/
inductive FileLayout : List UInt8 → Class → Prop
  | mk {minor major flags name superclass : UInt16} {interfaces : List UInt16}
    {fields methods : List (List UInt8)} {tables : List Table} {c : Class}
    (hconstants : ConstantsFit constants) (hflags : flags.toNat = c.flags)
    (hname : ClassAt constants name c.name)
    (hsuperclass : SuperclassAt constants superclass c.superclass)
    (hinterfaces : List.Forall₂ (ClassAt constants) interfaces c.interfaces)
    (hinterfacesCount : interfaces.length < 65536)
    (hfields : ∀ piece ∈ fields, FieldLayout constants piece)
    (hfieldsCount : fields.length < 65536)
    (hmethods : List.Forall₂ (MethodLayout constants) methods c.methods)
    (hmethodsCount : methods.length < 65536) (htables : ClassTables constants tables c) :
    FileLayout (headBytes constants minor major flags name superclass interfaces fields ++
      (countedBytes methods ++ tablesBytes tables)) c

end JvmRoutes.ClassFile
