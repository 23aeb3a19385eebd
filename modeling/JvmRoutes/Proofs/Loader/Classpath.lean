import JvmRoutes.Archive.Pack
import JvmRoutes.Proofs.ClassFile.Silence
import JvmRoutes.Proofs.Loader.EntryFile

/-!
The first entry of a classpath that holds the file of a class decides what the class is. Directories
and archives with the same files are as good as each other, except for names and paths that are too
long for a directory to be asked for: there the search ends.
-/
namespace JvmRoutes.Classpath

open Files

variable {files : Tree} {entries front back : List Path} {entry : Path} {className : String}

/-- The first file of some name that the entries hold, with its origin. -/
def firstHeld (files : Tree) (fileName : String) (entries : List Path) :
    Option (String × ByteArray) :=
  entries.findSome? fun entry => (held files fileName entry).map (originIn files fileName entry, ·)

/-- Entries that can all be asked are searched up to the first that holds the file, and those behind
them only if none does. -/
theorem firstAnswer_append (hs : TypeName.IsSegmented className) (back : List Path)
    (hread : ∀ entry ∈ front, IsReadable files (fileName className) entry)
    (hr : ∀ entry ∈ front, ¬ Refuses files (fileName className) entry) :
    firstAnswer files (fileName className) (front ++ back) =
      decodedOr (firstAnswer files (fileName className) back)
        (firstHeld files (fileName className) front) := by
  induction front with
  | nil => rfl
  | cons entry rest ih =>
    rw [List.forall_mem_cons] at hread hr
    have hentry := entryAnswer_of_not_refuses hs hread.1 hr.1
    rw [List.cons_append, firstAnswer, hentry, firstHeld, List.findSome?_cons]
    cases held files (fileName className) entry with
    | none => exact ih hread.2 hr.2
    | some bytes =>
      have hne := result_decode_ne_none (originIn files (fileName className) entry) bytes
      show decodedOr _ (some _) >>= _ = decodedOr _ (some _)
      unfold decodedOr
      dsimp only
      revert hne
      cases (decode (originIn files (fileName className) entry) bytes).result with
      | error fault => exact fun _ => rfl
      | ok found =>
        cases found with
        | none => exact fun hne => absurd rfl hne
        | some c => exact fun _ => rfl

theorem firstAnswer_of_not_refuses (hs : TypeName.IsSegmented className)
    (hread : ∀ entry ∈ entries, IsReadable files (fileName className) entry)
    (hr : ∀ entry ∈ entries, ¬ Refuses files (fileName className) entry) :
    firstAnswer files (fileName className) entries =
      decodedOr (.ok none) (firstHeld files (fileName className) entries) := by
  have happend := firstAnswer_append hs [] hread hr
  rwa [List.append_nil] at happend

theorem firstAnswer_of_refuses (hs : TypeName.IsSegmented className)
    (hread : ∀ entry ∈ front, IsReadable files (fileName className) entry)
    (hfront : ∀ entry ∈ front, ¬ Refuses files (fileName className) entry)
    (hr : Refuses files (fileName className) entry) :
    firstAnswer files (fileName className) (front ++ entry :: back) =
      decodedOr (.error (.path .tooLong)) (firstHeld files (fileName className) front) := by
  rw [firstAnswer_append hs _ hread hfront, firstAnswer, entryAnswer_of_refuses hs hr]
  rfl

def afterFinds (classpath : Classpath) (names : List String) : Classpath :=
  names.foldl (fun c name => (c.find name).2) classpath

theorem isFaithful_afterFinds {classpath : Classpath}
    (h : IsFaithful classpath.files classpath.opened) (names : List String) :
    let after := afterFinds classpath names
    after.files = classpath.files ∧ after.entries = classpath.entries ∧
      IsFaithful after.files after.opened := by
  induction names generalizing classpath with
  | nil => exact ⟨rfl, rfl, h⟩
  | cons name rest ih => exact ih (isFaithful_search h (fileName name) classpath.entries)

/-- Earlier lookups make no difference to what is found. -/
theorem result_find_afterFinds (files : Tree) (entries : List Path) (names : List String)
    (className : String) :
    ((afterFinds { files, entries } names).find className).1.result =
      firstAnswer files (fileName className) entries := by
  obtain ⟨hfiles, hentries, hf⟩ := @isFaithful_afterFinds { files, entries } isFaithful_nil names
  have hr := result_search hf (fileName className) (afterFinds { files, entries } names).entries
  rw [hfiles, hentries] at hr
  rw [find, hfiles, hentries]
  exact hr

/-- The outcomes are the same, but for where bytes that are no class file come from. -/
def AreAlike (a b : Except Fault (Option Class)) : Prop :=
  a = b ∨ ∃ origin other, a = .error (.classFile (.otherFormat origin)) ∧
    b = .error (.classFile (.otherFormat other))

private theorem areAlike_decode (origin other : String) (bytes : ByteArray) :
    AreAlike (decode origin bytes).result (decode other bytes).result := by
  have hresult : ∀ o, (decode o bytes).result =
      (((ClassFile.decode o bytes.data.toList).result.mapError Fault.classFile).map some) := by
    intro o
    unfold decode Traced.mapError
    rw [Traced.result_andThen]
    cases (ClassFile.decode o bytes.data.toList).result <;> rfl
  rw [hresult, hresult]
  rcases ClassFile.decode_of_otherOrigin origin other bytes.data.toList with h | ⟨h, h'⟩
  · rw [h]
    exact .inl rfl
  · rw [h, h']
    exact .inr ⟨origin, other, rfl, rfl⟩

/-- Whether the files are in directories or in archives makes no difference. -/
theorem areAlike_firstHeld {files' : Tree} {entries' : List Path} {fileName : String}
    (h : List.Forall₂ (fun entry entry' => held files fileName entry = held files' fileName entry')
      entries entries') (otherwise : Except Fault (Option Class)) :
    AreAlike (decodedOr otherwise (firstHeld files fileName entries))
      (decodedOr otherwise (firstHeld files' fileName entries')) := by
  induction h with
  | nil => exact .inl rfl
  | @cons entry entry' rest rest' heq _ ih =>
    unfold firstHeld at ih ⊢
    rw [List.findSome?_cons, List.findSome?_cons, heq]
    cases held files' fileName entry' with
    | none => exact ih
    | some bytes => exact areAlike_decode _ _ bytes

/-- Whatever has been looked up before, the first entry that has the file of a class decides what
the class is, and there is none if no entry has it. Entries of other kinds with the same files give
the same. If names or paths are too long for an entry, the search ends there at the latest. -/
theorem result_find_eq_firstHeld (files : Tree) (entries : List Path) (names : List String)
    (className : String) (hs : TypeName.IsSegmented className)
    (hread : ∀ entry ∈ entries, IsReadable files (fileName className) entry) :
    let outcome := ((afterFinds { files, entries } names).find className).1.result
    ((∀ entry ∈ entries, ¬ Refuses files (fileName className) entry) →
      outcome = decodedOr (.ok none) (firstHeld files (fileName className) entries)) ∧
    (∀ front entry back, entries = front ++ entry :: back →
      (∀ entry ∈ front, ¬ Refuses files (fileName className) entry) →
      Refuses files (fileName className) entry →
      outcome = decodedOr (.error (.path .tooLong)) (firstHeld files (fileName className) front)) ∧
    ∀ files' entries' names',
      List.Forall₂ (fun entry entry' =>
        held files (fileName className) entry = held files' (fileName className) entry')
        entries entries' →
      (∀ entry ∈ entries, ¬ Refuses files (fileName className) entry) →
      (∀ entry ∈ entries', IsReadable files' (fileName className) entry ∧
        ¬ Refuses files' (fileName className) entry) →
      AreAlike outcome
        ((afterFinds { files := files', entries := entries' } names').find className).1.result := by
  intro outcome
  have houtcome : outcome = _ := result_find_afterFinds files entries names className
  refine ⟨fun hr => ?_, fun front entry back he hfront hr => ?_,
    fun files' entries' names' hheld hr hother => ?_⟩
  · exact houtcome.trans (firstAnswer_of_not_refuses hs hread hr)
  · subst he
    have hread' : ∀ entry ∈ front, IsReadable files (fileName className) entry :=
      fun entry he => hread entry (List.mem_append_left _ he)
    exact houtcome.trans (firstAnswer_of_refuses hs hread' hfront hr)
  · have hread' := fun entry he => (hother entry he).1
    have hr' := fun entry he => (hother entry he).2
    rw [houtcome, firstAnswer_of_not_refuses hs hread hr, result_find_afterFinds,
      firstAnswer_of_not_refuses hs hread' hr']
    exact areAlike_firstHeld hheld _

/-- The file of a class, with nothing in it but the name `a.B` and the flags. -/
def bareClass (flags : UInt8) : ByteArray :=
  ⟨#[0xCA, 0xFE, 0xBA, 0xBE, 0, 0, 0, 52, 0, 3, 1, 0, 3, 97, 47, 66, 7, 0, 1, 0, flags, 0, 2, 0, 0,
    0, 0, 0, 0, 0, 0, 0, 0]⟩

def packedClass (flags : UInt8) : ByteArray :=
  ⟨(Archive.pack [("a/B.class", bareClass flags)]).toArray⟩

/-- A directory and an archive that have a class each, and a file that is no archive. -/
def mixedTree (inDirectory inArchive : UInt8) : Tree where
  root := .directory ⟨[("notes.txt", .file ⟨#[1, 2, 3]⟩),
    ("classes", .directory ⟨[("a", .directory ⟨[("B.class", .file (bareClass inDirectory))]⟩)]⟩),
    ("lib.jar", .file (packedClass inArchive))]⟩

private theorem inFile_packedClass :
    (inFile (fileName "a.B") (packedClass 32)).toOption = some (some (bareClass 32)) ∧
      (inFile (fileName "a.B") (packedClass 33)).toOption = some (some (bareClass 33)) := by
  decide +kernel

/-- All that a path leads to in the tree can be asked, and so can what is missing. -/
theorem isReadable_mixedTree (inDirectory : UInt8) {inArchive : UInt8} {content : Option ByteArray}
    (h : (inFile (fileName "a.B") (packedClass inArchive)).toOption = some content) :
    ∀ entry ∈ [Path.ofText "absent", .ofText "notes.txt", .ofText "lib.jar", .ofText "classes"],
      IsReadable (mixedTree inDirectory inArchive) (fileName "a.B") entry ∧
        ¬ Refuses (mixedTree inDirectory inArchive) (fileName "a.B") entry := by
  have hshort : ∀ name ∈ namesOf (fileName "a.B"), name.utf8ByteSize ≤ Path.longestName := by
    decide
  have hnotes : (inFile (fileName "a.B") ⟨#[1, 2, 3]⟩).isOk = true := by decide +kernel
  have hjar : (inFile (fileName "a.B") (packedClass inArchive)).isOk = true := by
    cases hc : inFile (fileName "a.B") (packedClass inArchive) with
    | error fault =>
      rw [hc] at h
      cases h
    | ok _ => rfl
  simp only [List.forall_mem_cons]
  refine ⟨⟨isReadable_of_find? rfl nofun, not_refuses_of_short rfl rfl hshort⟩,
    ⟨isReadable_of_find? rfl ?_, not_refuses_of_short rfl rfl hshort⟩,
    ⟨isReadable_of_find? rfl ?_, not_refuses_of_short rfl rfl hshort⟩,
    ⟨isReadable_of_find? rfl nofun, not_refuses_of_short rfl rfl hshort⟩, nofun⟩
  · intro bytes hb
    obtain rfl := Node.file.inj (Option.some.inj hb)
    exact hnotes
  · intro bytes hb
    obtain rfl := Node.file.inj (Option.some.inj hb)
    exact hjar

theorem result_find_eq_firstHeld_mixedTree :
    let absent := Path.ofText "absent"
    let notes := Path.ofText "notes.txt"
    let jar := Path.ofText "lib.jar"
    let classes := Path.ofText "classes"
    let found := fun files entries names =>
      ((afterFinds { files, entries } names).find "a.B").1.result
    found (mixedTree 33 32) [absent, notes, jar, classes] ["a.C", "a/B"] =
      .ok (some { name := "a.B", flags := 32 }) ∧
    AreAlike (found (mixedTree 33 32) [absent, notes, jar, classes] ["a.C", "a/B"])
      (found (mixedTree 32 33) [absent, notes, classes, jar] []) := by
  intro absent notes jar classes found
  obtain ⟨hpacked, hpacked'⟩ := inFile_packedClass
  have hjar : held (mixedTree 33 32) (fileName "a.B") jar = some (bareClass 32) :=
    congrArg Option.join hpacked
  have hjar' : held (mixedTree 32 33) (fileName "a.B") jar = some (bareClass 33) :=
    congrArg Option.join hpacked'
  have hclasses : held (mixedTree 33 32) (fileName "a.B") classes = some (bareClass 33) := rfl
  have hclasses' : held (mixedTree 32 33) (fileName "a.B") classes = some (bareClass 32) := rfl
  have hnotes : held (mixedTree 33 32) (fileName "a.B") notes =
      (inFile (fileName "a.B") ⟨#[1, 2, 3]⟩).toOption.join := rfl
  have hnotes' : held (mixedTree 32 33) (fileName "a.B") notes =
      (inFile (fileName "a.B") ⟨#[1, 2, 3]⟩).toOption.join := rfl
  have hask := isReadable_mixedTree 33 hpacked
  obtain ⟨hfirst, -, halike⟩ := result_find_eq_firstHeld (mixedTree 33 32)
    [absent, notes, jar, classes] ["a.C", "a/B"] "a.B" (by decide) fun entry he => (hask entry he).1
  have hr := fun entry he => (hask entry he).2
  refine ⟨(hfirst hr).trans ?_, halike _ _ [] ?_ hr fun entry he => ?_⟩
  · have hheld : firstHeld (mixedTree 33 32) (fileName "a.B") [absent, notes, jar, classes] =
        some ("lib.jar!/a/B.class", bareClass 32) := by
      simp only [firstHeld, List.findSome?_cons, hjar]
      rfl
    rw [hheld]
    rfl
  · refine .cons rfl (.cons ?_ (.cons ?_ (.cons ?_ .nil)))
    · exact hnotes.trans hnotes'.symm
    · exact hjar.trans hclasses'.symm
    · exact hclasses.trans hjar'.symm
  · have hperm := ((List.Perm.swap jar classes []).cons notes).cons absent
    exact isReadable_mixedTree 32 hpacked' entry (hperm.mem_iff.1 he)

/-- A name that is as long as one likes. -/
def longName (length : Nat) : String := String.ofList (List.replicate length 'A')

private theorem utf8ByteSize_longName (length : Nat) : (longName length).utf8ByteSize = length := by
  induction length with
  | zero => rfl
  | succ length ih =>
    rw [longName] at ih ⊢
    rw [List.replicate_succ, String.ofList_cons, String.utf8ByteSize_append, ih]
    exact Nat.add_comm 1 length

private theorem fileName_longName (length : Nat) :
    fileName (longName length) = longName length ++ ".class" := by
  simp [fileName, TypeName.slashed, TypeName.swap, TypeName.swapChars, longName]

private theorem notMem_fileName_longName {c : Char} (hc : c ≠ 'A') (hs : c ∉ ".class".toList)
    (length : Nat) : c ∉ (fileName (longName length)).toList := by
  rw [fileName_longName, String.toList_append, List.mem_append, longName, String.toList_ofList,
    List.mem_replicate]
  rintro (⟨-, h⟩ | h)
  · exact hc h
  · exact hs h

private theorem isSegmented_longName {length : Nat} (h : 0 < length) :
    TypeName.IsSegmented (longName length) := by
  have hslashed : TypeName.slashed (longName length) = longName length := by
    simp [TypeName.slashed, TypeName.swap, TypeName.swapChars, longName]
  have hslash : '/' ∉ List.replicate length 'A' := by simp
  rw [TypeName.IsSegmented, hslashed, longName, String.toList_ofList,
    List.splitOn_eq_singleton hslash, List.mem_singleton, eq_comm, List.replicate_eq_nil_iff]
  exact Nat.ne_of_gt h

private theorem namesOf_longName (length : Nat) :
    namesOf (fileName (longName length)) = [longName length ++ ".class"] := by
  have hslash := notMem_fileName_longName (c := '/') (by decide) (by decide) length
  rw [namesOf, List.splitOn_eq_singleton hslash, List.map_singleton, String.ofList_toList,
    fileName_longName]

def emptyTree : Tree where
  root := .directory ⟨[("classes", .directory {})]⟩

private theorem refuses_longName {length : Nat} (h : 250 ≤ length) :
    Refuses emptyTree (fileName (longName length)) (.ofText "classes") := by
  refine .name rfl (notMem_fileName_longName (by decide) (by decide) length) ?_
  rw [namesOf_longName, Node.meetsLong_cons, String.utf8ByteSize_append, utf8ByteSize_longName]
  exact .inl (Nat.add_le_add_right h 6)

private theorem firstHeld_longName (length : Nat) :
    firstHeld emptyTree (fileName (longName length)) [.ofText "classes"] = none := by
  have hd : emptyTree.find? (.ofText "classes") = .ok (some (.directory {})) := rfl
  have hnul := notMem_fileName_longName (c := '\x00') (by decide) (by decide) length
  have hheld : held emptyTree (fileName (longName length)) (.ofText "classes") = none := by
    rw [held, hd]
    dsimp only
    rw [if_neg hnul, namesOf_longName]
    rfl
  rw [firstHeld, List.findSome?_cons, hheld]
  rfl

theorem result_find_of_refuses (hs : TypeName.IsSegmented className)
    (hr : Refuses files (fileName className) entry) :
    ((Classpath.mk files (entry :: back) []).find className).1.result = .error (.path .tooLong) := by
  have hfind := result_find_afterFinds files (entry :: back) [] className
  rw [firstAnswer, entryAnswer_of_refuses hs hr] at hfind
  exact hfind

/-- A directory has nothing of a name that is too long, but it fails when it is asked for it. -/
theorem result_find_longName :
    TypeName.IsSegmented (longName 260) ∧
      firstHeld emptyTree (fileName (longName 260)) [.ofText "classes"] = none ∧
      ((Classpath.mk emptyTree [.ofText "classes"] []).find (longName 260)).1.result =
        .error (.path .tooLong) := by
  have hs : TypeName.IsSegmented (longName 260) := isSegmented_longName (by decide)
  exact ⟨hs, firstHeld_longName 260, result_find_of_refuses hs (refuses_longName (by decide))⟩

end JvmRoutes.Classpath
