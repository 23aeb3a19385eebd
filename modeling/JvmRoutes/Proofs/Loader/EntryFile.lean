import JvmRoutes.Proofs.Files.Walk
import JvmRoutes.Proofs.Loader.FileName
import JvmRoutes.Proofs.Loader.Source

/-!
What an entry of a classpath answers, by the bytes that it holds under the name of the file. It does
not matter how it holds them, except for names and paths that are too long for a directory.
-/
namespace JvmRoutes.Classpath

open Files

variable {files : Tree} {entry : Path} {className : String} {bytes : ByteArray}

/-- What a file has under the name of another one. Only archives have anything. -/
def inFile (fileName : String) (bytes : ByteArray) : Except Archive.Fault (Option ByteArray) := do
  match ← Archive.ofBytes bytes with
  | some archive => archive.find? fileName
  | none => return none

/-- What an entry has under the name of a file. Nothing in a directory goes by a name that holds a
NUL. -/
def held (files : Tree) (fileName : String) (entry : Path) : Option ByteArray :=
  match files.find? entry with
  | .ok (some (.directory entries)) =>
    if '\x00' ∈ fileName.toList then none
    else ((Node.directory entries).at? (namesOf fileName)).bind (·.bytes?)
  | .ok (some (.file bytes)) => (inFile fileName bytes).toOption.join
  | _ => none

/-- Where the bytes that an entry has under the name of a file are said to come from. -/
def originIn (files : Tree) (fileName : String) (entry : Path) : String :=
  match files.find? entry with
  | .ok (some (.directory _)) => (entry ++ Path.ofText fileName).text
  | _ => entry.text ++ "!/" ++ fileName

/-- The class of a file, if there is one. -/
def decodedOr (otherwise : Except Fault (Option Class)) :
    Option (String × ByteArray) → Except Fault (Option Class)
  | some (origin, bytes) => (decode origin bytes).result
  | none => otherwise

/-- The path of an entry or of the file in it, or a name on the way to the file, is too long. -/
inductive Refuses (files : Tree) (fileName : String) (entry : Path) : Prop
  | entry (h : files.find? entry = .error .tooLong)
  | path {entries : OrderedMap Node} (hd : files.find? entry = .ok (some (.directory entries)))
    (hn : '\x00' ∉ fileName.toList)
    (hl : (entry ++ Path.ofText fileName).isTooLong = true)
  | name {entries : OrderedMap Node} (hd : files.find? entry = .ok (some (.directory entries)))
    (hn : '\x00' ∉ fileName.toList)
    (hl : (Node.directory entries).MeetsLong (namesOf fileName))

/-- A file that is taken for an archive is one, and can give what it has under the name. -/
def IsReadable (files : Tree) (fileName : String) (entry : Path) : Prop :=
  ∀ bytes, files.find? entry = .ok (some (.file bytes)) → (inFile fileName bytes).isOk = true

theorem isReadable_of_find? {fileName : String} {node : Option Node}
    (hf : files.find? entry = .ok node)
    (h : ∀ bytes, node = some (.file bytes) → (inFile fileName bytes).isOk = true) :
    IsReadable files fileName entry :=
  fun bytes hb => h bytes (Except.ok.inj (hf.symm.trans hb))

theorem not_refuses_of_short {fileName : String} {node : Option Node}
    (hf : files.find? entry = .ok node)
    (hp : (entry ++ Path.ofText fileName).isTooLong = false)
    (hn : ∀ name ∈ namesOf fileName, name.utf8ByteSize ≤ Path.longestName) :
    ¬ Refuses files fileName entry := by
  intro hr
  cases hr with
  | entry h =>
    rw [hf] at h
    cases h
  | path _ _ hl =>
    rw [hp] at hl
    cases hl
  | name _ _ hl => exact Node.not_meetsLong_of_short hn hl

theorem result_decode_ne_none (origin : String) (bytes : ByteArray) :
    (decode origin bytes).result ≠ .ok none := by
  unfold decode
  rw [Traced.result_andThen]
  cases ((ClassFile.decode origin bytes.data.toList).mapError Fault.classFile).result with
  | error fault => exact nofun
  | ok c => exact nofun

theorem result_inDirectory (files : Tree) (entry : Path) (fileName : String) :
    (inDirectory files entry fileName).result =
      look files (entry ++ Path.ofText fileName) >>= fun node =>
        decodedOr (.ok none) ((node.bind (·.bytes?)).map
          ((entry ++ Path.ofText fileName).text, ·)) := by
  unfold inDirectory
  rw [Traced.result_andThen, Traced.result_ofExcept]
  congr 1
  funext node
  cases node.bind (·.bytes?) <;> rfl

theorem result_inDirectory_of_refuses {below : OrderedMap Node}
    (hd : files.find? entry = .ok (some (.directory below))) (hs : TypeName.IsSegmented className)
    (hr : Refuses files (fileName className) entry) :
    (inDirectory files entry (fileName className)).result = .error (.path .tooLong) := by
  have hnul := Tree.holdsNul_append hd (namesOf (fileName className))
  rw [holdsNul_namesOf] at hnul
  have hfind : files.find? (entry ++ Path.ofText (fileName className)) = .error .tooLong := by
    cases hr with
    | entry h =>
      rw [hd] at h
      cases h
    | path _ hn hl =>
      rw [ofText_fileName hs] at hl ⊢
      exact Tree.find?_of_isTooLong (hnul.trans (decide_eq_false hn)) hl
    | name hd' hn hl =>
      rw [hd] at hd'
      obtain rfl := Node.directory.inj (Option.some.inj (Except.ok.inj hd'))
      rw [ofText_fileName hs]
      have hn := hnul.trans (decide_eq_false hn)
      cases hlong : (entry ++ (⟨0, namesOf (fileName className)⟩ : Path)).isTooLong with
      | true => exact Tree.find?_of_isTooLong hn hlong
      | false =>
        obtain ⟨place, hat, hreach⟩ := Tree.exists_reach_of_find? hd hn hlong
        rw [hreach]
        exact Tree.reach_of_meetsLong hat (up_notMem_namesOf hs) hl
  rw [result_inDirectory, look, hfind]
  rfl

theorem result_inDirectory_of_not_refuses {below : OrderedMap Node}
    (hd : files.find? entry = .ok (some (.directory below))) (hs : TypeName.IsSegmented className)
    (hr : ¬ Refuses files (fileName className) entry) :
    (inDirectory files entry (fileName className)).result =
      decodedOr (.ok none) ((held files (fileName className) entry).map
        (originIn files (fileName className) entry, ·)) := by
  have hnul := Tree.holdsNul_append hd (namesOf (fileName className))
  rw [holdsNul_namesOf] at hnul
  have hfind : ∃ node, files.find? (entry ++ Path.ofText (fileName className)) = .ok node ∧
      node.bind (·.bytes?) = held files (fileName className) entry := by
    rw [held, hd, ofText_fileName hs]
    by_cases hn : '\x00' ∈ (fileName className).toList
    · have hnone := hnul.trans (decide_eq_true hn)
      exact ⟨none, Tree.find?_of_holdsNul hnone, (if_pos hn).symm⟩
    · cases hlong : (entry ++ (⟨0, namesOf (fileName className)⟩ : Path)).isTooLong with
      | true => exact absurd (.path hd hn (by rwa [ofText_fileName hs])) hr
      | false =>
        obtain ⟨place, hat, hreach⟩ :=
          Tree.exists_reach_of_find? hd (hnul.trans (decide_eq_false hn)) hlong
        have hmeets := fun hl => hr (.name hd hn hl)
        have hat' := Tree.reach_of_not_meetsLong hat (up_notMem_namesOf hs) hmeets
        exact ⟨_, hreach.trans hat', (if_neg hn).symm⟩
  obtain ⟨node, hfind, hheld⟩ := hfind
  rw [result_inDirectory, look, hfind, ← hheld, originIn, hd]
  rfl

theorem archiveAnswer_eq (fileName : String) (entry : Path) (bytes : ByteArray) :
    archiveAnswer fileName entry (some (.file bytes)) =
      (inFile fileName bytes).mapError .archive >>= fun content =>
        decodedOr (.ok none) (content.map (entry.text ++ "!/" ++ fileName, ·)) := by
  have harchive : archiveOf (some (.file bytes)) =
      (Archive.ofBytes bytes).mapError Fault.archive := rfl
  rw [archiveAnswer, harchive, inFile]
  cases Archive.ofBytes bytes with
  | error fault => rfl
  | ok found =>
    cases found with
    | none => rfl
    | some archive =>
      change (inArchive archive entry fileName).result =
        (archive.find? fileName).mapError .archive >>= _
      unfold inArchive
      rw [Traced.result_andThen, Traced.result_ofExcept]
      congr 1
      funext content
      cases content <;> rfl

theorem archiveAnswer_of_readable {fileName : String}
    (hf : files.find? entry = .ok (some (.file bytes))) (h : IsReadable files fileName entry) :
    archiveAnswer fileName entry (some (.file bytes)) =
      decodedOr (.ok none)
        ((held files fileName entry).map (originIn files fileName entry, ·)) := by
  have hok := h bytes hf
  have hheld : held files fileName entry = (inFile fileName bytes).toOption.join := by
    rw [held, hf]
  have horigin : originIn files fileName entry = entry.text ++ "!/" ++ fileName := by
    rw [originIn, hf]
  rw [archiveAnswer_eq, hheld, horigin]
  cases hc : inFile fileName bytes with
  | error fault =>
    rw [hc] at hok
    cases hok
  | ok content => rfl

/-- An entry that can be asked for the file gives the class of what it holds. -/
theorem entryAnswer_of_not_refuses (hs : TypeName.IsSegmented className)
    (hread : IsReadable files (fileName className) entry)
    (hr : ¬ Refuses files (fileName className) entry) :
    entryAnswer files (fileName className) entry =
      decodedOr (.ok none) ((held files (fileName className) entry).map
        (originIn files (fileName className) entry, ·)) := by
  cases hf : files.find? entry with
  | error obstacle =>
    obtain rfl := Tree.eq_tooLong_of_find? hf
    exact absurd (.entry hf) hr
  | ok node =>
    have hlook : look files entry = .ok node := by
      rw [look, hf]
      rfl
    rw [entryAnswer, hlook]
    match node, hf with
    | none, hf =>
      rw [held, hf]
      rfl
    | some (.file bytes), hf => exact archiveAnswer_of_readable hf hread
    | some (.directory below), hf => exact result_inDirectory_of_not_refuses hf hs hr

theorem entryAnswer_of_refuses (hs : TypeName.IsSegmented className)
    (hr : Refuses files (fileName className) entry) :
    entryAnswer files (fileName className) entry = .error (.path .tooLong) := by
  cases hf : files.find? entry with
  | error obstacle =>
    obtain rfl := Tree.eq_tooLong_of_find? hf
    rw [entryAnswer, look, hf]
    rfl
  | ok node =>
    have hdirectory : ∃ below, node = some (.directory below) := by
      cases hr with
      | entry h =>
        rw [hf] at h
        cases h
      | path hd _ _ => exact ⟨_, Except.ok.inj (hf.symm.trans hd)⟩
      | name hd _ _ => exact ⟨_, Except.ok.inj (hf.symm.trans hd)⟩
    obtain ⟨below, rfl⟩ := hdirectory
    have hlook : look files entry = .ok (some (.directory below)) := by
      rw [look, hf]
      rfl
    rw [entryAnswer, hlook]
    exact result_inDirectory_of_refuses hf hs hr

end JvmRoutes.Classpath
