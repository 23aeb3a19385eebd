import JvmRoutes.Proofs.Archive.Members
import JvmRoutes.Proofs.ClassFile.Silence
import JvmRoutes.Proofs.Files.Contents
import JvmRoutes.Proofs.Loader.Source
import JvmRoutes.Proofs.OrderedMap

/-! The classes that a store can answer with. There are no more of them than the store is large. -/
namespace JvmRoutes

namespace Classpath

variable {files : Files.Tree}

def classOf (bytes : ByteArray) : Option Class :=
  (ClassFile.decode "" bytes.data.toList).result.toOption

/-- The bytes of a file, and those of its members if it is an archive. -/
def partsOf (bytes : ByteArray) : List ByteArray :=
  match Archive.ofBytes bytes with
  | .ok (some archive) => bytes :: archive.members
  | _ => [bytes]

def candidates (files : Files.Tree) : List Class :=
  (files.root.contents.flatMap partsOf).filterMap classOf

private theorem length_partsOf (bytes : ByteArray) : (partsOf bytes).length ≤ bytes.size + 1 := by
  unfold partsOf
  split
  · rename_i archive ha
    have hl := Archive.length_members ha
    rw [List.length_cons]
    omega
  · rw [List.length_singleton]
    omega

private theorem length_flatMap_partsOf (contents : List ByteArray) :
    (contents.flatMap partsOf).length ≤ (contents.map (·.size + 1)).sum := by
  induction contents with
  | nil => exact Nat.le_refl 0
  | cons bytes rest ih =>
    have hb := length_partsOf bytes
    rw [List.flatMap_cons, List.length_append, List.map_cons, List.sum_cons]
    omega

theorem length_candidates (files : Files.Tree) : (candidates files).length ≤ files.root.size := by
  have hf := List.length_filterMap_le classOf (files.root.contents.flatMap partsOf)
  have hp := length_flatMap_partsOf files.root.contents
  rw [← Files.Node.size_eq] at hp
  exact Nat.le_trans hf hp

private theorem classOf_eq {origin : String} {bytes : ByteArray} {c : Class}
    (h : (decode origin bytes).result = .ok (some c)) : classOf bytes = some c := by
  unfold decode at h
  rw [Traced.result_andThen] at h
  obtain ⟨found, hd, hc⟩ := bind_eq_ok_iff.1 h
  obtain rfl := Option.some.inj (Except.ok.inj hc)
  have hr := mapError_eq_ok_iff.1 hd
  rw [classOf, ClassFile.decode_of_origin hr]
  rfl

theorem mem_candidates {bytes part : ByteArray} {origin : String} {c : Class}
    (hb : bytes ∈ files.root.contents) (hp : part ∈ partsOf bytes)
    (h : (decode origin part).result = .ok (some c)) : c ∈ candidates files :=
  List.mem_filterMap.2 ⟨part, List.mem_flatMap.2 ⟨bytes, hb, hp⟩, classOf_eq h⟩

private theorem mem_contents_of_look {p : Files.Path} {node : Option Files.Node} {bytes : ByteArray}
    (h : look files p = .ok node) (hb : node.bind (·.bytes?) = some bytes) :
    bytes ∈ files.root.contents := by
  unfold look at h
  obtain ⟨inner, rfl, hi⟩ := Option.bind_eq_some_iff.1 hb
  exact Files.Tree.mem_contents (mapError_eq_ok_iff.1 h) hi

private theorem mem_partsOf_self (bytes : ByteArray) : bytes ∈ partsOf bytes := by
  unfold partsOf
  split <;> exact List.mem_cons_self

private theorem mem_candidates_of_inDirectory {entry : Files.Path} {fileName : String} {c : Class}
    (h : (inDirectory files entry fileName).result = .ok (some c)) : c ∈ candidates files := by
  unfold inDirectory at h
  rw [Traced.result_andThen] at h
  obtain ⟨node, hn, h⟩ := bind_eq_ok_iff.1 h
  split at h
  · rename_i bytes hb
    exact mem_candidates (mem_contents_of_look hn hb) (mem_partsOf_self bytes) h
  · simp at h

private theorem mem_candidates_of_inArchive {bytes : ByteArray} {archive : Archive}
    {entry : Files.Path} {fileName : String} {c : Class} (hb : bytes ∈ files.root.contents)
    (ha : Archive.ofBytes bytes = .ok (some archive))
    (h : (inArchive archive entry fileName).result = .ok (some c)) : c ∈ candidates files := by
  unfold inArchive at h
  rw [Traced.result_andThen] at h
  obtain ⟨found, hf, h⟩ := bind_eq_ok_iff.1 h
  split at h
  · rename_i part
    have hp : part ∈ partsOf bytes := by
      rw [partsOf, ha]
      exact List.mem_cons_of_mem _ (Archive.mem_members (mapError_eq_ok_iff.1 hf))
    exact mem_candidates hb hp h
  · simp at h

private theorem mem_candidates_of_archiveAnswer {entry : Files.Path} {node : Option Files.Node}
    {fileName : String} {c : Class} (hn : look files entry = .ok node)
    (h : archiveAnswer fileName entry node = .ok (some c)) : c ∈ candidates files := by
  unfold archiveAnswer at h
  obtain ⟨archive, ha, h⟩ := bind_eq_ok_iff.1 h
  cases archive with
  | none => simp [pure, Except.pure] at h
  | some archive =>
    unfold archiveOf at ha
    split at ha
    · rename_i bytes hb
      exact mem_candidates_of_inArchive (mem_contents_of_look hn hb) (mapError_eq_ok_iff.1 ha) h
    · simp at ha

private theorem mem_candidates_of_entryAnswer {entry : Files.Path} {fileName : String} {c : Class}
    (h : entryAnswer files fileName entry = .ok (some c)) : c ∈ candidates files := by
  unfold entryAnswer at h
  split at h
  · contradiction
  · exact mem_candidates_of_inDirectory h
  · rename_i node _ hn
    exact mem_candidates_of_archiveAnswer hn h

private theorem mem_candidates_of_firstAnswer {entries : List Files.Path} {fileName : String}
    {c : Class} (h : firstAnswer files fileName entries = .ok (some c)) : c ∈ candidates files := by
  induction entries with
  | nil => simp [firstAnswer, pure, Except.pure] at h
  | cons entry rest ih =>
    unfold firstAnswer at h
    obtain ⟨found, hf, h⟩ := bind_eq_ok_iff.1 h
    cases found with
    | none => exact ih h
    | some first =>
      obtain rfl : first = c := Option.some.inj (Except.ok.inj h)
      exact mem_candidates_of_entryAnswer hf

end Classpath

namespace ClassStore

variable {source : ClassStore}

def candidates : ClassStore → List Class
  | memory classes => classes.values
  | classpath c => Classpath.candidates c.files

theorem length_candidates (source : ClassStore) : source.candidates.length ≤ source.size := by
  cases source with
  | memory classes => exact Nat.le_of_eq (List.length_map _)
  | classpath c => exact Classpath.length_candidates c.files

theorem mem_candidates {name : String} {c : Class} (h : source.answer name = .ok (some c)) :
    c ∈ source.candidates := by
  cases source with
  | memory classes => exact OrderedMap.mem_values (Except.ok.inj h)
  | classpath p => exact Classpath.mem_candidates_of_firstAnswer h

end ClassStore

end JvmRoutes
