import JvmRoutes.Loader.Store
import JvmRoutes.Proofs.Log
import Mathlib.Logic.Relation

/-! What a store of classes answers by its files alone, whatever has been opened before. -/
namespace JvmRoutes

namespace Classpath

variable {files : Files.Tree} {opened : List (Files.Path × Option Archive)}

/-- Every file that has been opened is there, as the archive that it has been taken for. -/
def IsFaithful (files : Files.Tree) (opened : List (Files.Path × Option Archive)) : Prop :=
  ∀ entry archive, opened.lookup entry = some archive →
    ∃ node, look files entry = .ok node ∧ archiveOf node = .ok archive

def archiveAnswer (fileName : String) (entry : Files.Path) (node : Option Files.Node) :
    Except Fault (Option Class) := do
  match ← archiveOf node with
  | some archive => (inArchive archive entry fileName).result
  | none => return none

def entryAnswer (files : Files.Tree) (fileName : String) (entry : Files.Path) :
    Except Fault (Option Class) :=
  match look files entry with
  | .error fault => .error fault
  | .ok (some (.directory _)) => (inDirectory files entry fileName).result
  | .ok node => archiveAnswer fileName entry node

def firstAnswer (files : Files.Tree) (fileName : String) : (entries : List Files.Path) →
    Except Fault (Option Class)
  | [] => return none
  | entry :: rest => do
    match ← entryAnswer files fileName entry with
    | some c => return some c
    | none => firstAnswer files fileName rest

theorem isFaithful_nil : IsFaithful files [] := nofun

theorem IsFaithful.cons {entry : Files.Path} {node : Option Files.Node} {archive : Option Archive}
    (ho : IsFaithful files opened) (hn : look files entry = .ok node)
    (ha : archiveOf node = .ok archive) : IsFaithful files ((entry, archive) :: opened) := by
  intro other found hf
  by_cases he : other = entry
  · subst he
    rw [List.lookup_cons_self] at hf
    obtain rfl := Option.some.inj hf
    exact ⟨node, hn, ha⟩
  · rw [List.lookup_cons, beq_eq_false_iff_ne.2 he] at hf
    exact ho other found hf

theorem result_openFile (node : Option Files.Node) (entry : Files.Path) :
    (openFile node entry).result = archiveOf node := by
  unfold openFile
  rw [Traced.result_andThen, Traced.result_ofExcept]
  cases archiveOf node with
  | error fault => rfl
  | ok archive => cases archive <;> rfl

theorem result_openOnce {entry : Files.Path} {node : Option Files.Node}
    (ho : IsFaithful files opened) (hn : look files entry = .ok node) :
    (openOnce opened node entry).1.result = archiveOf node := by
  unfold openOnce
  cases hl : opened.lookup entry with
  | some archive =>
    obtain ⟨node', hn', ha⟩ := ho entry archive hl
    rw [hn] at hn'
    obtain rfl := Except.ok.inj hn'
    exact ha.symm
  | none =>
    have hr := result_openFile node entry
    cases ha : archiveOf node with
    | error fault => simp [hr, ha]
    | ok archive => simp [hr, ha]

theorem isFaithful_openOnce {entry : Files.Path} {node : Option Files.Node}
    (ho : IsFaithful files opened) (hn : look files entry = .ok node) :
    IsFaithful files (openOnce opened node entry).2 := by
  unfold openOnce
  cases hl : opened.lookup entry with
  | some archive => exact ho
  | none =>
    have hr := result_openFile node entry
    cases ha : archiveOf node with
    | error fault => simpa [hr, ha] using ho
    | ok archive => simpa [hr, ha] using ho.cons hn ha

private theorem result_openOnce_andThen {entry : Files.Path} {node : Option Files.Node}
    (ho : IsFaithful files opened) (hn : look files entry = .ok node) (fileName : String) :
    ((openOnce opened node entry).1.andThen fun
      | some archive => inArchive archive entry fileName
      | none => pure none).result = archiveAnswer fileName entry node := by
  show ((openOnce opened node entry).1 >>= _).result = _
  rw [Traced.result_andThen, result_openOnce ho hn, archiveAnswer]
  cases archiveOf node with
  | error fault => rfl
  | ok archive => cases archive <;> rfl

theorem result_inEntry (ho : IsFaithful files opened) (fileName : String) (entry : Files.Path) :
    (inEntry files fileName opened entry).1.result = entryAnswer files fileName entry := by
  unfold inEntry entryAnswer
  cases hn : look files entry with
  | error fault => rfl
  | ok node =>
    cases node with
    | none => exact result_openOnce_andThen ho hn fileName
    | some node =>
      cases node with
      | file bytes => exact result_openOnce_andThen ho hn fileName
      | directory entries => rfl

theorem isFaithful_inEntry (ho : IsFaithful files opened) (fileName : String)
    (entry : Files.Path) : IsFaithful files (inEntry files fileName opened entry).2 := by
  unfold inEntry
  split
  · exact ho
  · exact ho
  · rename_i node _ hn
    exact isFaithful_openOnce ho hn

theorem result_search (ho : IsFaithful files opened) (fileName : String)
    (entries : List Files.Path) :
    (search files fileName opened entries).1.result = firstAnswer files fileName entries := by
  induction entries generalizing opened with
  | nil => rfl
  | cons entry rest ih =>
    have hr := result_inEntry ho fileName entry
    have hf := isFaithful_inEntry ho fileName entry
    unfold search firstAnswer
    cases ha : entryAnswer files fileName entry with
    | error fault => simp [hr, ha, bind, Except.bind]
    | ok found =>
      cases found with
      | some c => simp [hr, ha, bind, Except.bind, pure, Except.pure]
      | none =>
        simp only [hr, ha]
        show ((inEntry files fileName opened entry).1 >>= _).result = _
        rw [Traced.result_andThen, hr, ha]
        exact ih hf

theorem isFaithful_search (ho : IsFaithful files opened) (fileName : String)
    (entries : List Files.Path) : IsFaithful files (search files fileName opened entries).2 := by
  induction entries generalizing opened with
  | nil => exact ho
  | cons entry rest ih =>
    have hf := isFaithful_inEntry ho fileName entry
    unfold search
    dsimp only
    split
    · exact ih hf
    · exact hf

end Classpath

namespace ClassStore

/-- Nothing that has been opened differs from what the store has. This holds of a store with nothing
opened, and looking for classes keeps it. -/
def IsFaithful : ClassStore → Prop
  | memory _ => True
  | classpath c => Classpath.IsFaithful c.files c.opened

def unopened : ClassStore → ClassStore
  | memory classes => memory classes
  | classpath c => classpath { c with opened := [] }

def answer (name : String) : ClassStore → Except Fault (Option Class)
  | memory classes => .ok (classes.get? (TypeName.dotted name))
  | classpath c => Classpath.firstAnswer c.files (Classpath.fileName name) c.entries

/-- A class of some name says that its superclass goes by another one. -/
def Extends (source : ClassStore) (name superclass : String) : Prop :=
  ∃ c spelled, source.answer name = .ok (some c) ∧ c.parent? = some spelled ∧
    superclass = TypeName.dotted spelled

/-- No class is above itself. -/
def IsAcyclic (source : ClassStore) : Prop :=
  ∀ name, ¬ Relation.TransGen source.Extends name name

variable {source : ClassStore}

theorem answer_unopened (source : ClassStore) (name : String) :
    source.unopened.answer name = source.answer name := by
  cases source <;> rfl

theorem size_unopened (source : ClassStore) : source.unopened.size = source.size := by
  cases source <;> rfl

/-- What has been opened makes no difference to what is found. -/
theorem result_find (h : source.IsFaithful) (name : String) :
    (source.find name).1.result = source.answer name := by
  cases source with
  | memory classes => rfl
  | classpath c => exact Classpath.result_search h _ c.entries

theorem isFaithful_find (h : source.IsFaithful) (name : String) :
    (source.find name).2.IsFaithful := by
  cases source with
  | memory classes => trivial
  | classpath c => exact Classpath.isFaithful_search h _ c.entries

theorem unopened_find (source : ClassStore) (name : String) :
    (source.find name).2.unopened = source.unopened := by
  cases source <;> rfl

end ClassStore

end JvmRoutes
