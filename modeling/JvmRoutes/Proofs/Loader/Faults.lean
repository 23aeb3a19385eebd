import JvmRoutes.Proofs.Loader.Search

/-!
What lookups fail for: a place that cannot be looked at, an archive or a class file that cannot be
read, or a cycle of superclasses.
-/
namespace JvmRoutes

variable {α β ε : Type} {kind : Fault → Bool}

/-- Whether a lookup of a class can fail for a fault. -/
def Fault.isOfLookup : Fault → Bool
  | cyclicHierarchy _ _ | classFile _ | archive _ | path _ => true
  | _ => false

/-- A result, or a fault of some kind. -/
def FailsOnly (kind : Fault → Bool) (r : Except Fault α) : Prop :=
  ∀ fault, r = .error fault → kind fault = true

theorem failsOnly_ok (a : α) : FailsOnly kind (.ok a) := nofun

theorem FailsOnly.bind {r : Except Fault α} {f : α → Except Fault β} (hr : FailsOnly kind r)
    (hf : ∀ a, FailsOnly kind (f a)) : FailsOnly kind (r >>= f) := by
  intro fault h
  rcases bind_eq_error_iff.1 h with h | ⟨a, -, h⟩
  · exact hr fault h
  · exact hf a fault h

theorem FailsOnly.mono {other : Fault → Bool} {r : Except Fault α} (h : FailsOnly kind r)
    (hm : ∀ fault, kind fault = true → other fault = true) : FailsOnly other r :=
  fun fault hr => hm fault (h fault hr)

theorem failsOnly_mapError {f : ε → Fault} (hf : ∀ e, kind (f e) = true) (r : Except ε α) :
    FailsOnly kind (r.mapError f) := by
  intro fault h
  cases r with
  | error e =>
    obtain rfl := Except.error.inj h
    exact hf e
  | ok a => cases h

namespace Classpath

theorem failsOnly_decode (origin : String) (bytes : ByteArray) :
    FailsOnly Fault.isOfLookup (decode origin bytes).result := by
  unfold decode
  rw [Traced.result_andThen]
  refine FailsOnly.bind ?_ fun c => failsOnly_ok (some c)
  exact failsOnly_mapError (f := Fault.classFile) (fun _ => rfl) _

theorem failsOnly_look (files : Files.Tree) (p : Files.Path) :
    FailsOnly Fault.isOfLookup (look files p) :=
  failsOnly_mapError (f := Fault.path) (fun _ => rfl) (files.find? p)

theorem failsOnly_inDirectory (files : Files.Tree) (entry : Files.Path) (fileName : String) :
    FailsOnly Fault.isOfLookup (inDirectory files entry fileName).result := by
  unfold inDirectory
  rw [Traced.result_andThen]
  refine (failsOnly_look files _).bind fun node => ?_
  cases node.bind (·.bytes?) with
  | none => exact failsOnly_ok none
  | some bytes => exact failsOnly_decode _ bytes

theorem failsOnly_inArchive (archive : Archive) (entry : Files.Path) (fileName : String) :
    FailsOnly Fault.isOfLookup (inArchive archive entry fileName).result := by
  unfold inArchive
  rw [Traced.result_andThen]
  refine FailsOnly.bind ?_ fun found => ?_
  · exact failsOnly_mapError (f := Fault.archive) (fun _ => rfl) (archive.find? fileName)
  · cases found with
    | none => exact failsOnly_ok none
    | some bytes => exact failsOnly_decode _ bytes

theorem failsOnly_openOnce (opened : List (Files.Path × Option Archive))
    (node : Option Files.Node) (entry : Files.Path) :
    FailsOnly Fault.isOfLookup (openOnce opened node entry).1.result := by
  have hfile : FailsOnly Fault.isOfLookup (openFile node entry).result := by
    rw [result_openFile]
    unfold archiveOf
    cases node.bind (·.bytes?) with
    | none => exact failsOnly_ok none
    | some bytes => exact failsOnly_mapError (f := Fault.archive) (fun _ => rfl) _
  unfold openOnce
  cases opened.lookup entry with
  | some archive => exact failsOnly_ok archive
  | none =>
    dsimp only
    split <;> exact hfile

theorem failsOnly_inEntry (files : Files.Tree) (fileName : String)
    (opened : List (Files.Path × Option Archive)) (entry : Files.Path) :
    FailsOnly Fault.isOfLookup (inEntry files fileName opened entry).1.result := by
  unfold inEntry
  split
  · rename_i fault hl
    intro other h
    obtain rfl := Except.error.inj h
    exact failsOnly_look files entry fault hl
  · exact failsOnly_inDirectory files entry fileName
  · rename_i node _ _
    have hopen := failsOnly_openOnce opened node entry
    change FailsOnly _ ((openOnce opened node entry).1 >>= _).result
    rw [Traced.result_andThen]
    refine hopen.bind fun archive => ?_
    cases archive with
    | none => exact failsOnly_ok none
    | some archive => exact failsOnly_inArchive archive entry fileName

theorem failsOnly_search (files : Files.Tree) (fileName : String)
    (opened : List (Files.Path × Option Archive)) (entries : List Files.Path) :
    FailsOnly Fault.isOfLookup (search files fileName opened entries).1.result := by
  induction entries generalizing opened with
  | nil => exact failsOnly_ok none
  | cons entry rest ih =>
    have hentry := failsOnly_inEntry files fileName opened entry
    unfold search
    dsimp only
    split
    · change FailsOnly _ ((inEntry files fileName opened entry).1 >>= _).result
      rw [Traced.result_andThen]
      exact hentry.bind fun _ => ih _
    · exact hentry

end Classpath

theorem ClassStore.failsOnly_find (store : ClassStore) (name : String) :
    FailsOnly Fault.isOfLookup (store.find name).1.result := by
  cases store with
  | memory classes => exact failsOnly_ok _
  | classpath c => exact Classpath.failsOnly_search _ _ _ _

namespace Loading

/-- With every loader, an activity fails for faults of some kind alone. -/
def FailsFor (kind : Fault → Bool) (x : Loading α) : Prop :=
  ∀ loader, FailsOnly kind (outcome x loader).1

theorem failsFor_ofExcept {r : Except Fault α} (h : FailsOnly kind r) :
    FailsFor kind (ofExcept r) := fun _ => h

theorem isClosed_failsFor (kind : Fault → Bool) : IsClosed fun _ => FailsFor kind where
  pure a _ := failsOnly_ok a
  log _ _ _ := failsOnly_ok ()
  bind := by
    intro α β x f hx hf loader
    have hfirst := hx loader
    rcases ho : outcome x loader with ⟨r, next⟩
    rw [ho] at hfirst
    cases r with
    | error fault =>
      rw [outcome_bind_error ho]
      intro other h
      obtain rfl := Except.error.inj h
      exact hfirst fault rfl
    | ok a =>
      rw [outcome_bind_ok ho]
      exact hf a next

theorem failsFor_link (name : String) (superclass : Option String) :
    FailsFor Fault.isOfLookup (link name superclass) := by
  intro loader
  unfold outcome link
  cases superclass with
  | none => exact failsOnly_ok ()
  | some superclass =>
    dsimp only
    split
    · intro fault h
      obtain rfl := Except.error.inj h
      rfl
    · exact failsOnly_ok ()

/-- A lookup fails for a fault of lookups alone. -/
theorem failsFor_find (name : String) : FailsFor Fault.isOfLookup (find name) := by
  have hclosed := isClosed_failsFor Fault.isOfLookup
  have hfetch : FailsFor Fault.isOfLookup (fetch (TypeName.dotted name)) :=
    fun loader => loader.store.failsOnly_find _
  have hload : FailsFor Fault.isOfLookup (load (TypeName.dotted name)) := by
    refine hclosed.bind (hclosed.log _ _) fun _ => hclosed.bind hfetch fun found => ?_
    cases found with
    | none => exact hclosed.pure none
    | some c =>
      refine hclosed.bind (failsFor_link _ _) fun _ => ?_
      exact hclosed.bind (fun _ => failsOnly_ok ()) fun _ => hclosed.pure _
  refine hclosed.bind (fun _ => failsOnly_ok _) fun found => ?_
  cases found with
  | none => exact hload
  | some c => exact hclosed.pure (some c)

end Loading

end JvmRoutes
