import JvmRoutes.Archive.Members
import JvmRoutes.ClassFile.Decode
import JvmRoutes.Fault
import JvmRoutes.Files.Tree

/-! Where classes come from: memory, or directories and archives of class files. -/
namespace JvmRoutes

/-- Directories and archives in the order in which they are searched, and the files that have been
opened already, with the archives that they are. -/
structure Classpath where
  files : Files.Tree
  entries : List Files.Path
  opened : List (Files.Path × Option Archive) := []

namespace Classpath

def fileName (className : String) : String := TypeName.slashed className ++ ".class"

def look (files : Files.Tree) (p : Files.Path) : Except Fault (Option Files.Node) :=
  (files.find? p).mapError .path

def decode (origin : String) (bytes : ByteArray) : Traced Fault (Option Class) := do
  return some (← (ClassFile.decode origin bytes.data.toList).mapError .classFile)

def inDirectory (files : Files.Tree) (entry : Files.Path) (fileName : String) :
    Traced Fault (Option Class) := do
  let place := entry ++ Files.Path.ofText fileName
  match (← Traced.ofExcept (look files place)).bind (·.bytes?) with
  | some bytes => decode place.text bytes
  | none => return none

def inArchive (archive : Archive) (entry : Files.Path) (fileName : String) :
    Traced Fault (Option Class) := do
  match ← Traced.ofExcept ((archive.find? fileName).mapError .archive) with
  | some bytes => decode (entry.text ++ "!/" ++ fileName) bytes
  | none => return none

def archiveOf (node : Option Files.Node) : Except Fault (Option Archive) :=
  match node.bind (·.bytes?) with
  | some bytes => (Archive.ofBytes bytes).mapError .archive
  | none => .ok none

/-- Opens a file, and says how many members it has if it is an archive. -/
def openFile (node : Option Files.Node) (entry : Files.Path) : Traced Fault (Option Archive) := do
  let archive ← Traced.ofExcept (archiveOf node)
  if let some archive := archive then
    Traced.log .debug ("Indexed " ++ toString archive.size ++ " entries of " ++ entry.text)
  return archive

abbrev Search (α : Type) : Type := Traced Fault α × List (Files.Path × Option Archive)

def openOnce (opened : List (Files.Path × Option Archive)) (node : Option Files.Node)
    (entry : Files.Path) : Search (Option Archive) :=
  match opened.lookup entry with
  | some archive => (pure archive, opened)
  | none =>
    let outcome := openFile node entry
    match outcome.result with
    | .ok archive => (outcome, (entry, archive) :: opened)
    -- a file that could not be opened is opened again the next time
    | .error _ => (outcome, opened)

def inEntry (files : Files.Tree) (fileName : String)
    (opened : List (Files.Path × Option Archive)) (entry : Files.Path) : Search (Option Class) :=
  match look files entry with
  | .error fault => (.ofExcept (.error fault), opened)
  | .ok (some (.directory _)) => (inDirectory files entry fileName, opened)
  -- whatever is no directory is opened, also what does not exist
  | .ok node =>
    let (archive, opened) := openOnce opened node entry
    (archive.andThen fun
      | some archive => inArchive archive entry fileName
      | none => pure none, opened)

def search (files : Files.Tree) (fileName : String)
    (opened : List (Files.Path × Option Archive)) : (entries : List Files.Path) →
    Search (Option Class)
  | [] => (pure none, opened)
  | entry :: rest =>
    let (found, opened) := inEntry files fileName opened entry
    match found.result with
    | .ok none =>
      let (later, opened) := search files fileName opened rest
      (found.andThen fun _ => later, opened)
    | _ => (found, opened)

def find (classpath : Classpath) (className : String) :
    Traced Fault (Option Class) × Classpath :=
  let (found, opened) :=
    search classpath.files (fileName className) classpath.opened classpath.entries
  (found, { classpath with opened })

end Classpath

/-- Where compiled classes are kept. Those in memory go by the names they were put there with. -/
inductive ClassStore
  | memory (classes : OrderedMap Class)
  | classpath (c : Classpath)

namespace ClassStore

/-- A store of given classes. Of two with one name the later counts. -/
def ofClasses (classes : List Class) : ClassStore :=
  .memory (.ofList (classes.map fun c => (c.name, c)))

def add (c : Class) : ClassStore → ClassStore
  | memory classes => memory (classes.insert c.name c)
  | store => store

def withFiles (files : Files.Tree) : ClassStore → ClassStore
  | memory classes => memory classes
  | classpath c => classpath { c with files }

def find (name : String) : ClassStore → Traced Fault (Option Class) × ClassStore
  | memory classes => (pure (classes.get? (TypeName.dotted name)), memory classes)
  | classpath c =>
    let (found, c) := c.find name
    (found, classpath c)

/-- At least as many as there are classes to find. Every one takes a file or bytes of an archive. -/
def size : ClassStore → Nat
  | memory classes => classes.size
  | classpath c => c.files.root.size

end ClassStore

end JvmRoutes
