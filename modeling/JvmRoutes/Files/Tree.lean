import JvmRoutes.Files.Obstacle
import JvmRoutes.Files.Path
import JvmRoutes.OrderedMap

/-! Trees of files and directories. -/
namespace JvmRoutes.Files

inductive Node
  | file (bytes : ByteArray)
  | directory (entries : OrderedMap Node)

namespace Node

def bytes? : Node → Option ByteArray
  | file bytes => some bytes
  | directory _ => none

def isDirectory : Node → Bool
  | file _ => false
  | directory _ => true

def at? : List String → Node → Option Node
  | [], node => some node
  | name :: rest, directory entries => (entries.get? name).bind (at? rest)
  | _ :: _, file _ => none

/-- The tree with another node where the names lead to. Directories on the way are made. -/
def insertAt : Node → List String → Node → Node
  | _, [], new => new
  | directory entries, name :: rest, new =>
    let inner := (entries.get? name).getD (directory {})
    directory (entries.insert name (insertAt inner rest new))
  | other, _ :: _, _ => other

mutual

/-- How many bytes there are in files, and one more for each file. -/
def size : Node → Nat
  | file bytes => bytes.size + 1
  | directory ⟨entries⟩ => entrySize entries

/-- How many bytes there are in files below the entries of a directory, and one more for each
file. -/
def entrySize : List (String × Node) → Nat
  | [] => 0
  | (_, node) :: rest => node.size + entrySize rest

end

end Node

/-- All files, and the names on the way to the directory that paths start from. -/
structure Tree where
  root : Node := .directory {}
  workplace : List String := []

namespace Tree

def origin (tree : Tree) (p : Path) : List String := if p.slashes = 0 then tree.workplace else []

def next (place : List String) (name : String) : List String :=
  if name = Path.up then place.dropLast else place ++ [name]

def isDirectory (tree : Tree) (place : List String) : Bool :=
  ((tree.root.at? place).map (·.isDirectory)).getD false

/-- The place that names lead to, one after another, if all in front of the last one lead to
directories. A directory refuses a name that is too long. -/
def follow (tree : Tree) (place : List String) : (names : List String) →
    Except Obstacle (Option (List String))
  | [] => .ok (some place)
  | name :: rest =>
    if !tree.isDirectory place then .ok none
    else if Path.longestName < name.utf8ByteSize then .error .tooLong
    else tree.follow (next place name) rest

/-- What a path leads to. Nothing goes by a name that holds a NUL. -/
def find? (tree : Tree) (p : Path) : Except Obstacle (Option Node) := do
  if p.holdsNul then return none
  if p.isTooLong then throw .tooLong
  let place ← tree.follow (tree.origin p) p.names
  return place.bind (tree.root.at? ·)

/-- Goes on to a name, and makes a directory of that name if there is nothing. -/
def enterMaking (tree : Tree) (place : List String) (name : String) :
    Except Obstacle (Tree × List String) :=
  if name = Path.up then .ok (tree, place.dropLast)
  else if Path.longestName < name.utf8ByteSize then .error .tooLong
  else
    let inner := place ++ [name]
    match tree.root.at? inner with
    | some (.directory _) => .ok (tree, inner)
    | some (.file _) => .error .exists
    | none => .ok ({ tree with root := tree.root.insertAt inner (.directory {}) }, inner)

/-- What stands in the way of a path. A file does as itself at the end of the path, and behind a
directory that has been made, since from there on each directory is made by itself. -/
def obstacleBefore (isMade : Bool) (rest : List String) : Obstacle → Obstacle
  | .exists => if isMade || rest.isEmpty then .exists else .notDirectory
  | obstacle => obstacle

/-- Goes on from name to name. Whether a directory has been made before them makes a difference for
what is said of a file in the way. -/
def makePlaces (tree : Tree) (place : List String) (isMade : Bool) : (names : List String) →
    Except Obstacle (Tree × List String)
  | [] => .ok (tree, place)
  | name :: rest =>
    match tree.enterMaking place name with
    | .ok (made, inner) => made.makePlaces inner (isMade || !tree.isDirectory inner) rest
    | .error obstacle => .error (obstacleBefore isMade rest obstacle)

def makeDirectory (tree : Tree) (p : Path) : Except Obstacle (Tree × List String) :=
  if p.holdsNul then .error .holdsNul
  else if p.isTooLong then .error .tooLong
  else tree.makePlaces (tree.origin p) false p.names

def writeFile (tree : Tree) (place : List String) (name : String) (bytes : ByteArray) :
    Except Obstacle Tree :=
  match tree.root.at? (place ++ [name]) with
  | some (.directory _) => .error .isDirectory
  | _ => .ok { tree with root := tree.root.insertAt (place ++ [name]) (.file bytes) }

end Tree

end JvmRoutes.Files
