import JvmRoutes.CommandLine.Run

/-! The command line: files are taken from the disk, and the report is put there. -/
namespace JvmRoutes.Main

open CommandLine

def usage : String :=
  "usage: jvm-routes --classpath CLASSPATH --mount TYPE[=PATH] [--mount TYPE[=PATH] ...]\n" ++
  "                  [--output DIRECTORY] [--missing-nullable-optional] [--verbose]\n\n" ++
  "  --classpath, -cp  class directories and archives, separated by colons\n" ++
  "  --mount, -m       a controller type, and the path its routes are put below\n" ++
  "  --output, -o      a directory for operations.json, statistics.json and routes.html\n" ++
  "  --missing-nullable-optional\n" ++
  "                    take inputs of which nothing is known for optional\n" ++
  "  --verbose, -v     show all messages\n" ++
  "  --help, -h        show this text\n"

/-- A file or a directory of the disk. Inside a directory only class files are read. -/
partial def readNode (inside : Bool) (entry : IO.FS.DirEntry) : IO Files.Node := do
  if ← entry.path.isDir then
    let nodes ← (← entry.path.readDir).toList.mapM fun inner => do
      return (inner.fileName, ← readNode true inner)
    return .directory ⟨nodes⟩
  if inside && !entry.fileName.endsWith ".class" then return .file .empty
  return .file (← IO.FS.readBinFile entry.path)

def entryAt (p : Files.Path) : IO.FS.DirEntry := { root := ".", fileName := p.text }

/-- The tree with an empty directory at a place where the disk has one and the tree has nothing. -/
def noteDirectory (tree : Files.Tree) (place : List String) (p : Files.Path) : IO Files.Tree := do
  if (tree.root.at? place).isNone && (← (entryAt p).path.isDir) then
    return { tree with root := tree.root.insertAt place (.directory {}) }
  return tree

/-- The tree with the directories on the way of a path, and the place that the path leads to. -/
def readWay (tree : Files.Tree) (place : List String) (way : Files.Path) :
    List String → IO (Files.Tree × List String)
  | [] => return (tree, place)
  | name :: rest => do
    let tree ← noteDirectory tree place way
    let place := if name = Files.Path.up then place.dropLast else place ++ [name]
    readWay tree place { way with names := way.names ++ [name] } rest

def readPath (tree : Files.Tree) (p : Files.Path) : IO Files.Tree := do
  let (tree, place) ← readWay tree (tree.origin p) { p with names := [] } p.names
  if !(← (entryAt p).path.pathExists) then return tree
  return { tree with root := tree.root.insertAt place (← readNode false (entryAt p)) }

/-- The directory that paths start from, and all that the paths lead to. -/
def readTree (paths : List Files.Path) : IO Files.Tree := do
  let workplace := (Files.Path.ofText (← IO.currentDir).toString).names
  let root := (Files.Node.directory {}).insertAt workplace (.directory {})
  paths.foldlM readPath { root, workplace }

def writeReport (tree : Files.Tree) (directory : Files.Path) : IO Unit := do
  IO.FS.createDirAll directory.text
  for name in [Report.operationsName, Report.statisticsName, Report.pageName] do
    let place := Report.pathOf directory name
    if let .ok (some (.file bytes)) := tree.find? place then
      IO.FS.writeBinFile place.text bytes

def runWith (options : Options) : IO UInt32 := do
  let tree ← readTree ((options.classpath.map entries).getD [])
  let outcome := CommandLine.runWith options tree
  for m in outcome.messages do IO.eprintln (m.level.name ++ " " ++ m.text)
  match outcome.ending with
  | .exit 0 =>
    if let some directory := options.output.filter (· != "") then
      writeReport outcome.files (.ofText directory)
    return 0
  | .exit code => return code.toUInt32
  | .refused refusal => return refusal.exitCode.toUInt32
  | .failed fault =>
    IO.eprintln fault.message
    return 1
  | .blocked obstacle =>
    IO.eprintln obstacle.message
    return 1
  | .valueMissing =>
    IO.eprintln "An option lacks its value"
    return 1

end JvmRoutes.Main

def main (arguments : List String) : IO UInt32 := do
  match JvmRoutes.CommandLine.Options.parse arguments with
  | .ok options => JvmRoutes.Main.runWith options
  | .error .help =>
    IO.println JvmRoutes.Main.usage
    return 0
  | .error .usage =>
    IO.eprintln JvmRoutes.Main.usage
    return 2
