import JvmRoutes.CommandLine.Options
import JvmRoutes.Extraction
import JvmRoutes.Operation.Report

/-! A run of the command line, from its arguments and the files it finds to those it leaves. -/
namespace JvmRoutes.CommandLine

inductive Ending
  | refused (refusal : Refusal)
  | exit (code : Nat)
  | failed (fault : Fault)
  | blocked (obstacle : Files.Obstacle)
  | valueMissing
  deriving Repr

/-- How a run ends, what it writes to its log, and the files afterwards. -/
structure Outcome where
  ending : Ending
  messages : List Message := []
  files : Files.Tree

def entries (classpath : String) : List Files.Path :=
  ((classpath.toList.splitOn ':').filter (!·.isEmpty)).map fun cs => .ofText (String.ofList cs)

def padRight (width : Nat) (s : String) : String :=
  s ++ String.ofList (List.replicate (width - s.length) ' ')

def operationLine (o : Operation) : String :=
  padRight 7 o.verb ++ " " ++ o.pattern ++ " -> " ++ o.controller ++ "." ++ o.name

def configOf (options : Options) : Config := { unmarkedRequired := !options.lenient }

/-- The messages that are shown: all, or only those that are not for a closer look. -/
def shown (verbose : Bool) (messages : List Message) : List Message :=
  messages.filter fun m => verbose || m.level != .debug

def info (texts : List String) : List Message := texts.map (⟨.info, ·⟩)

def finish (options : Options) (operations : List Operation) (files : Files.Tree) : Outcome :=
  let lines := info (operations.map operationLine)
  let statistics := Statistics.ofOperations operations
  let totals :=
    info ["Total operations: " ++ toString statistics.operations,
      "Total controllers: " ++ toString statistics.controllerCount]
  match options.output with
  | none | some "" => { ending := .exit 0, messages := lines ++ totals, files }
  | some directory =>
    let written := Report.write operations (.ofText directory) files
    match written.result with
    | .ok files => { ending := .exit 0, messages := lines ++ written.messages ++ totals, files }
    | .error obstacle =>
      { ending := .blocked obstacle, messages := lines ++ written.messages, files }

/-- What becomes of a run when an extraction has ended. -/
def conclude (found : Traced Fault (List Operation)) (files : Files.Tree)
    (next : List Operation → Outcome) : Outcome :=
  match found.result with
  | .error fault =>
    if fault.isReported then
      { ending := .exit 1,
        messages := found.messages ++ [⟨.error, "Route extraction failed: " ++ fault.message⟩],
        files }
    else { ending := .failed fault, messages := found.messages, files }
  | .ok operations =>
    let rest := next operations
    { rest with messages := found.messages ++ rest.messages }

def leading (mounts : List (Option Mount)) : List Mount :=
  (mounts.takeWhile (·.isSome)).filterMap id

/-- Extracts what the options ask for and writes the report. A mount without a value ends the run
when its turn comes. -/
def extract (options : Options) (classpath : List Files.Path) (files : Files.Tree) : Outcome :=
  let config := configOf options
  let store : ClassStore := .classpath { files, entries := classpath }
  let count := options.mounts.length
  let mounts := leading options.mounts
  if mounts.length = count then
    conclude (Extraction.run config mounts store).1 files fun operations =>
      finish options operations files
  else
    conclude (Extraction.ofLeading config count mounts { store }).1 files fun _ =>
      { ending := .valueMissing, files }

def missingEntries (files : Files.Tree) : (classpath : List Files.Path) →
    Except Files.Obstacle (List Files.Path)
  | [] => .ok []
  | entry :: rest => do
    let node ← files.find? entry
    let missing ← missingEntries files rest
    return if node.isNone then entry :: missing else missing

/-- Runs with some options on a classpath. All its entries must exist. -/
def runOn (options : Options) (classpath : List Files.Path) (files : Files.Tree) : Outcome :=
  match missingEntries files classpath with
  | .error obstacle => { ending := .blocked obstacle, files }
  | .ok [] => extract options classpath files
  | .ok missing =>
    let text :=
      "Classpath entries do not exist: " ++ String.intercalate ", " (missing.map (·.text))
    { ending := .exit 1, messages := [⟨.error, text⟩], files }

def runWith (options : Options) (files : Files.Tree) : Outcome :=
  match options.classpath with
  | none => { ending := .valueMissing, files }
  | some classpath =>
    let outcome := runOn options (entries classpath) files
    { outcome with messages := shown options.verbose outcome.messages }

def run (arguments : List String) (files : Files.Tree) : Outcome :=
  match Options.parse arguments with
  | .error refusal => { ending := .refused refusal, files }
  | .ok options => runWith options files

end JvmRoutes.CommandLine
