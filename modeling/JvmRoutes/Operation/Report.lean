import JvmRoutes.Files.Tree
import JvmRoutes.Json.Printer
import JvmRoutes.Log
import JvmRoutes.Operation.Document
import JvmRoutes.Operation.Page
import JvmRoutes.Operation.Statistics

/-! The files that an extraction leaves behind. -/
namespace JvmRoutes

structure Report where
  operations : String
  statistics : String
  page : String

namespace Report

def operationsName : String := "operations.json"

def statisticsName : String := "statistics.json"

def pageName : String := "routes.html"

def ofOperations (operations : List Operation) : Report where
  operations := Json.print (.array (operations.map (·.toJson)))
  statistics := Json.print (Statistics.ofOperations operations).toJson
  page := (RouteGraph.ofOperations operations).page

def pathOf (directory : Files.Path) (name : String) : Files.Path :=
  { directory with names := directory.names ++ [name] }

def writeFile (directory : Files.Path) (place : List String) (name text : String)
    (tree : Files.Tree) : Traced Files.Obstacle Files.Tree :=
  .ofExcept <|
    if (pathOf directory name).isTooLong then .error .tooLong
    else tree.writeFile place name text.toUTF8

/-- Writes the report on operations into a directory, which is made if there is none. -/
def write (operations : List Operation) (directory : Files.Path) (tree : Files.Tree) :
    Traced Files.Obstacle Files.Tree := do
  let report := ofOperations operations
  let (tree, place) ← Traced.ofExcept (tree.makeDirectory directory)
  let tree ← writeFile directory place operationsName report.operations tree
  Traced.log .info
    ("Exported " ++ toString operations.length ++ " operations to " ++
      (pathOf directory operationsName).text)
  let tree ← writeFile directory place statisticsName report.statistics tree
  let tree ← writeFile directory place pageName report.page tree
  Traced.log .info ("Exported route graph to " ++ (pathOf directory pageName).text)
  return tree

end Report

end JvmRoutes
