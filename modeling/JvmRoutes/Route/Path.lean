import JvmRoutes.Text.Blank

/-! Route paths: one slash in front, none doubled, none behind. -/
namespace JvmRoutes.Route

def root : String := "/"

/-- A run of slashes becomes one slash. -/
def collapseSlashes : List Char → List Char
  | [] => []
  | c :: rest =>
    if c = '/' && rest.head? == some '/' then collapseSlashes rest else c :: collapseSlashes rest

def dropTrailingSlashes (cs : List Char) : List Char :=
  (cs.reverse.dropWhile (· == '/')).reverse

/-- The normal form of a path. A missing or blank path is the root. -/
def normalize : Option String → String
  | none => root
  | some path =>
    match Text.trimChars path.toList with
    | [] => root
    | cs =>
      match dropTrailingSlashes (collapseSlashes ('/' :: cs)) with
      | [] => root
      | cs => String.ofList cs

/-- A path below another one. Either may be missing, and a blank one counts as missing. -/
def join (base path : Option String) : String :=
  normalize (some (String.intercalate "/" ([base, path].filterMap (·.bind Text.nonBlank?))))

end JvmRoutes.Route
