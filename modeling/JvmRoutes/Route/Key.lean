import JvmRoutes.Text.Word

/-!
Keys of a path: the names of its variable parts, written `{name}`, `{name:pattern}` or `:name`.
-/
namespace JvmRoutes.Route

/-- A key that starts with the first character: its name and how many characters it takes.
A pattern ends at the first closing brace. -/
def keyAt? : List Char → Option (List Char × Nat)
  | '{' :: rest =>
    match rest.takeWhile Text.isWord, rest.dropWhile Text.isWord with
    | [], _ => none
    | name, '}' :: _ => some (name, name.length + 2)
    | name, ':' :: rest =>
      -- a pattern that is not closed makes no key
      if rest.contains '}' then
        some (name, name.length + (rest.takeWhile (· != '}')).length + 3)
      else none
    | _, _ => none
  | ':' :: rest =>
    match rest.takeWhile Text.isWord with
    | [] => none
    | name => some (name, name.length + 1)
  | _ => none

/-- The keys of a text of which the first `skip` characters belong to a key already taken. -/
def keysAfter (skip : Nat) : List Char → List String
  | [] => []
  | c :: rest =>
    match skip with
    | skip + 1 => keysAfter skip rest
    | 0 =>
      match keyAt? (c :: rest) with
      | some (name, size) => String.ofList name :: keysAfter (size - 1) rest
      | none => keysAfter 0 rest

def keys (path : String) : List String := keysAfter 0 path.toList

end JvmRoutes.Route
