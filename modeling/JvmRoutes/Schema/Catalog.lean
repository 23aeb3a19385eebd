import JvmRoutes.Schema.Basic

/-! Types whose values have a schema of their own. -/
namespace JvmRoutes.Schema

/-- What is known of a type by its name. The schema of an optional value is that of its argument,
and the given one without an argument. -/
inductive Family
  | single (s : Schema)
  | collection
  | mapping
  | optional (fallback : Schema)
  deriving Repr, DecidableEq

def singles : List (String × Schema) :=
  [("boolean", scalar "boolean" none),
    ("java.lang.Boolean", scalar "boolean" none),
    ("byte", scalar "integer" (some "int32")),
    ("java.lang.Byte", scalar "integer" (some "int32")),
    ("short", scalar "integer" (some "int32")),
    ("java.lang.Short", scalar "integer" (some "int32")),
    ("int", scalar "integer" (some "int32")),
    ("java.lang.Integer", scalar "integer" (some "int32")),
    ("long", scalar "integer" (some "int64")),
    ("java.lang.Long", scalar "integer" (some "int64")),
    ("java.math.BigInteger", scalar "integer" none),
    ("float", scalar "number" (some "float")),
    ("java.lang.Float", scalar "number" (some "float")),
    ("double", scalar "number" (some "double")),
    ("java.lang.Double", scalar "number" (some "double")),
    ("java.math.BigDecimal", scalar "number" none),
    ("char", anyText),
    ("java.lang.Character", anyText),
    ("java.lang.String", anyText),
    ("java.lang.CharSequence", anyText),
    ("java.util.UUID", scalar "string" (some "uuid")),
    ("java.net.URI", scalar "string" (some "uri")),
    ("java.net.URL", scalar "string" (some "uri")),
    ("java.time.LocalDate", scalar "string" (some "date")),
    ("java.time.LocalDateTime", scalar "string" (some "date-time")),
    ("java.time.OffsetDateTime", scalar "string" (some "date-time")),
    ("java.time.ZonedDateTime", scalar "string" (some "date-time")),
    ("java.time.Instant", scalar "string" (some "date-time")),
    ("java.util.Date", scalar "string" (some "date-time")),
    ("java.time.Duration", anyText),
    ("java.time.Period", anyText),
    ("io.jooby.FileUpload", binary),
    ("java.io.File", binary),
    ("java.nio.file.Path", binary),
    ("java.io.InputStream", binary),
    ("java.lang.Object", anyObject)]

def collections : List String :=
  ["java.lang.Iterable", "java.util.Collection", "java.util.List", "java.util.ArrayList",
    "java.util.LinkedList", "java.util.Set", "java.util.HashSet", "java.util.LinkedHashSet",
    "java.util.SortedSet", "java.util.TreeSet", "kotlin.collections.List",
    "kotlin.collections.Set"]

def mappings : List String :=
  ["java.util.Map", "java.util.HashMap", "java.util.LinkedHashMap", "java.util.SortedMap",
    "java.util.TreeMap", "kotlin.collections.Map"]

/-- Types of values that may be absent, with the schemas they have without an argument. -/
def optionals : List (String × Schema) :=
  [("java.util.Optional", anyObject),
    ("java.util.OptionalInt", scalar "integer" (some "int32")),
    ("java.util.OptionalLong", scalar "integer" (some "int64")),
    ("java.util.OptionalDouble", scalar "number" (some "double"))]

def family? (name : String) : Option Family :=
  match singles.lookup name with
  | some s => some (.single s)
  | none =>
    if collections.contains name then some .collection
    else if mappings.contains name then some .mapping
    else (optionals.lookup name).map .optional

end JvmRoutes.Schema
