import JvmRoutes.Mount
import JvmRoutes.Text.Digit

/-! The options of the command line. -/
namespace JvmRoutes.CommandLine

inductive Choice
  | help | classpath | mount | output | lenient | verbose
  deriving DecidableEq, Repr

def Choice.takesValue : Choice → Bool
  | classpath | mount | output => true
  | _ => false

def optionNames : List (String × Choice) :=
  [("-h", .help), ("--help", .help), ("--classpath", .classpath), ("-cp", .classpath),
    ("--mount", .mount), ("-m", .mount), ("--output", .output), ("-o", .output),
    ("--missing-nullable-optional", .lenient), ("--verbose", .verbose), ("-v", .verbose)]

/-- Why there is nothing to run: the help was asked for, or the options are wrong. -/
inductive Refusal
  | help
  | usage
  deriving DecidableEq, Repr

def Refusal.exitCode : Refusal → Nat
  | help => 0
  | usage => 2

/-- What is joined to the name of an option: nothing, a text behind the equals sign of a name with
two dashes, or a text behind a name with one dash, with an equals sign between them or without. -/
inductive Joined
  | nothing
  | long (text : List Char)
  | short (text : List Char)
  deriving Repr

inductive Token
  | option (choice : Choice) (joined : Joined)
  | unknown
  | value (text : String)
  deriving Repr

/-- The part before the first equals sign and the part behind it. -/
def splitEquals? (cs : List Char) : Option (List Char × List Char) :=
  match cs.dropWhile (· != '=') with
  | [] => none
  | _ :: rest => some (cs.takeWhile (· != '='), rest)

/-- The choice of a name given in full. -/
def named? (name : List Char) : Option Choice := optionNames.lookup (String.ofList name)

def isLong : List Char → Bool
  | '-' :: '-' :: _ => true
  | _ => false

def startingWith (start : List Char) : List Choice :=
  (optionNames.filter fun (name, _) => start.isPrefixOf name.toList).map (·.2)

/-- The readings of an argument as the start of a name, or as a short name with characters behind
it. -/
def abbreviated (cs : List Char) : List Token :=
  if isLong cs then
    match splitEquals? cs with
    | some (start, text) => (startingWith start).map (.option · (.long text))
    | none => (startingWith cs).map (.option · .nothing)
  else
    let short := (named? (cs.take 2)).map fun choice => Token.option choice (.short (cs.drop 2))
    short.toList ++ (startingWith cs).map (.option · .nothing)

/-- Whether all characters are digits, of which there must be one. -/
def isDigits (cs : List Char) : Bool := !cs.isEmpty && cs.all Text.isDigit

def dropLineFeed (cs : List Char) : List Char :=
  if cs.getLast? == some '\n' then cs.dropLast else cs

/-- Whether the characters behind a dash make it a negative number, in digits of any script. -/
def isNumber (cs : List Char) : Bool :=
  let whole := cs.takeWhile Text.isDigit
  match cs.dropWhile Text.isDigit with
  | [] => isDigits whole
  | '.' :: fraction => isDigits fraction
  | _ => false

/-- An argument that starts with a dash and is no option given in full. -/
def classifyDashed (cs : List Char) : Except Refusal Token :=
  match abbreviated cs with
  | [token] => .ok token
  | _ :: _ :: _ => .error .usage
  | [] =>
    -- a negative number and a text with a blank are values, in spite of the dash
    if isNumber (dropLineFeed (cs.drop 1)) || cs.contains ' ' then .ok (.value (String.ofList cs))
    else .ok .unknown

def classify (argument : String) : Except Refusal Token :=
  match argument.toList with
  | '-' :: c :: rest =>
    let cs := '-' :: c :: rest
    match named? cs with
    | some choice => .ok (.option choice .nothing)
    | none =>
      match splitEquals? cs with
      | none => classifyDashed cs
      | some (name, text) =>
        match named? name with
        | some choice => .ok (.option choice (if isLong name then .long text else .short text))
        | none => classifyDashed cs
  | _ => .ok (.value argument)

/-- What the arguments are by themselves. Behind two dashes there are only values, which no
option takes. -/
def tokens : List String → Except Refusal (List Token)
  | [] => .ok []
  | argument :: rest =>
    -- the values behind two dashes are surplus, of which one says as much as all
    if argument = "--" then .ok [.unknown]
    else do return (← classify argument) :: (← tokens rest)

/-- The value that a text behind an option stands for. Two dashes stand for none. -/
def valueOf (text : String) : Option String := if text = "--" then none else some text

/-- The choices made so far: for each option the values given to it. A surplus argument is only
complained about at the end. -/
structure Choices where
  classpath : Option (Option String) := none
  mounts : List (Option Mount) := []
  output : Option String := none
  lenient : Bool := false
  verbose : Bool := false
  surplus : Bool := false
  deriving Repr

def Choices.raise (choices : Choices) : Choice → Except Refusal Choices
  | .help => .error .help
  | .lenient => .ok { choices with lenient := true }
  | .verbose => .ok { choices with verbose := true }
  | _ => .ok choices

def Choices.set (choices : Choices) (choice : Choice) (text : String) : Choices :=
  let value := valueOf text
  match choice with
  | .classpath => { choices with classpath := some value }
  | .mount => { choices with mounts := choices.mounts ++ [value.map .ofText] }
  | .output => { choices with output := value }
  | _ => choices

/-- What one argument asks for: choices without a value, and a last one with a value, which is
joined to it or else is the next argument. -/
structure Request where
  flags : List Choice := []
  valued : Option (Choice × Option String) := none

/-- The text joined to the last of several short options. -/
def joinedText? : List Char → Option String
  | [] => none
  | cs => some (String.ofList cs)

/-- What the letters behind a short option without a value ask for. Each must be a short option
itself, and what stands behind one with a value is its value. -/
def Request.ofLetters : List Char → Except Refusal Request
  | [] => .ok {}
  | c :: rest =>
    match named? ['-', c] with
    | none => .error .usage
    | some choice =>
      if choice.takesValue then .ok { valued := some (choice, joinedText? rest) }
      else do
        let others ← ofLetters rest
        return { others with flags := choice :: others.flags }

def Request.ofOption (choice : Choice) : Joined → Except Refusal Request
  | .nothing =>
    .ok (if choice.takesValue then { valued := some (choice, none) } else { flags := [choice] })
  | .long text =>
    if choice.takesValue then .ok { valued := some (choice, some (String.ofList text)) }
    else .error .usage
  | .short text =>
    if choice.takesValue then .ok { valued := some (choice, some (String.ofList text)) }
    else if text.isEmpty then .error .usage
    else do
      let others ← ofLetters text
      return { others with flags := choice :: others.flags }

def consume (choices : Choices) : List Token → Except Refusal Choices
  | [] => .ok choices
  | .unknown :: rest | .value _ :: rest => consume { choices with surplus := true } rest
  | .option choice joined :: rest => do
    let request ← Request.ofOption choice joined
    match request.valued, rest with
    | none, rest => consume (← request.flags.foldlM Choices.raise choices) rest
    | some (choice, some text), rest =>
      consume ((← request.flags.foldlM Choices.raise choices).set choice text) rest
    | some (choice, none), .value text :: rest =>
      consume ((← request.flags.foldlM Choices.raise choices).set choice text) rest
    | some (_, none), _ => throw .usage

/-- What a run is asked to do. The classpath and every mount are given a value, unless it has been
left out by two dashes. -/
structure Options where
  classpath : Option String
  mounts : List (Option Mount)
  output : Option String
  lenient : Bool
  verbose : Bool
  deriving Repr

/-- The options that arguments spell. A classpath and a mount must be among them. -/
def Options.parse (arguments : List String) : Except Refusal Options := do
  let choices ← consume {} (← tokens arguments)
  match choices.classpath, choices.mounts with
  | some classpath, _ :: _ =>
    if choices.surplus then throw .usage
    return {
      classpath, mounts := choices.mounts, output := choices.output, lenient := choices.lenient,
      verbose := choices.verbose }
  | _, _ => throw .usage

end JvmRoutes.CommandLine
