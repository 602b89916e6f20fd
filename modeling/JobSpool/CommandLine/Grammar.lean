/-
# Reading the words of a command line

The words that the command of `SPEC_FULL.md`, E10, takes.

A command takes options and positional arguments, and may have subcommands. The words are
read from left to right, and the first fault stops the reading, as a call for help or
for the version does:

* a word that names a subcommand starts it, unless an option still awaits its value; the rest
  of the words is the subcommand's;
* `--` makes every later word positional;
* `--name` and `--name=value` are an option, and `-abc` is three of them with one letter each;
  such a word is never the value of the option in front of it;
* any other word is the value that an option awaits, or else the next positional argument.

An option counts once it is settled: at once when its value is attached, and otherwise when the
next option or positional argument comes, or the words of the command end. Then its
value has to be there and to be accepted, and the option must not have been given before.
-/

import JobSpool.Text.Count

namespace JobSpool
namespace CommandLine

/-- What an option does. -/
inductive OptionEffect where
  /-- It takes a value, which is shown under a name in the help and has to be accepted. -/
  | value (shown : String) (accepts : String → Bool)
  | flag
  | help
  | version

/-- An option of a command. -/
structure OptionSpec where
  name : String
  letter : Option Char := none
  effect : OptionEffect
  about : String

/-- The positional arguments of a command under one name. -/
structure ArgumentSpec where
  name : String
  required : Bool
  /-- May there be more than one? -/
  many : Bool
  about : String := ""

/-- A command. -/
structure CommandSpec where
  name : String
  about : String
  /-- The options that it has of its own. -/
  own : List OptionSpec := []
  /-- The options that it has in common with other commands. -/
  shared : List OptionSpec := []
  arguments : List ArgumentSpec := []
  /-- Pairs of an option and a positional argument that exclude each other. -/
  conflicts : List (String × String) := []

/-- Why the reading stops before the end. -/
inductive Stop where
  /-- Help on a subcommand, or on the whole, was asked for. -/
  | help (subcommand : Option String)
  | version
  /-- The words do not fit the command. -/
  | usage
  deriving DecidableEq, Repr

/-- An option that is not settled, with its value if that has come. -/
structure Pending where
  option : OptionSpec
  value : Option String

/-- What has been read of the words of a command. -/
structure Reading where
  /-- The settled options by name, with the value of those that take one. -/
  options : List (String × String) := []
  pending : Option Pending := none
  arguments : List String := []
  /-- Has `--` been read? -/
  onlyArguments : Bool := false

namespace Reading

/-- Does an option await its value? -/
def awaits (r : Reading) : Bool :=
  match r.pending with
  | some p => p.value.isNone
  | none => false

/-- Notes an option that must not be there yet. -/
def note (r : Reading) (name value : String) : Except Stop Reading :=
  if r.options.any (·.1 == name) then .error .usage
  else .ok { r with options := r.options ++ [(name, value)] }

/-- Settles the pending option. -/
def settle (r : Reading) : Except Stop Reading :=
  match r.pending with
  | none => .ok r
  | some ⟨_, none⟩ => .error .usage
  | some ⟨option, some value⟩ =>
    let accepted : Bool :=
      match option.effect with
      | .value _ accepts => accepts value
      | _ => true
    if accepted then ({ r with pending := none } : Reading).note option.name value
    else .error .usage

/-- The value of an option that was given. -/
def value? (r : Reading) (name : String) : Option String :=
  (r.options.find? (·.1 == name)).map (·.2)

/-- Was an option given? -/
def has (r : Reading) (name : String) : Bool :=
  (r.value? name).isSome

end Reading

namespace CommandSpec

/-- All options of a command. -/
def options (c : CommandSpec) : List OptionSpec :=
  c.own ++ c.shared

/-- How many positional arguments a command takes, if there is a limit. -/
def limit (c : CommandSpec) : Option Nat :=
  if c.arguments.any (·.many) then none else some c.arguments.length

/-- How many positional arguments a command has to be given. -/
def least (c : CommandSpec) : Nat :=
  (c.arguments.filter (·.required)).length

/-- Takes a positional argument. -/
def takeArgument (c : CommandSpec) (r : Reading) (word : String) : Except Stop Reading := do
  let r ← r.settle
  match c.limit with
  | some n =>
    if r.arguments.length < n then return { r with arguments := r.arguments ++ [word] }
    else throw .usage
  | none => return { r with arguments := r.arguments ++ [word] }

/-- Takes an option, with the value that is attached to it, if there is one. `help` is what a call
for help asks about. -/
def takeOption (help : Option String) (r : Reading) (o : OptionSpec) (attached : Option String) :
    Except Stop Reading :=
  match o.effect, attached with
  | .value _ _, none => r.settle.map fun r => { r with pending := some ⟨o, none⟩ }
  | .value _ _, some value => do
    let r ← r.settle
    ({ r with pending := some ⟨o, some value⟩ } : Reading).settle
  | _, some _ => .error .usage
  | .flag, none => do
    let r ← r.settle
    r.note o.name ""
  | .help, none => do
    let _ ← r.settle
    throw (.help help)
  | .version, none => do
    let _ ← r.settle
    throw .version

/-- Takes the letters of a word with one hyphen. What follows the letter of an option with a value
is the value. -/
def takeLetters (c : CommandSpec) (help : Option String) (r : Reading) :
    List Char → Except Stop Reading
  | [] => .ok r
  | letter :: rest =>
    match c.options.find? (·.letter == some letter) with
    | none => .error .usage
    | some o =>
      match o.effect with
      | .value _ _ =>
        takeOption help r o (if rest.isEmpty then none else some (String.ofList rest))
      | _ =>
        match takeOption help r o none with
        | .error stop => .error stop
        | .ok r => takeLetters c help r rest

/-- The name and the attached value in the characters behind two hyphens. -/
def splitAttached (cs : List Char) : String × Option String :=
  match cs.dropWhile (· != '=') with
  | [] => (String.ofList cs, none)
  | _ :: value => (String.ofList (cs.takeWhile (· != '=')), some (String.ofList value))

/-- Takes one word that starts no subcommand. -/
def takeWord (c : CommandSpec) (help : Option String) (r : Reading) (word : String) :
    Except Stop Reading :=
  if r.onlyArguments then c.takeArgument r word
  else
    match word.toList with
    | ['-', '-'] => .ok { r with onlyArguments := true }
    | '-' :: '-' :: rest =>
      let (name, attached) := splitAttached rest
      match c.options.find? (·.name == name) with
      | some o => takeOption help r o attached
      | none => .error .usage
    | '-' :: letter :: rest => c.takeLetters help r (letter :: rest)
    | _ =>
      match r.pending with
      | some ⟨o, none⟩ => .ok { r with pending := some ⟨o, some word⟩ }
      | _ => c.takeArgument r word

/-- Checks what was read when the words of a command have ended. -/
def finish (c : CommandSpec) (r : Reading) : Except Stop Reading := do
  let r ← r.settle
  if r.arguments.length < c.least then throw .usage
  if c.conflicts.any fun p => r.has p.1 && !r.arguments.isEmpty then throw .usage
  return r

/-- Reads the words of a command without subcommands. -/
def read (c : CommandSpec) (help : Option String) (r : Reading) :
    List String → Except Stop Reading
  | [] => c.finish r
  | word :: words =>
    match c.takeWord help r word with
    | .error stop => .error stop
    | .ok r => read c help r words

end CommandSpec

/-- The name of the subcommand that gives help. -/
def helpName : String := "help"

/-- What the subcommand for help is asked about. It gives help on itself, too. -/
def readHelp (subcommands : List CommandSpec) : List String → Stop
  | [] => .help none
  | [name] =>
    if name == helpName || subcommands.any (·.name == name) then .help (some name) else .usage
  | _ => .usage

/-- Reads the words of a command with subcommands. Gives what was read of the command, and the
subcommand with what was read of it. -/
def readAll (c : CommandSpec) (subcommands : List CommandSpec) (r : Reading) :
    List String → Except Stop (Reading × CommandSpec × Reading)
  | [] => .error .usage
  | word :: words =>
    -- A word is free if it is no argument behind `--`, and no option's value.
    let free := !r.onlyArguments && !r.awaits
    if free && word == helpName then .error (readHelp subcommands words)
    else
      match if free then subcommands.find? (·.name == word) else none with
      | some sub =>
        match sub.read (some sub.name) {} words with
        | .error stop => .error stop
        | .ok inner => (c.finish r).map fun r => (r, sub, inner)
      | none =>
        match c.takeWord none r word with
        | .error stop => .error stop
        | .ok r => readAll c subcommands r words

end CommandLine
end JobSpool
