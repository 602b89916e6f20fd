/-
# Help and version

What the command of `SPEC_FULL.md`, E10, prints for `--help` and `--version`.

The help on a command tells what it is for, how it is called, and its subcommands,
arguments and options, each in a column of its own width. The options that a command has
of its own are shown together with those it shares: first the first one of either kind,
by name, then the second one, and so on.
-/

import JobSpool.CommandLine.Request
import JobSpool.Text.Order

namespace JobSpool
namespace CommandLine

/-- The version of the program. -/
def version : String := "0.1.0"

/-- A line with a name and what it is about, in a column of some width. -/
def helpLine (width : Nat) (item : String × String) : String :=
  "  " ++ item.1 ++ String.ofList (List.replicate (width - item.1.length) ' ') ++ "  " ++ item.2

/-- A section of the help, if it has items. -/
def helpSection (title : String) (items : List (String × String)) : List String :=
  if items.isEmpty then []
  else
    let width := (items.map (·.1.length)).foldl max 0
    ["\n".intercalate ((title ++ ":") :: items.map (helpLine width))]

/-- How an argument is shown. -/
def shownArgument (a : ArgumentSpec) : String :=
  (if a.required then "<" ++ a.name ++ ">" else "[" ++ a.name ++ "]") ++
    (if a.many then "..." else "")

/-- How an option is shown. -/
def shownOption (o : OptionSpec) : String :=
  let letter := match o.letter with
    | some c => String.ofList ['-', c, ',', ' ']
    | none => "    "
  let value := match o.effect with
    | .value shown _ => " <" ++ shown ++ ">"
    | _ => ""
  letter ++ "--" ++ o.name ++ value

/-- Options of two kinds in the order of the help. -/
def interleaved : List OptionSpec → List OptionSpec → List OptionSpec
  | a :: own, b :: shared =>
    let pair := if Text.byteOrder a.name b.name == .lt then [a, b] else [b, a]
    pair ++ interleaved own shared
  | own, [] => own
  | [], shared => shared

/-- The help on a command that is called by some words. -/
def helpText (call : String) (c : CommandSpec) (subcommands : List (String × String)) : String :=
  let sections :=
    [c.about, "Usage: " ++ call] ++ helpSection "Commands" subcommands ++
      helpSection "Arguments" (c.arguments.map fun a => (shownArgument a, a.about)) ++
      helpSection "Options"
        ((interleaved c.own c.shared).map fun o => (shownOption o, o.about))
  "\n\n".intercalate sections ++ "\n"

/-- The help on the whole program. -/
def fullHelp : String :=
  helpText (grammar.name ++ " [OPTIONS] <PRINCIPAL> <COMMAND>") grammar
    ((subcommands ++ [helpSpec]).map fun c => (c.name, c.about))

/-- The help on a subcommand. -/
def subcommandHelp (c : CommandSpec) : String :=
  let options := if c.options.isEmpty then "" else " [OPTIONS]"
  let arguments := c.arguments.map fun a => " " ++ shownArgument a
  helpText (grammar.name ++ " <PRINCIPAL> " ++ c.name ++ options ++ String.join arguments) c []

/-- The help that was asked for. -/
def help (subcommand : Option String) : String :=
  match subcommand.bind fun name => (subcommands ++ [helpSpec]).find? (·.name == name) with
  | some c => subcommandHelp c
  | none => fullHelp

end CommandLine
end JobSpool
