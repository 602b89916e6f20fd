/-
# The schema of a configuration

`schema/config-v1.json`, and `validate_schema`, which checks a document against it:
`SPEC_FULL.md`, E4.

A schema is a `Shape`, and a JSON value is checked against it as a whole: `faults` lists
everything that is wrong, not just the first thing. Of an object, the missing members
come first, in the order of the schema; then the faults inside its known members, in the
byte order of their names; then all unknown members in one message. A value of the
wrong type has no other fault, except that the bounds of an integer hold for every
number.

A number counts as an integer when it has no fraction, however it is written.
-/

import JobSpool.Json.Value

namespace JobSpool

/-- What a value must look like. -/
inductive Shape where
  /-- A text with at least so many characters. -/
  | text (minLength : Nat)
  /-- One ASCII letter, or `null`. -/
  | letter
  /-- A list of texts. -/
  | texts
  /-- An integer between bounds. -/
  | integer (minimum : Nat) (maximum : Option Nat)
  /-- An object with certain members, some of them required, and no others. The members stand in
  the byte order of their names. -/
  | object (required : List String) (members : List (String × Shape))

namespace Json.Number

/-- Has the number no fraction? -/
def isInteger : Number → Bool
  | natural _ | negative _ => true
  | real x => x.isWhole

/-- Is the number less than a natural one? -/
def isBelow (bound : Nat) : Number → Bool
  | natural n => n.toNat < bound
  | negative _ => true
  | real x => x.ltNat bound

/-- Is the number greater than a natural one? -/
def isAbove (bound : Nat) : Number → Bool
  | natural n => bound < n.toNat
  | negative _ => false
  | real x => x.gtNat bound

end Json.Number

namespace Shape

/-- A value that is of another type. -/
def wrongType (type : String) (v : Json.Value) : String :=
  v.render ++ " is not of type \"" ++ type ++ "\""

/-- A value that is of none of two types. -/
def wrongTypes (type other : String) (v : Json.Value) : String :=
  v.render ++ " is not of types \"" ++ type ++ "\", \"" ++ other ++ "\""

/-- What is wrong with the length of a text. -/
def lengthFaults (minLength : Nat) (s : String) : List String :=
  if s.length < minLength then
    [(Json.Value.text s).render ++ " is shorter than " ++ minLength.repr ++
      (if minLength = 1 then " character" else " characters")]
  else []

/-- Is it one ASCII letter? -/
def isLetter (s : String) : Bool :=
  match s.toList with
  | [c] => c.isAlpha
  | _ => false

/-- What is wrong with a text that should be one letter. -/
def letterFaults (s : String) : List String :=
  if isLetter s then []
  else [(Json.Value.text s).render ++ " does not match \"^[a-zA-Z]$\""]

/-- What is wrong with the size of a number. -/
def boundFaults (minimum : Nat) (maximum : Option Nat) (n : Json.Number) : List String :=
  let shown := (Json.Value.number n).render
  (if n.isBelow minimum then [shown ++ " is less than the minimum of " ++ minimum.repr] else []) ++
  match maximum with
  | some bound =>
    if n.isAbove bound then [shown ++ " is greater than the maximum of " ++ bound.repr] else []
  | none => []

/-- What is wrong with a value that should be an integer. -/
def integerFaults (minimum : Nat) (maximum : Option Nat) (v : Json.Value) : List String :=
  match v with
  | .number n =>
    (if n.isInteger then [] else [wrongType "integer" v]) ++ boundFaults minimum maximum n
  | _ => [wrongType "integer" v]

/-- What is wrong with an item of a list of texts. -/
def itemFaults (v : Json.Value) : List String :=
  match v with
  | .text _ => []
  | _ => [wrongType "string" v]

/-- A message for every required member that is missing. -/
def missingFaults (required : List String) (v : Json.Value) : List String :=
  (required.filter fun name => (v.member? name).isNone).map fun name =>
    (Json.Value.text name).render ++ " is a required property"

/-- One message for all members that are not known. -/
def unknownFaults (known : List String) (members : List (String × Json.Value)) : List String :=
  let names := Text.sortNames ((members.map (·.1)).filter (!known.contains ·))
  match names with
  | [] => []
  | _ =>
    ["Additional properties are not allowed (" ++
      ", ".intercalate (names.map fun name => "'" ++ name ++ "'") ++
      (if names.length = 1 then " was" else " were") ++ " unexpected)"]

mutual

/-- Everything that is wrong with a value. -/
def faults : Shape → Json.Value → List String
  | .text minLength, v =>
    match v with
    | .text s => lengthFaults minLength s
    | _ => [wrongType "string" v]
  | .letter, v =>
    match v with
    | .null => []
    | .text s => letterFaults s
    | _ => [wrongTypes "null" "string" v]
  | .texts, v =>
    match v with
    | .list items => items.flatMap itemFaults
    | _ => [wrongType "array" v]
  | .integer minimum maximum, v => integerFaults minimum maximum v
  | .object required members, v =>
    match v with
    | .object given =>
      missingFaults required v ++ memberFaults members v ++
        unknownFaults (members.map (·.1)) given
    | _ => [wrongType "object" v]

/-- Everything that is wrong with the known members of an object. -/
def memberFaults : List (String × Shape) → Json.Value → List String
  | [], _ => []
  | (name, shape) :: rest, v =>
    (match v.member? name with
      | some value => faults shape value
      | none => []) ++ memberFaults rest v

end

/-- `schema/config-v1.json`: the schema of a configuration. -/
def config : Shape :=
  .object ["version", "job_root_directory"] [
    ("hit_list", .object [] [("derived_csv", .text 1), ("file_name", .text 1)]),
    ("job_root_directory", .text 1),
    ("ping", .object [] [
      ("pause_millis", .integer 0 (some 9999)), ("retry_count", .integer 0 (some 99))]),
    ("reconcile", .object [] [("stale_after_secs", .integer 1 none)]),
    ("scheduler", .object [] [
      ("at_command", .text 1), ("atq_command", .text 1), ("atrm_command", .text 1),
      ("queue", .letter), ("timeout_secs", .integer 1 none)]),
    ("version", .text 0),
    ("worker", .object [] [("args", .texts), ("executable", .text 1)])]

end Shape
end JobSpool
