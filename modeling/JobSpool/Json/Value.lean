/-
# JSON values

A number is a natural number of 64 bits, a negative integer down to `-2 ^ 63`, or a
binary64; which of the three it is depends on how it was written, so `2`, `2.0` and
`-0` differ. An object is a list of members in the order in which they are written
out; `objectOf` makes one from the members of a text, sorted by the bytes of their
names, where the last of several members with one name counts.

`Value.render` is the text of a value without any blanks, `Value.renderPretty` the one with a line
per element and two blanks for each level.
-/

import JobSpool.Json.Binary64
import JobSpool.Text.Count
import JobSpool.Text.Order

namespace JobSpool
namespace Json

/-- A number, by the way it is written. -/
inductive Number where
  | natural (n : UInt64)
  | negative (magnitude : UInt64)
  | real (x : Binary64)
  deriving DecidableEq, Repr

/-- A JSON value. -/
inductive Value where
  | null
  | bool (b : Bool)
  | number (n : Number)
  | text (s : String)
  | list (items : List Value)
  | object (members : List (String × Value))
  deriving Repr

namespace Number

/-- The text of a number. -/
def render : Number → List Char
  | natural n => (Text.writeCount n).toList
  | negative m => '-' :: (Text.writeCount m).toList
  | real x => x.render

end Number

namespace Value

/-- Puts a member into a list of members with ascending names, in place of one with that name. -/
def insertMember (name : String) (value : Value) :
    List (String × Value) → List (String × Value)
  | [] => [(name, value)]
  | (other, old) :: rest =>
    match Text.byteOrder name other with
    | .lt => (name, value) :: (other, old) :: rest
    | .eq => (name, value) :: rest
    | .gt => (other, old) :: insertMember name value rest

/-- The object with the given members, sorted by name; the last one of a name counts. -/
def objectOf (members : List (String × Value)) : Value :=
  .object (members.foldl (fun sorted m => insertMember m.1 m.2 sorted) [])

/-- The value of a member of an object. -/
def member? (name : String) : Value → Option Value
  | .object members => (members.find? (·.1 == name)).map (·.2)
  | _ => none

/-- A natural number. -/
def nat (n : Nat) : Value := .number (.natural (.ofNat n))

/-- A list of texts. -/
def texts (items : List String) : Value := .list (items.map .text)

/-- A value or `null`. -/
def orNull (v : Option Value) : Value := v.getD .null

/-- A member that is left out when there is no value. -/
def optionalMember (name : String) (v : Option Value) : List (String × Value) :=
  (v.map (name, ·)).toList

end Value

/-- One character inside a JSON string. -/
def escapeChar (c : Char) : List Char :=
  if c = '"' then ['\\', '"']
  else if c = '\\' then ['\\', '\\']
  else if c = '\x08' then ['\\', 'b']
  else if c = '\x0c' then ['\\', 'f']
  else if c = '\n' then ['\\', 'n']
  else if c = '\r' then ['\\', 'r']
  else if c = '\t' then ['\\', 't']
  else if c.toNat < 0x20 then
    ['\\', 'u', '0', '0'] ++ (if c.toNat < 0x10 then ['0'] else []) ++ Nat.toDigits 16 c.toNat
  else [c]

/-- A JSON string. -/
def renderText (s : String) : List Char :=
  '"' :: s.toList.flatMap escapeChar ++ ['"']

mutual

/-- The text of a value, without blanks. -/
def renderChars : Value → List Char
  | .null => "null".toList
  | .bool b => (if b then "true" else "false").toList
  | .number n => n.render
  | .text s => renderText s
  | .list items => '[' :: renderItems items ++ [']']
  | .object members => '\x7b' :: renderMembers members ++ ['\x7d']

/-- The items of a list with commas between them. -/
def renderItems : List Value → List Char
  | [] => []
  | [v] => renderChars v
  | v :: vs => renderChars v ++ ',' :: renderItems vs

/-- The members of an object with commas between them. -/
def renderMembers : List (String × Value) → List Char
  | [] => []
  | [(name, v)] => renderText name ++ ':' :: renderChars v
  | (name, v) :: ms => renderText name ++ ':' :: renderChars v ++ ',' :: renderMembers ms

end

/-- The text of a value, without blanks. -/
def Value.render (v : Value) : String :=
  String.ofList (renderChars v)

/-- A line feed and the blanks of a level. -/
def newLine (level : Nat) : List Char :=
  '\n' :: List.replicate (2 * level) ' '

mutual

/-- The text of a value whose first line stands on the given level. -/
def prettyChars (level : Nat) : Value → List Char
  | .list [] => ['[', ']']
  | .list items => '[' :: prettyItems (level + 1) items ++ newLine level ++ [']']
  | .object [] => ['\x7b', '\x7d']
  | .object members => '\x7b' :: prettyMembers (level + 1) members ++ newLine level ++ ['\x7d']
  | v => renderChars v

/-- The items of a list, each on a line of its own. -/
def prettyItems (level : Nat) : List Value → List Char
  | [] => []
  | [v] => newLine level ++ prettyChars level v
  | v :: vs => newLine level ++ prettyChars level v ++ ',' :: prettyItems level vs

/-- The members of an object, each on a line of its own. -/
def prettyMembers (level : Nat) : List (String × Value) → List Char
  | [] => []
  | [(name, v)] => newLine level ++ renderText name ++ ':' :: ' ' :: prettyChars level v
  | (name, v) :: ms =>
    newLine level ++ renderText name ++ ':' :: ' ' :: prettyChars level v ++
      ',' :: prettyMembers level ms

end

/-- The text of a value with a line per element. -/
def Value.renderPretty (v : Value) : String :=
  String.ofList (prettyChars 0 v)

end Json
end JobSpool
