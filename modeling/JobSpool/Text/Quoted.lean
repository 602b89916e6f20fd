/-
# Quoted names

A name that is refused is shown in double quotation marks, in a form that leaves no
doubt about its characters: a quotation mark and a backslash carry a backslash, the
null character, tab, line feed and carriage return have their short forms, and any
other character without a visible form of its own is spelled by its number in
hexadecimal, as in `\u{200b}`. All else stands for itself, the apostrophe included.
-/

import JobSpool.Text.Unprinted

namespace JobSpool
namespace Text

/-- A number in lower-case hexadecimal. -/
def hexadecimal (n : Nat) : List Char :=
  Nat.toDigits 16 n

/-- One character of a quoted name. -/
def quoteChar (c : Char) : List Char :=
  if c = '"' then ['\\', '"']
  else if c = '\\' then ['\\', '\\']
  else if c = '\x00' then ['\\', '0']
  else if c = '\t' then ['\\', 't']
  else if c = '\n' then ['\\', 'n']
  else if c = '\r' then ['\\', 'r']
  else if isUnprinted c then ['\\', 'u', '\x7b'] ++ hexadecimal c.toNat ++ ['\x7d']
  else [c]

/-- A name in double quotation marks. -/
def quoted (name : String) : String :=
  String.ofList ('"' :: name.toList.flatMap quoteChar ++ ['"'])

end Text
end JobSpool
