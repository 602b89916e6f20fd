/-
# Words of a shell command line

`shell_quote`, and the shell that reads the compound command of `SPEC_FULL.md`, 6.

A worker is started by a command line that a POSIX shell reads later. `quote` writes
one word so that the shell gets back exactly that word: a non-empty word of safe
characters stands as it is, any other word goes between apostrophes, and an
apostrophe inside is spelled `'\''`, which leaves the quotation, adds the apostrophe
and enters it again.

`commands` is the reading side, for the part of the shell's grammar that is free of
expansion: blanks separate words, a semicolon or a line feed ends a command, a
backslash quotes the next character, and apostrophes quote everything up to the
next one. Any other character that is not safe would mean something to the shell,
so outside a quotation it is an error.
-/

namespace JobSpool
namespace Shell

/-- Does the character mean nothing to the shell? -/
def isSafe (c : Char) : Bool :=
  c.isAlphanum || "-_./=:,+@%".toList.contains c

/-- The text between apostrophes for the characters of a word. -/
def escape : List Char → List Char
  | [] => []
  | '\'' :: cs => '\'' :: '\\' :: '\'' :: '\'' :: escape cs
  | c :: cs => c :: escape cs

/-- A word as the shell is to be given it. -/
def quoteChars (cs : List Char) : List Char :=
  if !cs.isEmpty && cs.all isSafe then cs else '\'' :: escape cs ++ ['\'']

/-- `shell_quote`: a word as the shell is to be given it. -/
def quote (word : String) : String :=
  String.ofList (quoteChars word.toList)

/-- What the shell has read so far of a command line: the commands that ended, the words
of the current command, and the word that is being read, if one has started. -/
structure Reading where
  commands : List (List (List Char)) := []
  words : List (List Char) := []
  word : Option (List Char) := none
  deriving Repr, DecidableEq

namespace Reading

/-- Adds a character to the current word. -/
def push (r : Reading) (c : Char) : Reading :=
  { r with word := some (r.word.getD [] ++ [c]) }

/-- Starts a word if none has started: a quotation makes a word even when it is empty. -/
def start (r : Reading) : Reading :=
  { r with word := some (r.word.getD []) }

/-- Ends the current word, if one has started. -/
def endWord (r : Reading) : Reading :=
  { r with words := r.words ++ r.word.toList, word := none }

/-- Ends the current command, if it has a word. -/
def endCommand (r : Reading) : Reading :=
  let done := r.endWord
  if done.words.isEmpty then done
  else { done with commands := done.commands ++ [done.words], words := [] }

end Reading

/-- Reads on from `r`, inside apostrophes when `quoted`. Nothing when the text breaks off
inside a quotation or holds an unquoted character with a meaning of its own. -/
def read (quoted : Bool) (r : Reading) : List Char → Option Reading
  | [] => if quoted then none else some r.endCommand
  | c :: cs =>
    if quoted then
      if c = '\'' then read false r cs else read true (r.push c) cs
    else if c = '\'' then read true r.start cs
    else if c = ' ' || c = '\t' then read false r.endWord cs
    else if c = ';' || c = '\n' then read false r.endCommand cs
    else if c = '\\' then
      match cs with
      | [] => none
      | d :: ds => read false (r.push d) ds
    else if isSafe c then read false (r.push c) cs
    else none

/-- The commands of a command line, each the list of its words, with all quoting removed. -/
def commands (line : List Char) : Option (List (List (List Char))) :=
  (read false {} line).map Reading.commands

end Shell
end JobSpool
