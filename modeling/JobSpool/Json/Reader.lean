/-
# Reading JSON text

A text is read from left to right and the first fault decides. There are three kinds
of them: the text ends too early, it breaks the grammar, or a value is well formed
but not the one that is wanted. Values may be nested 127 deep, and a number past the
largest binary64 breaks the grammar.

Every reader takes the characters that are left and returns what it read with the
characters after it. `value` reads any value. The other readers in the end part of
this module expect a value of one kind at that place: they report a mismatch as soon
as a value of another kind shows, provided that its first token is well formed.
-/

import JobSpool.Json.Value

namespace JobSpool
namespace Json

/-- Why a text could not be read. -/
inductive Fault where
  /-- The text ends inside a value. -/
  | unfinished
  /-- The text breaks the grammar. -/
  | malformed
  /-- A value is not of the kind that is wanted. -/
  | mismatch
  deriving DecidableEq, Repr

/-- Is the character a JSON blank? -/
def isGap (c : Char) : Bool :=
  c = ' ' || c = '\n' || c = '\t' || c = '\r'

/-- The characters without the JSON blanks at the front. -/
def skipGaps (cs : List Char) : List Char :=
  cs.dropWhile isGap

/-- Reads the rest of a fixed word. -/
def word : List Char → List Char → Except Fault (Unit × List Char)
  | [], cs => .ok ((), cs)
  | _ :: _, [] => .error .unfinished
  | w :: ws, c :: cs => if w = c then word ws cs else .error .malformed

/-! ### Strings -/

/-- The value of a hexadecimal digit. -/
def hexDigit? (c : Char) : Option Nat :=
  if '0' ≤ c && c ≤ '9' then some (c.toNat - '0'.toNat)
  else if 'a' ≤ c && c ≤ 'f' then some (c.toNat - 'a'.toNat + 10)
  else if 'A' ≤ c && c ≤ 'F' then some (c.toNat - 'A'.toNat + 10)
  else none

/-- Four hexadecimal digits. They must be there as bytes before they are looked at. -/
def hexUnit (cs : List Char) : Except Fault (Nat × List Char) :=
  if (String.ofList (cs.take 4)).utf8ByteSize < 4 then .error .unfinished
  else
    match cs with
    | a :: b :: c :: d :: rest =>
      match hexDigit? a, hexDigit? b, hexDigit? c, hexDigit? d with
      | some a, some b, some c, some d => .ok (((a * 16 + b) * 16 + c) * 16 + d, rest)
      | _, _, _, _ => .error .malformed
    | _ => .error .malformed

/-- The character that an escape with four digits spells, of which the letter is read. Outside
the basic plane it takes a pair of units. -/
def unicodeEscape (cs : List Char) : Except Fault (Char × List Char) := do
  let (high, rest) ← hexUnit cs
  if 0xDC00 ≤ high && high ≤ 0xDFFF then throw .malformed
  if high < 0xD800 || 0xDBFF < high then return (Char.ofNat high, rest)
  match rest with
  | [] => throw .unfinished
  | '\\' :: [] => throw .unfinished
  | '\\' :: 'u' :: rest =>
    let (low, rest) ← hexUnit rest
    if low < 0xDC00 || 0xDFFF < low then throw .malformed
    return (Char.ofNat (0x10000 + (high - 0xD800) * 0x400 + (low - 0xDC00)), rest)
  | _ => throw .malformed

/-- The character that an escape spells, of which the backslash is read. -/
def escape : List Char → Except Fault (Char × List Char)
  | [] => .error .unfinished
  | c :: cs =>
    match c with
    | '"' | '\\' | '/' => .ok (c, cs)
    | 'b' => .ok ('\x08', cs)
    | 'f' => .ok ('\x0c', cs)
    | 'n' => .ok ('\n', cs)
    | 'r' => .ok ('\r', cs)
    | 't' => .ok ('\t', cs)
    | 'u' => unicodeEscape cs
    | _ => .error .malformed

/-- The rest of a string after `done`, at most `fuel` characters of it. -/
def stringRest : Nat → List Char → List Char → Except Fault (String × List Char)
  | 0, _, _ => .error .unfinished
  | _ + 1, _, [] => .error .unfinished
  | fuel + 1, done, c :: cs =>
    if c = '"' then .ok (String.ofList done.reverse, cs)
    else if c = '\\' then do
      let (d, rest) ← escape cs
      stringRest fuel (d :: done) rest
    else if c.toNat < 0x20 then .error .malformed
    else stringRest fuel (c :: done) cs

/-- A string of which the opening quotation mark is read. -/
def stringLit (cs : List Char) : Except Fault (String × List Char) :=
  stringRest (cs.length + 1) [] cs

/-! ### Numbers -/

/-- Appends digits to a significand while it stays below `2 ^ 64`; the digits that no longer
fit are returned. -/
def appendDigits (significand : Nat) : List Char → Nat × List Char
  | [] => (significand, [])
  | c :: cs =>
    let next := significand * 10 + (c.toNat - '0'.toNat)
    if next < UInt64.size then appendDigits next cs else (significand, c :: cs)

/-- The run of digits at the front, and what is left. -/
def digitRun (cs : List Char) : List Char × List Char :=
  (cs.takeWhile Char.isDigit, cs.dropWhile Char.isDigit)

/-- The binary64 of a significand and a power of ten. -/
def real (negative : Bool) (significand : Nat) (power : Int) (rest : List Char) :
    Except Fault (Number × List Char) :=
  match Binary64.scaled negative significand power with
  | some x => .ok (.real x, rest)
  | none => .error .malformed

/-- The exponent of a number, of which the letter is read, after a significand and the power of
ten that its digits call for. -/
def exponent (negative : Bool) (significand : Nat) (power : Int) (cs : List Char) :
    Except Fault (Number × List Char) :=
  let (down, cs) := match cs with
    | '+' :: cs => (false, cs)
    | '-' :: cs => (true, cs)
    | cs => (false, cs)
  match digitRun cs with
  | ([], []) => .error .unfinished
  | ([], _) => .error .malformed
  | (digits, rest) =>
    let size := Nat.ofDigitChars 10 digits 0
    -- An exponent that is too large for a count of 32 bits makes the number zero, or too large.
    if UInt32.size / 2 ≤ size then
      if significand ≠ 0 && !down then .error .malformed
      else .ok (.real (.zero negative), rest)
    else real negative significand (if down then power - size else power + size) rest

/-- The fraction of a number, of which the point is read. -/
def fraction (negative : Bool) (significand : Nat) (power : Int) (cs : List Char) :
    Except Fault (Number × List Char) :=
  match digitRun cs with
  | ([], []) => .error .unfinished
  | ([], _) => .error .malformed
  | (digits, rest) =>
    let (significand, unused) := appendDigits significand digits
    let power := power - (digits.length - unused.length : Nat)
    match rest with
    | 'e' :: rest | 'E' :: rest => exponent negative significand power rest
    | _ => real negative significand power rest

/-- What follows the digits of a whole number. `power` counts those that did not fit. -/
def numberRest (negative : Bool) (significand : Nat) (power : Nat) (cs : List Char) :
    Except Fault (Number × List Char) :=
  match cs with
  | '.' :: rest => fraction negative significand power rest
  | 'e' :: rest | 'E' :: rest => exponent negative significand power rest
  | _ =>
    if power ≠ 0 then real negative significand power cs
    else if !negative then .ok (.natural (.ofNat significand), cs)
    else if significand = 0 || UInt64.size / 2 < significand then real true significand 0 cs
    else .ok (.negative (.ofNat significand), cs)

/-- A number, of which a minus sign is read. -/
def number (negative : Bool) (cs : List Char) : Except Fault (Number × List Char) :=
  match digitRun cs with
  | ([], []) => .error .unfinished
  | ([], _) => .error .malformed
  | ('0' :: _ :: _, _) => .error .malformed
  | (digits, rest) =>
    let (significand, unused) := appendDigits 0 digits
    numberRest negative significand unused.length rest

/-! ### Lists, objects and any value -/

/-- How deep values may be nested, plus one. -/
def depthLimit : Nat := 128

/-- The colon between a name and a value. -/
def colon (cs : List Char) : Except Fault (Unit × List Char) :=
  match skipGaps cs with
  | ':' :: rest => .ok ((), rest)
  | [] => .error .unfinished
  | _ => .error .malformed

/-- Is there another item? Either the list ends here, its bracket being left, or the characters
of the next item follow. -/
def nextItem (first : Bool) (cs : List Char) : Except Fault (Option (List Char)) :=
  match skipGaps cs with
  | [] => .error .unfinished
  | ']' :: _ => .ok none
  | ',' :: rest =>
    if first then .ok (some (',' :: rest))
    else
      match skipGaps rest with
      | [] => .error .unfinished
      | ']' :: _ => .error .malformed
      | rest => .ok (some rest)
  | rest => if first then .ok (some rest) else .error .malformed

/-- The bracket at the end of a list. -/
def endList (cs : List Char) : Except Fault (Unit × List Char) :=
  match skipGaps cs with
  | ']' :: rest => .ok ((), rest)
  | [] => .error .unfinished
  | _ => .error .malformed

/-- Is there another member? Either the object ends here, its brace being left, or the name of
the next member is read. -/
def nextName (first : Bool) (cs : List Char) : Except Fault (Option (String × List Char)) :=
  let named (cs : List Char) : Except Fault (Option (String × List Char)) :=
    match cs with
    | '"' :: rest => (stringLit rest).map some
    | [] => .error .unfinished
    | _ => .error .malformed
  match skipGaps cs with
  | [] => .error .unfinished
  | '\x7d' :: _ => .ok none
  | ',' :: rest => if first then .error .malformed else named (skipGaps rest)
  | rest => if first then named rest else .error .malformed

/-- Reads the items of a list, of which the opening bracket is read, up to the closing one. -/
def items {α : Type} (item : List Char → Except Fault (α × List Char)) :
    (fuel : Nat) → (first : Bool) → (done : List α) → List Char → Except Fault (List α × List Char)
  | 0, _, _, _ => .error .malformed
  | fuel + 1, first, done, cs => do
    match ← nextItem first cs with
    | none =>
      let ((), rest) ← endList cs
      return (done.reverse, rest)
    | some cs =>
      let (x, rest) ← item cs
      items item fuel false (x :: done) rest

/-- Reads the members of an object, of which the opening brace is read, up to the closing one.
`member` is given the state, the name and the characters after the name, colon included. -/
def members {σ : Type} (member : σ → String → List Char → Except Fault (σ × List Char)) :
    (fuel : Nat) → (first : Bool) → σ → List Char → Except Fault (σ × List Char)
  | 0, _, _, _ => .error .malformed
  | fuel + 1, first, state, cs => do
    match ← nextName first cs with
    | none => return (state, (skipGaps cs).drop 1)
    | some (name, rest) =>
      let (state, rest) ← member state name rest
      members member fuel false state rest

/-- Any value, with the depth that is left, on at most `fuel` levels. -/
def valueWithin : (fuel depth : Nat) → List Char → Except Fault (Value × List Char)
  | 0, _, _ => .error .malformed
  | fuel + 1, depth, cs =>
    match skipGaps cs with
    | [] => .error .unfinished
    | 'n' :: rest => (word "ull".toList rest).map fun r => (.null, r.2)
    | 't' :: rest => (word "rue".toList rest).map fun r => (.bool true, r.2)
    | 'f' :: rest => (word "alse".toList rest).map fun r => (.bool false, r.2)
    | '-' :: rest => (number true rest).map fun r => (.number r.1, r.2)
    | '"' :: rest => (stringLit rest).map fun r => (.text r.1, r.2)
    | '[' :: rest =>
      if depth ≤ 1 then .error .malformed
      else
        (items (valueWithin fuel (depth - 1)) (rest.length + 1) true [] rest).map
          fun r => (.list r.1, r.2)
    | '\x7b' :: rest =>
      if depth ≤ 1 then .error .malformed
      else
        -- A member is its name, which was read, a colon and a value one level deeper.
        let member (done : List (String × Value)) (name : String) (cs : List Char) :
            Except Fault (List (String × Value) × List Char) := do
          let ((), cs) ← colon cs
          let (v, rest) ← valueWithin fuel (depth - 1) cs
          return ((name, v) :: done, rest)
        (members member (rest.length + 1) true [] rest).map
          fun r => (Value.objectOf r.1.reverse, r.2)
    | c :: rest =>
      if c.isDigit then (number false (c :: rest)).map fun r => (.number r.1, r.2)
      else .error .malformed

/-- Any value, with the depth that is left. -/
def value (depth : Nat) (cs : List Char) : Except Fault (Value × List Char) :=
  valueWithin (depth + 1) depth cs

/-- Reads a whole text: only blanks may follow what `reader` reads. -/
def whole {α : Type} (reader : List Char → Except Fault (α × List Char)) (text : String) :
    Except Fault α := do
  let (x, rest) ← reader text.toList
  if (skipGaps rest).isEmpty then return x else throw .malformed

/-- The value that a text spells. -/
def parse (text : String) : Except Fault Value :=
  whole (value depthLimit) text

/-! ### Values of an expected kind -/

/-- The fault after a token that does not fit: its own fault, or that it is not wanted. -/
def unwanted {α : Type} : Except Fault (α × List Char) → Fault
  | .error fault => fault
  | .ok _ => .mismatch

/-- The fault at a place where a value of another kind is wanted. -/
def mismatchAt (cs : List Char) : Fault :=
  match skipGaps cs with
  | [] => .unfinished
  | 'n' :: rest => unwanted (word "ull".toList rest)
  | 't' :: rest => unwanted (word "rue".toList rest)
  | 'f' :: rest => unwanted (word "alse".toList rest)
  | '-' :: rest => unwanted (number true rest)
  | '"' :: rest => unwanted (stringLit rest)
  | '[' :: _ | '\x7b' :: _ => .mismatch
  | c :: rest => if c.isDigit then unwanted (number false (c :: rest)) else .malformed

/-- A string. -/
def expectText (cs : List Char) : Except Fault (String × List Char) :=
  match skipGaps cs with
  | '"' :: rest => stringLit rest
  | _ => .error (mismatchAt cs)

/-- A natural number of 64 bits. -/
def expectCount (cs : List Char) : Except Fault (UInt64 × List Char) :=
  match skipGaps cs with
  | '-' :: rest => do
    let _ ← number true rest
    throw .mismatch
  | c :: rest =>
    if c.isDigit then do
      match ← number false (c :: rest) with
      | (.natural n, rest) => return (n, rest)
      | _ => throw .mismatch
    else throw (mismatchAt cs)
  | [] => .error .unfinished

/-- The word `null`. -/
def expectNull (cs : List Char) : Except Fault (Unit × List Char) :=
  match skipGaps cs with
  | 'n' :: rest => word "ull".toList rest
  | _ => .error (mismatchAt cs)

/-! ### Values that do not matter -/

/-- The rest of a string whose characters do not matter: lone surrogates are let through. -/
def skipStringRest : Nat → List Char → Except Fault (Unit × List Char)
  | 0, _ => .error .unfinished
  | _ + 1, [] => .error .unfinished
  | fuel + 1, c :: cs =>
    if c = '"' then .ok ((), cs)
    else if c = '\\' then
      match cs with
      | [] => .error .unfinished
      | 'u' :: rest => do
        let (_, rest) ← hexUnit rest
        skipStringRest fuel rest
      | d :: rest =>
        if "\"\\/bfnrt".toList.contains d then skipStringRest fuel rest else .error .malformed
    else if c.toNat < 0x20 then .error .malformed
    else skipStringRest fuel cs

/-- A string whose characters do not matter, of which the opening quotation mark is read. -/
def skipString (cs : List Char) : Except Fault (Unit × List Char) :=
  skipStringRest (cs.length + 1) cs

/-- The digits behind a point or an exponent's sign; there has to be one. -/
def skipDigits (cs : List Char) : Except Fault (Unit × List Char) :=
  match digitRun cs with
  | ([], _) => .error .malformed
  | (_, rest) => .ok ((), rest)

/-- A number whose value does not matter, of which a minus sign is read. It is well formed
whatever its size, and one that breaks off is malformed. -/
def skipNumber (cs : List Char) : Except Fault (Unit × List Char) := do
  let rest ← match digitRun cs with
    | ([], _) => throw .malformed
    | ('0' :: _ :: _, _) => throw .malformed
    | (_, rest) => pure rest
  let power (cs : List Char) : Except Fault (Unit × List Char) :=
    match cs with
    | '+' :: cs | '-' :: cs => skipDigits cs
    | cs => skipDigits cs
  match rest with
  | '.' :: rest =>
    let ((), rest) ← skipDigits rest
    match rest with
    | 'e' :: rest | 'E' :: rest => power rest
    | _ => return ((), rest)
  | 'e' :: rest | 'E' :: rest => power rest
  | _ => return ((), rest)

/-- A value that does not matter, nested as deep as it may be, on at most `fuel` levels. -/
def skipValueWithin : (fuel : Nat) → List Char → Except Fault (Unit × List Char)
  | 0, _ => .error .malformed
  | fuel + 1, cs =>
    match skipGaps cs with
    | [] => .error .unfinished
    | 'n' :: rest => word "ull".toList rest
    | 't' :: rest => word "rue".toList rest
    | 'f' :: rest => word "alse".toList rest
    | '-' :: rest => skipNumber rest
    | '"' :: rest => skipString rest
    | '[' :: rest =>
      (items (skipValueWithin fuel) (rest.length + 1) true [] rest).map fun r => ((), r.2)
    | '\x7b' :: rest => skipMembers fuel (rest.length + 1) true rest
    | c :: rest => if c.isDigit then skipNumber (c :: rest) else .error .malformed
where
  /-- The members of an object that does not matter. -/
  skipMembers (fuel : Nat) : (count : Nat) → (first : Bool) → List Char →
      Except Fault (Unit × List Char)
    | 0, _, _ => .error .malformed
    | count + 1, first, cs => do
      let name (cs : List Char) : Except Fault (Unit × List Char) :=
        match cs with
        | '"' :: rest => skipString rest
        | [] => throw .unfinished
        | _ => throw .malformed
      let member (cs : List Char) : Except Fault (Unit × List Char) := do
        let ((), rest) ← name cs
        let ((), rest) ← colon rest
        let ((), rest) ← skipValueWithin fuel rest
        skipMembers fuel count false rest
      match skipGaps cs with
      | [] => throw .unfinished
      | '\x7d' :: rest => return ((), rest)
      | ',' :: rest => if first then throw .malformed else member (skipGaps rest)
      | rest => if first then member rest else throw .malformed

/-- A value that does not matter. -/
def skipValue (cs : List Char) : Except Fault (Unit × List Char) :=
  skipValueWithin (cs.length + 1) cs

end Json
end JobSpool
