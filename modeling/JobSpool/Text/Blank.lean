/-
# Blank characters, fields and lines

A character is *blank* when Unicode gives it the property `White_Space`. Blanks
separate the fields of a listing and of a progress file, and they are what is
dropped at the two ends of a text. Note that U+200B and U+FEFF are not blank.

Texts are taken apart as `List Char`. `trim` drops blanks at both ends, `fields`
is the list of maximal runs of other characters, and `lines` cuts at each line
feed, taking one carriage return in front of it along.
-/

namespace JobSpool
namespace Text

/-- The code points with the Unicode property `White_Space`, as closed ranges. -/
def blankRanges : List (Nat × Nat) :=
  [(0x09, 0x0D), (0x20, 0x20), (0x85, 0x85), (0xA0, 0xA0), (0x1680, 0x1680),
   (0x2000, 0x200A), (0x2028, 0x2029), (0x202F, 0x202F), (0x205F, 0x205F), (0x3000, 0x3000)]

/-- Membership of a character in a list of closed ranges of code points. -/
def inRanges (ranges : List (Nat × Nat)) (c : Char) : Bool :=
  ranges.any fun r => decide (r.1 ≤ c.toNat) && decide (c.toNat ≤ r.2)

/-- Does the character have the property `White_Space`? -/
def isBlank (c : Char) : Bool :=
  inRanges blankRanges c

/-- The characters without the blanks at the front. -/
def trimStart (cs : List Char) : List Char :=
  cs.dropWhile isBlank

/-- The characters without the blanks at the end. -/
def trimEnd (cs : List Char) : List Char :=
  (cs.reverse.dropWhile isBlank).reverse

/-- The characters without the blanks at either end. -/
def trim (cs : List Char) : List Char :=
  trimEnd (trimStart cs)

/-- A text without the blanks at either end. -/
def trimmed (text : String) : String :=
  String.ofList (trim text.toList)

/-- Does a text hold nothing but blanks? -/
def isBlankText (text : String) : Bool :=
  text.toList.all isBlank

/-- Puts a character in front of the first word. -/
def extendFirst (c : Char) : List (List Char) → List (List Char)
  | [] => [[c]]
  | word :: words => (c :: word) :: words

/-- The maximal runs of characters that are not blank, in order. -/
def fields : List Char → List (List Char)
  | [] => []
  | c :: cs =>
    if isBlank c then fields cs
    else if cs.head?.all isBlank then [c] :: fields cs
    else extendFirst c (fields cs)

/-- The lines of a text. Each line feed ends one, together with a carriage return
in front of it; what follows the last line feed is a line unless it is empty. -/
def lines : List Char → List (List Char)
  | [] => []
  | '\n' :: cs => [] :: lines cs
  | '\r' :: '\n' :: cs => [] :: lines cs
  | c :: cs => extendFirst c (lines cs)

end Text
end JobSpool
