/-
# The byte order and the natural order of names

`natural_cmp` and `sort_natural_desc`: `SPEC_FULL.md`, 4.3 (ordering policy) and 8.

Names are compared by their UTF-8 bytes (`byteOrder`), and sorted lists of names in
reports follow that order (`sortNames`).

The *natural order* reads a name as a sequence of chunks: ASCII white space is
skipped, a run of ASCII digits is one chunk, and any other byte is a chunk of its
own. Chunks compare one by one, so `job9` comes before `job10`. Two runs of digits
compare by value; but when one of them starts with a zero they are taken for the
digits behind a decimal point, so the first differing digit decides and `x1.05` comes
before `x1.5`. Names whose chunks agree fall back to the byte order, which makes
the natural order a linear order on all names.
-/

namespace JobSpool
namespace Text

/-- The UTF-8 bytes of a text. -/
def bytes (text : String) : List UInt8 :=
  text.toByteArray.data.toList

/-- The order of texts by their UTF-8 bytes. -/
def byteOrder (a b : String) : Ordering :=
  List.compareLex compare (bytes a) (bytes b)

/-- The names in byte order. -/
def sortNames (names : List String) : List String :=
  names.mergeSort fun a b => byteOrder a b != .gt

/-- Is the byte an ASCII digit? -/
def isDigitByte (b : UInt8) : Bool :=
  0x30 ≤ b && b ≤ 0x39

/-- Is the byte skipped by the natural order: space, tab, line feed, form feed or
carriage return? -/
def isSkippedByte (b : UInt8) : Bool :=
  b == 0x20 || b == 0x09 || b == 0x0A || b == 0x0C || b == 0x0D

/-- What the natural order compares: a run of digits, given by its first digit and
the rest, or a single other byte. -/
inductive Chunk where
  | digits (first : UInt8) (rest : List UInt8)
  | byte (b : UInt8)
  deriving DecidableEq, Repr

namespace Chunk

/-- The byte a chunk starts with. -/
def head : Chunk → UInt8
  | digits first _ => first
  | byte b => b

/-- The order of chunks. -/
def order : Chunk → Chunk → Ordering
  | digits a as, digits b bs =>
    if a = 0x30 || b = 0x30 then List.compareLex compare (a :: as) (b :: bs)
    else (compare as.length bs.length).then (List.compareLex compare (a :: as) (b :: bs))
  | x, y => compare x.head y.head

end Chunk

/-- Puts a digit in front of a run that starts the chunks. -/
def extendRun (b : UInt8) : List Chunk → List Chunk
  | .digits first rest :: more => .digits b (first :: rest) :: more
  | more => .digits b [] :: more

/-- The chunks of a sequence of bytes. -/
def chunks : List UInt8 → List Chunk
  | [] => []
  | b :: bs =>
    if isSkippedByte b then chunks bs
    else if isDigitByte b then
      if bs.head?.any isDigitByte then extendRun b (chunks bs) else .digits b [] :: chunks bs
    else .byte b :: chunks bs

/-- `natural_cmp`: the natural order of two names. -/
def naturalOrder (a b : String) : Ordering :=
  (List.compareLex Chunk.order (chunks (bytes a)) (chunks (bytes b))).then (byteOrder a b)

/-- `sort_natural_desc`: the items in descending natural order of their names. Items of one name
keep their order. -/
def sortNaturalDescending {α : Type} (name : α → String) (items : List α) : List α :=
  items.mergeSort fun x y => naturalOrder (name y) (name x) != .gt

end Text
end JobSpool
