/-
# Decoding UTF-8

Files that hold text are read strictly: bytes that are not UTF-8 are no text at all
(`strict`). What a program prints is read leniently: each maximal piece that
cannot be the start of a character becomes one U+FFFD (`lenient`). A piece is at
most three bytes long, because a sequence breaks off at the first byte that cannot
follow.
-/

namespace JobSpool
namespace Text

/-- The bytes as text, or nothing when they are not UTF-8. -/
def strict (bytes : ByteArray) : Option String :=
  String.fromUTF8? bytes

/-- **What is encoded as UTF-8 is decoded again.** -/
@[simp] theorem strict_toByteArray (text : String) : strict text.toByteArray = some text := by
  simp [strict, String.fromUTF8?, text.isValidUTF8, String.fromUTF8]

/-- Is the byte between two bounds? -/
def within (low high : UInt8) (b : UInt8) : Bool :=
  low ≤ b && b ≤ high

/-- Is the byte a continuation byte? -/
def isContinuation (b : UInt8) : Bool :=
  within 0x80 0xBF b

/-- How many bytes a character takes that starts with `b`, and the test for its second byte.
Nothing when no character starts with `b`. -/
def leadByte (b : UInt8) : Option (Nat × (UInt8 → Bool)) :=
  if b ≤ 0x7F then some (1, isContinuation)
  else if within 0xC2 0xDF b then some (2, isContinuation)
  else if b = 0xE0 then some (3, within 0xA0 0xBF)
  else if b = 0xED then some (3, within 0x80 0x9F)
  else if within 0xE1 0xEF b then some (3, isContinuation)
  else if b = 0xF0 then some (4, within 0x90 0xBF)
  else if within 0xF1 0xF3 b then some (4, isContinuation)
  else if b = 0xF4 then some (4, within 0x80 0x8F)
  else none

/-- The bytes that may follow a character's first byte, as far as they do: at most
`more` of them, the first under the test `second`. -/
def followers (second : UInt8 → Bool) : Nat → List UInt8 → List UInt8
  | 0, _ => []
  | _, [] => []
  | more + 1, b :: bs => if second b then b :: followers isContinuation more bs else []

/-- What follows a first byte is part of the bytes. -/
theorem length_followers_le (second : UInt8 → Bool) (more : Nat) (bs : List UInt8) :
    (followers second more bs).length ≤ bs.length := by
  induction more generalizing second bs with
  | zero => simp [followers]
  | succ more ih =>
    cases bs with
    | nil => simp [followers]
    | cons b bs =>
      rw [followers]
      split
      · simpa using ih isContinuation bs
      · simp

/-- The code point that a lead byte of a sequence of `size` bytes and its followers spell. -/
def codePoint (size : Nat) (lead : UInt8) (rest : List UInt8) : Nat :=
  let top := if size = 1 then lead.toNat else lead.toNat % (128 >>> size)
  rest.foldl (fun value b => value * 64 + b.toNat % 64) top

/-- The bytes as text, each piece that is not UTF-8 replaced by U+FFFD. -/
def lenientChars : List UInt8 → List Char
  | [] => []
  | b :: bs =>
    match leadByte b with
    | none => '\uFFFD' :: lenientChars bs
    | some (size, second) =>
      let rest := followers second (size - 1) bs
      let c := if rest.length + 1 = size then Char.ofNat (codePoint size b rest) else '\uFFFD'
      c :: lenientChars (bs.drop rest.length)
  termination_by bs => bs.length
  decreasing_by
    · simp
    · have := length_followers_le second (size - 1) bs
      simp only [List.length_drop, List.length_cons]
      omega

/-- The output of a program as text. -/
def lenient (bytes : ByteArray) : String :=
  String.ofList (lenientChars bytes.data.toList)

end Text
end JobSpool
