/-
# The natural order walks two names side by side

`natural_cmp`: `SPEC_FULL.md`, 4.3, "ties broken by full-string comparison".

`Text.naturalOrder` compares the chunks of two names, one after the other.  No chunk has to be
made for that: `walk` goes through the bytes of both names at once, passes over white space, and
compares what it finds, two runs of digits (`compareRuns`) or two bytes.  It stops at the first
difference.  `walk_eq_compareLex` says that it finds what the chunks tell.  Both sides read a run
as a whole (`chunks_cons_of_isDigitByte`), so they are at the same bytes whenever nothing has
differed so far.

The mode in which two runs compare depends on both of them, and white space cuts runs without
being compared.  That the order is linear nevertheless is known from the chunks
(`Chunk.order_eq_keyOrder`), and `naturalOrder_linear` puts both together.
-/

import JobSpool.Proofs.NameOrder

namespace JobSpool
namespace Text

open Std (TransCmp LawfulEqCmp ReflCmp OrientedCmp)

/-! ### Chunks, from left to right -/

/-- A digit is not skipped. -/
theorem isSkippedByte_of_isDigitByte {b : UInt8} (hb : isDigitByte b = true) :
    isSkippedByte b = false := by
  rw [← Bool.not_eq_true]
  intro hskip
  simp only [isSkippedByte, Bool.or_eq_true, beq_iff_eq] at hskip
  rcases hskip with (((rfl | rfl) | rfl) | rfl) | rfl <;> exact absurd hb (by decide)

/-- **A run of digits is one chunk,** if no digit follows it. -/
theorem chunks_run {ds : List UInt8} {d : UInt8} (hd : ∀ b ∈ d :: ds, isDigitByte b = true)
    {rest : List UInt8} (hrest : rest.head?.any isDigitByte = false) :
    chunks (d :: ds ++ rest) = .digits d ds :: chunks rest := by
  induction ds generalizing d with
  | nil =>
    have hd := hd d List.mem_cons_self
    simp [chunks, isSkippedByte_of_isDigitByte hd, hd, hrest]
  | cons e ds ih =>
    have htail := ih fun b hb => hd b (List.mem_cons_of_mem _ hb)
    have he := hd e (by simp)
    have hd := hd d List.mem_cons_self
    rw [List.cons_append, chunks, htail, List.cons_append, List.head?_cons]
    simp [isSkippedByte_of_isDigitByte hd, hd, he, extendRun]

/-- Bytes that are skipped make no chunk. -/
theorem chunks_dropWhile (bs : List UInt8) : chunks (bs.dropWhile isSkippedByte) = chunks bs := by
  induction bs with
  | nil => rfl
  | cons b bs ih =>
    rw [List.dropWhile_cons]
    split
    · rename_i hskip
      rw [ih, chunks, if_pos hskip]
    · rfl

/-- **The first chunk of bytes that start with a digit** is the run there, -/
theorem chunks_cons_of_isDigitByte {x : UInt8} (hx : isDigitByte x = true) (xs : List UInt8) :
    chunks (x :: xs)
      = .digits x (xs.takeWhile isDigitByte) :: chunks (xs.dropWhile isDigitByte) := by
  have hrun : ∀ b ∈ x :: xs.takeWhile isDigitByte, isDigitByte b = true := by
    intro b hb
    rcases List.mem_cons.1 hb with rfl | hb
    · exact hx
    · exact List.all_eq_true.1 List.all_takeWhile b hb
  have hrest : (xs.dropWhile isDigitByte).head?.any isDigitByte = false := by
    have hnot := List.head?_dropWhile_not isDigitByte xs
    cases hd : (xs.dropWhile isDigitByte).head? with
    | none => rfl
    | some b => simpa [hd] using hnot
  rw [← chunks_run hrun hrest, List.cons_append, List.takeWhile_append_dropWhile]

/-- and the first chunk of other bytes is the first of them. -/
theorem chunks_cons_of_not_isDigitByte {x : UInt8} (hskip : isSkippedByte x = false)
    (hx : isDigitByte x = false) (xs : List UInt8) : chunks (x :: xs) = .byte x :: chunks xs := by
  simp [chunks, hskip, hx]

/-- What is not skipped makes a chunk that starts with it. -/
theorem exists_chunks_cons {x : UInt8} (hskip : isSkippedByte x = false) (xs : List UInt8) :
    ∃ c more, chunks (x :: xs) = c :: more ∧ c.head = x := by
  cases hx : isDigitByte x with
  | true => exact ⟨_, _, chunks_cons_of_isDigitByte hx xs, rfl⟩
  | false => exact ⟨_, _, chunks_cons_of_not_isDigitByte hskip hx xs, rfl⟩

/-! ### The walk -/

/-- The order of two runs of digits. -/
def compareRuns (xs ys : List UInt8) : Ordering :=
  if xs.head? = some 0x30 ∨ ys.head? = some 0x30 then List.compareLex compare xs ys
  else (compare xs.length ys.length).then (List.compareLex compare xs ys)

/-- What follows the first byte that is not skipped is shorter. -/
theorem length_lt_of_dropWhile {skips : UInt8 → Bool} {bs rest : List UInt8} {b : UInt8}
    (h : bs.dropWhile skips = b :: rest) : rest.length < bs.length := by
  have hle : (bs.dropWhile skips).length ≤ bs.length := (List.dropWhile_sublist skips).length_le
  rw [h, List.length_cons] at hle
  exact hle

/-- The first byte that is left is not one of those that are skipped. -/
theorem isSkippedByte_of_dropWhile {bs rest : List UInt8} {b : UInt8}
    (h : bs.dropWhile isSkippedByte = b :: rest) : isSkippedByte b = false := by
  have hnot := List.head?_dropWhile_not isSkippedByte bs
  simpa [h] using hnot

/-- Compares two names from left to right, up to the first difference. -/
def walk (a b : List UInt8) : Ordering :=
  match _h : a.dropWhile isSkippedByte, b.dropWhile isSkippedByte with
  | [], [] => .eq
  | [], _ :: _ => .lt
  | _ :: _, [] => .gt
  | x :: xs, y :: ys =>
    if isDigitByte x && isDigitByte y then
      (compareRuns (x :: xs.takeWhile isDigitByte) (y :: ys.takeWhile isDigitByte)).then
        (walk (xs.dropWhile isDigitByte) (ys.dropWhile isDigitByte))
    else if x = y then walk xs ys
    else compare x y
termination_by a.length
decreasing_by
  · exact Nat.lt_of_le_of_lt (List.dropWhile_sublist isDigitByte).length_le
      (length_lt_of_dropWhile _h)
  · exact length_lt_of_dropWhile _h

namespace Chunk

/-- Two runs of digits compare as runs, whatever their first digits are. -/
theorem order_digits (x y : UInt8) (xs ys : List UInt8) :
    order (.digits x xs) (.digits y ys) = compareRuns (x :: xs) (y :: ys) := by
  have hlength : compare (xs.length + 1) (ys.length + 1) = compare xs.length ys.length := by
    rcases Nat.lt_trichotomy xs.length ys.length with h | h | h
    · rw [Nat.compare_eq_lt.2 h, Nat.compare_eq_lt.2 (by omega)]
    · rw [h, Nat.compare_eq_eq.2 rfl, Nat.compare_eq_eq.2 rfl]
    · rw [Nat.compare_eq_gt.2 h, Nat.compare_eq_gt.2 (by omega)]
  simp [order, compareRuns, hlength]

/-- A chunk that is a single byte compares with any other one as its byte does, -/
theorem order_byte_left (b : UInt8) (y : Chunk) : order (.byte b) y = compare b y.head := by
  cases y <;> rfl

/-- on either side. -/
theorem order_byte_right (x : Chunk) (b : UInt8) : order x (.byte b) = compare x.head b := by
  cases x <;> rfl

/-- A chunk is equal to itself. -/
theorem order_self (x : Chunk) : order x x = .eq := by
  have hself : ∀ bs : List UInt8, List.compareLex compare bs bs = .eq := fun bs => by
    rw [← List.compare_eq_compareLex]
    exact ReflCmp.compare_self
  cases x with
  | digits d ds =>
    rw [order]
    split
    · exact hself _
    · rw [Nat.compare_eq_eq.2 rfl, Ordering.eq_then]
      exact hself _
  | byte b =>
    have hself : compare b b = .eq := ReflCmp.compare_self
    exact hself

end Chunk

/-- **Walking two names side by side compares their chunks.** -/
theorem walk_eq_compareLex (a b : List UInt8) :
    walk a b = List.compareLex Chunk.order (chunks a) (chunks b) := by
  fun_induction walk a b with
  | case1 a b ha hb =>
    rw [← chunks_dropWhile a, ← chunks_dropWhile b, ha, hb]
    rfl
  | case2 a b y ys ha hb =>
    obtain ⟨d, more, hd, -⟩ := exists_chunks_cons (isSkippedByte_of_dropWhile hb) ys
    rw [← chunks_dropWhile a, ← chunks_dropWhile b, ha, hb, hd]
    rfl
  | case3 a b x xs ha hb =>
    obtain ⟨c, more, hc, -⟩ := exists_chunks_cons (isSkippedByte_of_dropWhile ha) xs
    rw [← chunks_dropWhile a, ← chunks_dropWhile b, ha, hb, hc]
    rfl
  -- Two runs of digits.
  | case4 a b x xs y ys ha hb hdigits ih =>
    obtain ⟨hx, hy⟩ := Bool.and_eq_true_iff.1 hdigits
    rw [← chunks_dropWhile a, ← chunks_dropWhile b, ha, hb, chunks_cons_of_isDigitByte hx,
      chunks_cons_of_isDigitByte hy, List.compareLex_cons_cons, Chunk.order_digits, ih]
  -- The same byte twice.
  | case5 a b xs y ys hb ha hnot ih =>
    have hy : isDigitByte y = false := by simpa using hnot
    have hskip := isSkippedByte_of_dropWhile hb
    rw [← chunks_dropWhile a, ← chunks_dropWhile b, ha, hb,
      chunks_cons_of_not_isDigitByte hskip hy, chunks_cons_of_not_isDigitByte hskip hy,
      List.compareLex_cons_cons, Chunk.order_self, Ordering.eq_then, ih]
  | case6 a b x xs y ys ha hb hnot hne =>
    have hskipx := isSkippedByte_of_dropWhile ha
    have hskipy := isSkippedByte_of_dropWhile hb
    obtain ⟨c, more, hc, hcx⟩ := exists_chunks_cons hskipx xs
    obtain ⟨d, more', hd, hdy⟩ := exists_chunks_cons hskipy ys
    -- One of the two bytes is no digit, and it is a chunk of its own.
    have horder : Chunk.order c d = compare x y := by
      cases hx : isDigitByte x with
      | false =>
        rw [chunks_cons_of_not_isDigitByte hskipx hx] at hc
        rw [← (List.cons.inj hc).1, Chunk.order_byte_left, hdy]
      | true =>
        have hy : isDigitByte y = false := by simpa [hx] using hnot
        rw [chunks_cons_of_not_isDigitByte hskipy hy] at hd
        rw [← (List.cons.inj hd).1, Chunk.order_byte_right, hcx]
    rw [← chunks_dropWhile a, ← chunks_dropWhile b, ha, hb, hc, hd, List.compareLex_cons_cons,
      horder]
    cases hxy : compare x y with
    | eq => exact absurd (Std.LawfulEqOrd.eq_of_compare hxy) hne
    | lt => rfl
    | gt => rfl

/-! ### A linear order -/

/-- **The natural order is linear on all names.**  It is what the walk finds, and the byte order of
names in which the walk finds no difference; names that compare as equal are equal; the other way
round the order is reversed; and it is transitive. -/
theorem naturalOrder_linear (a b c : String) :
    naturalOrder a b = (walk (bytes a) (bytes b)).then (byteOrder a b) ∧
      (naturalOrder a b = .eq ↔ a = b) ∧
      naturalOrder b a = (naturalOrder a b).swap ∧
      (naturalOrder a b ≠ .gt → naturalOrder b c ≠ .gt → naturalOrder a c ≠ .gt) := by
  refine ⟨?_, ⟨LawfulEqCmp.eq_of_compare, ?_⟩, OrientedCmp.eq_swap, fun hab hbc => ?_⟩
  · rw [walk_eq_compareLex, naturalOrder]
  · rintro rfl
    exact ReflCmp.compare_self
  · have hac := TransCmp.isLE_trans (Ordering.isLE_iff_ne_gt.2 hab) (Ordering.isLE_iff_ne_gt.2 hbc)
    exact Ordering.isLE_iff_ne_gt.1 hac

/-- A run that starts with a zero, behind white space, comes before a shorter one that does not,
and that one before a longer one. -/
theorem naturalOrder_linear_mixed :
    naturalOrder "a\t07é" "a7" ≠ .gt ∧ naturalOrder "a7" "a 10" ≠ .gt ∧
      naturalOrder "a\t07é" "a 10" ≠ .gt := by
  have hab : naturalOrder "a\t07é" "a7" ≠ .gt := by decide
  have hbc : naturalOrder "a7" "a 10" ≠ .gt := by decide
  exact ⟨hab, hbc, (naturalOrder_linear "a\t07é" "a7" "a 10").2.2.2 hab hbc⟩

end Text
end JobSpool
