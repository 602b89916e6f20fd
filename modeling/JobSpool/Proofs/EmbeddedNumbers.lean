/-
# Numbers in names are ordered by value

`natural_cmp`: `SPEC_FULL.md`, 4.3, "must treat embedded numeric substrings by numeric
value".

No number is ever computed when names are compared: two runs of digits compare by their lengths,
then digit by digit, and only digit by digit when one of them starts with a zero.
`compareRuns_numeral` says that this is the order of the numbers, however large, for runs
without leading zeros.  The number zero is such a run, too, and it is the one that starts with a
zero.

In a name the run of a number is one chunk, if no digit touches it, and the chunks in front of it
are those of the text in front of it (`chunks_of_embeds`).  Names that begin alike then have the
same chunks up to the number, so the numbers decide (`naturalOrder_of_embeds`).  This is said of
the bytes of a name, and a byte is a digit exactly in a character that is one
(`isDigitByte_of_mem`).
-/

import JobSpool.Proofs.SideBySide
import Mathlib.Algebra.Group.Nat.Defs

namespace JobSpool
namespace Text

/-! ### The bytes of a text -/

/-- The bytes of a text are those of its characters. -/
theorem bytes_eq_flatMap (s : String) : bytes s = s.toList.flatMap String.utf8EncodeChar := by
  rw [bytes, ← String.utf8Encode_toList, List.utf8Encode]
  simp

/-- The bytes of one text after another. -/
theorem bytes_append (a b : String) : bytes (a ++ b) = bytes a ++ bytes b := by
  simp [bytes_eq_flatMap, String.toList_append]

/-- A character outside ASCII has no byte of ASCII, and any other one is its only byte. -/
theorem toNat_of_mem_utf8EncodeChar {c : Char} {b : UInt8} (hb : b ∈ String.utf8EncodeChar c) :
    128 ≤ b.toNat ∧ 128 ≤ c.toNat ∨ b.toNat = c.toNat := by
  rw [String.utf8EncodeChar] at hb
  simp only [Char.toNat]
  split at hb
  · right
    rw [List.mem_singleton.1 hb, UInt8.toNat_ofNat']
    omega
  · left
    refine ⟨?_, by omega⟩
    split at hb
    · simp only [List.mem_cons, List.not_mem_nil, or_false] at hb
      rcases hb with rfl | rfl <;> rw [UInt8.toNat_ofNat'] <;> omega
    · split at hb
      · simp only [List.mem_cons, List.not_mem_nil, or_false] at hb
        rcases hb with rfl | rfl | rfl <;> rw [UInt8.toNat_ofNat'] <;> omega
      · simp only [List.mem_cons, List.not_mem_nil, or_false] at hb
        rcases hb with rfl | rfl | rfl | rfl <;> rw [UInt8.toNat_ofNat'] <;> omega

/-- The digits are the bytes from 48 to 57. -/
theorem isDigitByte_iff_toNat {b : UInt8} : isDigitByte b = true ↔ 48 ≤ b.toNat ∧ b.toNat ≤ 57 := by
  rw [Chunk.isDigitByte_iff, UInt8.le_iff_toNat_le, UInt8.le_iff_toNat_le]
  rfl

/-- The digits are the characters from 48 to 57. -/
theorem isDigit_iff_toNat {c : Char} : c.isDigit = true ↔ 48 ≤ c.toNat ∧ c.toNat ≤ 57 := by
  simp only [Char.isDigit, Bool.and_eq_true, decide_eq_true_eq, UInt32.le_iff_toNat_le, ge_iff_le]
  rfl

/-- A byte of a character is a digit if the character is one, and not otherwise. -/
theorem isDigitByte_of_mem {c : Char} {b : UInt8} (hb : b ∈ String.utf8EncodeChar c) :
    isDigitByte b = c.isDigit := by
  rw [Bool.eq_iff_iff, isDigitByte_iff_toNat, isDigit_iff_toNat]
  have := toNat_of_mem_utf8EncodeChar hb
  omega

/-! ### Numerals -/

/-- The bytes of a number in decimal. -/
def numeral (n : Nat) : List UInt8 :=
  bytes n.repr

/-- The byte of a digit. -/
def digitByte (d : Nat) : UInt8 :=
  .ofNat (48 + d)

/-- The byte of a digit is 48 more than it. -/
theorem toNat_digitByte {d : Nat} (h : d < 10) : (digitByte d).toNat = 48 + d := by
  rw [digitByte, UInt8.toNat_ofNat']
  omega

/-- A digit is one byte in UTF-8. -/
theorem utf8EncodeChar_digitChar {d : Nat} (h : d < 10) :
    String.utf8EncodeChar d.digitChar = [digitByte d] := by
  have hval : d.digitChar.val.toNat = 48 + d := Nat.toNat_digitChar_of_lt_ten h
  rw [String.utf8EncodeChar, hval, if_pos (by omega), digitByte]

/-- **A numeral is the one of a tenth of the number,** if that is not zero, and one digit more. -/
theorem numeral_eq (n : Nat) :
    numeral n = if n < 10 then [digitByte n] else numeral (n / 10) ++ [digitByte (n % 10)] := by
  have hdigits : ∀ n, numeral n = (Nat.toDigits 10 n).flatMap String.utf8EncodeChar := fun n => by
    rw [numeral, bytes_eq_flatMap, Nat.repr_eq_ofList_toDigits, String.toList_ofList]
  rw [hdigits, hdigits, Nat.toDigits_eq_if (by decide)]
  split
  · rename_i hsmall
    simp [utf8EncodeChar_digitChar hsmall]
  · simp [utf8EncodeChar_digitChar (Nat.mod_lt n (by decide : 10 > 0))]

/-- A number has a digit at least. -/
theorem numeral_ne_nil (n : Nat) : numeral n ≠ [] := by
  rw [numeral_eq]
  split <;> simp

/-- A number is written in digits. -/
theorem isDigitByte_of_mem_numeral {n : Nat} : ∀ b ∈ numeral n, isDigitByte b = true := by
  have hdigit : ∀ d < 10, isDigitByte (digitByte d) = true := by decide
  induction n using Nat.strongRecOn with
  | ind n ih =>
    intro b hb
    rw [numeral_eq] at hb
    split at hb
    · rename_i hsmall
      rw [List.mem_singleton.1 hb]
      exact hdigit n hsmall
    · rename_i hlarge
      rcases List.mem_append.1 hb with hb | hb
      · exact ih (n / 10) (by omega) b hb
      · rw [List.mem_singleton.1 hb]
        exact hdigit _ (Nat.mod_lt n (by decide))

/-- **Only the numeral of zero starts with a zero.** -/
theorem head?_numeral {n : Nat} : (numeral n).head? = some 0x30 ↔ n = 0 := by
  induction n using Nat.strongRecOn with
  | ind n ih =>
    rw [numeral_eq]
    split
    · rename_i hsmall
      rw [List.head?_cons, Option.some_inj, ← UInt8.toNat_inj, toNat_digitByte hsmall]
      show 48 + n = 48 ↔ n = 0
      omega
    · rename_i hlarge
      rw [List.head?_append_of_ne_nil _ (numeral_ne_nil _), ih (n / 10) (by omega)]
      omega

/-- **A number has at most so many digits** as powers of ten are needed to pass it. -/
theorem length_numeral_le_iff {n k : Nat} :
    (numeral n).length ≤ k + 1 ↔ n < 10 ^ (k + 1) := by
  induction k generalizing n with
  | zero =>
    rw [numeral_eq]
    split
    · simpa using ‹n < 10›
    · have hpos := List.length_pos_iff.2 (numeral_ne_nil (n / 10))
      simp only [List.length_append, List.length_singleton]
      omega
  | succ k ih =>
    rw [numeral_eq, Nat.pow_succ]
    split
    · rename_i hsmall
      have hpow : 0 < 10 ^ (k + 1) := Nat.pow_pos (by decide)
      simp only [List.length_singleton]
      omega
    · rw [List.length_append, List.length_singleton, Nat.add_le_add_iff_right, ih]
      omega

/-! ### Numerals compare as their numbers -/

/-- Digits compare as their bytes do. -/
theorem compare_digitByte {c d : Nat} (hc : c < 10) (hd : d < 10) :
    compare (digitByte c) (digitByte d) = compare c d := by
  have hall : ∀ c < 10, ∀ d < 10, compare (digitByte c) (digitByte d) = compare c d := by decide
  exact hall c hc d hd

/-- Runs of one length compare by their last bytes when the others agree. -/
theorem compareLex_concat {xs ys : List UInt8} (h : xs.length = ys.length) (a b : UInt8) :
    List.compareLex compare (xs ++ [a]) (ys ++ [b])
      = (List.compareLex compare xs ys).then (compare a b) := by
  induction xs generalizing ys with
  | nil =>
    obtain rfl := List.eq_nil_of_length_eq_zero h.symm
    rw [List.nil_append, List.nil_append, List.compareLex_cons_cons, List.compareLex_nil_nil,
      Ordering.then_eq, Ordering.eq_then]
  | cons x xs ih =>
    cases ys with
    | nil => cases h
    | cons y ys =>
      simp only [List.cons_append, List.compareLex_cons_cons, ih (Nat.succ.inj h),
        Ordering.then_assoc]

/-- Numbers compare by their tenths, and then by their last digits. -/
theorem compare_tenths (m n : Nat) :
    (compare (m / 10) (n / 10)).then (compare (m % 10) (n % 10)) = compare m n := by
  rcases Nat.lt_trichotomy (m / 10) (n / 10) with h | h | h
  · have hlt : m < n := by omega
    rw [Nat.compare_eq_lt.2 h, Nat.compare_eq_lt.2 hlt, Ordering.lt_then]
  · rw [Nat.compare_eq_eq.2 h, Ordering.eq_then]
    rcases Nat.lt_trichotomy m n with hmn | rfl | hmn
    · rw [Nat.compare_eq_lt.2 hmn, Nat.compare_eq_lt.2 (by omega)]
    · rw [Nat.compare_eq_eq.2 rfl, Nat.compare_eq_eq.2 rfl]
    · rw [Nat.compare_eq_gt.2 hmn, Nat.compare_eq_gt.2 (by omega)]
  · have hgt : n < m := by omega
    rw [Nat.compare_eq_gt.2 h, Nat.compare_eq_gt.2 hgt, Ordering.gt_then]

/-- **Numerals of one length** compare digit by digit as their numbers do. -/
theorem compareLex_numeral {m n : Nat} (h : (numeral m).length = (numeral n).length) :
    List.compareLex compare (numeral m) (numeral n) = compare m n := by
  induction m using Nat.strongRecOn generalizing n with
  | ind m ih =>
    have hsmall : m < 10 ↔ n < 10 := by
      rw [← Nat.pow_one 10, ← length_numeral_le_iff, ← length_numeral_le_iff, h]
    by_cases hm : m < 10
    · have hn := hsmall.1 hm
      rw [numeral_eq m, numeral_eq n, if_pos hm, if_pos hn, List.compareLex_cons_cons,
        compare_digitByte hm hn, List.compareLex_nil_nil, Ordering.then_eq]
    · have hn : ¬ n < 10 := fun hn => hm (hsmall.2 hn)
      rw [numeral_eq m, numeral_eq n, if_neg hm, if_neg hn] at h ⊢
      have hlength : (numeral (m / 10)).length = (numeral (n / 10)).length := by
        simpa using h
      rw [compareLex_concat hlength, ih (m / 10) (by omega) hlength,
        compare_digitByte (Nat.mod_lt m (by decide)) (Nat.mod_lt n (by decide)), compare_tenths]

/-- **A longer numeral is of a larger number.** -/
theorem lt_of_length_numeral_lt {m n : Nat} (h : (numeral m).length < (numeral n).length) :
    m < n := by
  have hpos := List.length_pos_iff.2 (numeral_ne_nil m)
  obtain ⟨k, hk⟩ := Nat.exists_eq_add_of_lt hpos
  have hm : m < 10 ^ (k + 1) := length_numeral_le_iff.1 (by omega)
  have hn : ¬ n < 10 ^ (k + 1) := fun hn => by
    have hle := length_numeral_le_iff.2 hn
    omega
  omega

/-- **Numerals compare as their numbers,** zero included. -/
theorem compareRuns_numeral (m n : Nat) : compareRuns (numeral m) (numeral n) = compare m n := by
  have hpos : ∀ {n : Nat}, n ≠ 0 → ∃ d ds, numeral n = d :: ds ∧ 0x30 < d := by
    intro n hn
    obtain ⟨d, ds, hd⟩ := List.exists_cons_of_ne_nil (numeral_ne_nil n)
    have hdigit : isDigitByte d = true := isDigitByte_of_mem_numeral d (hd ▸ List.mem_cons_self)
    refine ⟨d, ds, hd, UInt8.lt_of_le_of_ne (Chunk.isDigitByte_iff.1 hdigit).1 ?_⟩
    rintro rfl
    exact hn (head?_numeral.1 (by rw [hd, List.head?_cons]))
  have hzero : numeral 0 = [0x30] := by
    rw [numeral_eq, if_pos (by decide)]
    rfl
  rw [compareRuns]
  simp only [head?_numeral]
  split
  · rename_i hfirst
    -- Only the first digits are compared, unless both are zero.
    by_cases hm : m = 0
    · by_cases hn : n = 0
      · rw [hm, hn, compareLex_numeral rfl]
      · obtain ⟨d, ds, hd, hlt⟩ := hpos hn
        rw [hm, hd, hzero, List.compareLex_cons_cons, Std.compare_eq_lt.2 hlt, Ordering.lt_then,
          Nat.compare_eq_lt.2 (by omega)]
    · have hn : n = 0 := hfirst.resolve_left hm
      obtain ⟨d, ds, hd, hlt⟩ := hpos hm
      rw [hn, hd, hzero, List.compareLex_cons_cons, Std.compare_eq_gt.2 hlt, Ordering.gt_then,
        Nat.compare_eq_gt.2 (by omega)]
  · rcases Nat.lt_trichotomy (numeral m).length (numeral n).length with h | h | h
    · rw [Nat.compare_eq_lt.2 h, Ordering.lt_then,
        Nat.compare_eq_lt.2 (lt_of_length_numeral_lt h)]
    · rw [Nat.compare_eq_eq.2 h, Ordering.eq_then, compareLex_numeral h]
    · rw [Nat.compare_eq_gt.2 h, Ordering.gt_then,
        Nat.compare_eq_gt.2 (lt_of_length_numeral_lt h)]

/-! ### Where numerals stand among the chunks of a name -/

/-- Bytes that start with a digit start with a run. -/
theorem exists_chunks_eq_digits {bs : List UInt8} (h : bs.head?.any isDigitByte = true) :
    ∃ first rest more, chunks bs = .digits first rest :: more := by
  cases bs with
  | nil => cases h
  | cons b bs =>
    have hb : isDigitByte b = true := h
    rw [chunks, if_neg (by simp [isSkippedByte_of_isDigitByte hb]), if_pos hb]
    split
    · unfold extendRun
      split
      · exact ⟨_, _, _, rfl⟩
      · exact ⟨_, _, _, rfl⟩
    · exact ⟨_, _, _, rfl⟩

/-- **Bytes may be cut behind any byte that is no digit.** -/
theorem chunks_append {p : List UInt8} (hp : ∀ b ∈ p.getLast?, isDigitByte b = false)
    (x : List UInt8) : chunks (p ++ x) = chunks p ++ chunks x := by
  induction p with
  | nil => rfl
  | cons b p ih =>
    cases p with
    | nil =>
      have hb : isDigitByte b = false := hp b rfl
      simp only [List.cons_append, List.nil_append, chunks, hb]
      split <;> rfl
    | cons c p =>
      have hrest := ih hp
      rw [List.cons_append, chunks, chunks, hrest, List.cons_append, List.head?_cons,
        List.head?_cons]
      split
      · rfl
      · split
        · split
          · rename_i hc
            have hdigit : (c :: p).head?.any isDigitByte = true := hc
            obtain ⟨first, rest, more, hchunks⟩ := exists_chunks_eq_digits hdigit
            rw [hchunks]
            rfl
          · rfl
        · rfl

/-- What two lists have in front in common decides nothing. -/
theorem compareLex_append_left {α : Type} {cmp : α → α → Ordering} (hcmp : ∀ x, cmp x x = .eq)
    (xs ys zs : List α) :
    List.compareLex cmp (xs ++ ys) (xs ++ zs) = List.compareLex cmp ys zs := by
  induction xs with
  | nil => rfl
  | cons x xs ih => rw [List.cons_append, List.cons_append, List.compareLex_cons_cons, hcmp, ih,
      Ordering.eq_then]

/-! ### Names with a number in them -/

/-- Does a name consist of a start, a number in decimal, and a rest, with no digit right before the
number or right behind it? -/
def Embeds (start : String) (n : Nat) (name : String) : Prop :=
  start.toList.getLast?.any Char.isDigit = false ∧
    ∃ rest : String, rest.toList.head?.any Char.isDigit = false ∧
      name = start ++ n.repr ++ rest

/-- A text that does not end in a digit does not end in the byte of one. -/
theorem isDigitByte_of_mem_getLast? {s : String} (h : s.toList.getLast?.any Char.isDigit = false) :
    ∀ b ∈ (bytes s).getLast?, isDigitByte b = false := by
  rw [bytes_eq_flatMap]
  rcases List.eq_nil_or_concat s.toList with hnil | ⟨cs, c, hs⟩
  · simp [hnil]
  · intro b hb
    rw [hs, List.concat_eq_append, List.getLast?_concat] at h
    rw [hs, List.concat_eq_append, List.flatMap_append, List.flatMap_singleton,
      List.getLast?_append_of_ne_nil _ String.utf8EncodeChar_ne_nil] at hb
    rw [isDigitByte_of_mem (List.mem_of_mem_getLast? hb)]
    exact h

/-- A text that does not start with a digit does not start with the byte of one. -/
theorem any_isDigitByte_head? {s : String} (h : s.toList.head?.any Char.isDigit = false) :
    (bytes s).head?.any isDigitByte = false := by
  rw [bytes_eq_flatMap]
  cases hs : s.toList with
  | nil => rfl
  | cons c cs =>
    rw [hs, List.head?_cons] at h
    rw [List.flatMap_cons, List.head?_append_of_ne_nil _ String.utf8EncodeChar_ne_nil]
    cases hc : String.utf8EncodeChar c with
    | nil => rfl
    | cons b bs =>
      have hb : b ∈ String.utf8EncodeChar c := hc ▸ List.mem_cons_self
      exact (isDigitByte_of_mem hb).trans h

/-- **The chunks of a name with a number** are those of the start, the number, and those of the
rest. -/
theorem chunks_of_embeds {start name : String} {n : Nat} (h : Embeds start n name) :
    ∃ d ds more, numeral n = d :: ds ∧
      chunks (bytes name) = chunks (bytes start) ++ .digits d ds :: more := by
  obtain ⟨hstart, rest, hrest, rfl⟩ := h
  obtain ⟨d, ds, hn⟩ := List.exists_cons_of_ne_nil (numeral_ne_nil n)
  have hdigits : ∀ b ∈ d :: ds, isDigitByte b = true := hn ▸ isDigitByte_of_mem_numeral
  refine ⟨d, ds, chunks (bytes rest), hn, ?_⟩
  have hbytes : bytes n.repr = d :: ds := hn
  rw [bytes_append, bytes_append, List.append_assoc,
    chunks_append (isDigitByte_of_mem_getLast? hstart), hbytes,
    chunks_run hdigits (any_isDigitByte_head? hrest)]

/-- **Names that differ first in a number compare as the numbers.** -/
theorem naturalOrder_of_embeds {start a b : String} {m n : Nat} (ha : Embeds start m a)
    (hb : Embeds start n b) (hne : m ≠ n) : naturalOrder a b = compare m n := by
  obtain ⟨c, cs, more, hm, hchunks⟩ := chunks_of_embeds ha
  obtain ⟨d, ds, more', hn, hchunks'⟩ := chunks_of_embeds hb
  rw [naturalOrder, hchunks, hchunks', compareLex_append_left Chunk.order_self,
    List.compareLex_cons_cons, Chunk.order_digits, ← hm, ← hn, compareRuns_numeral]
  rcases Nat.lt_or_gt_of_ne hne with h | h
  · rw [Nat.compare_eq_lt.2 h]
    rfl
  · rw [Nat.compare_eq_gt.2 h]
    rfl

/-! ### Sorting names with a number in them -/

/-- **Items of one name keep their order.** -/
theorem filter_sortNaturalDescending {α : Type} (name : α → String) (items : List α) (k : String) :
    (sortNaturalDescending name items).filter (name · == k) = items.filter (name · == k) := by
  have := transCmp_descending name
  have hsorted : (items.filter (name · == k)).Pairwise fun x y =>
      (naturalOrder (name y) (name x)).isLE := by
    refine List.pairwise_of_forall_mem_list fun x hx y hy => ?_
    have hx : name x = k := by simpa using (List.mem_filter.1 hx).2
    have hy : name y = k := by simpa using (List.mem_filter.1 hy).2
    have hself : naturalOrder k k = .eq := Std.ReflCmp.compare_self
    rw [hx, hy, hself]
    rfl
  have hsub : (items.filter (name · == k)).Sublist (sortNaturalDescending name items) :=
    sublist_mergeSort_of_isLE (fun x y => naturalOrder (name y) (name x)) List.filter_sublist
      hsorted
  have hfilter := hsub.filter (name · == k)
  rw [List.filter_filter] at hfilter
  simp only [Bool.and_self] at hfilter
  refine (hfilter.eq_of_length ?_).symm
  exact ((perm_sortNaturalDescending name items).filter _).length_eq.symm

/-- **Embedded numbers are ordered by value, without bound.**  Two names that begin alike, and then
have different numbers, compare as the numbers.  So sorting, which moves the last name in natural
order to the front and keeps items of one name in their order, puts the larger number first. -/
theorem numbers_by_value :
    (∀ {start a b : String} {m n : Nat}, Embeds start m a → Embeds start n b → m ≠ n →
      naturalOrder a b = compare m n) ∧
    ∀ {α : Type} (name : α → String) (items : List α),
      (sortNaturalDescending name items).Perm items ∧
      (∀ k, (sortNaturalDescending name items).filter (name · == k)
        = items.filter (name · == k)) ∧
      ((sortNaturalDescending name items).Pairwise fun x y =>
        naturalOrder (name x) (name y) ≠ .lt) ∧
      ∀ {start : String} {m n i j : Nat} {x y : α},
        (sortNaturalDescending name items)[i]? = some x → Embeds start m (name x) →
        (sortNaturalDescending name items)[j]? = some y → Embeds start n (name y) →
        n < m → i < j := by
  refine ⟨naturalOrder_of_embeds, fun name items => ⟨perm_sortNaturalDescending name items,
    filter_sortNaturalDescending name items, pairwise_ne_lt_sortNaturalDescending name items, ?_⟩⟩
  intro start m n i j x y hx hm hy hn hlt
  have horder : naturalOrder (name y) (name x) = .lt := by
    rw [naturalOrder_of_embeds hn hm (Nat.ne_of_lt hlt), Nat.compare_eq_lt.2 hlt]
  -- Were the larger number not in front, the sorted list would not be in order.
  by_contra hij
  have hsorted := pairwise_ne_lt_sortNaturalDescending name items
  rcases Nat.lt_or_eq_of_le (Nat.not_lt.1 hij) with h | rfl
  · rw [List.pairwise_iff_getElem] at hsorted
    obtain ⟨hi, hx⟩ := List.getElem?_eq_some_iff.1 hx
    obtain ⟨hj, hy⟩ := List.getElem?_eq_some_iff.1 hy
    exact hsorted j i hj hi h (hx ▸ hy ▸ horder)
  · rw [hx] at hy
    obtain rfl := Option.some.inj hy
    have hself : naturalOrder (name x) (name x) = .eq := Std.ReflCmp.compare_self
    rw [horder] at hself
    cases hself

/-- A number of more than 64 bits, behind a start with digits and white space of its own. -/
theorem numbers_by_value_large :
    Embeds "v02 job" 99999999999999999999 "v02 job99999999999999999999.b" ∧
      Embeds "v02 job" 100000000000000000000 "v02 job100000000000000000000" ∧
      naturalOrder "v02 job100000000000000000000" "v02 job99999999999999999999.b" = .gt ∧
      ∀ i j : Nat, (sortNaturalDescending id ["v02 job99999999999999999999.b",
          "v02 job100000000000000000000"])[i]? = some "v02 job100000000000000000000" →
        (sortNaturalDescending id ["v02 job99999999999999999999.b",
          "v02 job100000000000000000000"])[j]? = some "v02 job99999999999999999999.b" → i < j := by
  have hsmall : Embeds "v02 job" 99999999999999999999 "v02 job99999999999999999999.b" :=
    ⟨by decide, ".b", by decide, by decide +kernel⟩
  have hlarge : Embeds "v02 job" 100000000000000000000 "v02 job100000000000000000000" :=
    ⟨by decide, "", by decide, by decide +kernel⟩
  refine ⟨hsmall, hlarge, ?_, fun i j hi hj => ?_⟩
  · exact numbers_by_value.1 hlarge hsmall (by decide)
  · exact (numbers_by_value.2 id _).2.2.2 hi hlarge hj hsmall (by decide)

end Text
end JobSpool
