/-
# Counts

A count is a whole number of 64 bits. It is read from a run of ASCII digits with at
most one plus sign in front, and written in decimal without leading zeros. Anything
else, a value past `2 ^ 64 - 1` included, is no count.
-/

namespace JobSpool
namespace Text

/-- The number that a non-empty run of ASCII digits spells. -/
def readDigits? (cs : List Char) : Option Nat :=
  if cs.isEmpty || !cs.all Char.isDigit then none
  else some (Nat.ofDigitChars 10 cs 0)

/-- The characters without a plus sign in front. -/
def dropPlus : List Char → List Char
  | '+' :: rest => rest
  | cs => cs

/-- The count a run of characters spells. -/
def readCount? (cs : List Char) : Option UInt64 :=
  match readDigits? (dropPlus cs) with
  | some n => if n < UInt64.size then some (.ofNat n) else none
  | none => none

/-- A count in decimal. -/
def writeCount (n : UInt64) : String :=
  n.toNat.repr

/-- A number that is written in decimal is read again. -/
theorem readDigits?_toDigits (n : Nat) : readDigits? (Nat.toDigits 10 n) = some n := by
  have hne : (Nat.toDigits 10 n).isEmpty = false := by
    simp [Nat.toDigits_ne_nil]
  have hall : (Nat.toDigits 10 n).all Char.isDigit = true :=
    List.all_eq_true.2 fun c hc => Nat.isDigit_of_mem_toDigits (by decide) (by decide) hc
  simp [readDigits?, hne, hall, Nat.ofDigitChars_ten_toDigits]

/-- **A count that was written is read again.** -/
theorem readCount?_writeCount (n : UInt64) : readCount? (writeCount n).toList = some n := by
  have hplus : dropPlus (Nat.toDigits 10 n.toNat) = Nat.toDigits 10 n.toNat := by
    unfold dropPlus
    split
    · rename_i rest h
      have := Nat.isDigit_of_mem_toDigits (b := 10) (n := n.toNat) (c := '+') (by decide)
        (by decide) (h ▸ List.mem_cons_self)
      simp at this
    · rfl
  have hlist : (writeCount n).toList = Nat.toDigits 10 n.toNat := by simp [writeCount]
  rw [readCount?, hlist, hplus, readDigits?_toDigits]
  show (if n.toNat < UInt64.size then some (UInt64.ofNat n.toNat) else none) = some n
  rw [if_pos n.toNat_lt_size, UInt64.ofNat_toNat]

end Text
end JobSpool
