/-
# The two orders of names are linear

`Text.byteOrder` compares the bytes of two names, and lists of bytes have a linear order
already.  `Text.naturalOrder` compares chunks, and it is linear because chunks compare by
three properties one after another (`Chunk.keyOrder`).  The first tells the runs of digits
that start with a zero from the other runs and from all other bytes, and it orders them as
their first bytes do, since a byte that is no digit lies on one side of all digits.  The
second is the length of a run whose value counts, and the third is the run itself.
`Chunk.order_eq_keyOrder` says that nothing else is compared, for the chunks that names
have (`Chunk.IsProper`).

So sorting puts names in the one order that there is: names without repetitions come out
strictly ascending in the byte order (`pairwise_sortNames`), and items with distinct names
strictly descending in the natural order (`pairwise_sortNaturalDescending`).  In what order
names went in does not show (`sortNames_congr`).
-/

import JobSpool.Text.Order
import Mathlib.Data.List.Nodup

namespace JobSpool
namespace Text

open Std (TransCmp LawfulEqCmp ReflCmp OrientedCmp)

/-! ### The byte order -/

/-- A text is known from its bytes. -/
theorem bytes_injective {a b : String} (h : bytes a = bytes b) : a = b :=
  String.toByteArray_inj.1 (ByteArray.ext (Array.toList_inj.1 h))

/-- The order by bytes compares lists of bytes. -/
theorem byteOrder_eq_compareOn : byteOrder = compareOn bytes := rfl

instance : TransCmp byteOrder :=
  byteOrder_eq_compareOn ▸ inferInstance

/-- **Names that the byte order takes for equal are equal.** -/
instance : LawfulEqCmp byteOrder where
  compare_self {a} := (ReflCmp.compare_self : compareOn bytes a a = .eq)
  eq_of_compare h := bytes_injective (Std.LawfulEqOrd.eq_of_compare (α := List UInt8) h)

/-- A name is not below itself. -/
theorem ne_of_byteOrder_lt {a b : String} (h : byteOrder a b = .lt) : a ≠ b := by
  rintro rfl
  exact OrientedCmp.not_lt_of_lt h h

/-! ### The order of chunks -/

namespace Chunk

/-- Is the chunk a run that starts with a digit, or a byte that is no digit? -/
def IsProper : Chunk → Prop
  | digits first _ => isDigitByte first = true
  | byte b => isDigitByte b = false

/-- Where a chunk stands among chunks of other kinds: a run of digits at one of two digits. -/
def lead : Chunk → UInt8
  | digits first _ => if first = 0x30 then 0x30 else 0x31
  | byte b => b

/-- The length of a run whose value counts. -/
def size : Chunk → Nat
  | digits first rest => if first = 0x30 then 0 else rest.length
  | byte _ => 0

/-- The digits of a run. -/
def run : Chunk → List UInt8
  | digits first rest => first :: rest
  | byte _ => []

/-- The order by the three properties of a chunk. -/
def keyOrder : Chunk → Chunk → Ordering :=
  compareLex (compareOn lead) (compareLex (compareOn size) (compareOn run))

instance : TransCmp keyOrder :=
  inferInstanceAs (TransCmp (compareLex _ _))

/-- The digits are the bytes from 30 to 39, in hexadecimal. -/
theorem isDigitByte_iff {b : UInt8} : isDigitByte b = true ↔ 0x30 ≤ b ∧ b ≤ 0x39 := by
  simp [isDigitByte]

/-- A byte that is no digit compares with all digits alike. -/
theorem compare_digit_congr {a a' b : UInt8} (ha : isDigitByte a = true)
    (ha' : isDigitByte a' = true) (hb : isDigitByte b = false) : compare a b = compare a' b := by
  rw [isDigitByte_iff] at ha ha'
  rw [← Bool.not_eq_true, isDigitByte_iff, Classical.not_and_iff_not_or_not, UInt8.not_le,
    UInt8.not_le] at hb
  rcases hb with hb | hb
  · rw [Std.compare_eq_gt.2 (Std.lt_of_lt_of_le hb ha.1),
      Std.compare_eq_gt.2 (Std.lt_of_lt_of_le hb ha'.1)]
  · rw [Std.compare_eq_lt.2 (Std.lt_of_le_of_lt ha.2 hb),
      Std.compare_eq_lt.2 (Std.lt_of_le_of_lt ha'.2 hb)]

/-- A digit is not equal to another byte. -/
theorem compare_ne_eq {a b : UInt8} (ha : isDigitByte a = true) (hb : isDigitByte b = false) :
    compare a b ≠ .eq := by
  intro h
  rw [Std.LawfulEqOrd.eq_of_compare h, hb] at ha
  exact Bool.false_ne_true ha

/-- A run of digits leads with a digit. -/
theorem isDigitByte_lead (first : UInt8) (rest : List UInt8) :
    isDigitByte (digits first rest).lead = true := by
  simp only [lead]
  split <;> rfl

/-- **The order of chunks compares their three properties and nothing else.** -/
theorem order_eq_keyOrder {x y : Chunk} (hx : x.IsProper) (hy : y.IsProper) :
    order x y = keyOrder x y := by
  have hthen : ∀ {o : Ordering} (o' : Ordering), o ≠ .eq → o.then o' = o := by
    intro o o' ho
    cases o with
    | eq => exact absurd rfl ho
    | lt => rfl
    | gt => rfl
  cases x with
  | digits a as =>
    cases y with
    | digits b bs =>
      have hlt : ∀ {d : UInt8}, isDigitByte d = true → d ≠ 0x30 → 0x30 < d := fun hd hne =>
        UInt8.lt_of_le_of_ne (isDigitByte_iff.1 hd).1 (Ne.symm hne)
      -- Two runs of digits compare by size unless one of them starts with a zero; then by digits.
      by_cases ha : a = 0x30 <;> by_cases hb : b = 0x30
      · simp [order, keyOrder, compareLex, compareOn, lead, size, run, ha, hb,
          List.compareLex_cons_cons, List.compare_eq_compareLex]
      · have h := Std.compare_eq_lt.2 (hlt hy hb)
        simp [order, keyOrder, compareLex, compareOn, lead, ha, hb, h, List.compareLex_cons_cons]
        rfl
      · have h := Std.compare_eq_gt.2 (hlt hx ha)
        simp [order, keyOrder, compareLex, compareOn, lead, ha, hb, h, List.compareLex_cons_cons]
        rfl
      · simp [order, keyOrder, compareLex, compareOn, lead, size, run, ha, hb,
          List.compareLex_cons_cons, List.compare_eq_compareLex]
    | byte b =>
      have hlead := isDigitByte_lead a as
      show compare a b = (compare (digits a as).lead b).then _
      rw [hthen _ (compare_ne_eq hlead hy), compare_digit_congr hx hlead hy]
  | byte a =>
    cases y with
    | digits b bs =>
      have hlead := isDigitByte_lead b bs
      have hswap : ∀ d : UInt8, compare a d = (compare d a).swap := fun d => OrientedCmp.eq_swap
      show compare a b = (compare a (digits b bs).lead).then _
      rw [hswap b, hswap, compare_digit_congr hy hlead hx, hthen]
      intro h
      rw [Ordering.swap_eq_eq] at h
      exact compare_ne_eq hlead hx h
    | byte b =>
      show compare a b = (compare a b).then _
      cases compare a b <;> rfl

end Chunk

/-! ### The natural order -/

/-- A digit makes the run that it is put in front of no less proper. -/
theorem isProper_of_mem_extendRun {b : UInt8} (hb : isDigitByte b = true) {cs : List Chunk}
    (hcs : ∀ x ∈ cs, x.IsProper) : ∀ x ∈ extendRun b cs, x.IsProper := by
  intro x hx
  unfold extendRun at hx
  split at hx
  · rcases List.mem_cons.1 hx with rfl | hx
    · exact hb
    · exact hcs x (List.mem_cons_of_mem _ hx)
  · rcases List.mem_cons.1 hx with rfl | hx
    · exact hb
    · exact hcs x hx

/-- The chunks of a name are proper: no digit stands alone as a byte. -/
theorem isProper_of_mem_chunks (bs : List UInt8) : ∀ x ∈ chunks bs, x.IsProper := by
  induction bs with
  | nil => simp [chunks]
  | cons b bs ih =>
    intro x hx
    rw [chunks] at hx
    split at hx
    · exact ih x hx
    · split at hx
      · rename_i hb
        split at hx
        · exact isProper_of_mem_extendRun hb ih x hx
        · rcases List.mem_cons.1 hx with rfl | hx
          · exact hb
          · exact ih x hx
      · rename_i hb
        rcases List.mem_cons.1 hx with rfl | hx
        · simpa [Chunk.IsProper] using hb
        · exact ih x hx

/-- Lists compare alike by orders that agree on their items. -/
theorem compareLex_congr {α : Type} {cmp cmp' : α → α → Ordering} {xs ys : List α}
    (h : ∀ x ∈ xs, ∀ y ∈ ys, cmp x y = cmp' x y) :
    List.compareLex cmp xs ys = List.compareLex cmp' xs ys := by
  induction xs generalizing ys with
  | nil => cases ys <;> rfl
  | cons x xs ih =>
    cases ys with
    | nil => rfl
    | cons y ys =>
      rw [List.compareLex_cons_cons, List.compareLex_cons_cons,
        h x List.mem_cons_self y List.mem_cons_self,
        ih fun x hx y hy => h x (List.mem_cons_of_mem _ hx) y (List.mem_cons_of_mem _ hy)]

/-- The order of names by their chunks. -/
def chunkOrder (a b : String) : Ordering :=
  List.compareLex Chunk.keyOrder (chunks (bytes a)) (chunks (bytes b))

instance : TransCmp chunkOrder where
  eq_swap {a b} := (OrientedCmp.eq_swap :
    List.compareLex Chunk.keyOrder (chunks (bytes a)) (chunks (bytes b)) = _)
  isLE_trans {a _ c} hab hbc := (TransCmp.isLE_trans hab hbc :
    (List.compareLex Chunk.keyOrder (chunks (bytes a)) (chunks (bytes c))).isLE = true)

/-- The natural order is the order by chunks, and by bytes where these agree. -/
theorem naturalOrder_eq_compareLex : naturalOrder = compareLex chunkOrder byteOrder := by
  funext a b
  have h : List.compareLex Chunk.order (chunks (bytes a)) (chunks (bytes b)) = chunkOrder a b :=
    compareLex_congr fun x hx y hy =>
      Chunk.order_eq_keyOrder (isProper_of_mem_chunks _ x hx) (isProper_of_mem_chunks _ y hy)
  rw [naturalOrder, h, compareLex]

instance : TransCmp naturalOrder :=
  naturalOrder_eq_compareLex ▸ inferInstance

/-- **Names that the natural order takes for equal are equal.** -/
instance : LawfulEqCmp naturalOrder where
  compare_self := naturalOrder_eq_compareLex ▸ ReflCmp.compare_self
  eq_of_compare h := by
    rw [naturalOrder_eq_compareLex, compareLex_eq_eq] at h
    exact LawfulEqCmp.eq_of_compare h.2

/-! ### Sorting by a linear order -/

section Sorting

variable {α : Type} (cmp : α → α → Ordering) [TransCmp cmp]

/-- What the sort asks is whether the first item is at most the second. -/
theorem ne_gt_iff_isLE {o : Ordering} : (o != .gt) = o.isLE := by
  cases o <;> rfl

/-- Of two items one is at most the other. -/
theorem isLE_or_isLE (a b : α) : ((cmp a b).isLE || (cmp b a).isLE) = true := by
  have hswap : cmp b a = (cmp a b).swap := OrientedCmp.eq_swap
  rw [hswap]
  cases cmp a b <;> rfl

/-- A sorted list is in order. -/
theorem pairwise_mergeSort_isLE (items : List α) :
    (items.mergeSort fun a b => cmp a b != .gt).Pairwise fun a b => (cmp a b).isLE := by
  simp only [ne_gt_iff_isLE]
  exact List.pairwise_mergeSort (fun _ _ _ => TransCmp.isLE_trans) (isLE_or_isLE cmp) items

/-- **Items that are in order already keep it.** -/
theorem sublist_mergeSort_of_isLE {kept items : List α} (h : kept.Sublist items)
    (hsorted : kept.Pairwise fun a b => (cmp a b).isLE) :
    kept.Sublist (items.mergeSort fun a b => cmp a b != .gt) := by
  simp only [ne_gt_iff_isLE]
  exact List.sublist_mergeSort (fun _ _ _ => TransCmp.isLE_trans) (isLE_or_isLE cmp) hsorted h

/-- **Sorting forgets the order,** if only equal items compare as equal. -/
theorem mergeSort_congr {items items' : List α} (h : items.Perm items')
    (heq : ∀ a ∈ items, ∀ b ∈ items, cmp a b = .eq → a = b) :
    (items.mergeSort fun a b => cmp a b != .gt) = items'.mergeSort fun a b => cmp a b != .gt := by
  refine List.Perm.eq_of_pairwise (fun a b ha hb hab hba => ?_) (pairwise_mergeSort_isLE cmp items)
    (pairwise_mergeSort_isLE cmp items') ?_
  · have hb' : b ∈ items := h.mem_iff.2 ((List.mergeSort_perm _ _).mem_iff.1 hb)
    exact heq a ((List.mergeSort_perm _ _).mem_iff.1 ha) b hb' (OrientedCmp.isLE_antisymm hab hba)
  · exact (List.mergeSort_perm _ _).trans (h.trans (List.mergeSort_perm _ _).symm)

end Sorting

/-- Sorting names loses none of them and adds none. -/
theorem perm_sortNames (names : List String) : (sortNames names).Perm names :=
  List.mergeSort_perm _ _

/-- **Names without repetitions are sorted strictly,** in ascending byte order. -/
theorem pairwise_sortNames {names : List String} (h : names.Nodup) :
    (sortNames names).Pairwise fun a b => byteOrder a b = .lt := by
  have hne : (sortNames names).Pairwise (· ≠ ·) := (perm_sortNames names).nodup_iff.2 h
  refine ((pairwise_mergeSort_isLE byteOrder names).and hne).imp ?_
  rintro a b ⟨hle, hab⟩
  cases hc : byteOrder a b with
  | lt => rfl
  | eq => exact absurd (LawfulEqCmp.eq_of_compare hc) hab
  | gt => simp [hc] at hle

/-- Names are sorted alike in whichever order they are given. -/
theorem sortNames_congr {names names' : List String} (h : names.Perm names') :
    sortNames names = sortNames names' :=
  mergeSort_congr byteOrder h fun _ _ _ _ heq => LawfulEqCmp.eq_of_compare heq

/-- Sorting items by their names loses none of them and adds none. -/
theorem perm_sortNaturalDescending {α : Type} (name : α → String) (items : List α) :
    (sortNaturalDescending name items).Perm items :=
  List.mergeSort_perm _ _

/-- The descending natural order is an order, too. -/
theorem transCmp_descending {α : Type} (name : α → String) :
    TransCmp fun x y : α => naturalOrder (name y) (name x) where
  eq_swap {x y} := (OrientedCmp.eq_swap : naturalOrder (name y) (name x) = _)
  isLE_trans {x _ z} hxy hyz :=
    (TransCmp.isLE_trans hyz hxy : (naturalOrder (name z) (name x)).isLE = true)

/-- **Items are sorted** so that the last name in natural order is first. -/
theorem pairwise_ne_lt_sortNaturalDescending {α : Type} (name : α → String) (items : List α) :
    (sortNaturalDescending name items).Pairwise fun x y =>
      naturalOrder (name x) (name y) ≠ .lt := by
  have := transCmp_descending name
  refine (pairwise_mergeSort_isLE (fun x y => naturalOrder (name y) (name x)) items).imp ?_
  intro x y hle hlt
  have hswap : naturalOrder (name y) (name x) = (naturalOrder (name x) (name y)).swap :=
    OrientedCmp.eq_swap
  rw [hswap, hlt] at hle
  cases hle

/-- **Items with distinct names are sorted strictly,** in descending natural order. -/
theorem pairwise_sortNaturalDescending {α : Type} {name : α → String} {items : List α}
    (h : (items.map name).Nodup) :
    (sortNaturalDescending name items).Pairwise fun x y =>
      naturalOrder (name x) (name y) = .gt := by
  have hne : (sortNaturalDescending name items).Pairwise fun x y => name x ≠ name y := by
    rw [← List.pairwise_map]
    exact ((perm_sortNaturalDescending name items).map name).nodup_iff.2 h
  refine ((pairwise_ne_lt_sortNaturalDescending name items).and hne).imp ?_
  rintro x y ⟨hnotLt, hxy⟩
  cases hc : naturalOrder (name x) (name y) with
  | lt => exact absurd hc hnotLt
  | eq => exact absurd (LawfulEqCmp.eq_of_compare hc) hxy
  | gt => rfl

end Text
end JobSpool
