/-
# Values that say the same

A document may list the members of an object in any order, and may leave out those that have their
default.  `Value.Restates` relates a value to all documents that say it in this way, at every
level of nesting.

Reading a text puts members in order.  This stays within the relation (`Restates.sorted`),
since no two members of an object have one name, so sorting drops none of them
(`perm_insertMembers`).
-/

import JobSpool.Proofs.JsonTexts
import JobSpool.Proofs.NameOrder

namespace JobSpool
namespace Json

/-! ### Sorting members -/

/-- A new member is put in its place among the others, and none of them is lost. -/
theorem perm_insertMember {name : String} {members : List (String × Value)}
    (h : name ∉ members.map (·.1)) (v : Value) :
    (Value.insertMember name v members).Perm ((name, v) :: members) := by
  induction members with
  | nil => exact .refl _
  | cons m members ih =>
    obtain ⟨other, old⟩ := m
    rw [List.map_cons, List.mem_cons, not_or] at h
    rw [Value.insertMember]
    split
    · exact .refl _
    · rename_i hsame
      exact absurd (Std.LawfulEqCmp.eq_of_compare hsame) h.1
    · exact ((ih h.2).cons _).trans (.swap _ _ _)

/-- **Sorting drops no member** unless two of them have the same name. -/
theorem perm_insertMembers {members sorted : List (String × Value)}
    (h : ((members ++ sorted).map (·.1)).Nodup) :
    (members.foldl (fun sorted m => Value.insertMember m.1 m.2 sorted) sorted).Perm
      (members ++ sorted) := by
  induction members generalizing sorted with
  | nil => exact .refl _
  | cons m members ih =>
    have hnew : m.1 ∉ sorted.map (·.1) := by
      intro hm
      exact (List.nodup_cons.1 h).1 (List.map_append ▸ List.mem_append_right _ hm)
    have hinsert := (perm_insertMember hnew m.2).append_left members
    have hmiddle : (members ++ m :: sorted).Perm (m :: (members ++ sorted)) := List.perm_middle
    have hrest := ih (((hinsert.trans hmiddle).map (·.1)).nodup_iff.2 h)
    exact hrest.trans (hinsert.trans hmiddle)

/-- An object is sorted by sorting the values of its members, and putting these in order. -/
theorem exists_sorted_object {members : List (String × Value)} (h : (members.map (·.1)).Nodup) :
    ∃ sorted, (Value.object members).sorted = .object sorted ∧
      sorted.Perm (members.map fun m => (m.1, m.2.sorted)) := by
  refine ⟨_, rfl, ?_⟩
  have hnames : ((sortedMembers members ++ []).map Prod.fst).Nodup := by
    simpa [sortedMembers_eq_map, Function.comp_def] using h
  have hperm := perm_insertMembers hnames
  rw [sortedMembers_eq_map]
  rwa [List.append_nil, sortedMembers_eq_map] at hperm

/-! ### Restatements -/

namespace Value

/-- Is a value without members, and all of its items too? -/
inductive IsLeaf : Value → Prop where
  | null : IsLeaf .null
  | bool (b : Bool) : IsLeaf (.bool b)
  | number (n : Number) : IsLeaf (.number n)
  | text (s : String) : IsLeaf (.text s)
  | texts (items : List String) : IsLeaf (.list (items.map .text))

/-- **There is nothing to sort in a leaf.** -/
theorem IsLeaf.sorted_eq {v : Value} (h : v.IsLeaf) : v.sorted = v := by
  cases h with
  | texts items =>
    rw [sorted, sortedItems_eq_map, List.map_map]
    rfl
  | _ => rfl

/-- `Restates default v w` says that `w` says what `v` says, if what is missing has its value in
`default`.  The members of an object may stand in any order, but each at most once, and those that
have their default may be missing. -/
inductive Restates : (default : Option Value) → Value → Value → Prop where
  | leaf {default : Option Value} {v : Value} (h : v.IsLeaf) : Restates default v v
  | object {default : Option Value} {full given : List (String × Value)}
      (distinct : (given.map (·.1)).Nodup)
      (known : ∀ m ∈ given, m.1 ∈ full.map (·.1))
      (faithful : ∀ m ∈ given, ∀ v, (m.1, v) ∈ full → Restates (default.bind (member? m.1)) v m.2)
      (complete : ∀ m ∈ full, m.1 ∈ given.map (·.1) ∨ default.bind (member? m.1) = some m.2) :
      Restates default (.object full) (.object given)

namespace Restates

variable {default : Option Value} {v w : Value}

/-- A value without parts is restated by itself alone. -/
theorem eq_of_isLeaf (h : Restates default v w) (hv : v.IsLeaf) : w = v := by
  cases h with
  | leaf _ => rfl
  | object => cases hv

/-- Where names are distinct, it is enough to find for each member the one that it restates. -/
theorem object_of_distinct {full given : List (String × Value)} (hfull : (full.map (·.1)).Nodup)
    (hgiven : (given.map (·.1)).Nodup)
    (hmembers : ∀ m ∈ given, ∃ v, (m.1, v) ∈ full ∧ Restates (default.bind (member? m.1)) v m.2)
    (hmissing : ∀ m ∈ full, m.1 ∈ given.map (·.1) ∨ default.bind (member? m.1) = some m.2) :
    Restates default (.object full) (.object given) := by
  refine .object hgiven (fun m hm => ?known) (fun m hm v hv => ?faithful) hmissing
  case known =>
    obtain ⟨v, hv, -⟩ := hmembers m hm
    exact List.mem_map.2 ⟨_, hv, rfl⟩
  case faithful =>
    obtain ⟨w, hw, hrestates⟩ := hmembers m hm
    have hsame : (m.1, v) = (m.1, w) := List.inj_on_of_nodup_map hfull hv hw rfl
    exact (Prod.mk.inj hsame).2 ▸ hrestates

/-- **Members may be left out and reordered** if those that are left out have their default. -/
theorem abridged {full kept given : List (String × Value)} (hdistinct : (full.map (·.1)).Nodup)
    (hself : ∀ m ∈ full, Restates (default.bind (member? m.1)) m.2 m.2) (hkept : kept.Sublist full)
    (hmissing : ∀ m ∈ full, m ∈ kept ∨ default.bind (member? m.1) = some m.2)
    (horder : given.Perm kept) : Restates default (.object full) (.object given) := by
  have hnames : (given.map (·.1)).Perm (kept.map (·.1)) := horder.map _
  refine object_of_distinct hdistinct (hnames.nodup_iff.2 (hdistinct.sublist (hkept.map _)))
    (fun m hm => ?_) fun m hm => (hmissing m hm).imp_left fun hm => ?_
  · have hm := hkept.mem (horder.mem_iff.1 hm)
    exact ⟨m.2, hm, hself m hm⟩
  · exact List.mem_map_of_mem (horder.mem_iff.2 hm)

/-- An object restates itself if each of its members does. -/
theorem self {members : List (String × Value)} (hdistinct : (members.map (·.1)).Nodup)
    (h : ∀ m ∈ members, Restates (default.bind (member? m.1)) m.2 m.2) :
    Restates default (.object members) (.object members) :=
  abridged hdistinct h (.refl _) (fun _ => Or.inl) (.refl _)

/-- **A restatement is not nested deeper.** -/
theorem fits (h : Restates default v w) {levels : Nat} (hv : v.Fits levels) : w.Fits levels := by
  induction h generalizing levels with
  | leaf _ => exact hv
  | object distinct known faithful complete ih =>
    cases hv with
    | object hfull =>
      refine .object fun m hm => ?_
      obtain ⟨k, hk, hname⟩ := List.mem_map.1 (known m hm)
      exact ih m hm k.2 (hname ▸ hk) (hfull k hk)

/-- **A restatement with its members in order** is a restatement. -/
theorem sorted (h : Restates default v w) : Restates default v w.sorted := by
  induction h with
  | leaf hv => exact hv.sorted_eq.symm ▸ .leaf hv
  | @object default full given distinct known faithful complete ih =>
    obtain ⟨given', heq, hperm⟩ := exists_sorted_object distinct
    have hnames : (given'.map (·.1)).Perm (given.map (·.1)) := by
      simpa [Function.comp_def] using hperm.map (·.1)
    have hgiven : ∀ m ∈ given', ∃ k ∈ given, (k.1, k.2.sorted) = m := fun m hm =>
      List.mem_map.1 (hperm.mem_iff.1 hm)
    rw [heq]
    constructor
    case distinct => exact hnames.nodup_iff.2 distinct
    case known =>
      intro m hm
      obtain ⟨k, hk, rfl⟩ := hgiven m hm
      exact known k hk
    case faithful =>
      intro m hm
      obtain ⟨k, hk, rfl⟩ := hgiven m hm
      exact ih k hk
    case complete =>
      intro m hm
      exact (complete m hm).imp_left hnames.mem_iff.2

/-- **The text of a restatement is read as one.** -/
theorem exists_parse_eq (h : Restates default v w) (hv : v.Fits (depthLimit - 1)) :
    ∃ w', parse w.render = .ok w' ∧ Restates default v w' :=
  ⟨w.sorted, parse_render (h.fits hv), h.sorted⟩

end Restates
end Value
end Json
end JobSpool
