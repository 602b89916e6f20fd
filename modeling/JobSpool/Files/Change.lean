/-
# Changes of a tree

A call that works on files gives the tree after the call. What has to be done so that a
disk follows is the list of `changes`: whatever stands no longer where it stood is removed
first, and then everything that is new or different is put in its place. Nothing else
is touched.

That is enough: done one after another, the changes lead from the tree before the call to
what stands at every place after it (`at?_foldl_changes`). Only the tree after the call
has to be in order, with one object for a place and none of its own for the root.
-/

import JobSpool.Files.Tree

namespace JobSpool
namespace Files

/-- One thing to be done. -/
inductive Change where
  /-- What stands at a place goes. -/
  | remove (place : Place)
  /-- Something comes to a place where nothing stands, or instead of what stands there. -/
  | put (place : Place) (object : Object)
  deriving DecidableEq

namespace Change

/-- What a place asks for that holds an object after a call. -/
def ofEntry (before : Tree) (e : Place × Object) : Option Change :=
  if before.at? e.1 = some e.2 then none else some (.put e.1 e.2)

end Change

namespace Tree

/-- Does every entry say what stands at its place? -/
def IsOrderly (t : Tree) : Prop :=
  ∀ e ∈ t.entries, e.1 ≠ [] ∧ t.at? e.1 = some e.2

/-- The tree after a change. -/
def follow (t : Tree) : Change → Tree
  | .remove place => t.erase place
  | .put place object => t.put place object

/-- What has to be removed to get from one tree to another. -/
def removals (before after : Tree) : List Change :=
  (before.entries.filter fun e => (after.at? e.1).isNone).map (.remove ·.1)

/-- What has to be put in its place to get from one tree to another. -/
def puts (before after : Tree) : List Change :=
  after.entries.filterMap (Change.ofEntry before)

/-- What has to be done to get from one tree to another, in an order in which it can be done. -/
def changes (before after : Tree) : List Change :=
  removals before after ++ puts before after

/-- What stands at a place other than the root is in the list of the tree. -/
theorem exists_of_at? {t : Tree} {place : Place} {o : Object} (hroot : place ≠ [])
    (h : t.at? place = some o) : (place, o) ∈ t.entries := by
  rw [at?, if_neg hroot, Option.map_eq_some_iff] at h
  obtain ⟨e, he, rfl⟩ := h
  have hplace : e.1 = place := by simpa using List.find?_some he
  exact hplace ▸ List.mem_of_find?_eq_some he

/-- What is removed is gone, and every other place is left alone. -/
theorem at?_foldl_removals {places : List Place} {t : Tree} {place : Place}
    (hroot : place ≠ []) :
    ((places.map Change.remove).foldl follow t).at? place =
      if place ∈ places then none else t.at? place := by
  induction places generalizing t with
  | nil => simp
  | cons p places ih =>
    simp only [List.map_cons, List.foldl_cons, ih, follow, List.mem_cons]
    by_cases hp : place = p
    · subst hp; simp [at?_erase_self hroot]
    · simp [hp, at?_erase_of_ne hp]

/-- Putting sets what stands at a place by the entry for it, where there is one. -/
theorem at?_foldl_puts {entries : List (Place × Object)} {before t : Tree} {place : Place}
    {o : Object} (hroot : place ≠ []) (ho : ∀ e ∈ entries, e.1 = place → e.2 = o)
    (h : t.at? place = some o ∨ (place, o) ∈ entries ∧ before.at? place ≠ some o) :
    ((entries.filterMap (Change.ofEntry before)).foldl follow t).at? place = some o := by
  induction entries generalizing t with
  | nil => simpa using h
  | cons e entries ih =>
    have hrest : ∀ e' ∈ entries, e'.1 = place → e'.2 = o :=
      fun e' he' => ho e' (List.mem_cons_of_mem _ he')
    by_cases hsame : before.at? e.1 = some e.2
    · have hskip : Change.ofEntry before e = none := by simp [Change.ofEntry, hsame]
      rw [List.filterMap_cons_none hskip]
      refine ih hrest (h.imp_right fun ⟨hmem, hne⟩ => ⟨?_, hne⟩)
      rcases List.mem_cons.1 hmem with rfl | hmem
      · exact absurd hsame hne
      · exact hmem
    · have hput : Change.ofEntry before e = some (.put e.1 e.2) := by simp [Change.ofEntry, hsame]
      rw [List.filterMap_cons_some hput, List.foldl_cons]
      refine ih hrest ?_
      by_cases hp : e.1 = place
      · left
        rw [follow, hp, at?_put_self hroot, ho e List.mem_cons_self hp]
      · rw [follow, at?_put_of_ne (Ne.symm hp)]
        refine h.imp_right fun ⟨hmem, hne⟩ => ⟨?_, hne⟩
        rcases List.mem_cons.1 hmem with rfl | hmem
        · exact absurd rfl hp
        · exact hmem

/-- Putting leaves every place alone that has no entry. -/
theorem at?_foldl_puts_of_notMem {entries : List (Place × Object)} {before t : Tree}
    {place : Place} (h : ∀ e ∈ entries, e.1 ≠ place) :
    ((entries.filterMap (Change.ofEntry before)).foldl follow t).at? place = t.at? place := by
  induction entries generalizing t with
  | nil => rfl
  | cons e entries ih =>
    have hrest : ∀ e' ∈ entries, e'.1 ≠ place := fun e' he' => h e' (List.mem_cons_of_mem _ he')
    by_cases hsame : before.at? e.1 = some e.2
    · rw [List.filterMap_cons_none (by simp [Change.ofEntry, hsame]), ih hrest]
    · have hput : Change.ofEntry before e = some (.put e.1 e.2) := by simp [Change.ofEntry, hsame]
      rw [List.filterMap_cons_some hput, List.foldl_cons, ih hrest, follow,
        at?_put_of_ne (Ne.symm (h e List.mem_cons_self))]

/-- **Done one after another, the changes lead to what stands at every place afterwards.** -/
theorem at?_foldl_changes {before after : Tree} (hafter : after.IsOrderly) (place : Place) :
    ((changes before after).foldl follow before).at? place = after.at? place := by
  by_cases hroot : place = []
  · simp [hroot, at?]
  have hremovals : removals before after =
      ((before.entries.filter fun e => (after.at? e.1).isNone).map (·.1)).map Change.remove := by
    simp [removals]
  rw [changes, List.foldl_append]
  -- What stands at the place afterwards decides whether it was removed, put or left alone.
  cases ho : after.at? place with
  | none =>
    have hnot : ∀ e ∈ after.entries, e.1 ≠ place := fun e he hp => by
      have := (hafter e he).2
      rw [hp, ho] at this
      simp at this
    rw [puts, at?_foldl_puts_of_notMem hnot, hremovals, at?_foldl_removals hroot]
    split
    · rfl
    · rename_i hkept
      cases hb : before.at? place with
      | none => rfl
      | some o =>
        refine absurd (List.mem_map.2 ⟨(place, o), ?_, rfl⟩) hkept
        exact List.mem_filter.2 ⟨exists_of_at? hroot hb, by simp [ho]⟩
  | some o =>
    have hunique : ∀ e ∈ after.entries, e.1 = place → e.2 = o := fun e he hp => by
      have := (hafter e he).2
      rw [hp, ho] at this
      exact (Option.some.inj this).symm
    refine at?_foldl_puts hroot hunique ?_
    by_cases hb : before.at? place = some o
    · left
      rw [hremovals, at?_foldl_removals hroot, if_neg ?_, hb]
      simp only [List.mem_map, List.mem_filter, not_exists, not_and]
      rintro e ⟨-, hnone⟩ rfl
      simp [ho] at hnone
    · exact .inr ⟨exists_of_at? hroot ho, hb⟩

end Tree
end Files
end JobSpool
