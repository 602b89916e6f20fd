/-
# The folders on the way to a path

A folder is made after those on the way to it, and these are listed by `Path.ancestors`.  The path
is written plainly for that: steps that stay are left out, and so are slashes that say nothing.
What is left of a path that never goes up (`IsStraight`) is a way by names, perhaps behind one step
that stays (`exists_trail_eq`).

A way has the steps it was made of (`steps_way`), and a way with one name more is the path to that
name in the folder (`way_concat`).  So the list of ancestors climbs by one name at a time
(`climbs_way`), and the ancestors of a name in a folder begin with the folder
(`climbs_ancestors`).
-/

import JobSpool.Proofs.Walks
import Mathlib.Data.List.Induction

namespace JobSpool

namespace Path

/-! ### The folders on the way to a path -/

/-- Does a step go on to a name that a folder can hold, or stay? -/
def Step.IsStraight : Step → Prop
  | .stay => True
  | .up => False
  | .down name => name.utf8ByteSize ≤ Files.nameLimit

instance : DecidablePred Step.IsStraight
  | .stay => inferInstanceAs (Decidable True)
  | .up => inferInstanceAs (Decidable False)
  | .down name => inferInstanceAs (Decidable (name.utf8ByteSize ≤ _))

/-- Does a path never go up, and name nothing that no folder can hold? -/
def IsStraight (p : Path) : Prop :=
  ∀ step ∈ p.steps, step.IsStraight

instance (p : Path) : Decidable p.IsStraight :=
  inferInstanceAs (Decidable (∀ step ∈ p.steps, step.IsStraight))

/-- The folders on the way along some steps, the nearest one first. -/
def foldersAbove (absolute : Bool) (trail : List Step) : List Path :=
  ((List.range trail.length).reverse.filter fun n => absolute || n != 0).map fun n =>
    ofTrail absolute (trail.take n)

/-- The folders on the way, by the steps of a path. -/
theorem ancestors_eq (p : Path) : p.ancestors = foldersAbove p.isAbsolute p.trail := by
  rw [ancestors, foldersAbove]
  cases p.isAbsolute with
  | false => rfl
  | true =>
    have hall : ((List.range p.trail.length).reverse.filter fun n => true || n != 0)
        = (List.range p.trail.length).reverse := List.filter_eq_self.2 fun _ _ => rfl
    rw [hall]
    rfl

/-- The folder of a path with one step more is the path, followed by the folders of the path. -/
theorem foldersAbove_concat (absolute : Bool) (trail : List Step) (step : Step)
    (h : absolute = true ∨ trail ≠ []) :
    foldersAbove absolute (trail ++ [step])
      = ofTrail absolute trail :: foldersAbove absolute trail := by
  have hlast : (absolute || trail.length != 0) = true := by
    rcases h with h | h
    · simp [h]
    · simp [h]
  have htake : ∀ n ∈ (List.range trail.length).reverse.filter fun n => absolute || n != 0,
      ofTrail absolute ((trail ++ [step]).take n) = ofTrail absolute (trail.take n) := by
    intro n hn
    have hlt : n < trail.length := by simpa using (List.mem_filter.1 hn).1
    rw [List.take_append_of_le_length (Nat.le_of_lt hlt)]
  rw [foldersAbove, List.length_append, List.length_singleton, List.range_succ, List.reverse_append,
    List.reverse_singleton, List.singleton_append, List.filter_cons, if_pos hlast, List.map_cons,
    List.take_left, List.map_congr_left htake]
  rfl

/-- Do the steps have texts that hold no slash, and are there for each? -/
def AreProper (trail : List Step) : Prop :=
  ∀ step ∈ trail, step.text.toList ≠ [] ∧ '/' ∉ step.text.toList

/-- Texts that are joined with slashes end in the last of them. -/
theorem toList_intercalate_concat (texts : List String) (text : String) :
    ∃ front, ("/".intercalate (texts ++ [text])).toList = front ++ text.toList := by
  by_cases hnil : texts = []
  · exact ⟨[], by simp [hnil]⟩
  · refine ⟨("/".intercalate texts ++ "/").toList, ?_⟩
    rw [String.intercalate_append_of_ne_nil hnil (List.cons_ne_nil _ _), String.toList_append]
    simp

/-- The way along some steps ends as the last of them does. -/
theorem toList_ofTrail (absolute : Bool) {trail : List Step} (h : AreProper trail)
    (hne : trail ≠ []) :
    ∃ front c, (ofTrail absolute trail).text.toList = front ++ [c] ∧ c ≠ '/' := by
  obtain ⟨before, step, rfl⟩ : ∃ before step, trail = before ++ [step] :=
    ⟨trail.dropLast, trail.getLast hne, (List.dropLast_concat_getLast hne).symm⟩
  obtain ⟨htext, hslash⟩ := h step (by simp)
  obtain ⟨front, hfront⟩ := toList_intercalate_concat (before.map Step.text) step.text
  refine ⟨(if absolute then "/" else "").toList ++ front ++ step.text.toList.dropLast,
    step.text.toList.getLast htext, ?_, ?_⟩
  · rw [ofTrail, List.map_append, List.map_singleton, String.toList_append, hfront,
      List.append_assoc, List.append_assoc, List.dropLast_concat_getLast]
  · exact fun heq => hslash (heq ▸ List.getLast_mem htext)

/-- Only a relative path of no steps is written as the empty text. -/
theorem of_ofTrail_empty {absolute : Bool} {trail : List Step} (h : AreProper trail)
    (hempty : (ofTrail absolute trail).text.toList = []) : trail = [] ∧ absolute = false := by
  by_cases hnil : trail = []
  · subst hnil
    cases absolute with
    | true => cases hempty
    | false => exact ⟨rfl, rfl⟩
  · obtain ⟨front, last, htext, -⟩ := toList_ofTrail absolute h hnil
    simp [htext] at hempty

/-- A name alone is the path to it from where relative paths start. -/
theorem join_of_empty {folder : Path} (hf : folder.text.toList = []) {name : String}
    (hn : IsStep name) : folder.join name = ⟨name⟩ ∧ (Path.mk name).steps = [.down name] ∧
      (Path.mk name).isAbsolute = false ∧ (Path.mk name).endsInSlash = false := by
  have hempty : folder.text = "" := String.toList_eq_nil_iff.1 hf
  refine ⟨by simp [join, hempty], ?_, hn.isAbsolute, ?_⟩
  · rw [steps, pieces_eq_singleton hn.2]
    simp [hn.1]
  · rw [endsInSlash, beq_eq_false_iff_ne]
    exact fun h => hn.2 (List.mem_of_getLast? h)

/-- **A way with one name more is the way to the folder and the name.** -/
theorem ofTrail_concat (absolute : Bool) {trail : List Step} (h : AreProper trail) {name : String}
    (hn : IsStep name) :
    ofTrail absolute (trail ++ [.down name]) = (ofTrail absolute trail).join name := by
  by_cases hnil : trail = []
  · subst hnil
    cases absolute with
    | true => simp [ofTrail, join, hn.isAbsolute, endsInSlash, Step.text]
    | false => simp [ofTrail, join, Step.text]
  · obtain ⟨front, last, htext, hlast⟩ := toList_ofTrail absolute h hnil
    have hslash : (ofTrail absolute trail).endsInSlash = false := by
      rw [endsInSlash, htext, List.getLast?_concat]
      simp [hlast]
    rw [join_eq (by simp [htext]) hn, hslash, if_neg Bool.false_ne_true, ofTrail, ofTrail,
      List.map_append, String.intercalate_append_of_ne_nil (by simpa using hnil) (by simp)]
    simp [Step.text, String.append_assoc]

/-- What may come before the names of a way. -/
def IsLead (absolute : Bool) (lead : List Step) : Prop :=
  lead = [] ∨ lead = [.stay] ∧ absolute = false

section Ways

variable {absolute : Bool} {lead : List Step} {names : List String}

/-- A way by names is written so that every step of it is read again. -/
theorem areProper_way (hlead : IsLead absolute lead) (hnames : ∀ name ∈ names, IsStep name) :
    AreProper (lead ++ names.map Step.down) := by
  intro step hstep
  rcases List.mem_append.1 hstep with hstep | hstep
  · rcases hlead with rfl | ⟨rfl, -⟩
    · cases hstep
    · rw [List.mem_singleton.1 hstep]
      decide
  · obtain ⟨name, hname, rfl⟩ := List.mem_map.1 hstep
    exact ⟨(hnames name hname).ne_nil, (hnames name hname).2⟩

/-- A way with one name more is the path to that name in the folder. -/
theorem way_concat (hlead : IsLead absolute lead) (hnames : ∀ name ∈ names, IsStep name)
    {name : String} (hn : IsStep name) :
    ofTrail absolute (lead ++ (names ++ [name]).map Step.down)
      = (ofTrail absolute (lead ++ names.map Step.down)).join name := by
  rw [List.map_append, ← List.append_assoc]
  exact ofTrail_concat absolute (areProper_way hlead hnames) hn

/-- **A way has the steps that it was made of.** -/
theorem steps_way (hlead : IsLead absolute lead) (hnames : ∀ name ∈ names, IsStep name) :
    (ofTrail absolute (lead ++ names.map Step.down)).steps = lead ++ names.map Step.down ∧
      (ofTrail absolute (lead ++ names.map Step.down)).isAbsolute = absolute := by
  induction names using List.reverseRecOn with
  | nil =>
    rcases hlead with rfl | ⟨rfl, rfl⟩
    · cases absolute <;> decide
    · decide
  | append_singleton names name ih =>
    obtain ⟨hsteps, habs⟩ := ih fun n hn => hnames n (List.mem_append_left _ hn)
    have hn : IsStep name := hnames name (by simp)
    rw [way_concat hlead (fun n hn => hnames n (List.mem_append_left _ hn)) hn]
    by_cases hempty : (ofTrail absolute (lead ++ names.map Step.down)).text.toList = []
    · obtain ⟨hnil, rfl⟩ := of_ofTrail_empty
        (areProper_way hlead fun n hn => hnames n (List.mem_append_left _ hn)) hempty
      obtain ⟨hjoin, hsteps', habs', -⟩ := join_of_empty hempty hn
      rw [hjoin, hsteps', habs', List.map_append, ← List.append_assoc, hnil]
      exact ⟨rfl, rfl⟩
    · obtain ⟨hsteps', habs', -⟩ := steps_join hempty hn
      rw [hsteps', habs', hsteps, habs]
      simp

/-- Does a list hold the folders on the way to a path, each by one name less?  The names are some
that a folder can hold. -/
inductive Climbs : Path → List Path → Prop
  | top {p : Path} (h : p.steps = [] ∨ p.steps = [.stay]) : Climbs p []
  | home {name : String} (hn : IsStep name) (hsize : name.utf8ByteSize ≤ Files.nameLimit) :
    Climbs ⟨name⟩ []
  | down {p : Path} {above : List Path} {name : String} (hne : p.text.toList ≠ [])
    (hn : IsStep name) (hsize : name.utf8ByteSize ≤ Files.nameLimit) (h : Climbs p above) :
    Climbs (p.join name) (p :: above)

/-- **A way climbs through the folders above it.** -/
theorem climbs_way (hlead : IsLead absolute lead)
    (hnames : ∀ name ∈ names, IsStep name ∧ name.utf8ByteSize ≤ Files.nameLimit) :
    Climbs (ofTrail absolute (lead ++ names.map Step.down))
      (foldersAbove absolute (lead ++ names.map Step.down)) := by
  induction names using List.reverseRecOn with
  | nil =>
    have hsteps : (ofTrail absolute (lead ++ List.map Step.down [])).steps = _ :=
      (steps_way hlead (by simp)).1
    rcases hlead with rfl | ⟨rfl, rfl⟩
    · exact .top (Or.inl hsteps)
    · exact .top (Or.inr hsteps)
  | append_singleton names name ih =>
    have hfront : ∀ n ∈ names, IsStep n ∧ n.utf8ByteSize ≤ Files.nameLimit :=
      fun n hn => hnames n (List.mem_append_left _ hn)
    obtain ⟨hn, hsize⟩ := hnames name (by simp)
    have hproper := areProper_way hlead fun n hn => (hfront n hn).1
    rw [way_concat hlead (fun n hn => (hfront n hn).1) hn, List.map_append, ← List.append_assoc]
    by_cases hempty : (ofTrail absolute (lead ++ names.map Step.down)).text.toList = []
    · obtain ⟨hnil, rfl⟩ := of_ofTrail_empty hproper hempty
      rw [(join_of_empty hempty hn).1, hnil]
      exact .home hn hsize
    · have hpart : absolute = true ∨ lead ++ names.map Step.down ≠ [] := by
        by_contra h
        rw [not_or, Bool.not_eq_true, not_not] at h
        rw [h.1, h.2] at hempty
        exact hempty rfl
      rw [List.map_singleton, foldersAbove_concat absolute _ _ hpart]
      exact .down hempty hn hsize (ih hfront)

end Ways

/-- Straight steps are names, but for those that stay. -/
theorem exists_names {steps : List Step} (h : ∀ step ∈ steps, step.IsStraight) :
    ∃ names : List String, steps.filter (· != .stay) = names.map Step.down ∧
      ∀ name ∈ names, .down name ∈ steps := by
  induction steps with
  | nil => exact ⟨[], rfl, by simp⟩
  | cons step steps ih =>
    obtain ⟨names, hnames, hmem⟩ := ih fun s hs => h s (List.mem_cons_of_mem _ hs)
    cases step with
    | stay =>
      exact ⟨names, hnames, fun name hname => List.mem_cons_of_mem _ (hmem name hname)⟩
    | up => exact (h .up List.mem_cons_self).elim
    | down name =>
      refine ⟨name :: names, by simp [hnames], fun n hn => ?_⟩
      rcases List.mem_cons.1 hn with rfl | hn
      · exact List.mem_cons_self
      · exact List.mem_cons_of_mem _ (hmem n hn)

/-- **A straight path is a way,** but for steps that stay. -/
theorem exists_trail_eq {p : Path} (h : p.IsStraight) :
    ∃ (lead : List Step) (names : List String), IsLead p.isAbsolute lead ∧
      (∀ name ∈ names, IsStep name ∧ name.utf8ByteSize ≤ Files.nameLimit) ∧
        p.trail = lead ++ names.map Step.down ∧
          p.steps.filter (· != .stay) = names.map Step.down := by
  obtain ⟨names, hnames, hmem⟩ := exists_names h
  have hlegal : ∀ name ∈ names, IsStep name ∧ name.utf8ByteSize ≤ Files.nameLimit :=
    fun name hname => ⟨isStep_of_mem_steps (hmem name hname), h _ (hmem name hname)⟩
  rw [trail, hnames]
  split
  · rename_i hhead
    refine ⟨[.stay], names, Or.inr ⟨rfl, ?_⟩, hlegal, rfl, rfl⟩
    rw [isAbsolute]
    cases hchars : p.text.toList with
    | nil => rfl
    | cons c cs =>
      rw [hchars, pieces] at hhead
      by_cases hc : c = '/'
      · simp [hc] at hhead
      · simp [hc]
  · exact ⟨[], names, Or.inl rfl, hlegal, rfl, rfl⟩

/-- The first piece of a path is that of the folder it begins with. -/
theorem head?_pieces_join {folder : Path} (hf : folder.text.toList ≠ []) {name : String}
    (hn : IsStep name) : (pieces (folder.join name).text.toList).head?
      = (pieces folder.text.toList).head? := by
  have hfirst : ∀ front back : List Char,
      (pieces (front ++ '/' :: back)).head? = (pieces front).head? := by
    intro front back
    obtain ⟨piece, more, hpieces⟩ := List.exists_cons_of_ne_nil (pieces_ne_nil front)
    rw [pieces_append_slash, hpieces]
    rfl
  rw [join_eq hf hn]
  split
  · rename_i hslash
    rw [endsInSlash, beq_iff_eq, List.getLast?_eq_some_iff] at hslash
    obtain ⟨base, hbase⟩ := hslash
    have hall : (folder.text ++ name).toList = base ++ '/' :: name.toList := by simp [hbase]
    rw [hall, hbase, hfirst, hfirst]
  · have hall : (folder.text ++ "/" ++ name).toList = folder.text.toList ++ '/' :: name.toList := by
      simp
    rw [hall, hfirst]

/-- Joining a name to the path of a folder adds the step down to that name. -/
theorem trail_join {folder : Path} (hf : folder.text.toList ≠ []) {name : String}
    (hn : IsStep name) : (folder.join name).trail = folder.trail ++ [.down name] := by
  rw [trail, trail, head?_pieces_join hf hn, (steps_join hf hn).1, List.filter_append]
  split <;> rfl

/-- A relative path that is not empty has a step. -/
theorem isAbsolute_or_trail_ne_nil {p : Path} (hp : p.text.toList ≠ []) :
    p.isAbsolute = true ∨ p.trail ≠ [] := by
  obtain ⟨c, cs, hcs⟩ := List.exists_cons_of_ne_nil hp
  by_cases hc : c = '/'
  · exact Or.inl (by simp [isAbsolute, hcs, hc])
  · right
    obtain ⟨first, more, hpieces⟩ : ∃ first more, pieces p.text.toList = (c :: first) :: more := by
      obtain ⟨piece, more, hpieces⟩ := List.exists_cons_of_ne_nil (pieces_ne_nil cs)
      exact ⟨piece, more, by simp [hcs, pieces, hc, hpieces, Text.extendFirst]⟩
    rw [trail]
    split
    · exact List.cons_ne_nil _ _
    · rename_i hhead
      obtain ⟨step, hstep, hstay⟩ : ∃ step, Step.ofPiece? (c :: first) = some step ∧
          step ≠ .stay := by
        unfold Step.ofPiece?
        split
        · rename_i h
          cases h
        · rename_i h
          rw [hpieces, h] at hhead
          exact absurd rfl hhead
        · exact ⟨.up, rfl, by decide⟩
        · exact ⟨_, rfl, by simp⟩
      have hmem : step ∈ p.steps.filter (· != .stay) := by
        rw [steps, hpieces, List.filterMap_cons_some hstep]
        exact List.mem_filter.2 ⟨List.mem_cons_self, by simpa using hstay⟩
      exact List.ne_nil_of_mem hmem

/-- **The folders on the way to a name in a folder** begin with the folder, written plainly. -/
theorem climbs_ancestors {folder : Path} (hf : folder.text.toList ≠ []) (h : folder.IsStraight)
    {name : String} (hn : IsStep name) : ∃ plain above,
      (folder.join name).ancestors = plain :: above ∧ Climbs plain above ∧
        plain.isAbsolute = folder.isAbsolute ∧
          plain.steps.filter (· != .stay) = folder.steps.filter (· != .stay) := by
  obtain ⟨lead, names, hlead, hnames, htrail, hsteps⟩ := exists_trail_eq h
  obtain ⟨hway, habs⟩ := steps_way hlead fun n hn => (hnames n hn).1
  refine ⟨ofTrail folder.isAbsolute folder.trail, foldersAbove folder.isAbsolute folder.trail,
    ?_, ?_, ?_, ?_⟩
  · rw [ancestors_eq, trail_join hf hn, (steps_join hf hn).2.1,
      foldersAbove_concat _ _ _ (isAbsolute_or_trail_ne_nil hf)]
  · rw [htrail]
    exact climbs_way hlead hnames
  · rw [htrail, habs]
  · rw [htrail, hway, hsteps, List.filter_append, ← hsteps, List.filter_filter]
    rcases hlead with rfl | ⟨rfl, -⟩ <;> simp

end Path
end JobSpool
