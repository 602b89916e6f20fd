/-
# An uploaded job stands alone

`submit_file`, and the calls that meet its job later: `SPEC_FULL.md`, 4.3 and 9.

An upload gets a name that no file of the folder has as its stem, and that claims no file of the
hit list (`allocated?_eq_some`).  From these two facts everything follows, for any folder in
which the name is met later (`StandsAlone`): each of the job's eight files is seen as the job's
own by listings and deletions alike (`jobFile?_eq`), and none of them is ever taken for the hit
list (`fileName_ne`).

So the state of the job is a function of which of its files are there (`stateOf`), and all that is
shown of it is known from them (`filter_jobs_congr`); what is shown of the hit list does not depend
on them (`hitList_congr`); and a deletion takes the job's files (`mem_deletedFiles_iff`).
-/

import JobSpool.Proofs.Calls
import JobSpool.Proofs.Classification
import JobSpool.Proofs.Deletions

namespace JobSpool

open Files (Tree Place File Object Medium)

namespace Spool

/-! ### The name that an upload gets -/

/-- The name of the input that `submitFile` creates for an upload, if it creates one, whatever
happens to it afterwards.  A medium may refuse to create it, but it does not change the name. -/
def allocated? (c : Config) (now : Instant) (p : Principal) (u : Upload) (t : Tree) :
    Option String :=
  match checkUpload u t with
  | .error _ => none
  | .ok base =>
    match c.store.ensureFolder p t with
    | (.error _, _) => none
    | (.ok folder, t) =>
      match Store.createNamed folder base c.hitList.reserved now t with
      | .error _ => none
      | .ok (input, _) => some input.shownName

/-- Is a stem a word, and none of its files of the hit list? -/
structure StandsAlone (c : Config) (stem : String) : Prop where
  word : IsWord stem
  unreserved : Store.claimsReserved c.hitList.reserved stem = false

section Allocation

variable {c : Config} {now : Instant} {p : Principal} {u : Upload} {t : Tree} {stem : String}
  {medium : Medium}

/-- **The name that an upload gets** stands alone, and no file had it as its stem. -/
theorem allocated?_eq_some (h : allocated? c now p u t = some stem) :
    StandsAlone c stem ∧ ∀ place mode, t.Leads (c.store.folder p) place mode →
      ∀ name f, t.shownFile? place name = some f → (FileName.split name).1 ≠ stem := by
  unfold allocated? at h
  split at h
  · cases h
  · rename_i base hcheck
    split at h
    · cases h
    · rename_i folder t₁ hensure
      obtain rfl := Store.ensureFolder_eq_ok hensure
      split at h
      · cases h
      · rename_i input t₂ hmade
        obtain ⟨name, hword, ⟨entries, hentries, hfree, hclaims⟩, rfl, -⟩ :=
          Store.exists_of_createNamed (Submission.checkUpload_eq_ok hcheck).1 hmade
        rw [shownName_join (text_folder_ne_nil c p) hword.isStep] at h
        obtain rfl := Option.some.inj h
        refine ⟨⟨hword, hclaims⟩, fun place mode hl other f hf hstem => ?_⟩
        -- The folder was there, so nothing was changed before the name was chosen.
        have hsame : t₁ = t := by
          rw [Store.ensureFolder, hl.isFolder] at hensure
          exact (congrArg Prod.snd hensure).symm
        subst hsame
        exact hfree _ ((Store.mem_list_iff hl hentries).2 ⟨other, f, hf, rfl⟩) hstem

/-- An input that was stored was created in the folder that was made sure of. -/
theorem exists_create_of_storeInput {folder input : Path} {t' : Tree}
    {create : Path → Tree → Except StorageError (Path × Tree)}
    {write : Path → Tree → Except StorageError Tree}
    (h : storeInput c p create write t medium = (.ok (folder, input), t')) :
    ∃ t₁ t₂, c.store.ensureFolder p t = (.ok folder, t₁) ∧ create folder t₁ = .ok (input, t₂) := by
  unfold storeInput at h
  split at h
  · cases h
  · rename_i folder' t₁ hensure
    split at h
    · cases h
    · rename_i input' t₂ hmade
      split at h
      · cases h
      · split at h
        · cases h
        · cases h
          exact ⟨t₁, t₂, Store.ensureFolder_intact hensure, hmade⟩

/-- The name that an answer gives for an input: that of a job, or of an input that is stored but
was not scheduled. -/
def nameIn? : Except Error Job → Option String
  | .ok job => some job.id
  | .error (.notScheduled id _) => some id
  | .error _ => none

/-- **An upload is answered with the name that it got.** -/
theorem allocated?_of_submitFile {σ : Type} [Scheduler σ] {s : Spool σ}
    (h : nameIn? (submitFile c now p u s medium).1 = some stem) :
    allocated? c now p u s.files = some stem := by
  unfold submitFile enqueue at h
  split at h
  · cases h
  · rename_i base hcheck
    split at h
    · cases h
    · rename_i folder input t' hstore
      obtain ⟨t₁, t₂, hensure, hmade⟩ := exists_create_of_storeInput hstore
      have hname : allocated? c now p u s.files = some input.shownName := by
        simp only [allocated?, hcheck, hensure, hmade]
      unfold schedule at h
      dsimp only at h
      split at h
      · exact hname.trans h
      · exact hname.trans h

end Allocation

/-! ### What is seen of the job -/

/-- Is a file of a stem there? -/
def isThere (t : Tree) (place : Place) (stem : String) (a : Artifact) : Bool :=
  (t.shownFile? place (a.fileName stem)).isSome

/-- The state that a job has when some of its files are there. -/
def stateOf (there : Artifact → Bool) : Option JobState :=
  if there .progress then some .running
  else if there .csv && there .log && there .jobCopy then some .completed
  else if there .csv || there .log || there .jobCopy then some .running
  else if there .input then some .queued
  else none

/-- The state of a job, by which artifacts it has. -/
theorem state?_eq_stateOf (s : JobFiles) : s.state? = stateOf s.has := by
  rw [JobFiles.state?, stateOf, JobFiles.hasAllResults_eq, JobFiles.hasAnyResult_eq]

/-- The state does not ask for more than the eight files that a job may own. -/
theorem stateOf_congr {there there' : Artifact → Bool}
    (h : ∀ a ∈ Artifact.owned, there' a = there a) : stateOf there' = stateOf there := by
  rw [stateOf, stateOf, h .progress (by decide), h .csv (by decide), h .log (by decide),
    h .jobCopy (by decide), h .input (by decide)]

/-- Are the job's files the only ones of its stem, those of the hit list aside? -/
def HasOnlyArtifacts (c : Config) (t : Tree) (place : Place) (stem : String) : Prop :=
  ∀ name f, t.shownFile? place name = some f → c.hitList.owns name = false →
    (FileName.split name).1 = stem → ∃ a ∈ Artifact.owned, name = a.fileName stem

namespace StandsAlone

variable {c : Config} {p : Principal} {t t' : Tree} {folder : Path} {place : Place} {mode : Nat}
  {entries entries' : List Entry} {stem : String} (h : StandsAlone c stem)

include h

/-- None of the job's files is of the hit list. -/
theorem owns_eq_false {a : Artifact} (ha : a ∈ Artifact.owned) :
    c.hitList.owns (a.fileName stem) = false :=
  HitListConfig.owns_eq_false h.unreserved ha

/-- None of the job's files has one of the hit list's names, -/
theorem fileName_ne {a : Artifact} (ha : a ∈ Artifact.owned) :
    a.fileName stem ≠ c.hitList.fileName ∧ a.fileName stem ≠ c.hitList.derivedCsv := by
  have howns := h.owns_eq_false ha
  rwa [HitListConfig.owns, Bool.or_eq_false_iff, beq_eq_false_iff_ne, beq_eq_false_iff_ne] at howns

/-- and neither has the job. -/
theorem ne_fileName : stem ≠ c.hitList.fileName :=
  (h.fileName_ne (a := .input) (by decide)).1

/-- **The job's files are seen as the job's own,** -/
theorem jobFile?_eq {a : Artifact} (ha : a ∈ Artifact.owned) :
    jobFile? c t place stem a = t.shownFile? place (a.fileName stem) := by
  rw [jobFile?, h.owns_eq_false ha, if_neg Bool.false_ne_true]

/-- so it is enough to know which files have their names. -/
theorem jobFile?_congr (hsame : ∀ a ∈ Artifact.owned,
      t'.shownFile? place (a.fileName stem) = t.shownFile? place (a.fileName stem))
    (a : Artifact) : jobFile? c t' place stem a = jobFile? c t place stem a := by
  have howned : ∀ a ∈ Artifact.owned,
      jobFile? c t' place stem a = jobFile? c t place stem a := fun a ha => by
    rw [h.jobFile?_eq ha, h.jobFile?_eq ha, hsame a ha]
  cases a with
  -- A file that is not recognized would be called like the input.
  | unrecognized => exact howned .input (by decide)
  | _ => exact howned _ (by decide)

section Listed

variable (hl : t.Leads folder place mode) (hentries : Store.list folder t = .ok entries)

include hl hentries

/-- The group of the job has an artifact exactly if its file is there. -/
theorem has_group_eq {a : Artifact} (ha : a ∈ Artifact.owned) :
    (JobFiles.group (jobEntries c entries) stem).has a = isThere t place stem a := by
  have hkind := Artifact.mem_owned_iff.1 ha
  rw [Bool.eq_iff_iff, has_group_iff hl hentries hkind (h.word.split_fileName hkind),
    h.jobFile?_eq ha, isThere, Option.isSome_iff_exists]

/-- **The state of the job follows from its own files.** -/
theorem state?_group_eq :
    (JobFiles.group (jobEntries c entries) stem).state? = stateOf (isThere t place stem) :=
  (state?_eq_stateOf _).trans (stateOf_congr fun _ => h.has_group_eq hl hentries)

/-- A stem is that of a job if its files have a state. -/
theorem isJobStem_iff : IsJobStem c t place stem ↔
    (stateOf (isThere t place stem)).isSome = true := by
  rw [← state?_group_isSome_iff hl hentries, h.state?_group_eq hl hentries]

end Listed

section Shown

variable (hl : t.Leads (c.store.folder p) place mode)
  (hentries : Store.list (c.store.folder p) t = .ok entries)

include hl hentries

/-- The job is listed in the section of its state. -/
theorem exists_mem_jobsIn_iff {state : JobState} :
    (∃ j ∈ (listingOf c p t entries).jobsIn state, j.stem = stem) ↔
      stateOf (isThere t place stem) = some state := by
  rw [Spool.exists_mem_jobsIn_iff, h.state?_group_eq hl hentries]

/-- It is shown as its files call for, or not at all. -/
theorem filter_jobs_eq : (listingOf c p t entries).jobs.filter (·.stem == stem)
    = if (stateOf (isThere t place stem)).isSome then [shownJob c p t place stem] else [] := by
  have hjob := h.isJobStem_iff hl hentries
  split
  · rename_i hsome
    exact filter_jobs_eq_singleton
      (JobListing.mem_jobs_iff.2 ⟨_, shownJob_mem_jobsIn hl hentries (hjob.2 hsome)⟩)
  · rename_i hnone
    exact filter_jobs_eq_nil hl hentries (mt hjob.1 hnone)

/-- **All that is shown of the job follows from its own files,** whatever else is in the folder. -/
theorem filter_jobs_congr (hl' : t'.Leads (c.store.folder p) place mode)
    (hentries' : Store.list (c.store.folder p) t' = .ok entries')
    (hsame : ∀ a ∈ Artifact.owned,
      t'.shownFile? place (a.fileName stem) = t.shownFile? place (a.fileName stem)) :
    (listingOf c p t' entries').jobs.filter (·.stem == stem)
      = (listingOf c p t entries).jobs.filter (·.stem == stem) := by
  have hjob : shownJob c p t' place stem = shownJob c p t place stem :=
    shownJob_congr (hl'.isSearchable.trans hl.isSearchable.symm) (h.jobFile?_congr hsame)
  have hstate : stateOf (isThere t' place stem) = stateOf (isThere t place stem) :=
    stateOf_congr fun a ha => by rw [isThere, hsame a ha, isThere]
  rw [h.filter_jobs_eq hl hentries, h.filter_jobs_eq hl' hentries', hjob, hstate]

/-- **The hit list does not depend on the job's files.** -/
theorem hitList_congr (hl' : t'.Leads (c.store.folder p) place mode)
    (hentries' : Store.list (c.store.folder p) t' = .ok entries')
    (hsame : ∀ name, (∀ a ∈ Artifact.owned, name ≠ a.fileName stem) →
      t'.shownFile? place name = t.shownFile? place name) :
    (listingOf c p t' entries').hitList = (listingOf c p t entries).hitList := by
  have hnames : ∀ name, c.hitList.owns name = true →
      ((hitListEntries c entries').any fun e => e.fileName == name)
        = (hitListEntries c entries).any fun e => e.fileName == name := by
    intro name howns
    rw [any_hitListEntries hl hentries howns, any_hitListEntries hl' hentries' howns,
      hsame name fun a ha heq => ?_]
    rw [heq, h.owns_eq_false ha] at howns
    cases howns
  show hitListSummary? c p _ = hitListSummary? c p _
  simp only [hitListSummary?, hnames c.hitList.fileName (by simp [HitListConfig.owns]),
    hnames c.hitList.derivedCsv (by simp [HitListConfig.owns])]

end Shown

/-! ### What a deletion takes -/

section Deleted

variable (hl : t.Leads (c.store.folder p) place mode) (honly : HasOnlyArtifacts c t place stem)

include hl honly

/-- **A deletion of the job takes its files,** those that are there. -/
theorem mem_deletedFiles_iff (hentries : Store.list (c.store.folder p) t = .ok entries)
    {name : String} : name ∈ (deletedFiles c stem entries).map (·.fileName) ↔
      ∃ a ∈ Artifact.owned, isThere t place stem a = true ∧ name = a.fileName stem := by
  rw [List.mem_map]
  constructor
  · rintro ⟨e, he, rfl⟩
    obtain ⟨hlisted, hdeleted⟩ := List.mem_filter.1 he
    obtain ⟨name, f, hf, rfl⟩ := (Store.mem_list_iff hl hentries).1 hlisted
    rw [isDeletedWith_ofName, IsDeletedWith, if_neg h.ne_fileName] at hdeleted
    obtain ⟨a, ha, rfl⟩ := honly name f hf hdeleted.2 hdeleted.1
    exact ⟨a, ha, by rw [isThere, hf]; rfl, Entry.fileName_ofName _ _ _⟩
  · rintro ⟨a, ha, hthere, rfl⟩
    obtain ⟨f, hf⟩ := Option.isSome_iff_exists.1 hthere
    refine ⟨_, List.mem_filter.2 ⟨(Store.mem_list_iff hl hentries).2 ⟨_, f, hf, rfl⟩, ?_⟩,
      Entry.fileName_ofName _ _ _⟩
    rw [isDeletedWith_ofName, IsDeletedWith, if_neg h.ne_fileName,
      h.word.split_fileName (Artifact.mem_owned_iff.1 ha)]
    exact ⟨rfl, h.owns_eq_false ha⟩

/-- **It takes them all, if each could be removed alone,** and never anything else. -/
theorem exists_deletion (hread : (Object.folder mode).mayRead = true) :
    ∃ report t'', deleteJob c p stem t = .ok (report, t'') ∧
      (∀ name ∈ report.removed,
        ∃ a ∈ Artifact.owned, isThere t place stem a = true ∧ name = a.fileName stem) ∧
      (∀ other, (∀ a ∈ Artifact.owned, isThere t place stem a = true →
        other ≠ place ++ [.text (a.fileName stem)]) → t''.at? other = t.at? other) ∧
      ((∀ a ∈ Artifact.owned, isThere t place stem a = true →
          ∃ t₁, t.remove ((c.store.folder p).join (a.fileName stem)) = .ok t₁) →
        report.failures = [] ∧ report.removed.Nodup ∧
          ∀ a ∈ Artifact.owned, isThere t place stem a = true →
            a.fileName stem ∈ report.removed ∧
              t''.at? (place ++ [.text (a.fileName stem)]) = none) := by
  obtain ⟨entries, hentries⟩ := Store.exists_list_eq_ok hl hread
  have hmem : ∀ name, name ∈ (deletedFiles c stem entries).map (·.fileName) ↔
      ∃ a ∈ Artifact.owned, isThere t place stem a = true ∧ name = a.fileName stem :=
    fun _ => h.mem_deletedFiles_iff hl honly hentries
  obtain ⟨report, t'', hdelete, hremoved, hothers, -⟩ := exists_report hl hentries h.word.isPlain
  refine ⟨report, t'', hdelete, fun name hname => (hmem name).1 (hremoved name hname),
    fun other hother => hothers other fun hdeleted => ?_, fun hremove => ?_⟩
  · obtain ⟨name, hname, rfl⟩ := Store.mem_map_placeIn_iff.1 hdeleted
    obtain ⟨a, ha, hthere, rfl⟩ := (hmem name).1 hname
    exact hother a ha hthere rfl
  -- A run that may remove all its files removes them.
  · have hall := (listed_deletedFiles hl hentries stem).removable fun name hname => by
      obtain ⟨a, ha, hthere, rfl⟩ := (hmem name).1 hname
      exact hremove a ha hthere
    have hrun := deleteJob_eq hl hentries h.word.isPlain hall
    obtain ⟨rfl, rfl⟩ := Prod.ext_iff.1 (Except.ok.inj (hdelete.symm.trans hrun))
    refine ⟨rfl, hall.distinct, fun a ha hthere => ?_⟩
    have hname := (hmem _).2 ⟨a, ha, hthere, rfl⟩
    refine ⟨hname, ?_⟩
    rw [Tree.at?_without (by simp), if_pos (Store.mem_map_placeIn_iff.2 ⟨_, hname, rfl⟩)]

end Deleted

end StandsAlone

/-- **An uploaded job never mixes with older files or the hit list.**  It is enough that a name was
chosen for its input, or that the submission tells one, on whatever medium.  A submission that
tells a name tells the one that was chosen.  When that was done no file had it as its stem, and
none of the job's eight files is called like one of the hit list.  So later, whatever else is in
the folder, the state of the job follows from which of the eight are there, all that is shown of it
follows from them, and what is shown of the hit list does not depend on them.  When the stem has no
files but these, a deletion of it takes those of the eight that are there, all of them if each could
be removed alone, and nothing else changes anywhere. -/
theorem upload_stands_alone {σ : Type} [Scheduler σ] {c : Config} {now : Instant} {p : Principal}
    {u : Upload} {s : Spool σ} {medium : Medium} {stem : String}
    (h : allocated? c now p u s.files = some stem ∨
      nameIn? (submitFile c now p u s medium).1 = some stem) :
    (∀ name, nameIn? (submitFile c now p u s medium).1 = some name → name = stem) ∧
    (∀ place mode, s.files.Leads (c.store.folder p) place mode →
      ∀ name f, s.files.shownFile? place name = some f → (FileName.split name).1 ≠ stem) ∧
    (∀ a ∈ Artifact.owned,
      a.fileName stem ≠ c.hitList.fileName ∧ a.fileName stem ≠ c.hitList.derivedCsv) ∧
    ∀ t' place mode, t'.Leads (c.store.folder p) place mode →
      (Object.folder mode).mayRead = true →
      (∃ l, listJobs c p t' = .ok l ∧
        (∀ state, (∃ j ∈ l.jobsIn state, j.stem = stem) ↔
          stateOf (isThere t' place stem) = some state) ∧
        ∀ t'' l'', t''.Leads (c.store.folder p) place mode → listJobs c p t'' = .ok l'' →
          ((∀ a ∈ Artifact.owned,
              t''.shownFile? place (a.fileName stem) = t'.shownFile? place (a.fileName stem)) →
            l''.jobs.filter (·.stem == stem) = l.jobs.filter (·.stem == stem)) ∧
          ((∀ name, (∀ a ∈ Artifact.owned, name ≠ a.fileName stem) →
              t''.shownFile? place name = t'.shownFile? place name) →
            l''.hitList = l.hitList)) ∧
      (HasOnlyArtifacts c t' place stem →
        ∃ report t'', deleteJob c p stem t' = .ok (report, t'') ∧
          (∀ name ∈ report.removed,
            ∃ a ∈ Artifact.owned, isThere t' place stem a = true ∧ name = a.fileName stem) ∧
          (∀ other, (∀ a ∈ Artifact.owned, isThere t' place stem a = true →
            other ≠ place ++ [.text (a.fileName stem)]) → t''.at? other = t'.at? other) ∧
          ((∀ a ∈ Artifact.owned, isThere t' place stem a = true →
              ∃ t₁, t'.remove ((c.store.folder p).join (a.fileName stem)) = .ok t₁) →
            report.failures = [] ∧ report.removed.Nodup ∧
              ∀ a ∈ Artifact.owned, isThere t' place stem a = true →
                a.fileName stem ∈ report.removed ∧
                  t''.at? (place ++ [.text (a.fileName stem)]) = none)) := by
  have hchosen : allocated? c now p u s.files = some stem := h.elim id allocated?_of_submitFile
  obtain ⟨halone, hfree⟩ := allocated?_eq_some hchosen
  refine ⟨fun name hname => Option.some.inj ((allocated?_of_submitFile hname).symm.trans hchosen),
    hfree,
    fun a => halone.fileName_ne, fun t' place mode hl hread => ⟨?_, fun honly => ?_⟩⟩
  -- What is listed.
  · obtain ⟨entries, hentries⟩ := Store.exists_list_eq_ok hl hread
    refine ⟨_, listJobs_eq hl hentries, fun state => halone.exists_mem_jobsIn_iff hl hentries,
      fun t'' l'' hl'' hlist'' => ?_⟩
    obtain ⟨entries'', hentries''⟩ := Store.exists_list_eq_ok hl'' hread
    rw [listJobs_eq hl'' hentries''] at hlist''
    obtain rfl := Except.ok.inj hlist''
    exact ⟨halone.filter_jobs_congr hl hentries hl'' hentries'',
      halone.hitList_congr hl hentries hl'' hentries''⟩
  -- What is deleted.
  · exact halone.exists_deletion hl honly hread

/-! ### An upload that is called like the hit list -/

/-- The owner of the folder. -/
def uploader : Principal :=
  ⟨"z", by decide⟩

/-- The folder of the uploader with some files, and a file that is to be uploaded. -/
def folderWith (names : List String) : Tree where
  entries := [([.text "x"], .file ⟨"y".toByteArray, Files.fileMode, 0⟩),
      ([.text "jobs"], .folder Files.folderMode),
      ([.text "jobs", .text "z"], .folder Files.folderMode)]
    ++ names.map fun name =>
      ([.text "jobs", .text "z", .text name], .file ⟨ByteArray.empty, Files.fileMode, 0⟩)
  home := []

/-- A spool in which the folder is empty. -/
def emptyFolder : Spool MemoryScheduler where
  files := folderWith []
  scheduler := {}

/-- The upload of the file under the name of the hit list. -/
def likeHitList : Upload :=
  ⟨⟨"/x"⟩, "spamhaus.txt"⟩

/-- The upload's job runs later on, beside a hit list. -/
def besideHitList : Tree :=
  folderWith ["spamhaus_2", "spamhaus_2.count", "spamhaus.txt", "spamhaus.csv"]

/-- The folder of the example is there. -/
theorem leads_besideHitList :
    besideHitList.Leads ⟨"/jobs/z"⟩ [.text "jobs", .text "z"] Files.folderMode :=
  ⟨by decide, rfl⟩

/-- It has files of the job and of the hit list, and no others with the stem. -/
theorem hasOnlyArtifacts_besideHitList : HasOnlyArtifacts (.withJobRoot ⟨"/jobs"⟩) besideHitList
    [.text "jobs", .text "z"] "spamhaus_2" := by
  intro name f hf
  rw [Tree.shownFile?_eq_some_iff, Tree.fileAt?_eq_some_iff,
    ← leads_besideHitList.sound.mem_children_iff] at hf
  have hchildren : (besideHitList.children [.text "jobs", .text "z"]).map (·.1)
      = ["spamhaus_2", "spamhaus_2.count", "spamhaus.txt", "spamhaus.csv"].map .text := by decide
  have hchild := List.mem_map_of_mem (f := (·.1)) hf.2
  rw [hchildren, List.mem_map_of_injective fun _ _ => Files.Name.text.inj] at hchild
  clear hf
  revert name
  decide

/-- An upload called like the hit list gets another name; its job is listed, and can be
deleted. -/
theorem upload_stands_alone_likeHitList :
    nameIn? (submitFile (.withJobRoot ⟨"/jobs"⟩) 0 uploader likeHitList emptyFolder).1
        = some "spamhaus_2" ∧
      (∃ l, listJobs (.withJobRoot ⟨"/jobs"⟩) uploader besideHitList = .ok l ∧
        ∃ j ∈ l.running, j.stem = "spamhaus_2") ∧
      ∃ report t', deleteJob (.withJobRoot ⟨"/jobs"⟩) uploader "spamhaus_2" besideHitList
          = .ok (report, t') ∧ report.failures = [] ∧ "spamhaus_2.count" ∈ report.removed := by
  have hname : nameIn? (submitFile (.withJobRoot ⟨"/jobs"⟩) 0 uploader likeHitList emptyFolder).1
      = some "spamhaus_2" := by decide +kernel
  obtain ⟨-, -, -, hlater⟩ := upload_stands_alone (Or.inr hname)
  obtain ⟨⟨l, hlist, hstate, -⟩, hdeletion⟩ :=
    hlater besideHitList _ _ leads_besideHitList (by decide)
  obtain ⟨report, t', hdelete, -, -, hall⟩ := hdeletion hasOnlyArtifacts_besideHitList
  have hremove : ∀ a ∈ Artifact.owned,
      isThere besideHitList [.text "jobs", .text "z"] "spamhaus_2" a = true →
        ∃ t', besideHitList.remove (Path.join ⟨"/jobs/z"⟩ (a.fileName "spamhaus_2")) = .ok t' := by
    intro a ha hthere
    have hfault : ∀ a ∈ Artifact.owned, Store.removalFault? Files.folderMode
        (Path.join ⟨"/jobs/z"⟩ (a.fileName "spamhaus_2")) = none := by decide
    obtain ⟨f, hf⟩ := Option.isSome_iff_exists.1 hthere
    rw [Store.remove_join leads_besideHitList (Tree.shownFile?_eq_some_iff.1 hf).2, hfault a ha]
    exact ⟨_, rfl⟩
  obtain ⟨hclean, -, hgone⟩ := hall hremove
  exact ⟨hname, ⟨l, hlist, (hstate .running).2 (by decide)⟩, report, t', hdelete, hclean,
    (hgone .progress (by decide) (by decide)).1⟩

end Spool
end JobSpool
