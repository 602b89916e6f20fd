/-
# Documents and the configurations they stand for

`load_config_from_str`: `SPEC_FULL.md`, E4.

A configuration is read from a document exactly if it is valid.  The schema and the rules for
the values share the conditions among them: only the schema bounds the two numbers of a ping,
only the rules look at the names of the hit list, and a condition on a field is none on
its default, which no layer rejects (`isValid_of_ofDocument`).

Conversely a valid configuration is read from the document that it is written as, and from every
other one that says the same: with its members in another order, without fields that have their
default, and without whole sections that do (`takes_of_restates`).
-/

import JobSpool.Proofs.ConfigReading
import JobSpool.Proofs.Restatements

namespace JobSpool

open Json (Value)
open Json.Value (member? Restates IsLeaf)

/-! ### The form in which a configuration is written -/

/-- The section on the worker, -/
def WorkerConfig.toJson (w : WorkerConfig) : Value :=
  .object [("executable", .text w.executable), ("args", .texts w.args)]

/-- the one on pings, -/
def PingConfig.toJson (p : PingConfig) : Value :=
  .object [("retry_count", .nat p.retryCount.toNat),
    ("pause_millis", .number (.natural p.pauseMillis))]

/-- the one on the execution facility, -/
def SchedulerConfig.toJson (s : SchedulerConfig) : Value :=
  .object [("at_command", .text s.atCommand), ("atq_command", .text s.atqCommand),
    ("atrm_command", .text s.atrmCommand), ("queue", .orNull (s.queue.map .text)),
    ("timeout_secs", .number (.natural s.timeoutSecs))]

/-- the one on the hit list, -/
def HitListConfig.toJson (h : HitListConfig) : Value :=
  .object [("file_name", .text h.fileName), ("derived_csv", .text h.derivedCsv)]

/-- and the one on sweeps. -/
def SweepConfig.toJson (s : SweepConfig) : Value :=
  .object [("stale_after_secs", .number (.natural s.staleAfterSecs))]

namespace Config

/-- A configuration as it is written, section by section. -/
theorem toJson_eq (c : Config) : c.toJson = .object [
    ("version", .text c.version), ("job_root_directory", .text c.jobRoot.text),
    ("worker", c.worker.toJson), ("ping", c.ping.toJson), ("scheduler", c.scheduler.toJson),
    ("hit_list", c.hitList.toJson), ("reconcile", c.sweep.toJson)] := rfl

/-- What a document says without saying it: all sections, with the defaults of their fields. -/
def defaults : Value :=
  .object [("worker", WorkerConfig.toJson {}), ("ping", PingConfig.toJson {}),
    ("scheduler", SchedulerConfig.toJson {}), ("hit_list", HitListConfig.toJson {}),
    ("reconcile", SweepConfig.toJson {})]

/-! ### Valid configurations -/

/-- What a configuration must satisfy. -/
structure IsValid (c : Config) : Prop where
  version : c.version = "1.0"
  jobRoot : c.jobRoot.text ≠ ""
  executable : ∃ x ∈ c.worker.executable.toList, Text.isBlank x = false
  retryCount : c.ping.retryCount ≤ 99
  pauseMillis : c.ping.pauseMillis ≤ 9999
  atCommand : c.scheduler.atCommand ≠ ""
  atqCommand : c.scheduler.atqCommand ≠ ""
  atrmCommand : c.scheduler.atrmCommand ≠ ""
  queue : ∀ q ∈ c.scheduler.queue, ∃ letter : Char, letter.isAlpha = true ∧ q.toList = [letter]
  timeoutSecs : 1 ≤ c.scheduler.timeoutSecs
  staleAfterSecs : 1 ≤ c.sweep.staleAfterSecs
  fileName : FileName.isPlain c.hitList.fileName = true
  derivedCsv : FileName.isPlain c.hitList.derivedCsv = true
  namesDiffer : c.hitList.fileName ≠ c.hitList.derivedCsv

/-- All rules for the values, spelled out. None of them looks at the ping or the queue. -/
theorem forall_mem_rules_iff {c : Config} : (∀ rule ∈ c.rules, rule.1 = true) ↔
    c.version = "1.0" ∧ c.jobRoot.text ≠ "" ∧
      (∃ x ∈ c.worker.executable.toList, Text.isBlank x = false) ∧
      c.scheduler.timeoutSecs ≠ 0 ∧ c.sweep.staleAfterSecs ≠ 0 ∧
      FileName.isPlain c.hitList.fileName = true ∧ FileName.isPlain c.hitList.derivedCsv = true ∧
      c.hitList.fileName ≠ c.hitList.derivedCsv := by
  simp [rules, currentVersion, Text.isBlankText]

/-- What the schema accepts as a queue: one ASCII letter. -/
theorem isLetter_iff {s : String} :
    Shape.isLetter s = true ↔ ∃ letter : Char, letter.isAlpha = true ∧ s.toList = [letter] := by
  unfold Shape.isLetter
  split
  · rename_i letter hs
    simp [hs]
  · rename_i hs
    constructor
    · exact nofun
    · rintro ⟨letter, -, hletter⟩
      exact absurd hletter (hs letter)

/-- A text that the schema asks to have a character is one that is not empty. -/
theorem one_le_length_iff {s : String} : 1 ≤ s.length ↔ s ≠ "" := by
  rw [Nat.one_le_iff_ne_zero, ne_eq, ne_eq, String.length_eq_zero_iff]

/-- A count that the schema asks to be one at least is one that is not zero. -/
theorem one_le_iff_ne_zero {n : UInt64} : 1 ≤ n ↔ n ≠ 0 := by
  rw [UInt64.le_iff_toNat_le, ne_eq, ← UInt64.toNat_inj]
  simp
  omega

/-- **What a section on pings is read as** has the bounds of the schema. -/
theorem ping_bounds {v : Value} {p : PingConfig} (h : Takes .ping readPing v p) :
    p.retryCount ≤ 99 ∧ p.pauseMillis ≤ 9999 := by
  obtain ⟨-, hpause, hretry⟩ := takes_ping_iff.1 h
  constructor
  · refine hretry.elim (P := (· ≤ 99)) (by decide) fun w hw => ?_
    exact UInt32.le_iff_toNat_le.2 ((takes_uint32_iff.1 hw).2.2 99 rfl)
  · refine hpause.elim (P := (· ≤ 9999)) (by decide) fun w hw => ?_
    exact UInt64.le_iff_toNat_le.2 ((takes_uint64_iff.1 hw).2.2 9999 rfl)

/-- A field that has a default of its own is never empty. -/
theorem text_ne_empty {v : Value} {default name s : String} (hdefault : default ≠ "")
    (h : TakesMember (.text 1) readText default name v s) : s ≠ "" :=
  h.elim (P := (· ≠ "")) hdefault fun _ hw => one_le_length_iff.1 (takes_text_iff.1 hw).2

/-- **What a section on the execution facility is read as** has commands and a queue. -/
theorem scheduler_bounds {v : Value} {s : SchedulerConfig}
    (h : Takes .scheduler readScheduler v s) :
    s.atCommand ≠ "" ∧ s.atqCommand ≠ "" ∧ s.atrmCommand ≠ "" ∧
      ∀ q ∈ s.queue, Shape.isLetter q = true := by
  obtain ⟨-, hat, hatq, hatrm, hqueue, -⟩ := takes_scheduler_iff.1 h
  refine ⟨text_ne_empty (by decide) hat, text_ne_empty (by decide) hatq,
    text_ne_empty (by decide) hatrm, ?_⟩
  exact hqueue.elim (P := fun queue => ∀ q ∈ queue, Shape.isLetter q = true) nofun
    fun _ hw => (takes_letter_iff.1 hw).2

/-- **Whatever a document is accepted as is valid.** -/
theorem isValid_of_ofDocument {v : Value} {c : Config} (h : ofDocument v = .ok c) : c.IsValid := by
  obtain ⟨htakes, hrules⟩ := ofDocument_eq_ok_iff.1 h
  obtain ⟨hversion, hroot, hexecutable, htimeout, hstale, hname, hcsv, hdiffer⟩ :=
    forall_mem_rules_iff.1 hrules
  obtain ⟨-, -, -, hping, -, hscheduler, -, -⟩ := takes_config_iff.1 htakes
  obtain ⟨hretry, hpause⟩ := hping.elim (P := fun p => p.retryCount ≤ 99 ∧ p.pauseMillis ≤ 9999)
    (by decide) fun _ => ping_bounds
  obtain ⟨hat, hatq, hatrm, hqueue⟩ := hscheduler.elim (P := fun s =>
    s.atCommand ≠ "" ∧ s.atqCommand ≠ "" ∧ s.atrmCommand ≠ "" ∧
      ∀ q ∈ s.queue, Shape.isLetter q = true) (by simp) fun _ => scheduler_bounds
  exact {
    version := hversion
    jobRoot := hroot
    executable := hexecutable
    retryCount := hretry
    pauseMillis := hpause
    atCommand := hat
    atqCommand := hatq
    atrmCommand := hatrm
    queue := fun q hq => isLetter_iff.1 (hqueue q hq)
    timeoutSecs := one_le_iff_ne_zero.2 htimeout
    staleAfterSecs := one_le_iff_ne_zero.2 hstale
    fileName := hname
    derivedCsv := hcsv
    namesDiffer := hdiffer }

/-! ### Members of restatements -/

section Members

variable {default : Option Value} {full : List (String × Value)} {v : Value}

/-- A restatement has no members that the original lacks. -/
theorem hasOnly_of_restates (h : Restates default (.object full) v) :
    HasOnly (full.map (·.1)) v := by
  cases h with
  | leaf hleaf => cases hleaf
  | object distinct known faithful complete => exact ⟨_, rfl, known⟩

/-- Members of known names only are so for a longer list of names. -/
theorem HasOnly.mono {names names' : List String} (h : HasOnly names v) (hsubset : names ⊆ names') :
    HasOnly names' v := by
  obtain ⟨given, rfl, honly⟩ := h
  exact ⟨given, rfl, fun m hm => hsubset (honly m hm)⟩

/-- **A member of a restatement** restates that of the original, or it is missing and has its
default there. -/
theorem restates_member? (h : Restates default (.object full) v) {name : String} {w : Value}
    (hw : (name, w) ∈ full) :
    (∃ w', v.member? name = some w' ∧ Restates (default.bind (member? name)) w w') ∨
      v.member? name = none ∧ default.bind (member? name) = some w := by
  cases h with
  | leaf hleaf => cases hleaf
  | @object _ _ given distinct known faithful complete =>
    cases hfind : given.find? (·.1 == name) with
    | some m =>
      obtain rfl : m.1 = name := by simpa using List.find?_some hfind
      exact Or.inl ⟨m.2, by rw [member?, hfind]; rfl,
        faithful m (List.mem_of_find?_eq_some hfind) w hw⟩
    | none =>
      refine Or.inr ⟨by rw [member?, hfind]; rfl, (complete _ hw).resolve_left fun hname => ?_⟩
      obtain ⟨m, hm, hname⟩ := List.mem_map.1 hname
      exact List.find?_eq_none.1 hfind m hm (by simpa using hname)

variable {α : Type} {shape : Shape} {read : Value → Except String α} {x standard : α}

/-- **A member is taken from a restatement** as it is from the original, if the default is read from
the defaults. -/
theorem takesMember_of_restates (h : Restates default (.object full) v) {name : String} {w : Value}
    (hw : (name, w) ∈ full)
    (hdefault : (default.bind (member? name)).map read = some (.ok standard))
    (hreads : read w = .ok x)
    (htakes : ∀ w', Restates (default.bind (member? name)) w w' → Takes shape read w' x) :
    TakesMember shape read standard name v x := by
  unfold TakesMember
  rcases restates_member? h hw with ⟨w', hmember, hrestates⟩ | ⟨hmember, hsame⟩
  · rw [hmember]
    exact htakes w' hrestates
  · rw [hmember]
    rw [hsame, Option.map_some, hreads] at hdefault
    exact Except.ok.inj (Option.some.inj hdefault)

/-- A field without parts is taken from a restatement, or has its default. -/
theorem takesMember_of_isLeaf (h : Restates default (.object full) v) {name : String} {w : Value}
    (hw : (name, w) ∈ full) (hleaf : w.IsLeaf)
    (hdefault : (default.bind (member? name)).map read = some (.ok standard))
    (htakes : Takes shape read w x) : TakesMember shape read standard name v x := by
  refine takesMember_of_restates h hw hdefault htakes.reads fun w' hw' => ?_
  exact hw'.eq_of_isLeaf hleaf ▸ htakes

/-- A field without parts and without a default is taken from a restatement, word for word. -/
theorem takesRequired_of_isLeaf (h : Restates default (.object full) v) {name : String} {w : Value}
    (hw : (name, w) ∈ full) (hleaf : w.IsLeaf) (hdefault : default.bind (member? name) = none)
    (htakes : Takes shape read w x) : TakesRequired shape read name v x := by
  rcases restates_member? h hw with ⟨w', hmember, hrestates⟩ | ⟨-, hsome⟩
  · exact ⟨w', hmember, hrestates.eq_of_isLeaf hleaf ▸ htakes⟩
  · rw [hdefault] at hsome
    cases hsome

end Members

/-! ### Sections of restatements -/

section Sections

variable {v : Value}

/-- The section on the worker restates itself. -/
theorem toJson_worker_self (default : Option Value) (w : WorkerConfig) :
    Restates default w.toJson w.toJson := by
  refine .self (by simp) ?_
  simp only [List.forall_mem_cons]
  exact ⟨.leaf (.text _), .leaf (.texts _), nofun⟩

/-- The section on the ping restates itself. -/
theorem toJson_ping_self (default : Option Value) (p : PingConfig) :
    Restates default p.toJson p.toJson := by
  refine .self (by simp) ?_
  simp only [List.forall_mem_cons]
  exact ⟨.leaf (.number _), .leaf (.number _), nofun⟩

/-- The queue has no parts, be it that there is none. -/
theorem isLeaf_queue (s : SchedulerConfig) : (Value.orNull (s.queue.map .text)).IsLeaf := by
  cases s.queue with
  | none => exact .null
  | some q => exact .text q

/-- The section on the scheduler restates itself. -/
theorem toJson_scheduler_self (default : Option Value) (s : SchedulerConfig) :
    Restates default s.toJson s.toJson := by
  refine .self (by simp) ?_
  simp only [List.forall_mem_cons]
  exact ⟨.leaf (.text _), .leaf (.text _), .leaf (.text _), .leaf (isLeaf_queue s),
    .leaf (.number _), nofun⟩

/-- The section on the hit list restates itself. -/
theorem toJson_hitList_self (default : Option Value) (h : HitListConfig) :
    Restates default h.toJson h.toJson := by
  refine .self (by simp) ?_
  simp only [List.forall_mem_cons]
  exact ⟨.leaf (.text _), .leaf (.text _), nofun⟩

/-- The section on sweeps restates itself. -/
theorem toJson_sweep_self (default : Option Value) (s : SweepConfig) :
    Restates default s.toJson s.toJson := by
  refine .self (by simp) ?_
  simp only [List.forall_mem_cons]
  exact ⟨.leaf (.number _), nofun⟩

/-- **A section that is valid is taken from its restatements:** the one on the worker, -/
theorem takes_worker_of_restates {w : WorkerConfig} (hexecutable : w.executable ≠ "")
    (h : Restates (some (WorkerConfig.toJson {})) w.toJson v) : Takes .worker readWorker v w := by
  refine takes_worker_iff.2 ⟨(hasOnly_of_restates h).mono (by simp), ?args, ?executable⟩
  case args =>
    exact takesMember_of_isLeaf (w := .texts w.args) h (by simp) (.texts _) rfl
      (takes_texts_iff.2 rfl)
  case executable =>
    exact takesMember_of_isLeaf h (by simp) (.text w.executable) rfl
      (takes_text_iff.2 ⟨rfl, one_le_length_iff.2 hexecutable⟩)

/-- the one on pings, -/
theorem takes_ping_of_restates {p : PingConfig} (hretry : p.retryCount ≤ 99)
    (hpause : p.pauseMillis ≤ 9999) (h : Restates (some (PingConfig.toJson {})) p.toJson v) :
    Takes .ping readPing v p := by
  refine takes_ping_iff.2 ⟨(hasOnly_of_restates h).mono (by simp), ?pause, ?retry⟩
  case pause =>
    refine takesMember_of_isLeaf h (by simp) (.number _) rfl
      (takes_uint64_iff.2 ⟨rfl, Nat.zero_le _, ?_⟩)
    rintro _ ⟨⟩
    exact UInt64.le_iff_toNat_le.1 hpause
  case retry =>
    refine takesMember_of_isLeaf (w := .nat p.retryCount.toNat) h (by simp) (.number _) rfl
      (takes_uint32_iff.2 ⟨rfl, Nat.zero_le _, ?_⟩)
    rintro _ ⟨⟩
    exact UInt32.le_iff_toNat_le.1 hretry

/-- the one on the execution facility, -/
theorem takes_scheduler_of_restates {s : SchedulerConfig} (hat : s.atCommand ≠ "")
    (hatq : s.atqCommand ≠ "") (hatrm : s.atrmCommand ≠ "")
    (hqueue : ∀ q ∈ s.queue, Shape.isLetter q = true) (htimeout : 1 ≤ s.timeoutSecs)
    (h : Restates (some (SchedulerConfig.toJson {})) s.toJson v) :
    Takes .scheduler readScheduler v s := by
  have htext : ∀ {t : String}, t ≠ "" → Takes (.text 1) readText (.text t) t := fun ht =>
    takes_text_iff.2 ⟨rfl, one_le_length_iff.2 ht⟩
  refine takes_scheduler_iff.2
    ⟨(hasOnly_of_restates h).mono (by simp), ?atCommand, ?atqCommand, ?atrmCommand, ?queue,
      ?timeout⟩
  case atCommand =>
    exact takesMember_of_isLeaf h (by simp) (.text s.atCommand) rfl (htext hat)
  case atqCommand =>
    exact takesMember_of_isLeaf h (by simp) (.text s.atqCommand) rfl (htext hatq)
  case atrmCommand =>
    exact takesMember_of_isLeaf h (by simp) (.text s.atrmCommand) rfl (htext hatrm)
  case queue =>
    exact takesMember_of_isLeaf h (by simp) (isLeaf_queue s) rfl (takes_letter_iff.2 ⟨rfl, hqueue⟩)
  case timeout =>
    exact takesMember_of_isLeaf h (by simp) (.number _) rfl
      (takes_uint64_iff.2 ⟨rfl, UInt64.le_iff_toNat_le.1 htimeout, nofun⟩)

/-- the one on the hit list, -/
theorem takes_hitList_of_restates {l : HitListConfig} (hname : l.fileName ≠ "")
    (hcsv : l.derivedCsv ≠ "") (h : Restates (some (HitListConfig.toJson {})) l.toJson v) :
    Takes .hitList readHitList v l := by
  refine takes_hitList_iff.2 ⟨(hasOnly_of_restates h).mono (by simp), ?csv, ?name⟩
  case csv =>
    exact takesMember_of_isLeaf h (by simp) (.text l.derivedCsv) rfl
      (takes_text_iff.2 ⟨rfl, one_le_length_iff.2 hcsv⟩)
  case name =>
    exact takesMember_of_isLeaf h (by simp) (.text l.fileName) rfl
      (takes_text_iff.2 ⟨rfl, one_le_length_iff.2 hname⟩)

/-- and the one on sweeps. -/
theorem takes_sweep_of_restates {s : SweepConfig} (hstale : 1 ≤ s.staleAfterSecs)
    (h : Restates (some (SweepConfig.toJson {})) s.toJson v) : Takes .sweep readSweep v s := by
  refine takes_sweep_iff.2 ⟨(hasOnly_of_restates h).mono (by simp), ?_⟩
  exact takesMember_of_isLeaf h (by simp) (.number _) rfl
    (takes_uint64_iff.2 ⟨rfl, UInt64.le_iff_toNat_le.1 hstale, nofun⟩)

end Sections

/-! ### Whole documents -/

/-- A configuration restates itself, whatever the defaults are. -/
theorem toJson_self (default : Option Value) (c : Config) :
    Restates default c.toJson c.toJson := by
  rw [toJson_eq]
  refine .self (by simp) ?_
  simp only [List.forall_mem_cons]
  exact ⟨.leaf (.text _), .leaf (.text _), toJson_worker_self _ _, toJson_ping_self _ _,
    toJson_scheduler_self _ _, toJson_hitList_self _ _, toJson_sweep_self _ _, nofun⟩

/-- A configuration is nested less deeply than a text may be. -/
theorem toJson_fits (c : Config) : c.toJson.Fits (Json.depthLimit - 1) := by
  have hargs : ∀ v ∈ c.worker.args.map Value.text, v.Fits 124 := by
    simp [Json.Value.Fits.text]
  have hqueue : (Value.orNull (c.scheduler.queue.map .text)).Fits 125 := by
    cases c.scheduler.queue with
    | none => exact .null
    | some q => exact .text q
  refine .object ?_
  simp only [List.forall_mem_cons]
  refine ⟨.text _, .text _, .object ?worker, .object ?ping, .object ?scheduler, .object ?hitList,
    .object ?sweep, nofun⟩
  all_goals simp only [List.forall_mem_cons]
  case worker => exact ⟨.text _, .list hargs, nofun⟩
  case ping => exact ⟨.natural _, .natural _, nofun⟩
  case scheduler => exact ⟨.text _, .text _, .text _, hqueue, .natural _, nofun⟩
  case hitList => exact ⟨.text _, .text _, nofun⟩
  case sweep => exact ⟨.natural _, nofun⟩

/-- A plain name is not empty. -/
theorem ne_empty_of_isPlain {name : String} (h : FileName.isPlain name = true) : name ≠ "" := by
  rintro rfl
  cases h

/-- **A valid configuration is taken from its restatements.** -/
theorem takes_of_restates {c : Config} (h : c.IsValid) {v : Value}
    (hv : Restates (some defaults) c.toJson v) : Takes .config ofJson v c := by
  have hexecutable : c.worker.executable ≠ "" := by
    obtain ⟨x, hx, -⟩ := h.executable
    rintro hempty
    simp [hempty] at hx
  have hqueue : ∀ q ∈ c.scheduler.queue, Shape.isLetter q = true := fun q hq =>
    isLetter_iff.2 (h.queue q hq)
  -- Section by section; the fields have the bounds that validity gives them.
  have hworker := fun v => takes_worker_of_restates (v := v) hexecutable
  have hping := fun v => takes_ping_of_restates (v := v) h.retryCount h.pauseMillis
  have hscheduler := fun v => takes_scheduler_of_restates (v := v) h.atCommand h.atqCommand
    h.atrmCommand hqueue h.timeoutSecs
  have hhits := fun v => takes_hitList_of_restates (v := v) (ne_empty_of_isPlain h.fileName)
    (ne_empty_of_isPlain h.derivedCsv)
  have hsweep := fun v => takes_sweep_of_restates (v := v) h.staleAfterSecs
  rw [toJson_eq] at hv
  refine takes_config_iff.2 ⟨(hasOnly_of_restates hv).mono (by simp), ?hitList, ?jobRoot, ?ping,
    ?sweep, ?scheduler, ?version, ?worker⟩
  case hitList =>
    exact takesMember_of_restates hv (by simp) rfl (hhits _ (toJson_hitList_self _ _)).reads hhits
  case jobRoot =>
    exact takesRequired_of_isLeaf hv (by simp) (.text c.jobRoot.text) rfl
      (takes_text_iff.2 ⟨rfl, one_le_length_iff.2 h.jobRoot⟩)
  case ping =>
    exact takesMember_of_restates hv (by simp) rfl (hping _ (toJson_ping_self _ _)).reads hping
  case sweep =>
    exact takesMember_of_restates hv (by simp) rfl (hsweep _ (toJson_sweep_self _ _)).reads hsweep
  case scheduler =>
    exact takesMember_of_restates hv (by simp) rfl
      (hscheduler _ (toJson_scheduler_self _ _)).reads hscheduler
  case version =>
    exact takesRequired_of_isLeaf hv (by simp) (.text c.version) rfl
      (takes_text_iff.2 ⟨rfl, Nat.zero_le _⟩)
  case worker =>
    exact takesMember_of_restates hv (by simp) rfl (hworker _ (toJson_worker_self _ _)).reads
      hworker

/-- A valid configuration is read from every restatement of it. -/
theorem ofDocument_of_restates {c : Config} (h : c.IsValid) {v : Value}
    (hv : Restates (some defaults) c.toJson v) : ofDocument v = .ok c := by
  refine ofDocument_eq_ok_iff.2 ⟨takes_of_restates h hv, forall_mem_rules_iff.2 ?_⟩
  exact ⟨h.version, h.jobRoot, h.executable, one_le_iff_ne_zero.1 h.timeoutSecs,
    one_le_iff_ne_zero.1 h.staleAfterSecs, h.fileName, h.derivedCsv, h.namesDiffer⟩

/-- A valid configuration is read from the text of every restatement of it. -/
theorem ofText_of_restates {c : Config} (h : c.IsValid) {v : Value}
    (hv : Restates (some defaults) c.toJson v) : ofText v.render = .ok c := by
  obtain ⟨w, hparse, hw⟩ := hv.exists_parse_eq c.toJson_fits
  rw [ofText, hparse]
  exact ofDocument_of_restates h hw

/-- Only valid configurations are read from a text. -/
theorem isValid_of_ofText {text : String} {c : Config} (h : ofText text = .ok c) : c.IsValid := by
  unfold ofText at h
  split at h
  · cases h
  · exact isValid_of_ofDocument h

/-- **Loading accepts the valid configurations and no others, and it undoes writing.**  What is
loaded from a text is valid.  A valid configuration is loaded from the text that it is written as,
from every document that says the same, and from the text of such a document. -/
theorem valid_configs_round_trip (c : Config) :
    (∀ text, ofText text = .ok c → c.IsValid) ∧
      (c.IsValid → ofText c.toJson.render = .ok c ∧
        ∀ v, Restates (some defaults) c.toJson v →
          ofDocument v = .ok c ∧ ofText v.render = .ok c) := by
  refine ⟨fun text => isValid_of_ofText, fun h => ⟨?written, fun v hv => ⟨?document, ?text⟩⟩⟩
  case written => exact ofText_of_restates h (toJson_self _ c)
  case document => exact ofDocument_of_restates h hv
  case text => exact ofText_of_restates h hv

/-- A configuration at the bounds of its fields, -/
def atBounds : Config :=
  { withJobRoot ⟨"/srv/jobs"⟩ with
    ping := { retryCount := 99, pauseMillis := 9999 }
    scheduler := { queue := some "b", timeoutSecs := 18446744073709551615 } }

/-- and a document for it that says nothing that goes without saying, and that in another order. -/
def atBoundsDocument : Value :=
  .object [
    ("scheduler", .object [
      ("timeout_secs", .number (.natural 18446744073709551615)), ("queue", .text "b")]),
    ("version", .text "1.0"),
    ("ping", .object [("pause_millis", .nat 9999), ("retry_count", .nat 99)]),
    ("job_root_directory", .text "/srv/jobs")]

/-- The configuration at the bounds is valid. -/
theorem isValid_atBounds : atBounds.IsValid where
  version := rfl
  jobRoot := by decide
  executable := ⟨'s', by decide, by decide⟩
  retryCount := by decide
  pauseMillis := by decide
  atCommand := by decide
  atqCommand := by decide
  atrmCommand := by decide
  queue := by rintro _ ⟨⟩; exact ⟨'b', by decide, rfl⟩
  timeoutSecs := by decide
  staleAfterSecs := by decide
  fileName := by decide
  derivedCsv := by decide
  namesDiffer := by decide

/-- The document says what the configuration says, less its defaults and in another order. -/
theorem restates_atBounds : Restates (some defaults) atBounds.toJson atBoundsDocument := by
  have hscheduler : Restates (some (SchedulerConfig.toJson {})) atBounds.scheduler.toJson
      (.object [("timeout_secs", .number (.natural 18446744073709551615)),
        ("queue", .text "b")]) := by
    refine .object_of_distinct (by simp) (by simp) ?_ ?_ <;> simp only [List.forall_mem_cons]
    · exact ⟨⟨_, by simp; rfl, .leaf (.number _)⟩, ⟨_, by simp; rfl, .leaf (.text "b")⟩, nofun⟩
    · exact ⟨.inr rfl, .inr rfl, .inr rfl, .inl (by simp), .inl (by simp), nofun⟩
  have hping : Restates (some (PingConfig.toJson {})) atBounds.ping.toJson
      (.object [("pause_millis", .nat 9999), ("retry_count", .nat 99)]) := by
    refine .object_of_distinct (by simp) (by simp) ?_ ?_ <;> simp only [List.forall_mem_cons]
    · exact ⟨⟨_, by simp; rfl, .leaf (.number _)⟩, ⟨_, by simp; rfl, .leaf (.number _)⟩, nofun⟩
    · exact ⟨.inl (by simp), .inl (by simp), nofun⟩
  rw [toJson_eq]
  refine .object_of_distinct (by simp) (by simp) ?_ ?_ <;> simp only [List.forall_mem_cons]
  · exact ⟨⟨_, by simp, hscheduler⟩, ⟨_, by simp; rfl, .leaf (.text "1.0")⟩,
      ⟨_, by simp, hping⟩, ⟨_, by simp; rfl, .leaf (.text "/srv/jobs")⟩, nofun⟩
  · exact ⟨.inl (by simp), .inl (by simp), .inr rfl, .inl (by simp), .inl (by simp), .inr rfl,
      .inr rfl, nofun⟩

/-- The configuration at the bounds is read from that document. -/
theorem valid_configs_round_trip_atBounds :
    atBounds.IsValid ∧ Restates (some defaults) atBounds.toJson atBoundsDocument ∧
      ofText atBoundsDocument.render = .ok atBounds := by
  refine ⟨isValid_atBounds, restates_atBounds, ?_⟩
  exact (((valid_configs_round_trip atBounds).2 isValid_atBounds).2 _ restates_atBounds).2

end Config
end JobSpool
