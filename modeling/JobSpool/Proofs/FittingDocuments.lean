/-
# Documents that fit the schema

`load_config_from_str`: `SPEC_FULL.md`, E4.

The schema and the types describe the same documents, with one difference: the schema takes any
number without a fraction for an integer, and the types take those only that are held as whole
numbers.  So a document that fits the schema is read as a configuration unless one of its four
counts is held as a floating-point number (`Config.exists_takes_config_iff`).  Which numbers are
held so is a matter of how they are written (`Json.number_isReal_iff`).

A document that is read is read word for word: `Config.Tells` goes through all fields, and each of
them is what the document says of it, or has its default where the document says nothing.
-/

import Mathlib.Data.Set.List
import JobSpool.Proofs.ConfigReading
import JobSpool.Proofs.JsonTexts

namespace JobSpool

open Json (Value)

/-! ### Numbers that are held as floating-point ones -/

namespace Json

/-- Is a value held as a floating-point number? -/
def Value.IsReal (v : Value) : Prop :=
  ∃ x, v = .number (.real x)

instance : DecidablePred Value.IsReal
  | .number (.real x) => isTrue ⟨x, rfl⟩
  | .number (.natural _) | .number (.negative _) | .null | .bool _ | .text _ | .list _
  | .object _ => isFalse nofun

/-- Is a number written so that it is held as a floating-point one?  Of the number the sign is read,
and its characters follow: it has a fraction or an exponent, or it is `-0`, or it is an integer
beyond those of 64 bits. -/
def IsWrittenReal (negative : Bool) (cs : List Char) : Prop :=
  let size := Nat.ofDigitChars 10 (cs.takeWhile Char.isDigit) 0
  (∃ c ∈ (cs.dropWhile Char.isDigit).head?, c = '.' ∨ c = 'e' ∨ c = 'E') ∨
    (negative = true ∧ size = 0) ∨
    (if negative then UInt64.size / 2 < size else UInt64.size ≤ size)

/-- Digits fit exactly if their value does. -/
theorem appendDigits_snd_eq_nil_iff {significand : Nat} (h : significand < UInt64.size)
    {cs : List Char} :
    (appendDigits significand cs).2 = [] ↔ Nat.ofDigitChars 10 cs significand < UInt64.size := by
  constructor
  · intro hnil
    induction cs generalizing significand with
    | nil => exact h
    | cons c cs ih =>
      rw [appendDigits] at hnil
      rw [Nat.ofDigitChars_cons, Nat.mul_comm]
      split at hnil
      · exact ih ‹_› hnil
      · cases hnil
  · intro hfits
    rw [appendDigits_eq hfits]

section Reals

variable {negative : Bool} {significand : Nat} {cs rest : List Char} {n : Number}

/-- A number that is scaled is held as a floating-point one. -/
theorem isReal_of_real {power : Int} (h : real negative significand power cs = .ok (n, rest)) :
    (Value.number n).IsReal := by
  unfold real at h
  split at h
  · cases h
    exact ⟨_, rfl⟩
  · cases h

/-- **A number with an exponent** is held as a floating-point one, -/
theorem isReal_of_exponent {power : Int}
    (h : exponent negative significand power cs = .ok (n, rest)) : (Value.number n).IsReal := by
  unfold exponent at h
  dsimp only at h
  split at h
  · cases h
  · cases h
  · rcases ite_eq_iff.1 h with ⟨-, h⟩ | ⟨-, h⟩
    · rcases ite_eq_iff.1 h with ⟨-, h⟩ | ⟨-, h⟩
      · cases h
      · cases h
        exact ⟨_, rfl⟩
    · exact isReal_of_real h

/-- and so is one with a fraction. -/
theorem isReal_of_fraction {power : Int}
    (h : fraction negative significand power cs = .ok (n, rest)) : (Value.number n).IsReal := by
  unfold fraction at h
  split at h
  · cases h
  · cases h
  · dsimp only at h
    split at h
    · exact isReal_of_exponent h
    · exact isReal_of_exponent h
    · exact isReal_of_real h

/-- **What follows the digits decides,** and where nothing follows that belongs to the number, its
size and its sign. -/
theorem numberRest_isReal_iff {power : Nat}
    (h : numberRest negative significand power cs = .ok (n, rest)) :
    (Value.number n).IsReal ↔ (∃ c ∈ cs.head?, c = '.' ∨ c = 'e' ∨ c = 'E') ∨ power ≠ 0 ∨
      (negative = true ∧ (significand = 0 ∨ UInt64.size / 2 < significand)) := by
  unfold numberRest at h
  -- A point or an exponent in what follows, else nothing that belongs to the number.
  split at h
  · exact iff_of_true (isReal_of_fraction h) (Or.inl ⟨_, rfl, Or.inl rfl⟩)
  · exact iff_of_true (isReal_of_exponent h) (Or.inl ⟨_, rfl, Or.inr (Or.inl rfl)⟩)
  · exact iff_of_true (isReal_of_exponent h) (Or.inl ⟨_, rfl, Or.inr (Or.inr rfl)⟩)
  · rename_i hpoint hsmall hlarge
    have hends : ¬ ∃ c ∈ cs.head?, c = '.' ∨ c = 'e' ∨ c = 'E' := by
      rintro ⟨c, hc, hmark⟩
      obtain ⟨rest', rfl⟩ := List.head?_eq_some_iff.1 hc
      rcases hmark with rfl | rfl | rfl
      · exact hpoint _ rfl
      · exact hsmall _ rfl
      · exact hlarge _ rfl
    split at h
    · exact iff_of_true (isReal_of_real h) (Or.inr (Or.inl ‹_›))
    split at h
    · rename_i hpower hpositive
      cases h
      refine iff_of_false nofun ?_
      rintro (hmark | hlong | ⟨hnegative, -⟩)
      · exact hends hmark
      · exact hpower hlong
      · simp [hnegative] at hpositive
    split at h
    · rename_i hpower hnegative hsize
      refine iff_of_true (isReal_of_real h) (Or.inr (Or.inr ⟨by simpa using hnegative, ?_⟩))
      simpa using hsize
    · rename_i hpower hnegative hsize
      cases h
      refine iff_of_false nofun ?_
      rintro (hmark | hlong | ⟨-, hbeyond⟩)
      · exact hends hmark
      · exact hpower hlong
      · exact hsize (by simpa using hbeyond)

/-- **Which numbers are held as floating-point ones** can be told from how they are written. -/
theorem number_isReal_iff (h : number negative cs = .ok (n, rest)) :
    (Value.number n).IsReal ↔ IsWrittenReal negative cs := by
  unfold number digitRun at h
  split at h
  · cases h
  · cases h
  · cases h
  · rename_i digits rest' _ _ _ hsplit
    obtain ⟨rfl, rfl⟩ := Prod.mk.inj hsplit
    have hfits : (appendDigits 0 (cs.takeWhile Char.isDigit)).2 = [] ↔ _ :=
      appendDigits_snd_eq_nil_iff (by decide)
    rw [numberRest_isReal_iff h, IsWrittenReal, ne_eq, List.length_eq_zero_iff, hfits]
    refine or_congr_right ?_
    by_cases hsize : Nat.ofDigitChars 10 (cs.takeWhile Char.isDigit) 0 < UInt64.size
    · rw [appendDigits_eq hsize]
      cases negative with
      | false =>
        simp only [Bool.false_eq_true, false_and, or_false, false_or, if_false, Nat.not_lt]
      | true =>
        simp only [true_and, if_true]
        omega
    · have hhalf : UInt64.size / 2 < UInt64.size := by decide
      refine iff_of_true (Or.inl hsize) (Or.inr ?_)
      split <;> omega

end Reals
end Json

/-! ### What keeps a value from being read -/

namespace Config

/-- Is every value that fits read, provided that it is good? -/
def ReadsIf {α : Type} (shape : Shape) (read : Value → Except String α) (good : Value → Prop) :
    Prop :=
  ∀ v, shape.faults v = [] → ((∃ x, Takes shape read v x) ↔ good v)

/-- Is no member with one of the names held as a floating-point number? -/
def HasNoReal (names : List String) (v : Value) : Prop :=
  ∀ name ∈ names, ∀ w ∈ v.member? name, ¬ w.IsReal

section Readers

variable {minimum minLength : Nat} {maximum : Option Nat}

/-- **Every text is read,** -/
theorem readsIf_text : ReadsIf (.text minLength) readText fun _ => True := by
  intro v hfits
  refine iff_of_true ?_ trivial
  cases v with
  | text s => exact ⟨s, hfits, rfl⟩
  | _ => cases hfits

/-- every list of texts, -/
theorem readsIf_texts : ReadsIf .texts readTexts fun _ => True := by
  intro v hfits
  refine iff_of_true ?_ trivial
  cases v with
  | list items =>
    have htexts : items ∈ Set.range (List.map Value.text) := by
      rw [Set.range_list_map]
      intro w hw
      have hitem := List.flatMap_eq_nil_iff.1 hfits w hw
      cases w with
      | text s => exact ⟨s, rfl⟩
      | _ => cases hitem
    obtain ⟨texts, rfl⟩ := htexts
    exact ⟨texts, takes_texts_iff.2 rfl⟩
  | _ => cases hfits

/-- and every letter and `null`. -/
theorem readsIf_letter : ReadsIf .letter readOptionalText fun _ => True := by
  intro v hfits
  refine iff_of_true ?_ trivial
  cases v with
  | null => exact ⟨none, hfits, rfl⟩
  | text s => exact ⟨some s, hfits, rfl⟩
  | _ => cases hfits

/-- **An integer is natural or held as a floating-point number,** since the bounds shut out the
negative ones. -/
theorem natural_of_faults {v : Value} (hfits : (Shape.integer minimum maximum).faults v = [])
    (hreal : ¬ v.IsReal) : ∃ n, v = .number (.natural n) := by
  cases v with
  | number n =>
    cases n with
    | natural n => exact ⟨n, rfl⟩
    | negative magnitude => cases hfits
    | real x => exact absurd ⟨x, rfl⟩ hreal
  | _ => cases hfits

/-- **A count is read** unless it is held as a floating-point number: one of 64 bits, -/
theorem readsIf_uint64 :
    ReadsIf (.integer minimum maximum) readUInt64 fun v => ¬ v.IsReal := by
  intro v hfits
  constructor
  · rintro ⟨n, hn⟩ ⟨x, rfl⟩
    cases (takes_uint64_iff.1 hn).1
  · intro hreal
    obtain ⟨n, rfl⟩ := natural_of_faults hfits hreal
    exact ⟨n, hfits, rfl⟩

/-- and one of 32 bits, if its bound is one. -/
theorem readsIf_uint32 {bound : Nat} (hbound : bound < UInt32.size) :
    ReadsIf (.integer minimum (some bound)) readUInt32 fun v => ¬ v.IsReal := by
  intro v hfits
  constructor
  · rintro ⟨n, hn⟩ ⟨x, rfl⟩
    cases (takes_uint32_iff.1 hn).1
  · intro hreal
    obtain ⟨n, rfl⟩ := natural_of_faults hfits hreal
    have hle := (faults_natural_eq_nil_iff.1 hfits).2 bound rfl
    exact ⟨n.toUInt32, hfits, if_pos (Nat.lt_of_le_of_lt hle hbound)⟩

variable {α : Type} {shape : Shape} {read : Value → Except String α} {good : Value → Prop}
  {name : String} {v : Value}

/-- **A member is read** if it is missing or good. -/
theorem ReadsIf.member (h : ReadsIf shape read good) (default : α)
    (hfits : ∀ w, v.member? name = some w → shape.faults w = []) :
    (∃ x, TakesMember shape read default name v x) ↔ ∀ w ∈ v.member? name, good w := by
  unfold TakesMember
  cases hmember : v.member? name with
  | none => simp
  | some w => simpa using h w (hfits w hmember)

/-- What is read whenever it fits is read as a member, too, -/
theorem ReadsIf.exists_member (h : ReadsIf shape read fun _ => True) (default : α)
    (hfits : ∀ w, v.member? name = some w → shape.faults w = []) :
    ∃ x, TakesMember shape read default name v x :=
  (h.member default hfits).2 fun _ _ => trivial

/-- and as one that must be there. -/
theorem ReadsIf.exists_required (h : ReadsIf shape read fun _ => True)
    (hthere : (v.member? name).isSome = true)
    (hfits : ∀ w, v.member? name = some w → shape.faults w = []) :
    ∃ x, TakesRequired shape read name v x := by
  obtain ⟨w, hw⟩ := Option.isSome_iff_exists.1 hthere
  obtain ⟨x, hx⟩ := (h w (hfits w hw)).2 trivial
  exact ⟨x, w, hw, hx⟩

end Readers

/-! ### What keeps a document from being read -/

/-- **A section is read** unless one of its counts is held as a floating-point number: the hit list
and the worker have none, -/
theorem readsIf_hitList : ReadsIf .hitList readHitList fun _ => True := by
  intro v hfits
  obtain ⟨honly, -, hmembers⟩ := object_faults_eq_nil_iff.1 hfits
  simp only [List.forall_mem_cons] at hmembers
  obtain ⟨hcsv, hname, -⟩ := hmembers
  obtain ⟨csv, hcsv⟩ := readsIf_text.exists_member ({} : HitListConfig).derivedCsv hcsv
  obtain ⟨name, hname⟩ := readsIf_text.exists_member ({} : HitListConfig).fileName hname
  exact iff_of_true ⟨⟨name, csv⟩, takes_hitList_iff.2 ⟨honly, hcsv, hname⟩⟩ trivial

/-- The section on the worker has no counts, so it is read whenever it fits. -/
theorem readsIf_worker : ReadsIf .worker readWorker fun _ => True := by
  intro v hfits
  obtain ⟨honly, -, hmembers⟩ := object_faults_eq_nil_iff.1 hfits
  simp only [List.forall_mem_cons] at hmembers
  obtain ⟨hargs, hexecutable, -⟩ := hmembers
  obtain ⟨args, hargs⟩ := readsIf_texts.exists_member ({} : WorkerConfig).args hargs
  obtain ⟨executable, hexecutable⟩ :=
    readsIf_text.exists_member ({} : WorkerConfig).executable hexecutable
  exact iff_of_true ⟨⟨executable, args⟩, takes_worker_iff.2 ⟨honly, hargs, hexecutable⟩⟩ trivial

/-- the pings have two, -/
theorem readsIf_ping :
    ReadsIf .ping readPing (HasNoReal ["pause_millis", "retry_count"]) := by
  intro v hfits
  obtain ⟨honly, -, hmembers⟩ := object_faults_eq_nil_iff.1 hfits
  simp only [List.forall_mem_cons] at hmembers
  obtain ⟨hpause, hretry, -⟩ := hmembers
  have hpause := readsIf_uint64.member ({} : PingConfig).pauseMillis hpause
  have hretry := (readsIf_uint32 (by decide)).member ({} : PingConfig).retryCount hretry
  simp only [HasNoReal, List.forall_mem_cons, ← hpause, ← hretry]
  constructor
  · rintro ⟨p, hp⟩
    obtain ⟨-, hpause, hretry⟩ := takes_ping_iff.1 hp
    exact ⟨⟨_, hpause⟩, ⟨_, hretry⟩, nofun⟩
  · rintro ⟨⟨pause, hpause⟩, ⟨retry, hretry⟩, -⟩
    exact ⟨⟨retry, pause⟩, takes_ping_iff.2 ⟨honly, hpause, hretry⟩⟩

/-- the sweeps one, -/
theorem readsIf_sweep : ReadsIf .sweep readSweep (HasNoReal ["stale_after_secs"]) := by
  intro v hfits
  obtain ⟨honly, -, hmembers⟩ := object_faults_eq_nil_iff.1 hfits
  simp only [List.forall_mem_cons] at hmembers
  have hstale := readsIf_uint64.member ({} : SweepConfig).staleAfterSecs hmembers.1
  simp only [HasNoReal, List.forall_mem_cons, ← hstale]
  constructor
  · rintro ⟨s, hs⟩
    exact ⟨⟨_, (takes_sweep_iff.1 hs).2⟩, nofun⟩
  · rintro ⟨⟨stale, hstale⟩, -⟩
    exact ⟨⟨stale⟩, takes_sweep_iff.2 ⟨honly, hstale⟩⟩

/-- and the execution facility one. -/
theorem readsIf_scheduler :
    ReadsIf .scheduler readScheduler (HasNoReal ["timeout_secs"]) := by
  intro v hfits
  obtain ⟨honly, -, hmembers⟩ := object_faults_eq_nil_iff.1 hfits
  simp only [List.forall_mem_cons] at hmembers
  obtain ⟨hat, hatq, hatrm, hqueue, htimeout, -⟩ := hmembers
  obtain ⟨atCommand, hat⟩ := readsIf_text.exists_member ({} : SchedulerConfig).atCommand hat
  obtain ⟨atqCommand, hatq⟩ := readsIf_text.exists_member ({} : SchedulerConfig).atqCommand hatq
  obtain ⟨atrmCommand, hatrm⟩ :=
    readsIf_text.exists_member ({} : SchedulerConfig).atrmCommand hatrm
  obtain ⟨queue, hqueue⟩ := readsIf_letter.exists_member ({} : SchedulerConfig).queue hqueue
  have htimeout := readsIf_uint64.member ({} : SchedulerConfig).timeoutSecs htimeout
  simp only [HasNoReal, List.forall_mem_cons, ← htimeout]
  constructor
  · rintro ⟨s, hs⟩
    obtain ⟨-, -, -, -, -, htimeout⟩ := takes_scheduler_iff.1 hs
    exact ⟨⟨_, htimeout⟩, nofun⟩
  · rintro ⟨⟨timeout, htimeout⟩, -⟩
    exact ⟨⟨atCommand, atqCommand, atrmCommand, queue, timeout⟩,
      takes_scheduler_iff.2 ⟨honly, hat, hatq, hatrm, hqueue, htimeout⟩⟩

/-- What a document says of a field: what the member of its section holds, if it has the section
and that has the member. -/
def said (v : Value) (part name : String) : Option Value :=
  (v.member? part).bind (Value.member? name)

/-- The counts, each with its section. -/
def counts : List (String × String) :=
  [("ping", "pause_millis"), ("ping", "retry_count"), ("reconcile", "stale_after_secs"),
    ("scheduler", "timeout_secs")]

/-- A section has no floating-point counts if what the document says in it is none. -/
theorem forall_hasNoReal_iff {v : Value} {part : String} {names : List String} :
    (∀ w ∈ v.member? part, HasNoReal names w) ↔
      ∀ name ∈ names, ∀ w ∈ said v part name, ¬ w.IsReal := by
  unfold said HasNoReal
  cases v.member? part with
  | none => simp
  | some w => simp

/-- **A document that fits is read** unless one of its counts is held as a floating-point number. -/
theorem exists_takes_config_iff {v : Value} (hfits : Shape.config.faults v = []) :
    (∃ c, Takes .config ofJson v c) ↔
      ∀ count ∈ counts, ∀ w ∈ said v count.1 count.2, ¬ w.IsReal := by
  obtain ⟨honly, hthere, hmembers⟩ := object_faults_eq_nil_iff.1 (Shape.config_eq ▸ hfits)
  simp only [List.forall_mem_cons] at hmembers hthere
  obtain ⟨hhits, hroot, hping, hsweep, hscheduler, hversion, hworker, -⟩ := hmembers
  obtain ⟨hitList, hhits⟩ := readsIf_hitList.exists_member {} hhits
  obtain ⟨root, hroot⟩ := readsIf_text.exists_required hthere.2.1 hroot
  obtain ⟨version, hversion⟩ := readsIf_text.exists_required hthere.1 hversion
  obtain ⟨worker, hworker⟩ := readsIf_worker.exists_member {} hworker
  have hping := (readsIf_ping.member {} hping).trans forall_hasNoReal_iff
  have hsweep := (readsIf_sweep.member {} hsweep).trans forall_hasNoReal_iff
  have hscheduler := (readsIf_scheduler.member {} hscheduler).trans forall_hasNoReal_iff
  simp only [List.forall_mem_cons] at hping hsweep hscheduler
  simp only [counts, List.forall_mem_cons]
  constructor
  · rintro ⟨c, hc⟩
    obtain ⟨-, -, -, hping', hsweep', hscheduler', -, -⟩ := takes_config_iff.1 hc
    obtain ⟨hpause, hretry, -⟩ := hping.1 ⟨_, hping'⟩
    obtain ⟨hstale, -⟩ := hsweep.1 ⟨_, hsweep'⟩
    obtain ⟨htimeout, -⟩ := hscheduler.1 ⟨_, hscheduler'⟩
    exact ⟨hpause, hretry, hstale, htimeout, nofun⟩
  · rintro ⟨hpause, hretry, hstale, htimeout, -⟩
    obtain ⟨ping, hping⟩ := hping.2 ⟨hpause, hretry, nofun⟩
    obtain ⟨sweep, hsweep⟩ := hsweep.2 ⟨hstale, nofun⟩
    obtain ⟨scheduler, hscheduler⟩ := hscheduler.2 ⟨htimeout, nofun⟩
    exact ⟨⟨version, ⟨root⟩, worker, ping, scheduler, hitList, sweep⟩, takes_config_iff.2
      ⟨honly, hhits, hroot, hping, hsweep, hscheduler, hversion, hworker⟩⟩

/-! ### What a document tells -/

/-- Is a field what is said of it, and its default if nothing is? -/
def IsTold {α : Type} (write : α → Value) (default : α) (said : Option Value) (x : α) : Prop :=
  match said with
  | some w => w = write x
  | none => x = default

/-- Does a document say a configuration?  The version and the job root it says itself, and every
field of a section either it says or it leaves to its default. -/
structure Tells (v : Value) (c : Config) : Prop where
  version : v.member? "version" = some (.text c.version)
  jobRoot : v.member? "job_root_directory" = some (.text c.jobRoot.text)
  executable : IsTold .text "smtp-profile.sh" (said v "worker" "executable") c.worker.executable
  args : IsTold .texts ["-v"] (said v "worker" "args") c.worker.args
  retryCount : IsTold (fun n => .nat n.toNat) 2 (said v "ping" "retry_count") c.ping.retryCount
  pauseMillis : IsTold (fun n => .nat n.toNat) 1000 (said v "ping" "pause_millis")
    c.ping.pauseMillis
  atCommand : IsTold .text "at" (said v "scheduler" "at_command") c.scheduler.atCommand
  atqCommand : IsTold .text "atq" (said v "scheduler" "atq_command") c.scheduler.atqCommand
  atrmCommand : IsTold .text "atrm" (said v "scheduler" "atrm_command") c.scheduler.atrmCommand
  queue : IsTold (fun q => .orNull (q.map .text)) none (said v "scheduler" "queue")
    c.scheduler.queue
  timeoutSecs : IsTold (fun n => .nat n.toNat) 10 (said v "scheduler" "timeout_secs")
    c.scheduler.timeoutSecs
  fileName : IsTold .text "spamhaus.txt" (said v "hit_list" "file_name") c.hitList.fileName
  derivedCsv : IsTold .text "spamhaus.csv" (said v "hit_list" "derived_csv") c.hitList.derivedCsv
  staleAfterSecs : IsTold (fun n => .nat n.toNat) 900 (said v "reconcile" "stale_after_secs")
    c.sweep.staleAfterSecs

section Telling

variable {α β : Type} {shape : Shape} {read : Value → Except String α} {name : String} {v : Value}
  {write : α → Value} {default x : α}

/-- **What is taken from a member is told by it,** if only one value is read as it. -/
theorem TakesMember.isTold (h : TakesMember shape read default name v x)
    (hwrite : ∀ {w}, Takes shape read w x → w = write x) :
    IsTold write default (v.member? name) x := by
  unfold TakesMember at h
  cases hmember : v.member? name with
  | none =>
    rw [hmember] at h
    exact h
  | some w =>
    rw [hmember] at h
    exact hwrite h

/-- A field of a section is told by the document if it is by the section, since a section that is
missing has the defaults of its fields. -/
theorem TakesMember.isTold_said {part : String} {write : β → Value}
    (h : TakesMember shape read default part v x) (field : α → β)
    (hfield : ∀ {w}, Takes shape read w x →
      IsTold write (field default) (w.member? name) (field x)) :
    IsTold write (field default) (said v part name) (field x) := by
  unfold TakesMember at h
  unfold said
  split at h
  · rename_i w hw
    rw [hw]
    exact hfield h
  · rename_i hnone
    rw [hnone, h]
    rfl

variable {w : Value} {minimum minLength : Nat} {maximum : Option Nat}

/-- A text that is taken is what the document says. -/
theorem eq_text_of_takes {s : String} (h : Takes (.text minLength) readText w s) : w = .text s :=
  (takes_text_iff.1 h).1

/-- A count of 64 bits that is taken is what the document says. -/
theorem eq_nat_of_takes_uint64 {n : UInt64} (h : Takes (.integer minimum maximum) readUInt64 w n) :
    w = .nat n.toNat := by
  rw [(takes_uint64_iff.1 h).1, Value.nat, UInt64.ofNat_toNat]

/-- A count of 32 bits that is taken is what the document says. -/
theorem eq_nat_of_takes_uint32 {n : UInt32} (h : Takes (.integer minimum maximum) readUInt32 w n) :
    w = .nat n.toNat :=
  (takes_uint32_iff.1 h).1

end Telling

/-- **What a document is read as, it tells.** -/
theorem tells_of_takes {v : Value} {c : Config} (h : Takes .config ofJson v c) : Tells v c := by
  obtain ⟨-, hhits, ⟨_, hroot, hroot'⟩, hping, hsweep, hscheduler, ⟨_, hversion, hversion'⟩,
    hworker⟩ := takes_config_iff.1 h
  constructor
  case version => rw [hversion, eq_text_of_takes hversion']
  case jobRoot => rw [hroot, eq_text_of_takes hroot']
  case executable =>
    refine hworker.isTold_said WorkerConfig.executable fun hw => ?_
    exact (takes_worker_iff.1 hw).2.2.isTold eq_text_of_takes
  case args =>
    refine hworker.isTold_said WorkerConfig.args fun hw => ?_
    exact (takes_worker_iff.1 hw).2.1.isTold takes_texts_iff.1
  case retryCount =>
    refine hping.isTold_said PingConfig.retryCount fun hw => ?_
    exact (takes_ping_iff.1 hw).2.2.isTold eq_nat_of_takes_uint32
  case pauseMillis =>
    refine hping.isTold_said PingConfig.pauseMillis fun hw => ?_
    exact (takes_ping_iff.1 hw).2.1.isTold eq_nat_of_takes_uint64
  case atCommand =>
    refine hscheduler.isTold_said SchedulerConfig.atCommand fun hw => ?_
    exact (takes_scheduler_iff.1 hw).2.1.isTold eq_text_of_takes
  case atqCommand =>
    refine hscheduler.isTold_said SchedulerConfig.atqCommand fun hw => ?_
    exact (takes_scheduler_iff.1 hw).2.2.1.isTold eq_text_of_takes
  case atrmCommand =>
    refine hscheduler.isTold_said SchedulerConfig.atrmCommand fun hw => ?_
    exact (takes_scheduler_iff.1 hw).2.2.2.1.isTold eq_text_of_takes
  case queue =>
    refine hscheduler.isTold_said SchedulerConfig.queue fun hw => ?_
    exact (takes_scheduler_iff.1 hw).2.2.2.2.1.isTold fun hw => (takes_letter_iff.1 hw).1
  case timeoutSecs =>
    refine hscheduler.isTold_said SchedulerConfig.timeoutSecs fun hw => ?_
    exact (takes_scheduler_iff.1 hw).2.2.2.2.2.isTold eq_nat_of_takes_uint64
  case fileName =>
    refine hhits.isTold_said HitListConfig.fileName fun hw => ?_
    exact (takes_hitList_iff.1 hw).2.2.isTold eq_text_of_takes
  case derivedCsv =>
    refine hhits.isTold_said HitListConfig.derivedCsv fun hw => ?_
    exact (takes_hitList_iff.1 hw).2.1.isTold eq_text_of_takes
  case staleAfterSecs =>
    refine hsweep.isTold_said SweepConfig.staleAfterSecs fun hw => ?_
    exact (takes_sweep_iff.1 hw).2.isTold eq_nat_of_takes_uint64

/-! ### Where the schema and the types agree -/

/-- **The schema and the types agree** on every document except for counts that are held as
floating-point numbers.  A document that fits is read exactly if no count that it says is held so,
and what it is read as it tells, field by field.  Numbers are held so exactly if they are written
with a fraction or an exponent, as `-0`, or as an integer beyond those of 64 bits. -/
theorem only_real_counts_are_refused {v : Value} (hfits : Shape.config.faults v = []) :
    ((∃ c, ofJson v = .ok c) ↔
        ∀ count ∈ counts, ∀ w ∈ said v count.1 count.2, ¬ w.IsReal) ∧
      (∀ c, ofJson v = .ok c → Tells v c) ∧
        ∀ negative cs n rest, Json.number negative cs = .ok (n, rest) →
          ((Value.number n).IsReal ↔ Json.IsWrittenReal negative cs) := by
  refine ⟨?_, fun c hc => tells_of_takes ⟨hfits, hc⟩, fun _ _ _ _ => Json.number_isReal_iff⟩
  rw [← exists_takes_config_iff hfits]
  exact exists_congr fun c => ⟨fun hc => ⟨hfits, hc⟩, fun h => h.reads⟩

/-- A document with a retry count, and with the largest time there is. -/
def retrying (retryCount : Json.Number) : Value :=
  .object [("job_root_directory", .text "/jobs"),
    ("ping", .object [("retry_count", .number retryCount)]),
    ("reconcile", .object [("stale_after_secs", .nat (UInt64.size - 1))]),
    ("scheduler", .object [("queue", .null)]), ("version", .text "1.0")]

/-- **Zero retries are read, and `-0` ones are not,** although both fit. -/
theorem only_real_counts_are_refused_minus_zero :
    (Shape.config.faults (retrying (.natural 0)) = [] ∧
        ∃ c, ofJson (retrying (.natural 0)) = .ok c ∧ Tells (retrying (.natural 0)) c) ∧
      Json.number true ['0'] = .ok (.real (.zero true), []) ∧ Json.IsWrittenReal true ['0'] ∧
      Shape.config.faults (retrying (.real (.zero true))) = [] ∧
        ¬ ∃ c, ofJson (retrying (.real (.zero true))) = .ok c := by
  have hzero : Shape.config.faults (retrying (.natural 0)) = [] := by decide +kernel
  have hminus : Shape.config.faults (retrying (.real (.zero true))) = [] := by decide +kernel
  have hnumber : Json.number true ['0'] = .ok (.real (.zero true), []) := by rfl
  obtain ⟨hread, htells, -⟩ := only_real_counts_are_refused hzero
  obtain ⟨hread', -, hwritten⟩ := only_real_counts_are_refused hminus
  obtain ⟨c, hc⟩ := hread.2 (by decide)
  refine ⟨⟨hzero, c, hc, htells c hc⟩, hnumber, (hwritten _ _ _ _ hnumber).1 ⟨_, rfl⟩, hminus, ?_⟩
  intro h
  exact hread'.1 h ("ping", "retry_count") (by decide) _ rfl ⟨_, rfl⟩

end Config
end JobSpool
