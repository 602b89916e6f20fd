/-
# Loading a configuration

`load_config`, `load_config_from_str` and `validate_config`: `SPEC_FULL.md`, E4.

A configuration file is read in four steps, and the first one that fails tells why: the
text must be JSON, the document must fit the schema, every value must be of the type
that is read, and the values must make sense together.

The third step fails only for numbers: the schema takes `2.0` and `-0` for integers,
but a count is read from whole numbers that are written as such.
-/

import JobSpool.Config
import JobSpool.Config.Schema

namespace JobSpool
namespace Config

/-! ### Reading values of their types -/

/-- Why a number is not of the type that is read. -/
def unfit (n : Json.Number) (type : String) : String :=
  match n with
  | .real _ =>
    "invalid type: floating point `" ++ (Json.Value.number n).render ++ "`, expected " ++ type
  | _ => "invalid value: integer `" ++ (Json.Value.number n).render ++ "`, expected " ++ type

/-- Why a value is not of the type that is read. -/
def unexpected (v : Json.Value) (type : String) : String :=
  "invalid type: " ++ v.render ++ ", expected " ++ type

/-- Reads a text. -/
def readText : Json.Value → Except String String
  | .text s => .ok s
  | v => .error (unexpected v "a string")

/-- Reads a list of texts. -/
def readTexts : Json.Value → Except String (List String)
  | .list items => items.mapM readText
  | v => .error (unexpected v "a sequence")

/-- Reads a text or `null`. -/
def readOptionalText : Json.Value → Except String (Option String)
  | .null => .ok none
  | v => (readText v).map some

/-- Reads a count of 64 bits. -/
def readUInt64 : Json.Value → Except String UInt64
  | .number (.natural n) => .ok n
  | .number n => .error (unfit n "u64")
  | v => .error (unexpected v "u64")

/-- Reads a count of 32 bits. -/
def readUInt32 : Json.Value → Except String UInt32
  | .number (.natural n) =>
    if n.toNat < UInt32.size then .ok n.toUInt32 else .error (unfit (.natural n) "u32")
  | .number n => .error (unfit n "u32")
  | v => .error (unexpected v "u32")

/-- Reads a member of an object, or takes its default. -/
def readMember {α : Type} (read : Json.Value → Except String α) (default : α) (name : String)
    (v : Json.Value) : Except String α :=
  match v.member? name with
  | none => .ok default
  | some value => read value

/-- Reads a member of an object that must be there. -/
def readRequired {α : Type} (read : Json.Value → Except String α) (name : String)
    (v : Json.Value) : Except String α :=
  match v.member? name with
  | none => .error ("missing field `" ++ name ++ "`")
  | some value => read value

/-- The value, if it is an object. -/
def anObject : Json.Value → Except String Json.Value
  | .object members => .ok (.object members)
  | v => .error (unexpected v "an object")

/-- Reads the section on the hit list. -/
def readHitList (v : Json.Value) : Except String HitListConfig := do
  let v ← anObject v
  let derivedCsv ← readMember readText ({} : HitListConfig).derivedCsv "derived_csv" v
  let fileName ← readMember readText ({} : HitListConfig).fileName "file_name" v
  return { fileName, derivedCsv }

/-- Reads the section on pings. -/
def readPing (v : Json.Value) : Except String PingConfig := do
  let v ← anObject v
  let pauseMillis ← readMember readUInt64 ({} : PingConfig).pauseMillis "pause_millis" v
  let retryCount ← readMember readUInt32 ({} : PingConfig).retryCount "retry_count" v
  return { retryCount, pauseMillis }

/-- Reads the section on sweeps. -/
def readSweep (v : Json.Value) : Except String SweepConfig := do
  let v ← anObject v
  let staleAfterSecs ← readMember readUInt64 ({} : SweepConfig).staleAfterSecs "stale_after_secs" v
  return { staleAfterSecs }

/-- Reads the section on the execution facility. -/
def readScheduler (v : Json.Value) : Except String SchedulerConfig := do
  let v ← anObject v
  let default : SchedulerConfig := {}
  let atCommand ← readMember readText default.atCommand "at_command" v
  let atqCommand ← readMember readText default.atqCommand "atq_command" v
  let atrmCommand ← readMember readText default.atrmCommand "atrm_command" v
  let queue ← readMember readOptionalText default.queue "queue" v
  let timeoutSecs ← readMember readUInt64 default.timeoutSecs "timeout_secs" v
  return { atCommand, atqCommand, atrmCommand, queue, timeoutSecs }

/-- Reads the section on the worker. -/
def readWorker (v : Json.Value) : Except String WorkerConfig := do
  let v ← anObject v
  let args ← readMember readTexts ({} : WorkerConfig).args "args" v
  let executable ← readMember readText ({} : WorkerConfig).executable "executable" v
  return { executable, args }

/-- Reads a configuration from a document, in the byte order of the names. Unknown members are not
looked at. -/
def ofJson (v : Json.Value) : Except String Config := do
  let v ← anObject v
  let hitList ← readMember readHitList {} "hit_list" v
  let jobRoot ← readRequired readText "job_root_directory" v
  let ping ← readMember readPing {} "ping" v
  let sweep ← readMember readSweep {} "reconcile" v
  let scheduler ← readMember readScheduler {} "scheduler" v
  let version ← readRequired readText "version" v
  let worker ← readMember readWorker {} "worker" v
  return { version, jobRoot := ⟨jobRoot⟩, worker, ping, scheduler, hitList, sweep }

/-! ### Values that make sense -/

/-- The message for a name of the hit list that is not plain. -/
def notPlain (field name : String) : String :=
  field ++ " must be a plain file name, got '" ++ name ++ "'"

/-- The rules for the values of a configuration: whether each holds, and the message when it does
not, in the order in which they are checked. -/
def rules (c : Config) : List (Bool × String) :=
  [(c.version == currentVersion, "Unsupported config version: " ++ c.version),
   (!c.jobRoot.text.isEmpty, "job_root_directory must not be empty"),
   (!Text.isBlankText c.worker.executable, "worker.executable must not be empty"),
   (c.scheduler.timeoutSecs != 0, "scheduler.timeout_secs must be at least 1"),
   (c.sweep.staleAfterSecs != 0, "reconcile.stale_after_secs must be at least 1"),
   (FileName.isPlain c.hitList.fileName, notPlain "hit_list.file_name" c.hitList.fileName),
   (FileName.isPlain c.hitList.derivedCsv, notPlain "hit_list.derived_csv" c.hitList.derivedCsv),
   (c.hitList.fileName != c.hitList.derivedCsv,
    "hit_list.file_name and hit_list.derived_csv must differ")]

/-- `validate_config`: the message of the first rule that a configuration breaks. -/
def violation? (c : Config) : Option String :=
  (c.rules.find? (!·.1)).map (·.2)

/-! ### The four steps -/

/-- The configuration that a document stands for. -/
def ofDocument (v : Json.Value) : Except ConfigError Config :=
  match Shape.config.faults v with
  | [] =>
    match ofJson v with
    | .error reason => .error (.illTyped reason)
    | .ok c =>
      match c.violation? with
      | some reason => .error (.validation reason)
      | none => .ok c
  | faults => .error (.schema faults)

/-- `load_config_from_str`: the configuration that a text stands for. -/
def ofText (text : String) : Except ConfigError Config :=
  match Json.parse text with
  | .error fault => .error (.notJson fault)
  | .ok v => ofDocument v

/-- `load_config`: the configuration in a file. -/
def load (path : Path) (t : Files.Tree) : Except ConfigError Config :=
  match t.readText path with
  | .error fault => .error (.read path fault)
  | .ok text => ofText text

/-! ### Configurations that were accepted -/

/-- Does a text stand for the configuration? -/
def IsAccepted (c : Config) : Prop :=
  ∃ text, ofText text = .ok c

namespace IsAccepted

variable {c : Config}

/-- **A configuration that was accepted breaks no rule.** -/
theorem violation?_eq_none (h : c.IsAccepted) : c.violation? = none := by
  obtain ⟨text, h⟩ := h
  unfold ofText at h
  split at h
  · cases h
  · unfold ofDocument at h
    split at h
    · split at h
      · cases h
      · split at h
        · cases h
        · rename_i hnone
          cases h
          exact hnone
    · cases h

/-- An accepted configuration keeps every rule. -/
theorem holds (h : c.IsAccepted) : ∀ rule ∈ c.rules, rule.1 = true := by
  have hnone := h.violation?_eq_none
  rw [violation?, Option.map_eq_none_iff, List.find?_eq_none] at hnone
  simpa using hnone

/-- It has a job root. -/
theorem jobRoot_ne_nil (h : c.IsAccepted) : c.jobRoot.text.toList ≠ [] := by
  have hrule := h.holds (!c.jobRoot.text.isEmpty, "job_root_directory must not be empty")
    (by simp [rules])
  intro hnil
  rw [String.toList_eq_nil_iff] at hnil
  simp [hnil] at hrule

/-- The two files of its hit list have plain names, -/
theorem isPlain_fileName (h : c.IsAccepted) : FileName.isPlain c.hitList.fileName = true :=
  h.holds (FileName.isPlain c.hitList.fileName, notPlain "hit_list.file_name" c.hitList.fileName)
    (by simp [rules])

/-- The derived list of an accepted configuration has a plain name. -/
theorem isPlain_derivedCsv (h : c.IsAccepted) : FileName.isPlain c.hitList.derivedCsv = true :=
  h.holds (FileName.isPlain c.hitList.derivedCsv,
    notPlain "hit_list.derived_csv" c.hitList.derivedCsv)
    (by simp [rules])

/-- and each its own. -/
theorem fileName_ne_derivedCsv (h : c.IsAccepted) :
    c.hitList.fileName ≠ c.hitList.derivedCsv := by
  have hrule := h.holds (c.hitList.fileName != c.hitList.derivedCsv,
    "hit_list.file_name and hit_list.derived_csv must differ") (by simp [rules])
  exact bne_iff_ne.1 hrule

/-- A text that is read stands for an accepted configuration. -/
theorem of_toOption {text : String} (h : (ofText text).toOption = some c) : c.IsAccepted := by
  refine ⟨text, ?_⟩
  cases htext : ofText text with
  | error cause =>
    rw [htext] at h
    cases h
  | ok c' =>
    rw [htext] at h
    rw [Option.some.inj h]

end IsAccepted

/-- A text with the members that are required, and no others. -/
def minimalText : String :=
  "\x7b\"version\":\"1.0\",\"job_root_directory\":\"/jobs\"\x7d"

/-- **Such a text is accepted,** and leaves everything else at its default. -/
theorem isAccepted_minimal : IsAccepted (.withJobRoot ⟨"/jobs"⟩) := by
  have hread : (ofText minimalText).toOption = some (.withJobRoot ⟨"/jobs"⟩) := by decide +kernel
  exact .of_toOption hread

end Config
end JobSpool
