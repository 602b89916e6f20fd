/-
# What is taken from a document

A value of a configuration goes through two readers.  The schema says what is wrong with it, and
then it is read as a value of its type.  `Takes` says that it passes both and what it is read as.
For each kind of field this determines the value (`takes_text_iff` and those after it), although
neither reader does: the schema alone takes `2.0` for an integer, and only the schema bounds it.

A section of a configuration is taken if each of its fields is taken from its member, or has
its default where the member is missing (`TakesMember`), and no other members are there.  So
is a configuration from its sections (`takes_config_iff`).
-/

import JobSpool.Config.Load
import JobSpool.Proofs.NameOrder

namespace JobSpool

open Json (Value)

/-- A computation in two steps succeeds if both steps do. -/
theorem Except.bind_eq_ok {ε α β : Type} {x : Except ε α} {f : α → Except ε β} {b : β} :
    (x >>= f) = .ok b ↔ ∃ a, x = .ok a ∧ f a = .ok b := by
  cases x with
  | error e => simp [bind, Except.bind]
  | ok a => simp [bind, Except.bind]

namespace Shape

/-- An object has no faults in its known members if none of those that are there has any. -/
theorem memberFaults_eq_nil_iff {members : List (String × Shape)} {v : Value} :
    memberFaults members v = [] ↔
      ∀ m ∈ members, ∀ w, v.member? m.1 = some w → m.2.faults w = [] := by
  induction members with
  | nil => simp [memberFaults]
  | cons m members ih =>
    obtain ⟨name, shape⟩ := m
    rw [memberFaults, List.append_eq_nil_iff, ih, List.forall_mem_cons]
    refine and_congr_left fun _ => ?_
    cases v.member? name <;> simp

/-- No message about missing members means that all of them are there. -/
theorem missingFaults_eq_nil_iff {required : List String} {v : Value} :
    missingFaults required v = [] ↔ ∀ name ∈ required, (v.member? name).isSome = true := by
  rw [missingFaults, List.map_eq_nil_iff, List.filter_eq_nil_iff]
  simp [Option.isSome_iff_ne_none]

/-- No message about unknown members means that all are known. -/
theorem unknownFaults_eq_nil_iff {known : List String} {given : List (String × Value)} :
    unknownFaults known given = [] ↔ ∀ m ∈ given, m.1 ∈ known := by
  have hnames : unknownFaults known given = [] ↔
      Text.sortNames ((given.map (·.1)).filter (!known.contains ·)) = [] := by
    unfold unknownFaults
    dsimp only
    split
    · rename_i hnil
      exact iff_of_true rfl hnil
    · rename_i hne
      exact iff_of_false (List.cons_ne_nil _ _) hne
  rw [hnames, ← List.length_eq_zero_iff, (Text.perm_sortNames _).length_eq,
    List.length_eq_zero_iff, List.filter_eq_nil_iff]
  simp

/-- **An object fits** if no required member is missing, what its members hold fits, and no member
is unknown. -/
theorem faults_object_eq_nil_iff {required : List String} {members : List (String × Shape)}
    {given : List (String × Value)} :
    (object required members).faults (.object given) = [] ↔
      (∀ name ∈ required, ((Value.object given).member? name).isSome = true) ∧
        (∀ m ∈ members, ∀ w, (Value.object given).member? m.1 = some w → m.2.faults w = []) ∧
          ∀ m ∈ given, m.1 ∈ members.map (·.1) := by
  rw [faults, List.append_eq_nil_iff, List.append_eq_nil_iff, missingFaults_eq_nil_iff,
    memberFaults_eq_nil_iff, unknownFaults_eq_nil_iff, and_assoc]

end Shape

namespace Config

/-! ### Fields -/

/-- Does a value fit a schema, and is it read as something? -/
structure Takes {α : Type} (shape : Shape) (read : Value → Except String α) (v : Value) (x : α) :
    Prop where
  fits : shape.faults v = []
  reads : read v = .ok x

/-- A text is read from texts alone. -/
theorem readText_eq_ok_iff {v : Value} {s : String} : readText v = .ok s ↔ v = .text s := by
  cases v <;> simp [readText]

/-- A text is taken that is long enough. -/
theorem takes_text_iff {minLength : Nat} {v : Value} {s : String} :
    Takes (.text minLength) readText v s ↔ v = .text s ∧ minLength ≤ s.length := by
  constructor
  · rintro ⟨hfits, hreads⟩
    rw [readText_eq_ok_iff] at hreads
    subst hreads
    refine ⟨rfl, Nat.le_of_not_lt fun hshort => ?_⟩
    simp [Shape.faults, Shape.lengthFaults, hshort] at hfits
  · rintro ⟨rfl, hlength⟩
    refine ⟨?_, rfl⟩
    simp [Shape.faults, Shape.lengthFaults, Nat.not_lt.2 hlength]

/-- A list of texts is read from such lists alone. -/
theorem readTexts_eq_ok_iff {v : Value} {items : List String} :
    readTexts v = .ok items ↔ v = .texts items := by
  cases v with
  | list vs =>
    rw [readTexts, Value.texts, Value.list.injEq]
    induction vs generalizing items with
    | nil => cases items <;> simp [pure, Except.pure]
    | cons v vs ih =>
      rw [List.mapM_cons]
      simp only [Except.bind_eq_ok, readText_eq_ok_iff, ih, pure, Except.pure, Except.ok.injEq]
      cases items with
      | nil => simp
      | cons s items => simp [eq_comm, and_comm]
  | _ => simp [readTexts, Value.texts]

/-- Any list of texts is taken. -/
theorem takes_texts_iff {v : Value} {items : List String} :
    Takes .texts readTexts v items ↔ v = .texts items := by
  constructor
  · rintro ⟨-, hreads⟩
    exact readTexts_eq_ok_iff.1 hreads
  · rintro rfl
    refine ⟨?_, readTexts_eq_ok_iff.2 rfl⟩
    simp [Shape.faults, Value.texts, Shape.itemFaults]

/-- A queue is taken that is one letter, or `null`. -/
theorem takes_letter_iff {v : Value} {q : Option String} :
    Takes .letter readOptionalText v q ↔
      v = .orNull (q.map .text) ∧ ∀ s ∈ q, Shape.isLetter s = true := by
  constructor
  · rintro ⟨hfits, hreads⟩
    cases v with
    | null =>
      obtain rfl := Except.ok.inj hreads
      exact ⟨rfl, nofun⟩
    | text s =>
      obtain rfl : some s = q := Except.ok.inj hreads
      refine ⟨rfl, ?_⟩
      rintro s ⟨⟩
      simpa [Shape.faults, Shape.letterFaults] using hfits
    | _ => cases hreads
  · rintro ⟨rfl, hletter⟩
    cases q with
    | none => exact ⟨rfl, rfl⟩
    | some s =>
      have hs := hletter s rfl
      refine ⟨?_, rfl⟩
      simp [Shape.faults, Shape.letterFaults, Value.orNull, hs]

/-- The schema has nothing against a whole number within its bounds. -/
theorem faults_natural_eq_nil_iff {minimum : Nat} {maximum : Option Nat} {n : UInt64} :
    (Shape.integer minimum maximum).faults (.number (.natural n)) = [] ↔
      minimum ≤ n.toNat ∧ ∀ bound ∈ maximum, n.toNat ≤ bound := by
  cases maximum <;>
    simp [Shape.faults, Shape.integerFaults, Shape.boundFaults, Json.Number.isInteger,
      Json.Number.isBelow, Json.Number.isAbove]

/-- A count of 64 bits is read from numbers that are held as whole ones, and from no others. -/
theorem readUInt64_eq_ok_iff {v : Value} {n : UInt64} :
    readUInt64 v = .ok n ↔ v = .number (.natural n) := by
  unfold readUInt64
  split <;> simp_all

/-- A count of 64 bits is taken within the bounds of its field. -/
theorem takes_uint64_iff {minimum : Nat} {maximum : Option Nat} {v : Value} {n : UInt64} :
    Takes (.integer minimum maximum) readUInt64 v n ↔
      v = .number (.natural n) ∧ minimum ≤ n.toNat ∧ ∀ bound ∈ maximum, n.toNat ≤ bound := by
  constructor
  · rintro ⟨hfits, hreads⟩
    rw [readUInt64_eq_ok_iff] at hreads
    subst hreads
    exact ⟨rfl, faults_natural_eq_nil_iff.1 hfits⟩
  · rintro ⟨rfl, hbounds⟩
    exact ⟨faults_natural_eq_nil_iff.2 hbounds, rfl⟩

/-- A count of 32 bits is not changed by being held in 64. -/
theorem toNat_ofNat_toNat (n : UInt32) : (UInt64.ofNat n.toNat).toNat = n.toNat :=
  UInt64.toNat_ofNat_of_lt' (Nat.lt_trans n.toNat_lt (by decide))

/-- A count of 32 bits is read from the whole numbers that are one. -/
theorem readUInt32_eq_ok_iff {v : Value} {n : UInt32} :
    readUInt32 v = .ok n ↔ v = .nat n.toNat := by
  have hsize := toNat_ofNat_toNat n
  constructor
  · intro h
    unfold readUInt32 at h
    split at h
    · rename_i m
      split at h
      · rename_i hsmall
        rw [← Except.ok.inj h, UInt64.toNat_toUInt32, Nat.mod_eq_of_lt hsmall, Value.nat,
          UInt64.ofNat_toNat]
      · cases h
    · cases h
    · cases h
  · rintro rfl
    rw [Value.nat, readUInt32, hsize, if_pos n.toNat_lt, Except.ok.injEq, ← UInt32.toNat_inj,
      UInt64.toNat_toUInt32, hsize, Nat.mod_eq_of_lt n.toNat_lt]

/-- A count of 32 bits is taken within the bounds of its field. -/
theorem takes_uint32_iff {minimum : Nat} {maximum : Option Nat} {v : Value} {n : UInt32} :
    Takes (.integer minimum maximum) readUInt32 v n ↔
      v = .nat n.toNat ∧ minimum ≤ n.toNat ∧ ∀ bound ∈ maximum, n.toNat ≤ bound := by
  have hsize := toNat_ofNat_toNat n
  constructor
  · rintro ⟨hfits, hreads⟩
    rw [readUInt32_eq_ok_iff] at hreads
    subst hreads
    rw [Value.nat, faults_natural_eq_nil_iff, hsize] at hfits
    exact ⟨rfl, hfits⟩
  · rintro ⟨rfl, hbounds⟩
    refine ⟨?_, readUInt32_eq_ok_iff.2 rfl⟩
    rw [Value.nat, faults_natural_eq_nil_iff, hsize]
    exact hbounds

/-! ### Members -/

/-- Is something taken from a member of an object, or its default where the member is missing? -/
def TakesMember {α : Type} (shape : Shape) (read : Value → Except String α) (default : α)
    (name : String) (v : Value) (x : α) : Prop :=
  match v.member? name with
  | some w => Takes shape read w x
  | none => x = default

/-- A field that may be missing is taken if schema and reader both accept it. -/
theorem takesMember_iff {α : Type} {shape : Shape} {read : Value → Except String α} {default : α}
    {name : String} {v : Value} {x : α} : TakesMember shape read default name v x ↔
      (∀ w, v.member? name = some w → shape.faults w = []) ∧
        readMember read default name v = .ok x := by
  unfold TakesMember readMember
  cases v.member? name with
  | none => exact ⟨fun h => ⟨nofun, congrArg Except.ok h.symm⟩, fun h => (Except.ok.inj h.2).symm⟩
  | some w => exact ⟨fun h => ⟨by rintro w ⟨⟩; exact h.fits, h.reads⟩, fun h => ⟨h.1 w rfl, h.2⟩⟩

/-- **What holds of the default and of all that is taken from a value** holds of what is taken from
a member. -/
theorem TakesMember.elim {α : Type} {shape : Shape} {read : Value → Except String α} {default : α}
    {name : String} {v : Value} {x : α} (h : TakesMember shape read default name v x)
    {P : α → Prop} (hdefault : P default) (htakes : ∀ w, Takes shape read w x → P x) : P x := by
  unfold TakesMember at h
  split at h
  · exact htakes _ h
  · exact h ▸ hdefault

/-- Is something taken from a member that must be there? -/
def TakesRequired {α : Type} (shape : Shape) (read : Value → Except String α) (name : String)
    (v : Value) (x : α) : Prop :=
  ∃ w, v.member? name = some w ∧ Takes shape read w x

/-- A field that is required is taken if it is there, and schema and reader both accept it. -/
theorem takesRequired_iff {α : Type} {shape : Shape} {read : Value → Except String α}
    {name : String} {v : Value} {x : α} : TakesRequired shape read name v x ↔
      (v.member? name).isSome = true ∧ (∀ w, v.member? name = some w → shape.faults w = []) ∧
        readRequired read name v = .ok x := by
  unfold TakesRequired readRequired
  cases v.member? name with
  | none => simp
  | some w =>
    constructor
    · rintro ⟨_, ⟨⟩, h⟩
      exact ⟨rfl, by rintro _ ⟨⟩; exact h.fits, h.reads⟩
    · rintro ⟨-, hfits, hreads⟩
      exact ⟨w, rfl, hfits w rfl, hreads⟩

/-- Is a value an object that has no members but those with the given names? -/
def HasOnly (names : List String) (v : Value) : Prop :=
  ∃ given, v = .object given ∧ ∀ m ∈ given, m.1 ∈ names

/-- **What fits as an object is one,** with all that is required and no other members than the known
ones, and what they hold fits. -/
theorem object_faults_eq_nil_iff {required : List String} {members : List (String × Shape)}
    {v : Value} : (Shape.object required members).faults v = [] ↔
      HasOnly (members.map (·.1)) v ∧ (∀ name ∈ required, (v.member? name).isSome = true) ∧
        ∀ m ∈ members, ∀ w, v.member? m.1 = some w → m.2.faults w = [] := by
  constructor
  · intro hfits
    cases v with
    | object given =>
      obtain ⟨hrequired, hmembers, honly⟩ := Shape.faults_object_eq_nil_iff.1 hfits
      exact ⟨⟨given, rfl, honly⟩, hrequired, hmembers⟩
    | _ => cases hfits
  · rintro ⟨⟨given, rfl, honly⟩, hrequired, hmembers⟩
    exact Shape.faults_object_eq_nil_iff.2 ⟨hrequired, hmembers, honly⟩

/-- **An object is taken** if it has no members but those of the schema, its members fit, and it is
read. -/
theorem takes_object_iff {α : Type} {required : List String} {members : List (String × Shape)}
    {read : Value → Except String α} {x : α} {fields : Prop} {v : Value}
    (h : ∀ given, v = .object given →
      ((∀ name ∈ required, (v.member? name).isSome = true) ∧
        (∀ m ∈ members, ∀ w, v.member? m.1 = some w → m.2.faults w = []) ∧ read v = .ok x ↔
          fields)) :
    Takes (.object required members) read v x ↔ HasOnly (members.map (·.1)) v ∧ fields := by
  constructor
  · rintro ⟨hfits, hreads⟩
    obtain ⟨⟨given, rfl, honly⟩, hrequired, hmembers⟩ := object_faults_eq_nil_iff.1 hfits
    exact ⟨⟨given, rfl, honly⟩, (h given rfl).1 ⟨hrequired, hmembers, hreads⟩⟩
  · rintro ⟨⟨given, rfl, honly⟩, hfields⟩
    obtain ⟨hrequired, hmembers, hreads⟩ := (h given rfl).2 hfields
    exact ⟨object_faults_eq_nil_iff.2 ⟨⟨given, rfl, honly⟩, hrequired, hmembers⟩, hreads⟩

end Config

/-! ### Sections -/

namespace Shape

/-- The schema of the section on the hit list, -/
def hitList : Shape :=
  .object [] [("derived_csv", .text 1), ("file_name", .text 1)]

/-- of the section on pings, -/
def ping : Shape :=
  .object [] [("pause_millis", .integer 0 (some 9999)), ("retry_count", .integer 0 (some 99))]

/-- of the section on sweeps, -/
def sweep : Shape :=
  .object [] [("stale_after_secs", .integer 1 none)]

/-- of the section on the execution facility, -/
def scheduler : Shape :=
  .object [] [("at_command", .text 1), ("atq_command", .text 1), ("atrm_command", .text 1),
    ("queue", .letter), ("timeout_secs", .integer 1 none)]

/-- and of the section on the worker. -/
def worker : Shape :=
  .object [] [("args", .texts), ("executable", .text 1)]

/-- The schema of a configuration, section by section. -/
theorem config_eq : config = .object ["version", "job_root_directory"]
    [("hit_list", hitList), ("job_root_directory", .text 1), ("ping", ping), ("reconcile", sweep),
      ("scheduler", scheduler), ("version", .text 0), ("worker", worker)] := rfl

end Shape

namespace Config

variable {v : Value}

/-- **A section is taken field by field,** and in no other way: the one on the hit list, -/
theorem takes_hitList_iff {h : HitListConfig} : Takes .hitList readHitList v h ↔
    HasOnly ["derived_csv", "file_name"] v ∧
      TakesMember (.text 1) readText ({} : HitListConfig).derivedCsv "derived_csv" v h.derivedCsv ∧
      TakesMember (.text 1) readText ({} : HitListConfig).fileName "file_name" v h.fileName := by
  refine takes_object_iff ?_
  rintro given rfl
  simp only [readHitList, anObject, Except.bind_eq_ok, Except.ok.injEq, pure, Except.pure,
    takesMember_iff, List.forall_mem_cons]
  constructor
  · rintro ⟨-, ⟨hcsv, hname, -⟩, _, rfl, _, hcsv', _, hname', rfl⟩
    exact ⟨⟨hcsv, hcsv'⟩, hname, hname'⟩
  · rintro ⟨⟨hcsv, hcsv'⟩, hname, hname'⟩
    exact ⟨nofun, ⟨hcsv, hname, nofun⟩, _, rfl, _, hcsv', _, hname', rfl⟩

/-- the one on pings, -/
theorem takes_ping_iff {p : PingConfig} : Takes .ping readPing v p ↔
    HasOnly ["pause_millis", "retry_count"] v ∧
      TakesMember (.integer 0 (some 9999)) readUInt64 ({} : PingConfig).pauseMillis
        "pause_millis" v p.pauseMillis ∧
      TakesMember (.integer 0 (some 99)) readUInt32 ({} : PingConfig).retryCount
        "retry_count" v p.retryCount := by
  refine takes_object_iff ?_
  rintro given rfl
  simp only [readPing, anObject, Except.bind_eq_ok, Except.ok.injEq, pure, Except.pure,
    takesMember_iff, List.forall_mem_cons]
  constructor
  · rintro ⟨-, ⟨hpause, hretry, -⟩, _, rfl, _, hpause', _, hretry', rfl⟩
    exact ⟨⟨hpause, hpause'⟩, hretry, hretry'⟩
  · rintro ⟨⟨hpause, hpause'⟩, hretry, hretry'⟩
    exact ⟨nofun, ⟨hpause, hretry, nofun⟩, _, rfl, _, hpause', _, hretry', rfl⟩

/-- the one on sweeps, -/
theorem takes_sweep_iff {s : SweepConfig} : Takes .sweep readSweep v s ↔
    HasOnly ["stale_after_secs"] v ∧
      TakesMember (.integer 1 none) readUInt64 ({} : SweepConfig).staleAfterSecs
        "stale_after_secs" v s.staleAfterSecs := by
  refine takes_object_iff ?_
  rintro given rfl
  simp only [readSweep, anObject, Except.bind_eq_ok, Except.ok.injEq, pure, Except.pure,
    takesMember_iff, List.forall_mem_cons]
  constructor
  · rintro ⟨-, ⟨hstale, -⟩, _, rfl, _, hstale', rfl⟩
    exact ⟨hstale, hstale'⟩
  · rintro ⟨hstale, hstale'⟩
    exact ⟨nofun, ⟨hstale, nofun⟩, _, rfl, _, hstale', rfl⟩

/-- the one on the execution facility, -/
theorem takes_scheduler_iff {s : SchedulerConfig} : Takes .scheduler readScheduler v s ↔
    HasOnly ["at_command", "atq_command", "atrm_command", "queue", "timeout_secs"] v ∧
      TakesMember (.text 1) readText ({} : SchedulerConfig).atCommand "at_command" v s.atCommand ∧
      TakesMember (.text 1) readText ({} : SchedulerConfig).atqCommand
        "atq_command" v s.atqCommand ∧
      TakesMember (.text 1) readText ({} : SchedulerConfig).atrmCommand
        "atrm_command" v s.atrmCommand ∧
      TakesMember .letter readOptionalText ({} : SchedulerConfig).queue "queue" v s.queue ∧
      TakesMember (.integer 1 none) readUInt64 ({} : SchedulerConfig).timeoutSecs
        "timeout_secs" v s.timeoutSecs := by
  refine takes_object_iff ?_
  rintro given rfl
  simp only [readScheduler, anObject, Except.bind_eq_ok, Except.ok.injEq, pure, Except.pure,
    takesMember_iff, List.forall_mem_cons]
  constructor
  · rintro ⟨-, ⟨hat, hatq, hatrm, hqueue, htimeout, -⟩,
      _, rfl, _, hat', _, hatq', _, hatrm', _, hqueue', _, htimeout', rfl⟩
    exact ⟨⟨hat, hat'⟩, ⟨hatq, hatq'⟩, ⟨hatrm, hatrm'⟩, ⟨hqueue, hqueue'⟩, htimeout, htimeout'⟩
  · rintro ⟨⟨hat, hat'⟩, ⟨hatq, hatq'⟩, ⟨hatrm, hatrm'⟩, ⟨hqueue, hqueue'⟩, htimeout, htimeout'⟩
    exact ⟨nofun, ⟨hat, hatq, hatrm, hqueue, htimeout, nofun⟩,
      _, rfl, _, hat', _, hatq', _, hatrm', _, hqueue', _, htimeout', rfl⟩

/-- and the one on the worker. -/
theorem takes_worker_iff {w : WorkerConfig} : Takes .worker readWorker v w ↔
    HasOnly ["args", "executable"] v ∧
      TakesMember .texts readTexts ({} : WorkerConfig).args "args" v w.args ∧
      TakesMember (.text 1) readText ({} : WorkerConfig).executable
        "executable" v w.executable := by
  refine takes_object_iff ?_
  rintro given rfl
  simp only [readWorker, anObject, Except.bind_eq_ok, Except.ok.injEq, pure, Except.pure,
    takesMember_iff, List.forall_mem_cons]
  constructor
  · rintro ⟨-, ⟨hargs, hexecutable, -⟩, _, rfl, _, hargs', _, hexecutable', rfl⟩
    exact ⟨⟨hargs, hargs'⟩, hexecutable, hexecutable'⟩
  · rintro ⟨⟨hargs, hargs'⟩, hexecutable, hexecutable'⟩
    exact ⟨nofun, ⟨hargs, hexecutable, nofun⟩, _, rfl, _, hargs', _, hexecutable', rfl⟩

/-- **A configuration is taken section by section.** -/
theorem takes_config_iff {c : Config} : Takes .config ofJson v c ↔
    HasOnly ["hit_list", "job_root_directory", "ping", "reconcile", "scheduler", "version",
      "worker"] v ∧
      TakesMember .hitList readHitList {} "hit_list" v c.hitList ∧
      TakesRequired (.text 1) readText "job_root_directory" v c.jobRoot.text ∧
      TakesMember .ping readPing {} "ping" v c.ping ∧
      TakesMember .sweep readSweep {} "reconcile" v c.sweep ∧
      TakesMember .scheduler readScheduler {} "scheduler" v c.scheduler ∧
      TakesRequired (.text 0) readText "version" v c.version ∧
      TakesMember .worker readWorker {} "worker" v c.worker := by
  rw [Shape.config_eq]
  refine takes_object_iff ?_
  rintro given rfl
  simp only [ofJson, anObject, Except.bind_eq_ok, Except.ok.injEq, pure, Except.pure,
    takesMember_iff, takesRequired_iff, List.forall_mem_cons]
  constructor
  · rintro ⟨⟨hhasVersion, hhasRoot, -⟩,
      ⟨hhits, hroot, hping, hsweep, hscheduler, hversion, hworker, -⟩,
      _, rfl, _, hhits', _, hroot', _, hping', _, hsweep', _, hscheduler', _, hversion',
      _, hworker', rfl⟩
    exact ⟨⟨hhits, hhits'⟩, ⟨hhasRoot, hroot, hroot'⟩, ⟨hping, hping'⟩, ⟨hsweep, hsweep'⟩,
      ⟨hscheduler, hscheduler'⟩, ⟨hhasVersion, hversion, hversion'⟩, hworker, hworker'⟩
  · rintro ⟨⟨hhits, hhits'⟩, ⟨hhasRoot, hroot, hroot'⟩, ⟨hping, hping'⟩, ⟨hsweep, hsweep'⟩,
      ⟨hscheduler, hscheduler'⟩, ⟨hhasVersion, hversion, hversion'⟩, hworker, hworker'⟩
    exact ⟨⟨hhasVersion, hhasRoot, nofun⟩,
      ⟨hhits, hroot, hping, hsweep, hscheduler, hversion, hworker, nofun⟩,
      _, rfl, _, hhits', _, hroot', _, hping', _, hsweep', _, hscheduler', _, hversion',
      _, hworker', rfl⟩

/-- **A document is accepted as a configuration** if that is taken from it and breaks no rule. -/
theorem ofDocument_eq_ok_iff {c : Config} :
    ofDocument v = .ok c ↔ Takes .config ofJson v c ∧ ∀ rule ∈ c.rules, rule.1 = true := by
  have hrules : (∀ rule ∈ c.rules, rule.1 = true) ↔ c.violation? = none := by
    rw [violation?, Option.map_eq_none_iff, List.find?_eq_none]
    simp
  rw [hrules]
  unfold ofDocument
  constructor
  · intro h
    split at h
    · rename_i hfits
      split at h
      · cases h
      · rename_i hreads
        split at h
        · cases h
        · rename_i hnone
          cases h
          exact ⟨⟨hfits, hreads⟩, hnone⟩
    · cases h
  · rintro ⟨⟨hfits, hreads⟩, hnone⟩
    rw [hfits, hreads]
    dsimp only
    rw [hnone]

end Config
end JobSpool
