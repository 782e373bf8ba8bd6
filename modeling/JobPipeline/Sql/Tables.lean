import JobPipeline.Jobs.Record
import JobPipeline.Lib.Dict

/-!
# The tables (`db/models.py`) and what one transaction does to them

A row of `jobs` holds its UUID and its status as values, not as the texts the columns store: the
text of either determines it. `update` is an `UPDATE` by primary key. It changes the columns the
session assigned and leaves the others as they are now, whatever the session had read.

The functions that end in `Row` or `Assignments` compute on the row a session has read; `insert…`
and `commit…` are the transaction, applied to the tables as they are when it commits. Texts,
numbers and JSON meet the limits of their columns there: a value that does not fit fails it.
What `JSONB` gives back for a stored object is a parameter.
-/

set_option autoImplicit false

namespace JobPipeline

/-- A row of `jobs`. -/
structure Job where
  id : UUID
  handler : String
  payload : JsonObject
  status : JobStatus
  priority : Nat
  maxRetries : Nat
  timeoutSeconds : Nat
  attemptCount : Nat
  nextRunAt : Int
  runAt : Option Int
  recurringCron : Option String
  lockedBy : Option String
  lockedAt : Option Int
  kafkaMessageKey : Option String
  lastError : Option String
  result : Option JsonObject
  idempotencyKey : Option String
  createdAt : Int
  updatedAt : Int
  processedAt : Option Int

/-- A row of `job_attempts`, without its surrogate key. -/
structure JobAttempt where
  jobId : UUID
  attemptNumber : Nat
  status : AttemptStatus
  startedAt : Int
  finishedAt : Option Int
  error : Option String
  workerId : Option String
deriving DecidableEq

/-- A row of `ops_settings`, under its key. -/
structure OpsSetting where
  value : JsonObject
  updatedAt : Int

structure Database where
  jobs : Dict UUID Job
  jobAttempts : List JobAttempt
  opsSettings : Dict String OpsSetting

/-- What reading a `JSONB` column gives back for an object, if it can be stored. -/
abbrev Jsonb := JsonObject → Option JsonObject

/-- A text of a `String(n)` column: at most `n` characters, and none of them NUL. -/
def fitsString (n : Nat) (text : String) : Bool :=
  text.length ≤ n && !text.toList.contains (Char.ofNat 0)

/-- A text of a `Text` column. -/
def fitsText (text : String) : Bool := !text.toList.contains (Char.ofNat 0)

/-- A number of an `Integer` column. -/
def fitsInteger (n : Nat) : Bool := n < 2 ^ 31

def recordFromModel (job : Job) : JobRecord where
  id := job.id
  handler := job.handler
  payload := job.payload
  status := job.status
  priority := job.priority
  maxRetries := job.maxRetries
  timeoutSeconds := job.timeoutSeconds
  attemptCount := job.attemptCount
  nextRunAt := job.nextRunAt
  runAt := job.runAt
  recurringCron := job.recurringCron
  lockedBy := job.lockedBy
  lockedAt := job.lockedAt
  kafkaMessageKey := job.kafkaMessageKey
  lastError := job.lastError
  result := job.result
  idempotencyKey := job.idempotencyKey
  createdAt := job.createdAt
  updatedAt := job.updatedAt
  processedAt := job.processedAt

/-! ## Rows and assignments

SQLAlchemy leaves an attribute out of the `UPDATE` that is assigned what was loaded; here every
assignment to a job is written. That differs only if another session has changed the column since,
and the columns that two sessions change between the read and the commit of one (`status`,
`updated_at`, `processed_at`) are assigned something else than was loaded, unless two clock readings
coincide. The drain flag is the exception, and `OpsSetting.drainAssignments` says so.
-/

namespace Job

/-- The `Job(...)` of `create_job`. -/
def submittedRow (request : JobCreate) (jobId : UUID) (now : Int) : Job where
  id := jobId
  handler := request.handler
  payload := request.payload
  status := .queued
  priority := request.priority
  maxRetries := request.maxRetries
  timeoutSeconds := request.timeoutSeconds
  attemptCount := 0
  nextRunAt := initialNextRunAt (ensureAware request.runAt) now
  runAt := ensureAware request.runAt
  recurringCron := request.recurringCron
  lockedBy := none
  lockedAt := none
  kafkaMessageKey := some jobId.str
  lastError := none
  result := none
  idempotencyKey := request.idempotencyKey
  createdAt := now
  updatedAt := now
  processedAt := none

/-- The `Job(...)` of `create_next_recurring_job`. -/
def successorRow (job : JobRecord) (nextJobId : UUID) (nextRunAt now : Int) : Job where
  id := nextJobId
  handler := job.handler
  payload := job.payload
  status := .queued
  priority := job.priority
  maxRetries := job.maxRetries
  timeoutSeconds := job.timeoutSeconds
  attemptCount := 0
  nextRunAt := nextRunAt
  runAt := some nextRunAt
  recurringCron := job.recurringCron
  lockedBy := none
  lockedAt := none
  kafkaMessageKey := some nextJobId.str
  lastError := none
  result := none
  idempotencyKey := none
  createdAt := now
  updatedAt := now
  processedAt := none

/-- The assignments of `claim_job`, computed on the row it read. -/
def claimAssignments (read : Job) (workerId : String) (now : Int) (row : Job) : Job :=
  { row with
    status := .running, lockedBy := some workerId, lockedAt := some now,
    attemptCount := read.attemptCount + 1, updatedAt := now }

/-- The assignments of `mark_succeeded`. -/
def succeedAssignments (result : JsonObject) (now : Int) (row : Job) : Job :=
  { row with
    status := .succeeded, result := some result, lockedBy := none, lockedAt := none,
    processedAt := some now, updatedAt := now }

def exhausted (job : Job) : Bool := job.maxRetries < job.attemptCount

/-- The assignments of `mark_failed_attempt`; `processed_at` is one only when exhausted. -/
def failAssignments (read : Job) (error : String) (backoffSeconds : Int) (now : Int) (row : Job) :
    Job :=
  { row with
    status := if read.exhausted then .deadLettered else .failed
    lastError := some error, lockedBy := none, lockedAt := none,
    nextRunAt := now + seconds backoffSeconds, updatedAt := now,
    processedAt := if read.exhausted then some now else row.processedAt }

/-- The assignments of `cancel_job`. -/
def cancelAssignments (now : Int) (row : Job) : Job :=
  { row with status := .cancelled, updatedAt := now, processedAt := some now }

end Job

namespace OpsSetting

/-- `value` is `{"enabled": enabled}`. Only `set_drain` writes it, so what is under the key is a
    truth value. -/
def holds (setting : OpsSetting) (enabled : Bool) : Bool :=
  match setting.value with
  | [("enabled", .bool stored)] => stored = enabled
  | _ => false

/-- The assignments of `set_drain`. SQLAlchemy leaves an attribute out of the `UPDATE` that is
    assigned what was loaded, so it stays as it is now. -/
def drainAssignments (loaded : OpsSetting) (enabled : Bool) (now : Int) (row : OpsSetting) :
    OpsSetting where
  value := if loaded.holds enabled then row.value else [("enabled", .bool enabled)]
  updatedAt := if loaded.updatedAt = now then row.updatedAt else now

theorem holds_iff {setting : OpsSetting} {enabled : Bool} :
    setting.holds enabled = true ↔ setting.value = [("enabled", .bool enabled)] := by
  constructor
  · intro h
    unfold holds at h
    split at h
    · rename_i stored hvalue
      rw [hvalue, of_decide_eq_true h]
    · cases h
  · intro h
    simp [holds, h]

/-- What the `UPDATE` leaves out is in the row as it is now. -/
structure UpToDate (loaded : OpsSetting) (enabled : Bool) (now : Int) (row : OpsSetting) : Prop where
  value : loaded.holds enabled = true → row.holds enabled = true
  updatedAt : loaded.updatedAt = now → row.updatedAt = now

/-- Then, and only then, the row becomes what was assigned. -/
theorem drainAssignments_eq_iff {loaded row : OpsSetting} {enabled : Bool} {now : Int} :
    loaded.drainAssignments enabled now row = ⟨[("enabled", .bool enabled)], now⟩ ↔
      loaded.UpToDate enabled now row := by
  unfold drainAssignments
  constructor
  · intro h
    injection h with hvalue hupdatedAt
    constructor
    · intro hholds
      rw [if_pos hholds] at hvalue
      exact holds_iff.mpr hvalue
    · intro hnow
      rwa [if_pos hnow] at hupdatedAt
  · intro h
    congr 1
    · split
      · exact holds_iff.mp (h.value ‹_›)
      · rfl
    · split
      · exact h.updatedAt ‹_›
      · rfl

end OpsSetting

/-! ## Transactions -/

namespace Database

/-- The tables as `create_tables` leaves them. -/
def empty : Database := ⟨Dict.empty, [], Dict.empty⟩

/-- `db.get(Job, str(job_id))`. -/
def getJob? (db : Database) (jobId : UUID) : Option Job := db.jobs.get? jobId

/-- `select(Job).where(Job.idempotency_key == key)`. -/
def findByKey (db : Database) (key : String) : Option Job :=
  db.jobs.values.find? fun row => row.idempotencyKey = some key

/-- `UPDATE jobs SET ... WHERE id = ...`. -/
def update (db : Database) (jobId : UUID) (assign : Job → Job) : Database :=
  { db with jobs := db.jobs.modify jobId assign }

/-- `_finish_attempt`: the attempt is looked up by number and never deleted, so when it is looked
    up makes no difference. It reads the clock again for `finished_at`, which has the reading of
    the mark here. -/
def finishAttempt (db : Database) (jobId : UUID) (attemptNumber : Nat) (status : AttemptStatus)
    (error : Option String) (now : Int) : Database :=
  { db with jobAttempts := db.jobAttempts.map fun attempt =>
      if attempt.jobId = jobId ∧ attempt.attemptNumber = attemptNumber then
        { attempt with status := status, error := error, finishedAt := some now }
      else attempt }

/-- An `INSERT` into `jobs`: the columns, the primary key, `uq_jobs_idempotency_key`, in which
    `NULL`s are distinct. -/
def insertJob (jsonb : Jsonb) (db : Database) (job : Job) : Except Exc Database :=
  if ¬ fitsString 100 job.handler then .error (.dataError "handler")
  else if ¬ job.recurringCron.all (fitsString 100) then .error (.dataError "recurring_cron")
  else if ¬ job.idempotencyKey.all (fitsString 200) then .error (.dataError "idempotency_key")
  else if ¬ [job.priority, job.maxRetries, job.timeoutSeconds].all fitsInteger then
    .error (.dataError "integer")
  else match jsonb job.payload with
    | none => .error (.dataError "payload")
    | some payload =>
      if db.jobs.contains job.id then .error (.integrityError "jobs_pkey")
      else if (job.idempotencyKey.bind db.findByKey).isSome then
        .error (.integrityError "uq_jobs_idempotency_key")
      else .ok { db with jobs := db.jobs.insert job.id { job with payload := payload } }

/-- `uq_job_attempts_job_attempt` has this pair. -/
def hasAttempt (db : Database) (jobId : UUID) (attemptNumber : Nat) : Bool :=
  db.jobAttempts.any fun attempt => attempt.jobId = jobId && attempt.attemptNumber = attemptNumber

/-- The commit of `claim_job`: the `UPDATE` of the job and the `INSERT` of the attempt. -/
def commitClaim (db : Database) (read : Job) (workerId : String) (now : Int) :
    Except Exc Database :=
  if ¬ fitsString 100 workerId then .error (.dataError "locked_by")
  else if db.hasAttempt read.id (read.attemptCount + 1) then
    .error (.integrityError "uq_job_attempts_job_attempt")
  else
    let db := db.update read.id (read.claimAssignments workerId now)
    .ok { db with jobAttempts := db.jobAttempts ++
      [⟨read.id, read.attemptCount + 1, .running, now, none, none, some workerId⟩] }

/-- The commit of `mark_succeeded`. -/
def commitSucceeded (jsonb : Jsonb) (db : Database) (read : Job) (result : JsonObject) (now : Int) :
    Except Exc Database :=
  match jsonb result with
  | none => .error (.dataError "result")
  | some result =>
    .ok ((db.update read.id (Job.succeedAssignments result now)).finishAttempt read.id
      read.attemptCount .succeeded none now)

/-- The commit of `mark_failed_attempt`. -/
def commitFailed (db : Database) (read : Job) (error : String) (backoffSeconds now : Int) :
    Except Exc Database :=
  if ¬ fitsText error then .error (.dataError "last_error")
  else
    .ok ((db.update read.id (read.failAssignments error backoffSeconds now)).finishAttempt read.id
      read.attemptCount .failed (some error) now)

/-- The commit of `cancel_job`. -/
def commitCancelled (db : Database) (read : Job) (now : Int) : Database :=
  db.update read.id (Job.cancelAssignments now)

/-- `db.get(OpsSetting, "drain_enabled")`. -/
def drainSetting? (db : Database) : Option OpsSetting := db.opsSettings.get? "drain_enabled"

/-- `get_drain`. -/
def getDrain (db : Database) : Bool :=
  match db.drainSetting? with
  | none => false
  | some setting =>
    match setting.value.lookup "enabled" with
    | some (.bool true) => true
    | _ => false

/-- The tables with the row that `set_drain` assigns. -/
def withDrain (db : Database) (enabled : Bool) (now : Int) : Database :=
  { db with
    opsSettings := db.opsSettings.insert "drain_enabled" ⟨[("enabled", .bool enabled)], now⟩ }

/-- The commit of `set_drain`: the `INSERT` of the row if none was loaded, else its `UPDATE`. -/
def commitDrain (db : Database) (loaded : Option OpsSetting) (enabled : Bool) (now : Int) :
    Except Exc Database :=
  match loaded with
  | none =>
    if db.opsSettings.contains "drain_enabled" then .error (.integrityError "ops_settings_pkey")
    else .ok (db.withDrain enabled now)
  | some loaded =>
    .ok { db with
      opsSettings := db.opsSettings.modify "drain_enabled" (loaded.drainAssignments enabled now) }

/-! ## What the lookups and the columns answer -/

variable {db : Database} {jobId : UUID} {key : String} {row : Job}

theorem findByKey_some (h : db.findByKey key = some row) :
    ∃ jobId, db.jobs.get? jobId = some row ∧ row.idempotencyKey = some key := by
  have hkey := List.find?_some h
  obtain ⟨jobId, hrow⟩ := Dict.mem_values_iff.mp (List.mem_of_find?_eq_some h)
  exact ⟨jobId, hrow, by simpa using hkey⟩

theorem findByKey_none (h : db.findByKey key = none) (hrow : db.jobs.get? jobId = some row) :
    row.idempotencyKey ≠ some key := by
  intro hkey
  have hno := List.find?_eq_none.mp h row (Dict.mem_values_iff.mpr ⟨jobId, hrow⟩)
  simp [hkey] at hno

@[simp] theorem getDrain_withDrain (db : Database) (enabled : Bool) (now : Int) :
    (db.withDrain enabled now).getDrain = enabled := by
  cases enabled <;> simp [getDrain, drainSetting?, withDrain]

/-- The `UPDATE` of a setting that another session has written since. -/
theorem commitDrain_eq_iff {loaded row : OpsSetting} {enabled : Bool} {now : Int}
    (hrow : db.drainSetting? = some row) :
    db.commitDrain (some loaded) enabled now = .ok (db.withDrain enabled now) ↔
      loaded.UpToDate enabled now row := by
  unfold drainSetting? at hrow
  rw [← OpsSetting.drainAssignments_eq_iff, commitDrain, withDrain, Dict.modify_eq_insert _ hrow]
  constructor
  · intro h
    have hsettings := congrArg opsSettings (Except.ok.inj h)
    have hget := congrArg (fun settings => settings.get? "drain_enabled") hsettings
    simpa [Dict.get?_insert_self] using hget
  · intro h
    rw [h]

/-- With no other session in between, `set_drain` writes the row it assigns. -/
theorem commitDrain_loaded (db : Database) (enabled : Bool) (now : Int) :
    db.commitDrain db.drainSetting? enabled now = .ok (db.withDrain enabled now) := by
  cases hrow : db.drainSetting? with
  | none =>
    have hfresh : db.opsSettings.contains "drain_enabled" = false :=
      Dict.contains_eq_false_iff.mpr hrow
    simp [commitDrain, hfresh]
  | some loaded =>
    exact (commitDrain_eq_iff hrow).mpr ⟨id, id⟩

end Database

theorem fitsString_iff {n : Nat} {text : String} :
    fitsString n text = true ↔ text.length ≤ n ∧ fitsText text = true := by
  simp [fitsString, fitsText]

/-- The handler and the key of an accepted request fit their columns when they have no NUL. -/
theorem JobCreate.handler_fits (request : JobCreate) (h : fitsText request.handler = true) :
    fitsString 100 request.handler = true := by
  obtain ⟨raw, -, hraw, heq⟩ := request.handler_accepted
  have hlength : request.handler.length ≤ 100 := by
    rw [heq]
    exact (PyStr.length_strip_le raw).trans hraw
  exact fitsString_iff.mpr ⟨hlength, h⟩

theorem JobCreate.key_fits (request : JobCreate) {key : String}
    (hkey : key ∈ request.idempotencyKey) (h : fitsText key = true) :
    fitsString 200 key = true :=
  fitsString_iff.mpr ⟨(request.key_accepted key hkey).2, h⟩

/-- Its numbers do. -/
theorem JobCreate.integers_fit (request : JobCreate) :
    [request.priority, request.maxRetries, request.timeoutSeconds].all fitsInteger = true := by
  have hpriority := request.priority_le
  have hretries := request.maxRetries_le
  have htimeout := request.timeoutSeconds_mem.2
  simp only [fitsInteger, List.all_cons, List.all_nil, Bool.and_true, Bool.and_eq_true,
    decide_eq_true_eq]
  omega

/-- Its cron expression always does. -/
theorem JobCreate.cron_fits (request : JobCreate) {cron : String}
    (hcron : cron ∈ request.recurringCron) : fitsString 100 cron = true := by
  obtain ⟨raw, -, hraw, hvalid⟩ := request.cron_accepted cron hcron
  obtain ⟨hlength, hnul⟩ := validateCronExpression_text hvalid
  refine fitsString_iff.mpr ⟨hlength.trans hraw, ?_⟩
  simpa [fitsText] using hnul

end JobPipeline
