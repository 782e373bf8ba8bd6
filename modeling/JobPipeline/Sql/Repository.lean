import JobPipeline.Jobs.InMemory
import JobPipeline.Sql.Tables

/-!
# `SqlAlchemyJobRepository`, one method after another

The methods as functions of the tables, for a repository that no other session interferes with.
Each is the composition of what `Sql.Sessions` cuts into steps: the reads, the computation on the
row read, the transaction, and the `refresh` that reads the committed row back. Between two
methods the session holds nothing that the tables do not.

The `rows` of a query are those of the table in the order in which PostgreSQL happens to visit
them; `ORDER BY` leaves ties, and `GROUP BY` its groups, in an order that depends on it.

Every stored instant is taken to be one that `datetime` has in UTC: psycopg cannot read another one
back, and only `run_at` of a request can be one.
-/

set_option autoImplicit false

namespace JobPipeline

namespace SqlAlchemyJobRepository

variable (jsonb : Jsonb)

/-- `db.refresh(job)` and `_record_from_model(job)`. -/
def refresh (db : Database) (jobId : UUID) : Except Exc JobRecord :=
  match db.getJob? jobId with
  | some job => .ok (recordFromModel job)
  | none => .error (.other "InvalidRequestError" "Could not refresh instance")

/-- `if request.idempotency_key:` and the `select` under it. -/
def existing (db : Database) (request : JobCreate) : Option Job :=
  request.idempotencyKey.filter (· ≠ "") >>= db.findByKey

/-- `create_job`: the record and the replay flag. -/
def createJob (db : Database) (request : JobCreate) (now : Int) (jobId : UUID) :
    Except Exc ((JobRecord × Bool) × Database) :=
  match existing db request with
  | some job => .ok ((recordFromModel job, true), db)
  | none =>
    match db.insertJob jsonb (.submittedRow request jobId now) with
    | .ok db' => (refresh db' jobId).map fun job => ((job, false), db')
    | .error (.integrityError constraint) =>
      match existing db request with
      | some job => .ok ((recordFromModel job, true), db)
      | none => .error (.integrityError constraint)
    | .error e => .error e

/-- `_get_model`. -/
def getModel (db : Database) (jobId : UUID) : Except Exc Job :=
  match db.getJob? jobId with
  | some job => .ok job
  | none => .error (.service (notFoundError "Job not found"))

def getJob (db : Database) (jobId : UUID) : Except Exc JobRecord :=
  (getModel db jobId).map recordFromModel

/-- The `where` clauses of `list_jobs`. -/
def matchesFilters (status : Option JobStatus) (handler : Option String) (job : Job) : Bool :=
  (match status with
    | none => true
    | some s => job.status = s) &&
  match handler with
    | none => true
    | some h => if h = "" then true else job.handler = h

def listJobs (rows : List Job) (status : Option JobStatus) (handler : Option String)
    (limit offset : Nat) : List JobRecord :=
  let selected := (rows.filter (matchesFilters status handler)).insertionSort
    fun a b => b.createdAt ≤ a.createdAt
  ((selected.drop offset).take limit).map recordFromModel

/-- `LIMIT` and `OFFSET` are of type `bigint`. -/
def fitsBigint (n : Nat) : Bool := n < 2 ^ 63

/-- `list_jobs` as a query that is sent; a text with a NUL is not. -/
def queryListJobs (rows : List Job) (status : Option JobStatus) (handler : Option String)
    (limit offset : Nat) : Except Exc (List JobRecord) :=
  if ¬ handler.all fitsText then .error (.dataError "handler")
  else if ¬ fitsBigint offset then .error (.dataError "offset")
  else if ¬ fitsBigint limit then .error (.dataError "limit")
  else .ok (listJobs rows status handler limit offset)

/-- `ORDER BY priority DESC, created_at ASC`. -/
def duePrecedes (a b : Job) : Prop :=
  b.priority < a.priority ∨ a.priority = b.priority ∧ a.createdAt ≤ b.createdAt

instance (a b : Job) : Decidable (duePrecedes a b) := by
  unfold duePrecedes; infer_instance

/-- The `where` clause of `due_jobs`. -/
def isDue (now : Int) (job : Job) : Bool := job.status.isPending && job.nextRunAt ≤ now

def dueJobs (rows : List Job) (limit : Nat) (now : Int) : List JobRecord :=
  (((rows.filter (isDue now)).insertionSort duePrecedes).take limit).map recordFromModel

/-- `due_jobs` as a query that is sent. -/
def queryDueJobs (rows : List Job) (limit : Nat) (now : Int) : Except Exc (List JobRecord) :=
  if ¬ fitsBigint limit then .error (.dataError "limit") else .ok (dueJobs rows limit now)

/-- `select(Job.priority, func.count()) ... group_by(Job.priority)`. -/
def groupByPriority (rows : List Job) : List (Nat × Nat) :=
  (rows.map (·.priority)).dedup.map fun priority =>
    (priority, rows.countP fun job => job.priority = priority)

def queueDepth (rows : List Job) (now : Int) : QueueDepth :=
  { queued := rows.countP fun job => job.status.isPending
    due := rows.countP (isDue now)
    running := rows.countP fun job => job.status = .running
    deadLettered := rows.countP fun job => job.status = .deadLettered
    byPriority := groupByPriority (rows.filter fun job => job.status.isPending) }

def claimJob (db : Database) (jobId : UUID) (workerId : String) (now : Int) :
    Except Exc (Option JobRecord × Database) :=
  if db.getDrain then .ok (none, db)
  else match db.getJob? jobId with
    | none => .ok (none, db)
    | some job =>
      if ¬ job.status.isPending ∨ now < job.nextRunAt then .ok (none, db)
      else match db.commitClaim job workerId now with
        | .error e => .error e
        | .ok db' => (refresh db' jobId).map fun job => (some job, db')

/-- `create_next_recurring_job`: `none` for a job that does not recur. The clock is read twice, for
    `next_cron_run` and then for the row. -/
def createNextRecurringJob (db : Database) (job : JobRecord) (after now : Int) (nextJobId : UUID) :
    Except Exc (Option JobRecord × Database) :=
  match job.recurringCron with
  | none => .ok (none, db)
  | some cron =>
    if cron = "" then .ok (none, db)
    else match nextCronRun cron after with
      | .error e => .error e
      | .ok nextRunAt =>
        match db.insertJob jsonb (.successorRow job nextJobId nextRunAt now) with
        | .error e => .error e
        | .ok db' => (refresh db' nextJobId).map fun job => (some job, db')

def markSucceeded (db : Database) (jobId : UUID) (result : JsonObject) (now : Int) :
    Except Exc (JobRecord × Database) :=
  match getModel db jobId with
  | .error e => .error e
  | .ok job =>
    match db.commitSucceeded jsonb job result now with
    | .error e => .error e
    | .ok db' => (refresh db' jobId).map fun job => (job, db')

def markFailedAttempt (db : Database) (jobId : UUID) (error : String) (backoffSeconds : Int)
    (now : Int) : Except Exc (JobRecord × Database) :=
  match getModel db jobId with
  | .error e => .error e
  | .ok job =>
    match db.commitFailed job error backoffSeconds now with
    | .error e => .error e
    | .ok db' => (refresh db' jobId).map fun job => (job, db')

def cancelJob (db : Database) (jobId : UUID) (now : Int) : Except Exc (JobRecord × Database) :=
  match getModel db jobId with
  | .error e => .error e
  | .ok job =>
    if ¬ job.status.isPending then
      .error (.service (conflictError "Only pending jobs can be cancelled"
        [("status", .str job.status.value)]))
    else
      let db' := db.commitCancelled job now
      (refresh db' jobId).map fun job => (job, db')

/-- `set_drain`, with no other session between its read and its commit. -/
def setDrain (db : Database) (enabled : Bool) (now : Int) : Except Exc (Unit × Database) :=
  (db.commitDrain db.drainSetting? enabled now).map fun db' => ((), db')

@[simp] theorem setDrain_ok (db : Database) (enabled : Bool) (now : Int) :
    setDrain db enabled now = .ok ((), db.withDrain enabled now) := by
  rw [setDrain, db.commitDrain_loaded]
  rfl

theorem queryListJobs_of_fits {handler : Option String} {limit offset : Nat}
    (hhandler : ∀ name ∈ handler, fitsText name = true) (hlimit : fitsBigint limit = true)
    (hoffset : fitsBigint offset = true) (rows : List Job) (status : Option JobStatus) :
    queryListJobs rows status handler limit offset =
      .ok (listJobs rows status handler limit offset) := by
  have hall : handler.all fitsText = true := (Option.all_eq_true ..).mpr hhandler
  simp [queryListJobs, hall, hlimit, hoffset]

theorem queryListJobs_ok {rows : List Job} {status : Option JobStatus} {handler : Option String}
    {limit offset : Nat} {jobs : List JobRecord}
    (h : queryListJobs rows status handler limit offset = .ok jobs) :
    offset < 2 ^ 63 ∧ limit < 2 ^ 63 ∧ jobs = listJobs rows status handler limit offset := by
  unfold queryListJobs fitsBigint at h
  split at h
  · cases h
  split at h
  · cases h
  rename_i hoffset
  split at h
  · cases h
  rename_i hlimit
  cases h
  exact ⟨of_decide_eq_true (not_not.mp hoffset), of_decide_eq_true (not_not.mp hlimit), rfl⟩

theorem queryListJobs_error {rows : List Job} {status : Option JobStatus} {handler : Option String}
    {limit offset : Nat} {e : Exc}
    (h : queryListJobs rows status handler limit offset = .error e) :
    ∃ column, e = .dataError column ∧
      (¬ (∀ name ∈ handler, fitsText name = true) ∨ 2 ^ 63 ≤ offset ∨ 2 ^ 63 ≤ limit) := by
  unfold queryListJobs fitsBigint at h
  split at h
  · rename_i hhandler
    cases h
    exact ⟨_, rfl, .inl fun hfits => hhandler ((Option.all_eq_true ..).mpr hfits)⟩
  split at h
  · rename_i hoffset
    cases h
    exact ⟨_, rfl, .inr (.inl (Nat.not_lt.mp fun hlt => hoffset (decide_eq_true hlt)))⟩
  split at h
  · rename_i hlimit
    cases h
    exact ⟨_, rfl, .inr (.inr (Nat.not_lt.mp fun hlt => hlimit (decide_eq_true hlt)))⟩
  · cases h

theorem queryDueJobs_of_fits {limit : Nat} (hlimit : fitsBigint limit = true) (rows : List Job)
    (now : Int) : queryDueJobs rows limit now = .ok (dueJobs rows limit now) := by
  simp [queryDueJobs, hlimit]

end SqlAlchemyJobRepository

end JobPipeline
