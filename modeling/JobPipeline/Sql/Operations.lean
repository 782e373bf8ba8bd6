import JobPipeline.Sql.Repository

/-!
# The repository protocol (`JobRepository`)

A method call, what it returns, and the two repositories as machines that answer calls. A
`MethodCall` carries what its method reads from outside, so that both repositories are given the
same clock reading, the same `uuid4` and, for the queries, one order of the rows. `metrics` is left
out.
-/

set_option autoImplicit false

namespace JobPipeline

inductive Operation where
  | createJob (request : JobCreate)
  | getJob (jobId : UUID)
  | listJobs (status : Option JobStatus) (handler : Option String) (limit offset : Nat)
  | dueJobs (limit : Nat)
  | queueDepth
  | claimJob (jobId : UUID) (workerId : String)
  | markSucceeded (jobId : UUID) (result : JsonObject)
  /-- `after` is the first clock reading of the SQL method; the memory method has one reading only. -/
  | createNextRecurringJob (job : JobRecord) (after : Int)
  | markFailedAttempt (jobId : UUID) (error : String) (backoffSeconds : Int)
  | cancelJob (jobId : UUID)
  | setDrain (enabled : Bool)
  | getDrain

structure MethodCall where
  operation : Operation
  now : Int
  /-- The identifier `uuid4` draws. -/
  drawn : UUID
  /-- The rows of `jobs` in the order in which PostgreSQL visits them. -/
  rows : List Job

/-- What a method returns. -/
inductive Reply where
  | created (job : JobRecord) (replay : Bool)
  | job (job : JobRecord)
  | maybe (job : Option JobRecord)
  | jobs (jobs : List JobRecord)
  | depth (depth : QueueDepth)
  | flag (enabled : Bool)
  | done

/-- The reply of a method that returns a value and the next state, or raises and changes
    nothing. -/
def settle {σ α : Type} (s : σ) (reply : α → Reply) : Except Exc (α × σ) → Except Exc Reply × σ
  | .ok (a, s') => (.ok (reply a), s')
  | .error e => (.error e, s)

def InMemoryJobRepository.perform (r : InMemoryJobRepository) (call : MethodCall) :
    Except Exc Reply × InMemoryJobRepository :=
  match call.operation with
  | .createJob request =>
    settle r (fun (job, replay) => .created job replay) (r.createJob request call.now call.drawn)
  | .getJob jobId => ((r.getJob jobId).map .job, r)
  | .listJobs status handler limit offset =>
    (.ok (.jobs (r.listJobs status handler limit offset)), r)
  | .dueJobs limit => (.ok (.jobs (r.dueJobs limit call.now)), r)
  | .queueDepth => (.ok (.depth (r.queueDepth call.now)), r)
  | .claimJob jobId workerId => settle r .maybe (.ok (r.claimJob jobId workerId call.now))
  | .markSucceeded jobId result => settle r .job (r.markSucceeded jobId result call.now)
  | .createNextRecurringJob job _ =>
    settle r .maybe (r.createNextRecurringJob job call.now call.drawn)
  | .markFailedAttempt jobId error backoff =>
    settle r .job (r.markFailedAttempt jobId error backoff call.now)
  | .cancelJob jobId => settle r .job (r.cancelJob jobId call.now)
  | .setDrain enabled => (.ok .done, r.setDrain enabled)
  | .getDrain => (.ok (.flag r.getDrain), r)

/-- A transaction that fails is rolled back; nothing is said here of the session after it. -/
def SqlAlchemyJobRepository.perform (jsonb : Jsonb) (db : Database) (call : MethodCall) :
    Except Exc Reply × Database :=
  match call.operation with
  | .createJob request =>
    settle db (fun (job, replay) => .created job replay)
      (createJob jsonb db request call.now call.drawn)
  | .getJob jobId => ((getJob db jobId).map .job, db)
  | .listJobs status handler limit offset =>
    ((queryListJobs call.rows status handler limit offset).map .jobs, db)
  | .dueJobs limit => ((queryDueJobs call.rows limit call.now).map .jobs, db)
  | .queueDepth => (.ok (.depth (queueDepth call.rows call.now)), db)
  | .claimJob jobId workerId => settle db .maybe (claimJob db jobId workerId call.now)
  | .markSucceeded jobId result => settle db .job (markSucceeded jsonb db jobId result call.now)
  | .createNextRecurringJob job after =>
    settle db .maybe (createNextRecurringJob jsonb db job after call.now call.drawn)
  | .markFailedAttempt jobId error backoff =>
    settle db .job (markFailedAttempt db jobId error backoff call.now)
  | .cancelJob jobId => settle db .job (cancelJob db jobId call.now)
  | .setDrain enabled => settle db (fun _ => .done) (setDrain db enabled call.now)
  | .getDrain => (.ok (.flag db.getDrain), db)

/-! ## Agreement -/

/-- `==` of two replies; the groups of `by_priority` may come in any order. -/
def Reply.Same : Reply → Reply → Prop
  | .created a replay, .created b replay' => a.Same b ∧ replay = replay'
  | .job a, .job b => a.Same b
  | .maybe a, .maybe b => Option.Rel JobRecord.Same a b
  | .jobs as, .jobs bs => List.Forall₂ JobRecord.Same as bs
  | .depth a, .depth b =>
    a.queued = b.queued ∧ a.due = b.due ∧ a.running = b.running ∧
      a.deadLettered = b.deadLettered ∧ a.byPriority.Perm b.byPriority
  | .flag a, .flag b => a = b
  | .done, .done => True
  | _, _ => False

/-- Both calls return equal values, or both raise an error of the same class. -/
def Agrees : Except Exc Reply → Except Exc Reply → Prop
  | .ok reply, .ok reply' => reply.Same reply'
  | .error e, .error e' => e.className = e'.className
  | _, _ => False

/-- Every job has equal records in the two stores. -/
def SameRecords (r : InMemoryJobRepository) (db : Database) : Prop :=
  ∀ jobId, Option.Rel JobRecord.Same (r.jobs.get? jobId) ((db.jobs.get? jobId).map recordFromModel)

/-! ## The calls compared -/

/-- `JSONB` stores the object and gives an equal one back. -/
def Stores (jsonb : Jsonb) (object : JsonObject) : Prop :=
  ∃ stored, jsonb object = some stored ∧ canonicalFields stored = canonicalFields object

/-- What both repositories need of a call: what is written fits its column and can be read back, a
    text that is looked for has no NUL, `LIMIT` and `OFFSET` are of type `bigint`, `uuid4` draws a new
    identifier, a job whose attempt failed is `RUNNING`, jobs that are sorted by their creation have
    been created at different instants, and the two clock readings of one call have the same next
    run. -/
def Comparable (jsonb : Jsonb) (r : InMemoryJobRepository) (db : Database) (call : MethodCall) :
    Prop :=
  match call.operation with
  | .createJob request =>
    r.jobs.get? call.drawn = none ∧ fitsText request.handler ∧
      (∀ key ∈ request.idempotencyKey, fitsText key) ∧ Stores jsonb request.payload ∧
      ∀ runAt ∈ ensureAware request.runAt, isDatetime runAt
  | .listJobs _ handler limit offset =>
    call.rows.Perm db.jobs.values ∧ (r.jobs.values.map JobRecord.createdAt).Nodup ∧
      (∀ name ∈ handler, fitsText name) ∧ SqlAlchemyJobRepository.fitsBigint limit ∧
      SqlAlchemyJobRepository.fitsBigint offset
  | .dueJobs limit =>
    call.rows.Perm db.jobs.values ∧ (r.jobs.values.map JobRecord.createdAt).Nodup ∧
      SqlAlchemyJobRepository.fitsBigint limit
  | .queueDepth => call.rows.Perm db.jobs.values
  | .claimJob _ workerId => fitsString 100 workerId
  | .markSucceeded _ result => Stores jsonb result
  | .createNextRecurringJob job after =>
    r.jobs.get? call.drawn = none ∧ fitsString 100 job.handler ∧
      (∀ cron ∈ job.recurringCron, fitsString 100 cron) ∧
      [job.priority, job.maxRetries, job.timeoutSeconds].all fitsInteger ∧
      Stores jsonb job.payload ∧
      ∀ cron ∈ job.recurringCron, nextCronRun cron after = nextCronRun cron call.now
  | .markFailedAttempt jobId error _ =>
    (∀ job ∈ r.jobs.get? jobId, job.status = .running) ∧ fitsText error
  | .getJob _ | .cancelJob _ | .setDrain _ | .getDrain => True

end JobPipeline
