import JobPipeline.Sql.Tables
import JobPipeline.Queue.Producer
import JobPipeline.Service.Machine

/-!
# Sessions over PostgreSQL

`JobService` over `SqlAlchemyJobRepository`, any number of calls at once, each in a session of
its own. At `READ COMMITTED` a statement sees what is committed when it runs, so a call is cut
at every statement that reads and at every commit: between reading a row and committing what was
computed from it, any other session may commit. The reads that follow a commit in the same
method (`refresh`) are steps of their own as well.

`Session` is where a call stands, with what it has read; between two methods it keeps no row. As
in `Service.Machine` a step's label says what it reads from outside, `uuid4` draws no identifier
twice, and a call that is given no further step has crashed. The `history` is for the statements
only.
-/

set_option autoImplicit false

namespace JobPipeline

namespace Sql

inductive Session where
  | idle
  /-- `create_job`: the `INSERT` of this row is pending. -/
  | inserting (row : Job)
  /-- `create_job`: rolled back after an `IntegrityError`; the second `select` comes next. -/
  | conflicted (row : Job)
  /-- `create_job`: committed; `refresh` comes next. -/
  | inserted (jobId : UUID)
  /-- `submit_job`: `publish_job` comes next. -/
  | publishing (job : JobRecord)
  | submitted (job : JobRecord) (replay : Bool)
  /-- `claim_job`: not draining; `db.get` comes next. -/
  | claiming (jobId : UUID) (workerId : String)
  /-- `claim_job`: `read` was claimable; the commit comes next. -/
  | claimPending (read : Job) (workerId : String) (now : Int)
  /-- `claim_job`: committed; `refresh` comes next. -/
  | claimed (jobId : UUID)
  /-- The handler is running. -/
  | running (job : JobRecord)
  | handled (job : JobRecord) (result : JsonObject)
  /-- `mark_succeeded`: the commit comes next. -/
  | succeedPending (job : JobRecord) (read : Job) (result : JsonObject) (now : Int)
  /-- `mark_succeeded`: committed; `refresh` comes next. -/
  | succeeded (job : JobRecord)
  /-- `mark_succeeded` returned `succeeded`. -/
  | marked (job succeeded : JobRecord)
  /-- `create_next_recurring_job`: the `INSERT` of this row is pending. -/
  | nextPending (job succeeded : JobRecord) (next : Job)
  /-- In the `except` block; `succeeded` is that local variable, if it was bound. After a failed
      flush that nobody rolled back, the session refuses every further statement. -/
  | excepted (job : JobRecord) (exc : Exc) (succeeded : Option JobRecord) (flushFailed : Bool)
  /-- `mark_failed_attempt`: the commit comes next. -/
  | failPending (job : JobRecord) (succeeded : Option JobRecord) (read : Job) (error : String)
      (now : Int)
  /-- `mark_failed_attempt`: committed; `refresh` comes next. -/
  | failed (jobId : UUID)
  /-- `publish_dead_letter` comes next. -/
  | deadLettering (updated : JobRecord)
  /-- `process_job` returned. -/
  | returned (job : Option JobRecord)
  /-- `cancel_job`: `read` was pending; the commit comes next. -/
  | cancelPending (read : Job) (now : Int)
  /-- `cancel_job`: committed; `refresh` comes next. -/
  | cancelling (jobId : UUID)
  /-- `cancel_job` returned. -/
  | cancelled (job : JobRecord)
  /-- `set_drain`: the row was looked up; the commit comes next. -/
  | drainPending (loaded : Option OpsSetting) (enabled : Bool) (now : Int)
  /-- `set_drain` returned. -/
  | drained
  /-- The call raised. -/
  | raised (exc : Exc)

/-- What the calls asked, committed, started and published, latest first. -/
inductive Event where
  /-- `submit_job` was called with this idempotency key. -/
  | requested (c : CallId) (key : Option String)
  /-- `create_job` returned. -/
  | answered (c : CallId) (job : JobRecord) (replay : Bool)
  | inserted (c : CallId) (row : Job)
  | claimed (c : CallId) (jobId : UUID)
  /-- The handler was started. -/
  | started (c : CallId) (jobId : UUID)
  | cancelled (c : CallId) (jobId : UUID)
  /-- `submit_job` called `publish_job`. -/
  | published (c : CallId) (jobId : UUID)

structure State where
  db : Database
  producer : FakeJobProducer
  sessions : CallId → Session
  /-- The identifiers `uuid4` has drawn. -/
  drawn : List UUID
  history : List Event

def State.initial : State :=
  { db := .empty, producer := .empty, sessions := fun _ => .idle, drawn := [], history := [] }

inductive Action where
  /-- `submit_job(request)` up to the `INSERT`; `uuid4` draws `jobId`. -/
  | submit (c : CallId) (request : JobCreate) (jobId : UUID)
  | insertCommit (c : CallId)
  /-- The second `select` of `create_job`. -/
  | reselect (c : CallId)
  | insertRefresh (c : CallId)
  | publish (c : CallId)
  /-- `process_job(job_id, worker_id)`: `get_drain`. -/
  | process (c : CallId) (jobId : UUID) (workerId : String)
  | claimRead (c : CallId)
  | claimCommit (c : CallId)
  /-- `refresh` and `get_handler`. -/
  | claimRefresh (c : CallId)
  | finish (c : CallId) (outcome : Outcome)
  | succeedRead (c : CallId)
  | succeedCommit (c : CallId)
  | succeedRefresh (c : CallId)
  /-- `create_next_recurring_job` up to the `INSERT`; `after` is the clock reading that
      `next_cron_run` is given, before the one of the row. -/
  | next (c : CallId) (after : Int) (nextJobId : UUID)
  /-- The commit of the `INSERT`; what `refresh` reads is dropped by `process_job`. -/
  | nextCommit (c : CallId)
  | failRead (c : CallId)
  | failCommit (c : CallId)
  | failRefresh (c : CallId)
  | publishDeadLetter (c : CallId)
  /-- `cancel_job(job_id)` up to its `UPDATE`. -/
  | cancelRead (c : CallId) (jobId : UUID)
  | cancelCommit (c : CallId)
  | cancelRefresh (c : CallId)
  /-- `set_drain(enabled)` up to its `INSERT` or `UPDATE`. -/
  | drainRead (c : CallId) (enabled : Bool)
  | drainCommit (c : CallId)
  | setAvailable (available : Bool)

/-- The call that takes the step. -/
def Action.call : Action → Option CallId
  | .submit c .. | .insertCommit c | .reselect c | .insertRefresh c | .publish c => some c
  | .process c .. | .claimRead c | .claimCommit c | .claimRefresh c | .finish c .. => some c
  | .succeedRead c | .succeedCommit c | .succeedRefresh c | .next c .. | .nextCommit c => some c
  | .failRead c | .failCommit c | .failRefresh c | .publishDeadLetter c => some c
  | .cancelRead c .. | .cancelCommit c | .cancelRefresh c => some c
  | .drainRead c .. | .drainCommit c => some c
  | .setAvailable _ => none

/-- A step's label: the clock reading of the step and what is done. -/
structure Label where
  now : Int
  action : Action

namespace State

def setSession (s : State) (c : CallId) (session : Session) : State :=
  { s with sessions := Function.update s.sessions c session }

theorem sessions_setSession (s : State) (c : CallId) (session : Session) :
    (s.setSession c session).sessions c = session := Function.update_self ..

def note (s : State) (event : Event) : State := { s with history := event :: s.history }

/-- The tables after a commit. -/
def commit (s : State) (db : Database) : State := { s with db := db }

/-- `db.refresh(job)`. -/
def refresh (s : State) (jobId : UUID) : Except Exc Job :=
  match s.db.getJob? jobId with
  | some row => .ok row
  | none => .error (.other "InvalidRequestError" "Could not refresh instance")

variable (settings : Settings) (jsonb : Jsonb)

/-- `submit_job` up to the `INSERT`. -/
def submitJob (s : State) (c : CallId) (request : JobCreate) (now : Int) (jobId : UUID) : State :=
  match getHandler request.handler with
  | .error e => s.setSession c (.raised e)
  | .ok _ =>
    match validatePayloadSize settings request.payload with
    | .error e => s.setSession c (.raised e)
    | .ok _ =>
      match request.idempotencyKey.filter (· ≠ "") >>= s.db.findByKey with
      | some existing =>
        (s.note (.answered c (recordFromModel existing) true)).setSession c
          (.submitted (recordFromModel existing) true)
      | none => s.setSession c (.inserting (.submittedRow request jobId now))

/-- `db.commit()` in `create_job`. -/
def insertCommit (s : State) (c : CallId) (row : Job) : State :=
  match s.db.insertJob jsonb row with
  | .ok db => ((s.commit db).note (.inserted c row)).setSession c (.inserted row.id)
  | .error (.integrityError constraint) =>
    -- `except IntegrityError`: roll back, and look for the key if the request had one.
    if (row.idempotencyKey.filter (· ≠ "")).isSome then s.setSession c (.conflicted row)
    else s.setSession c (.raised (.integrityError constraint))
  | .error e => s.setSession c (.raised e)

/-- The second `select` of `create_job`. -/
def reselect (s : State) (c : CallId) (row : Job) : State :=
  match row.idempotencyKey.filter (· ≠ "") >>= s.db.findByKey with
  | some existing =>
    (s.note (.answered c (recordFromModel existing) true)).setSession c
      (.submitted (recordFromModel existing) true)
  | none => s.setSession c (.raised (.integrityError "uq_jobs_idempotency_key"))

/-- `claim_job` from `db.get` to the commit. -/
def claimRead (s : State) (c : CallId) (jobId : UUID) (workerId : String) (now : Int) : State :=
  match s.db.getJob? jobId with
  | none => s.setSession c (.returned none)
  | some job =>
    if ¬ job.status.isPending ∨ now < job.nextRunAt then s.setSession c (.returned none)
    else s.setSession c (.claimPending job workerId now)

/-- The commit of `claim_job`, which stands outside every `try`. -/
def claimCommit (s : State) (c : CallId) (read : Job) (workerId : String) (now : Int) : State :=
  match s.db.commitClaim read workerId now with
  | .error e => s.setSession c (.raised e)
  | .ok db => ((s.commit db).note (.claimed c read.id)).setSession c (.claimed read.id)

/-- `refresh` of `claim_job`, then `get_handler` and the start of the handler. -/
def claimRefresh (s : State) (c : CallId) (jobId : UUID) : State :=
  match s.refresh jobId with
  | .error e => s.setSession c (.raised e)
  | .ok row =>
    let job := recordFromModel row
    match getHandler job.handler with
    | .error e => s.setSession c (.raised e)
    | .ok _ => (s.note (.started c jobId)).setSession c (.running job)

/-- `create_next_recurring_job` up to its `INSERT`. -/
def next (s : State) (c : CallId) (job succeeded : JobRecord) (after now : Int)
    (nextJobId : UUID) : State :=
  match succeeded.recurringCron.filter (· ≠ "") with
  | none => s.setSession c (.returned (some succeeded))
  | some cron =>
    match nextCronRun cron after with
    | .error e => s.setSession c (.excepted job e (some succeeded) false)
    | .ok nextRunAt =>
      s.setSession c (.nextPending job succeeded (.successorRow succeeded nextJobId nextRunAt now))

/-- One step at time `now`; `none` when the action is not enabled. -/
def act (s : State) (now : Int) : Action → Option State
  | .submit c request jobId =>
    match s.sessions c with
    | .idle =>
      if jobId ∈ s.drawn then none
      else
        let s := { s with drawn := jobId :: s.drawn }.note (.requested c request.idempotencyKey)
        some (s.submitJob settings c request now jobId)
    | _ => none
  | .insertCommit c =>
    match s.sessions c with
    | .inserting row => some (s.insertCommit jsonb c row)
    | _ => none
  | .reselect c =>
    match s.sessions c with
    | .conflicted row => some (s.reselect c row)
    | _ => none
  | .insertRefresh c =>
    match s.sessions c with
    | .inserted jobId =>
      match s.refresh jobId with
      | .ok row =>
        some ((s.note (.answered c (recordFromModel row) false)).setSession c
          (.publishing (recordFromModel row)))
      | .error e => some (s.setSession c (.raised e))
    | _ => none
  | .publish c =>
    match s.sessions c with
    | .publishing job =>
      let s := s.note (.published c job.id)
      match s.producer.publishJob job.message with
      | .error e => some (s.setSession c (.raised e))
      | .ok producer => some ({ s with producer := producer }.setSession c (.submitted job false))
    | _ => none
  | .process c jobId workerId =>
    match s.sessions c with
    | .idle =>
      if s.db.getDrain then some (s.setSession c (.returned none))
      else some (s.setSession c (.claiming jobId workerId))
    | _ => none
  | .claimRead c =>
    match s.sessions c with
    | .claiming jobId workerId => some (s.claimRead c jobId workerId now)
    | _ => none
  | .claimCommit c =>
    match s.sessions c with
    | .claimPending read workerId now => some (s.claimCommit c read workerId now)
    | _ => none
  | .claimRefresh c =>
    match s.sessions c with
    | .claimed jobId => some (s.claimRefresh c jobId)
    | _ => none
  | .finish c outcome =>
    match s.sessions c with
    | .running job =>
      match outcome with
      | .value result => some (s.setSession c (.handled job result))
      | .raised exc => some (s.setSession c (.excepted job exc none false))
    | _ => none
  | .succeedRead c =>
    match s.sessions c with
    | .handled job result =>
      match s.db.getJob? job.id with
      | none =>
        some (s.setSession c (.excepted job (.service (notFoundError "Job not found")) none false))
      | some read => some (s.setSession c (.succeedPending job read result now))
    | _ => none
  | .succeedCommit c =>
    match s.sessions c with
    | .succeedPending job read result now =>
      match s.db.commitSucceeded jsonb read result now with
      | .error e => some (s.setSession c (.excepted job e none true))
      | .ok db => some ((s.commit db).setSession c (.succeeded job))
    | _ => none
  | .succeedRefresh c =>
    match s.sessions c with
    | .succeeded job =>
      match s.refresh job.id with
      | .error e => some (s.setSession c (.excepted job e none false))
      | .ok row => some (s.setSession c (.marked job (recordFromModel row)))
    | _ => none
  | .next c after nextJobId =>
    match s.sessions c with
    | .marked job succeeded =>
      if nextJobId ∈ s.drawn then none
      else some ({ s with drawn := nextJobId :: s.drawn }.next c job succeeded after now nextJobId)
    | _ => none
  | .nextCommit c =>
    match s.sessions c with
    | .nextPending job succeeded next =>
      match s.db.insertJob jsonb next with
      | .error e => some (s.setSession c (.excepted job e (some succeeded) true))
      | .ok db =>
        some (((s.commit db).note (.inserted c next)).setSession c (.returned (some succeeded)))
    | _ => none
  | .failRead c =>
    match s.sessions c with
    | .excepted job exc succeeded flushFailed =>
      if flushFailed then
        some (s.setSession c (.raised (.other "PendingRollbackError"
          "This Session's transaction has been rolled back due to a previous exception during flush")))
      else match s.db.getJob? job.id with
        | none => some (s.setSession c (.raised (.service (notFoundError "Job not found"))))
        | some read => some (s.setSession c (.failPending job succeeded read (errorText exc) now))
    | _ => none
  | .failCommit c =>
    match s.sessions c with
    | .failPending job _ read error now =>
      match s.db.commitFailed read error (backoffSeconds job.attemptCount) now with
      | .error e => some (s.setSession c (.raised e))
      | .ok db => some ((s.commit db).setSession c (.failed read.id))
    | _ => none
  | .failRefresh c =>
    match s.sessions c with
    | .failed jobId =>
      match s.refresh jobId with
      | .error e => some (s.setSession c (.raised e))
      | .ok row =>
        let updated := recordFromModel row
        some (s.setSession c (if updated.status = .deadLettered then .deadLettering updated
          else .returned (some updated)))
    | _ => none
  | .publishDeadLetter c =>
    match s.sessions c with
    | .deadLettering updated =>
      match s.producer.publishDeadLetter updated.deadLetterMessage with
      | .error e => some (s.setSession c (.raised e))
      | .ok producer =>
        some ({ s with producer := producer }.setSession c (.returned (some updated)))
    | _ => none
  | .cancelRead c jobId =>
    match s.sessions c with
    | .idle =>
      match s.db.getJob? jobId with
      | none => some (s.setSession c (.raised (.service (notFoundError "Job not found"))))
      | some read =>
        if ¬ read.status.isPending then
          some (s.setSession c (.raised (.service (conflictError "Only pending jobs can be cancelled"
            [("status", .str read.status.value)]))))
        else some (s.setSession c (.cancelPending read now))
    | _ => none
  | .cancelCommit c =>
    match s.sessions c with
    | .cancelPending read now =>
      some (((s.commit (s.db.commitCancelled read now)).note (.cancelled c read.id)).setSession c
        (.cancelling read.id))
    | _ => none
  | .cancelRefresh c =>
    match s.sessions c with
    | .cancelling jobId =>
      match s.refresh jobId with
      | .error e => some (s.setSession c (.raised e))
      | .ok row => some (s.setSession c (.cancelled (recordFromModel row)))
    | _ => none
  | .drainRead c enabled =>
    match s.sessions c with
    | .idle => some (s.setSession c (.drainPending s.db.drainSetting? enabled now))
    | _ => none
  | .drainCommit c =>
    match s.sessions c with
    | .drainPending loaded enabled now =>
      match s.db.commitDrain loaded enabled now with
      | .error e => some (s.setSession c (.raised e))
      | .ok db => some ((s.commit db).setSession c .drained)
    | _ => none
  | .setAvailable available =>
    some { s with producer := { s.producer with available := available } }

/-- One step. The clocks of the sessions need not agree. -/
def step (s : State) (label : Label) : Option State := act settings jsonb s label.now label.action

end State

/-- The runs of any number of sessions on initially empty tables. -/
def sessions (settings : Settings) (jsonb : Jsonb) : Transition.System State Label :=
  .ofFunction (· = State.initial) (State.step settings jsonb)

end Sql

end JobPipeline
