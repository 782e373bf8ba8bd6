import JobPipeline.Sql.Sessions

/-!
# What a step can do to the tables

A step of one session is one of eight things, as far as jobs, attempts and the other sessions
are concerned: nothing, moving on, reading a row, starting a handler, or one of the commits.
`act_effect` says so once for all the program points, and the laws of claims, attempts and
cancellations are proved from `Effect` alone.
-/

set_option autoImplicit false

namespace JobPipeline

namespace Sql

namespace Session

/-- The row a commit is about to be computed from. -/
def read : Session → Option Job
  | .claimPending read _ _ => some read
  | .succeedPending _ read _ _ => some read
  | .failPending _ _ read _ _ => some read
  | .cancelPending read _ => some read
  | _ => none

/-- The claimable row `claim_job` has read and not yet committed on. -/
def view : Session → Option Job
  | .claimPending read _ _ => some read
  | _ => none

/-- The job of a `process_job` between the commit of its claim and its last commit on the job. -/
def held : Session → Option UUID
  | .claimed jobId => some jobId
  | .running job => some job.id
  | .handled job _ => some job.id
  | .succeedPending job _ _ _ => some job.id
  | .succeeded job => some job.id
  | .marked job _ => some job.id
  | .nextPending job _ _ => some job.id
  | .excepted job _ _ _ => some job.id
  | .failPending job _ _ _ _ => some job.id
  | _ => none

/-- The job whose attempt is running: its claim is committed and no mark is. -/
def attempting : Session → Option UUID
  | .claimed jobId => some jobId
  | .running job => some job.id
  | .handled job _ => some job.id
  | .succeedPending job _ _ _ => some job.id
  | .excepted job _ none _ => some job.id
  | .failPending job none _ _ _ => some job.id
  | _ => none

/-- The row whose `INSERT` is pending. -/
def pendingRow : Session → Option Job
  | .inserting row => some row
  | .nextPending _ _ next => some next
  | _ => none

/-- Only a call of `submit_job` comes here, or any call that has raised. -/
def Submits : Session → Prop
  | .inserting _ => True
  | .conflicted _ => True
  | .inserted _ => True
  | .publishing _ => True
  | .submitted _ _ => True
  | .raised _ => True
  | _ => False

theorem held_of_attempting {session : Session} {jobId : UUID}
    (h : session.attempting = some jobId) : session.held = some jobId := by
  unfold attempting at h
  split at h <;> first | exact h | cases h

theorem attempting_of_unheld {session : Session} (h : session.held = none) :
    session.attempting = none := by
  cases ha : session.attempting with
  | none => rfl
  | some jobId =>
    rw [held_of_attempting ha] at h
    cases h

/-- The one action that leads to each of these program points. -/
def EnteredBy (action : Action) : Session → Prop
  | .inserting _ => ∃ c request jobId, action = .submit c request jobId
  | .succeedPending .. => ∃ c, action = .succeedRead c
  | .marked .. => ∃ c, action = .succeedRefresh c
  | .nextPending .. => ∃ c after nextJobId, action = .next c after nextJobId
  | .deadLettering _ => ∃ c, action = .failRefresh c
  | .claimPending .. => ∃ c, action = .claimRead c
  | .failPending .. => ∃ c, action = .failRead c
  | .failed _ => ∃ c, action = .failCommit c
  | .cancelPending .. => ∃ c jobId, action = .cancelRead c jobId
  | .claimed _ => ∃ c, action = .claimCommit c
  | .succeeded _ => ∃ c, action = .succeedCommit c
  | .cancelling _ => ∃ c, action = .cancelCommit c
  | .cancelled _ => ∃ c, action = .cancelRefresh c
  | .drainPending .. => ∃ c enabled, action = .drainRead c enabled
  | .drained => ∃ c, action = .drainCommit c
  | _ => True

theorem unasked_of_read {session : Session} {row : Job} (h : session.read = some row) :
    ¬ session.Submits ∧ session ≠ .idle ∧ session.pendingRow = none := by
  unfold read at h
  split at h
  · exact ⟨id, by simp, rfl⟩
  · exact ⟨id, by simp, rfl⟩
  · exact ⟨id, by simp, rfl⟩
  · exact ⟨id, by simp, rfl⟩
  · cases h

end Session

/-- A row as the two `Job(...)` of the repository make them. -/
def New (row : Job) : Prop := row.status = .queued ∧ row.attemptCount = 0

/-- The events that say nothing about a committed job. -/
def Event.Quiet : Event → Prop
  | .requested _ _ => True
  | .answered _ _ _ => True
  | .published _ _ => True
  | _ => False

/-- A unique constraint of `jobs` refused the transaction. -/
def OnJobs (exc : Exc) : Prop :=
  exc = .integrityError "jobs_pkey" ∨ exc = .integrityError "uq_jobs_idempotency_key"

/-- Neither a conflict nor what else the commit of a claim can raise. -/
def Plain : Exc → Prop
  | .integrityError _ => False
  | .dataError column => column ≠ "locked_by"
  | _ => True

namespace State

/-- How the call `c` can come to raise. -/
inductive Raises (s : State) (c : CallId) (exc : Exc) : Prop where
  | plain (plain : Plain exc)
  | claim (read : Job) (workerId : String) (now : Int)
      (before : s.sessions c = .claimPending read workerId now)
      (error : s.db.commitClaim read workerId now = .error exc)
  /-- The `INSERT` of a row without a key conflicts. -/
  | insert (row : Job) (before : s.sessions c = .inserting row) (jobs : OnJobs exc)
      (conflict : s.db.jobs.contains row.id = true ∨
        (row.idempotencyKey.bind s.db.findByKey).isSome = true)
      (unkeyed : row.idempotencyKey.filter (· ≠ "") = none)
  /-- The second `select` finds nothing. -/
  | reselect (row : Job) (before : s.sessions c = .conflicted row) (jobs : OnJobs exc)
      (missing : (row.idempotencyKey.filter (· ≠ "") >>= s.db.findByKey) = none)
  /-- The `INSERT` of the drain flag conflicts. -/
  | drain (enabled : Bool) (now : Int) (before : s.sessions c = .drainPending none enabled now)
      (stored : s.db.opsSettings.contains "drain_enabled" = true)
      (constraint : exc = .integrityError "ops_settings_pkey")

/-- Only the session of `c` changes, to `session`. -/
def Moves (s s' : State) (c : CallId) (session : Session) : Prop :=
  s'.sessions = Function.update s.sessions c session

/-- Jobs and attempts are as they were. -/
def SameTables (s s' : State) : Prop :=
  s'.db.jobs = s.db.jobs ∧ s'.db.jobAttempts = s.db.jobAttempts

/-- How a call moves on without a commit to jobs: what it draws and notes, by its session after. -/
inductive Talk (s s' : State) (c : CallId) : Session → Prop where
  | silent {session : Session} (before : ¬ (s.sessions c).Submits)
      (after : session.Submits → ∃ exc, session = .raised exc) (started : session ≠ .idle)
      (pending : session.pendingRow = none) (drawn : s'.drawn = s.drawn)
      (history : s'.history = s.history) : Talk s s' c session
  /-- `create_next_recurring_job` has drawn an identifier. -/
  | draw {session : Session} (nextJobId : UUID) (before : ¬ (s.sessions c).Submits)
      (after : ¬ session.Submits) (started : session ≠ .idle) (fresh : nextJobId ∉ s.drawn)
      (row : ∀ row, session.pendingRow = some row → row.id = nextJobId ∧ row.idempotencyKey = none)
      (drawn : s'.drawn = nextJobId :: s.drawn) (history : s'.history = s.history) :
      Talk s s' c session
  /-- `submit_job` refuses the request. -/
  | refuse (request : JobCreate) (jobId : UUID) (exc : Exc) (before : s.sessions c = .idle)
      (fresh : jobId ∉ s.drawn) (drawn : s'.drawn = jobId :: s.drawn)
      (history : s'.history = .requested c request.idempotencyKey :: s.history) :
      Talk s s' c (.raised exc)
  /-- `submit_job` finds the key at once. -/
  | replay (request : JobCreate) (jobId : UUID) (existing : Job) (before : s.sessions c = .idle)
      (found : (request.idempotencyKey.filter (· ≠ "") >>= s.db.findByKey) = some existing)
      (fresh : jobId ∉ s.drawn) (drawn : s'.drawn = jobId :: s.drawn)
      (history : s'.history = .answered c (recordFromModel existing) true ::
        .requested c request.idempotencyKey :: s.history) :
      Talk s s' c (.submitted (recordFromModel existing) true)
  | ask (request : JobCreate) (jobId : UUID) (now : Int) (before : s.sessions c = .idle)
      (fresh : jobId ∉ s.drawn) (drawn : s'.drawn = jobId :: s.drawn)
      (history : s'.history = .requested c request.idempotencyKey :: s.history) :
      Talk s s' c (.inserting (.submittedRow request jobId now))
  /-- The `INSERT` of a row with a key conflicts. -/
  | conflict (row : Job) (before : s.sessions c = .inserting row)
      (keyed : (row.idempotencyKey.filter (· ≠ "")).isSome = true)
      (conflict : s.db.jobs.contains row.id = true ∨
        (row.idempotencyKey.bind s.db.findByKey).isSome = true)
      (drawn : s'.drawn = s.drawn) (history : s'.history = s.history) : Talk s s' c (.conflicted row)
  /-- `create_job` raises before its row is inserted. -/
  | abort (exc : Exc) (row : Job)
      (before : s.sessions c = .inserting row ∨ s.sessions c = .conflicted row)
      (drawn : s'.drawn = s.drawn) (history : s'.history = s.history) : Talk s s' c (.raised exc)
  /-- `refresh` finds no row. -/
  | lost (exc : Exc) (jobId : UUID) (before : s.sessions c = .inserted jobId)
      (missing : s.db.jobs.get? jobId = none) (drawn : s'.drawn = s.drawn)
      (history : s'.history = s.history) : Talk s s' c (.raised exc)
  | reread (row existing : Job) (before : s.sessions c = .conflicted row)
      (found : (row.idempotencyKey.filter (· ≠ "") >>= s.db.findByKey) = some existing)
      (drawn : s'.drawn = s.drawn)
      (history : s'.history = .answered c (recordFromModel existing) true :: s.history) :
      Talk s s' c (.submitted (recordFromModel existing) true)
  | answer (jobId : UUID) (row : Job) (before : s.sessions c = .inserted jobId)
      (stored : s.db.jobs.get? jobId = some row) (drawn : s'.drawn = s.drawn)
      (history : s'.history = .answered c (recordFromModel row) false :: s.history) :
      Talk s s' c (.publishing (recordFromModel row))
  | publish {session : Session} (job : JobRecord) (before : s.sessions c = .publishing job)
      (after : session = .submitted job false ∨ ∃ exc, session = .raised exc)
      (drawn : s'.drawn = s.drawn) (history : s'.history = .published c job.id :: s.history) :
      Talk s s' c session

theorem Talk.events {s s' : State} {c : CallId} {session : Session} (h : Talk s s' c session) :
    ∃ events, s'.history = events ++ s.history ∧ ∀ e ∈ events, e.Quiet := by
  cases h with
  | silent _ _ _ _ _ history => exact ⟨[], history, by simp⟩
  | draw _ _ _ _ _ _ _ history => exact ⟨[], history, by simp⟩
  | refuse _ _ _ _ _ _ history => exact ⟨[_], history, by simp [Event.Quiet]⟩
  | replay _ _ _ _ _ _ _ history => exact ⟨[_, _], history, by simp [Event.Quiet]⟩
  | ask _ _ _ _ _ _ history => exact ⟨[_], history, by simp [Event.Quiet]⟩
  | conflict _ _ _ _ _ history => exact ⟨[], history, by simp⟩
  | abort _ _ _ _ history => exact ⟨[], history, by simp⟩
  | lost _ _ _ _ _ history => exact ⟨[], history, by simp⟩
  | reread _ _ _ _ _ history => exact ⟨[_], history, by simp [Event.Quiet]⟩
  | answer _ _ _ _ _ history => exact ⟨[_], history, by simp [Event.Quiet]⟩
  | publish _ _ _ _ history => exact ⟨[_], history, by simp [Event.Quiet]⟩

/-- What a step of a call does to jobs, attempts, sessions and history. -/
inductive Effect (s s' : State) : Option CallId → Prop where
  | idle (tables : SameTables s s') (sessions : s'.sessions = s.sessions)
      (history : s'.history = s.history) (drawn : s'.drawn = s.drawn) : Effect s s' none
  /-- A session moves on, or ends. -/
  | quiet (c : CallId) (session : Session) (tables : SameTables s s')
      (moves : Moves s s' c session) (read : session.read = none)
      (held : session.held = none ∨ session.held = (s.sessions c).held)
      (attempting : session.attempting = none ∨
        session.attempting = (s.sessions c).attempting)
      (unstarted : ∀ jobId, session ≠ .claimed jobId)
      (pending : ∀ row, session.pendingRow = some row → New row)
      (raised : ∀ exc, session = .raised exc → Raises s c exc)
      (talk : Talk s s' c session) : Effect s s' (some c)
  /-- A session reads the row its next commit is computed from. -/
  | reads (c : CallId) (session : Session) (row : Job) (tables : SameTables s s')
      (moves : Moves s s' c session) (read : session.read = some row)
      (stored : s.db.jobs.get? row.id = some row)
      (claimable : ∀ view, session.view = some view → row.status.isPending = true)
      (owner : ∀ jobId, session.held = some jobId → row.id = jobId)
      (held : session.held = (s.sessions c).held)
      (attempting : session.attempting = (s.sessions c).attempting)
      (history : s'.history = s.history) (drawn : s'.drawn = s.drawn)
      (unasked : ¬ (s.sessions c).Submits) : Effect s s' (some c)
  | start (c : CallId) (job : JobRecord) (tables : SameTables s s')
      (moves : Moves s s' c (.running job)) (before : s.sessions c = .claimed job.id)
      (history : s'.history = .started c job.id :: s.history) (drawn : s'.drawn = s.drawn) :
      Effect s s' (some c)
  | insert (c : CallId) (row : Job) (payload : JsonObject) (session : Session)
      (jobs : s'.db.jobs = s.db.jobs.insert row.id { row with payload := payload })
      (attempts : s'.db.jobAttempts = s.db.jobAttempts) (fresh : s.db.jobs.get? row.id = none)
      (new : New row)
      (moves : Moves s s' c session) (read : session.read = none) (held : session.held = none)
      (pending : session.pendingRow = none) (history : s'.history = .inserted c row :: s.history)
      (raised : ∀ exc, session ≠ .raised exc) (drawn : s'.drawn = s.drawn)
      (unkeyed : ∀ key ∈ row.idempotencyKey, s.db.findByKey key = none)
      (before : (s.sessions c).pendingRow = some row)
      (after : s.sessions c = .inserting row ∧ session = .inserted row.id ∨
        ¬ (s.sessions c).Submits ∧ ¬ session.Submits ∧ session ≠ .idle) : Effect s s' (some c)
  | claim (c : CallId) (row : Job) (workerId : String) (now : Int)
      (before : s.sessions c = .claimPending row workerId now)
      (fits : fitsString 100 workerId = true)
      (free : s.db.hasAttempt row.id (row.attemptCount + 1) = false)
      (jobs : s'.db.jobs = s.db.jobs.modify row.id (row.claimAssignments workerId now))
      (attempts : s'.db.jobAttempts = s.db.jobAttempts ++
        [⟨row.id, row.attemptCount + 1, .running, now, none, none, some workerId⟩])
      (moves : Moves s s' c (.claimed row.id))
      (history : s'.history = .claimed c row.id :: s.history) (drawn : s'.drawn = s.drawn) :
      Effect s s' (some c)
  | succeed (c : CallId) (job : JobRecord) (row : Job) (result stored : JsonObject) (now : Int)
      (before : s.sessions c = .succeedPending job row result now)
      (jobs : s'.db.jobs = s.db.jobs.modify row.id (Job.succeedAssignments stored now))
      (attempts : s'.db.jobAttempts =
        (s.db.finishAttempt row.id row.attemptCount .succeeded none now).jobAttempts)
      (moves : Moves s s' c (.succeeded job)) (history : s'.history = s.history)
      (drawn : s'.drawn = s.drawn) : Effect s s' (some c)
  | fail (c : CallId) (job : JobRecord) (succeeded : Option JobRecord) (row : Job) (error : String)
      (now : Int) (before : s.sessions c = .failPending job succeeded row error now)
      (fits : fitsText error = true)
      (jobs : s'.db.jobs = s.db.jobs.modify row.id
        (row.failAssignments error (backoffSeconds job.attemptCount) now))
      (attempts : s'.db.jobAttempts =
        (s.db.finishAttempt row.id row.attemptCount .failed (some error) now).jobAttempts)
      (moves : Moves s s' c (.failed row.id)) (history : s'.history = s.history)
      (drawn : s'.drawn = s.drawn) : Effect s s' (some c)
  | cancel (c : CallId) (row : Job) (now : Int) (before : s.sessions c = .cancelPending row now)
      (jobs : s'.db.jobs = s.db.jobs.modify row.id (Job.cancelAssignments now))
      (attempts : s'.db.jobAttempts = s.db.jobAttempts)
      (moves : Moves s s' c (.cancelling row.id))
      (history : s'.history = .cancelled c row.id :: s.history) (drawn : s'.drawn = s.drawn) :
      Effect s s' (some c)

variable {settings : Settings} {jsonb : Jsonb} {s s' : State} {c : CallId} {now : Int}

/-- The call goes on to a session that neither holds nor has read a job. -/
theorem Effect.unheld {session : Session} (tables : SameTables s s') (moves : Moves s s' c session)
    (read : session.read = none) (held : session.held = none)
    (pending : ∀ row, session.pendingRow = some row → New row)
    (raised : ∀ exc, session = .raised exc → Raises s c exc) (talk : Talk s s' c session) :
    Effect s s' (some c) := by
  refine .quiet c session tables moves read (Or.inl held)
    (Or.inl (Session.attempting_of_unheld held)) ?_ pending raised talk
  intro jobId hsession
  rw [hsession] at held
  cases held

/-- The call raises. -/
theorem Effect.raise (exc : Exc) (tables : SameTables s s') (moves : Moves s s' c (.raised exc))
    (raises : Raises s c exc) (talk : Talk s s' c (.raised exc)) : Effect s s' (some c) := by
  refine .unheld tables moves rfl rfl (by simp [Session.pendingRow]) ?_ talk
  intro exc' hexc
  cases hexc
  exact raises

/-- A call other than of `submit_job` raises. -/
theorem Effect.fails (exc : Exc) (heq : s.setSession c (.raised exc) = s') (raises : Raises s c exc)
    (before : ¬ (s.sessions c).Submits) : Effect s s' (some c) := by
  subst heq
  exact .raise exc ⟨rfl, rfl⟩ rfl raises (.silent before (fun _ => ⟨exc, rfl⟩) (by simp) rfl rfl rfl)

/-- A call other than of `submit_job` goes on to hold no job, or returns. -/
theorem Effect.free (session : Session) (heq : s.setSession c session = s')
    (before : ¬ (s.sessions c).Submits) (after : ¬ session.Submits) (started : session ≠ .idle)
    (read : session.read = none) (held : session.held = none) (pending : session.pendingRow = none) :
    Effect s s' (some c) := by
  subst heq
  refine .unheld ⟨rfl, rfl⟩ rfl read held (by simp [pending]) ?_
    (.silent before (fun h => absurd h after) started pending rfl rfl)
  intro exc hsession
  rw [hsession] at after
  exact absurd trivial after

/-- A call that holds a job goes on with it. -/
theorem Effect.holds (session : Session) (heq : s.setSession c session = s')
    (before : ¬ (s.sessions c).Submits) (after : ¬ session.Submits) (started : session ≠ .idle)
    (read : session.read = none) (held : session.held = (s.sessions c).held)
    (attempting : session.attempting = none ∨ session.attempting = (s.sessions c).attempting)
    (unstarted : ∀ jobId, session ≠ .claimed jobId) (pending : session.pendingRow = none) :
    Effect s s' (some c) := by
  subst heq
  refine .quiet c session ⟨rfl, rfl⟩ rfl read (Or.inr held) attempting unstarted (by simp [pending])
    ?_ (.silent before (fun h => absurd h after) started pending rfl rfl)
  intro exc hsession
  rw [hsession] at after
  exact absurd trivial after

/-- Rows stand under their own identifier, and a job that a call holds is stored. -/
structure Known (s : State) : Prop where
  keyed : ∀ id row, s.db.jobs.get? id = some row → row.id = id
  held_stored : ∀ c jobId, (s.sessions c).held = some jobId →
    ∃ row, s.db.jobs.get? jobId = some row
  new : ∀ c row, (s.sessions c).pendingRow = some row → New row

theorem Known.refresh (h : s.Known) {j : UUID} (hheld : (s.sessions c).held = some j) :
    ∃ row, s.refresh j = .ok row ∧ s.db.jobs.get? j = some row ∧ row.id = j := by
  obtain ⟨row, hrow⟩ := h.held_stored c j hheld
  exact ⟨row, by simp [State.refresh, Database.getJob?, hrow], hrow, h.keyed j row hrow⟩

theorem insertJob_ok {db db' : Database} {row : Job} (h : db.insertJob jsonb row = .ok db') :
    db.jobs.get? row.id = none ∧ (∀ key ∈ row.idempotencyKey, db.findByKey key = none) ∧
      ∃ payload, db' = { db with jobs := db.jobs.insert row.id { row with payload := payload } } := by
  unfold Database.insertJob at h
  split at h
  · cases h
  split at h
  · cases h
  split at h
  · cases h
  split at h
  · cases h
  split at h
  · cases h
  rename_i payload _
  split at h
  · cases h
  rename_i hfresh
  split at h
  · cases h
  rename_i hkey
  cases h
  refine ⟨Dict.contains_eq_false_iff.mp (by simpa using hfresh), ?_, payload, rfl⟩
  intro key hmem
  rw [Option.mem_def] at hmem
  rw [hmem] at hkey
  simpa using hkey

theorem insertJob_error {db : Database} {row : Job} {exc : Exc}
    (h : db.insertJob jsonb row = .error exc) :
    Plain exc ∨ OnJobs exc ∧
      (db.jobs.contains row.id = true ∨ (row.idempotencyKey.bind db.findByKey).isSome = true) := by
  unfold Database.insertJob at h
  split at h
  · cases h
    exact Or.inl (by simp [Plain])
  split at h
  · cases h
    exact Or.inl (by simp [Plain])
  split at h
  · cases h
    exact Or.inl (by simp [Plain])
  split at h
  · cases h
    exact Or.inl (by simp [Plain])
  split at h
  · cases h
    exact Or.inl (by simp [Plain])
  split at h
  · rename_i hcontains
    cases h
    exact Or.inr ⟨Or.inl rfl, Or.inl hcontains⟩
  split at h
  · rename_i hkey
    cases h
    exact Or.inr ⟨Or.inr rfl, Or.inr hkey⟩
  · cases h

theorem plain_of_getHandler {name : String} {exc : Exc} (h : getHandler name = .error exc) :
    Plain exc := by
  unfold getHandler at h
  split at h
  · cases h
  · cases h
    trivial

theorem plain_of_validatePayloadSize {payload : JsonObject} {exc : Exc}
    (h : validatePayloadSize settings payload = .error exc) : Plain exc := by
  unfold validatePayloadSize at h
  split at h
  · cases h
    trivial
  · cases h

theorem plain_of_refresh {jobId : UUID} {exc : Exc} (h : s.refresh jobId = .error exc) :
    Plain exc := by
  unfold refresh at h
  split at h
  · cases h
  · cases h
    trivial

theorem plain_of_publishJob {producer : FakeJobProducer} {message : JobMessage} {exc : Exc}
    (h : producer.publishJob message = .error exc) : Plain exc := by
  unfold FakeJobProducer.publishJob at h
  split at h
  · cases h
    trivial
  · cases h

theorem plain_of_publishDeadLetter {producer : FakeJobProducer} {message : DeadLetterMessage}
    {exc : Exc} (h : producer.publishDeadLetter message = .error exc) : Plain exc := by
  unfold FakeJobProducer.publishDeadLetter at h
  split at h
  · cases h
    trivial
  · cases h

theorem plain_of_commitFailed {db : Database} {read : Job} {error : String} {backoff : Int}
    {exc : Exc} (h : db.commitFailed read error backoff now = .error exc) : Plain exc := by
  unfold Database.commitFailed at h
  split at h
  · cases h
    simp [Plain]
  · cases h

/-- `submit_job` up to the `INSERT` reads only. -/
theorem submit_effect {request : JobCreate} {jobId : UUID}
    (h : act settings jsonb s now (.submit c request jobId) = some s') : Effect s s' (some c) := by
  simp only [act] at h
  split at h
  · rename_i hcall
    split at h
    · cases h
    rename_i hfresh
    cases h
    unfold submitJob
    split
    · rename_i exc herror
      exact .raise exc ⟨rfl, rfl⟩ rfl (.plain (plain_of_getHandler herror))
        (.refuse request jobId exc hcall hfresh rfl rfl)
    split
    · rename_i exc herror
      exact .raise exc ⟨rfl, rfl⟩ rfl (.plain (plain_of_validatePayloadSize herror))
        (.refuse request jobId exc hcall hfresh rfl rfl)
    split
    · rename_i existing hfound
      exact .unheld ⟨rfl, rfl⟩ rfl rfl rfl (by simp [Session.pendingRow]) (by simp)
        (.replay request jobId existing hcall hfound hfresh rfl rfl)
    · refine .unheld ⟨rfl, rfl⟩ rfl rfl rfl ?_ (by simp)
        (.ask request jobId now hcall hfresh rfl rfl)
      intro row hrow
      cases hrow
      exact ⟨rfl, rfl⟩
  · cases h

/-- `db.commit()` in `create_job` inserts the row, or leaves the tables alone. -/
theorem insertCommit_effect (hknown : s.Known)
    (h : act settings jsonb s now (.insertCommit c) = some s') : Effect s s' (some c) := by
  simp only [act] at h
  split at h
  · rename_i row hcall
    cases h
    have hpending : (s.sessions c).pendingRow = some row := by rw [hcall]; rfl
    unfold State.insertCommit
    split
    · rename_i db hinsert
      obtain ⟨hfresh, hunkeyed, payload, rfl⟩ := insertJob_ok hinsert
      exact .insert c row payload (.inserted row.id) rfl rfl hfresh (hknown.new c row hpending) rfl
        rfl rfl rfl rfl (by simp) rfl hunkeyed hpending (Or.inl ⟨hcall, rfl⟩)
    · rename_i constraint herror
      rcases insertJob_error herror with hplain | ⟨hjobs, hconflict⟩
      · exact absurd hplain (by simp [Plain])
      split
      · rename_i hkeyed
        exact .unheld ⟨rfl, rfl⟩ rfl rfl rfl (by simp [Session.pendingRow]) (by simp)
          (.conflict row hcall hkeyed hconflict rfl rfl)
      · rename_i hunkeyed
        exact .raise _ ⟨rfl, rfl⟩ rfl
          (.insert row hcall hjobs hconflict (Option.not_isSome_iff_eq_none.mp hunkeyed))
          (.abort _ row (Or.inl hcall) rfl rfl)
    · rename_i exc hne herror
      rcases insertJob_error herror with hplain | ⟨hjobs, -⟩
      · exact .raise exc ⟨rfl, rfl⟩ rfl (.plain hplain) (.abort exc row (Or.inl hcall) rfl rfl)
      · rcases hjobs with rfl | rfl
        · exact absurd rfl (hne _)
        · exact absurd rfl (hne _)
  · cases h

theorem reselect_effect (h : act settings jsonb s now (.reselect c) = some s') :
    Effect s s' (some c) := by
  simp only [act] at h
  split at h
  · rename_i row hcall
    cases h
    unfold State.reselect
    split
    · rename_i existing hfound
      exact .unheld ⟨rfl, rfl⟩ rfl rfl rfl (by simp [Session.pendingRow]) (by simp)
        (.reread row existing hcall hfound rfl rfl)
    · rename_i hmissing
      exact .raise _ ⟨rfl, rfl⟩ rfl (.reselect row hcall (Or.inr rfl) hmissing)
        (.abort _ row (Or.inr hcall) rfl rfl)
  · cases h

theorem insertRefresh_effect (h : act settings jsonb s now (.insertRefresh c) = some s') :
    Effect s s' (some c) := by
  simp only [act] at h
  split at h
  · rename_i jobId hcall
    split at h
    · rename_i row hrefresh
      cases h
      have hstored : s.db.jobs.get? jobId = some row := by
        unfold refresh Database.getJob? at hrefresh
        split at hrefresh
        · rename_i hstored
          cases hrefresh
          exact hstored
        · cases hrefresh
      exact .unheld ⟨rfl, rfl⟩ rfl rfl rfl (by simp [Session.pendingRow]) (by simp)
        (.answer jobId row hcall hstored rfl rfl)
    · rename_i exc herror
      cases h
      have hmissing : s.db.jobs.get? jobId = none := by
        unfold refresh Database.getJob? at herror
        split at herror
        · cases herror
        · assumption
      exact .raise exc ⟨rfl, rfl⟩ rfl (.plain (plain_of_refresh herror))
        (.lost exc jobId hcall hmissing rfl rfl)
  · cases h

theorem publish_effect (h : act settings jsonb s now (.publish c) = some s') :
    Effect s s' (some c) := by
  simp only [act] at h
  split at h
  · rename_i job hcall
    split at h
    · rename_i exc herror
      cases h
      exact .raise exc ⟨rfl, rfl⟩ rfl (.plain (plain_of_publishJob herror))
        (.publish job hcall (Or.inr ⟨exc, rfl⟩) rfl rfl)
    · cases h
      exact .unheld ⟨rfl, rfl⟩ rfl rfl rfl (by simp [Session.pendingRow]) (by simp)
        (.publish job hcall (Or.inl rfl) rfl rfl)
  · cases h

theorem claimRead_effect (hknown : s.Known)
    (h : act settings jsonb s now (.claimRead c) = some s') : Effect s s' (some c) := by
  simp only [act] at h
  split at h
  · rename_i jobId workerId hcall
    cases h
    have hunasked : ¬ (s.sessions c).Submits := by rw [hcall]; exact id
    unfold State.claimRead
    split
    · exact .free _ rfl hunasked id (by simp) rfl rfl rfl
    · rename_i row hrow
      split
      · exact .free _ rfl hunasked id (by simp) rfl rfl rfl
      · rename_i hclaim
        have hid : row.id = jobId := hknown.keyed jobId row hrow
        refine .reads c (.claimPending row workerId now) row ⟨rfl, rfl⟩ rfl rfl (hid ▸ hrow) ?_
          (by simp [Session.held]) (by rw [hcall]; rfl) (by rw [hcall]; rfl) rfl rfl hunasked
        intro _ _
        exact not_not.mp fun hpending => hclaim (Or.inl hpending)
  · cases h

theorem claimCommit_effect (h : act settings jsonb s now (.claimCommit c) = some s') :
    Effect s s' (some c) := by
  simp only [act] at h
  split at h
  · rename_i row workerId t hcall
    cases h
    unfold State.claimCommit
    split
    · rename_i herror
      exact .fails _ rfl (.claim row workerId t hcall herror) (by rw [hcall]; exact id)
    · rename_i db hcommit
      unfold Database.commitClaim at hcommit
      split at hcommit
      · cases hcommit
      rename_i hfits
      split at hcommit
      · cases hcommit
      rename_i hfree
      cases hcommit
      exact .claim c row workerId t hcall (by simpa using hfits) (by simpa using hfree) rfl rfl
        rfl rfl rfl
  · cases h

theorem claimRefresh_effect (hknown : s.Known)
    (h : act settings jsonb s now (.claimRefresh c) = some s') : Effect s s' (some c) := by
  simp only [act] at h
  split at h
  · rename_i jobId hcall
    cases h
    obtain ⟨row, hrefresh, hrow, hid⟩ := hknown.refresh (c := c) (j := jobId) (by rw [hcall]; rfl)
    unfold State.claimRefresh
    simp only [hrefresh]
    split
    · rename_i herror
      exact .fails _ rfl (.plain (plain_of_getHandler herror)) (by rw [hcall]; exact id)
    · subst hid
      exact .start c (recordFromModel row) ⟨rfl, rfl⟩ rfl hcall rfl rfl
  · cases h

theorem finish_effect {outcome : Outcome}
    (h : act settings jsonb s now (.finish c outcome) = some s') : Effect s s' (some c) := by
  simp only [act] at h
  split at h
  · rename_i job hcall
    have hunasked : ¬ (s.sessions c).Submits := by rw [hcall]; exact id
    split at h
    · exact .holds (.handled job _) (Option.some.inj h) hunasked id (by simp) rfl
        (by rw [hcall]; rfl) (Or.inr (by rw [hcall]; rfl)) (by simp) rfl
    · exact .holds (.excepted job _ none false) (Option.some.inj h) hunasked id (by simp) rfl
        (by rw [hcall]; rfl) (Or.inr (by rw [hcall]; rfl)) (by simp) rfl
  · cases h

theorem succeedRead_effect (hknown : s.Known)
    (h : act settings jsonb s now (.succeedRead c) = some s') : Effect s s' (some c) := by
  simp only [act] at h
  split at h
  · rename_i job result hcall
    have hunasked : ¬ (s.sessions c).Submits := by rw [hcall]; exact id
    split at h
    · exact .holds (.excepted job _ none false) (Option.some.inj h) hunasked id (by simp) rfl
        (by rw [hcall]; rfl) (Or.inr (by rw [hcall]; rfl)) (by simp) rfl
    · rename_i row hrow
      cases h
      have hid : row.id = job.id := hknown.keyed job.id row hrow
      refine .reads c (.succeedPending job row result now) row ⟨rfl, rfl⟩ rfl rfl (hid ▸ hrow)
        (by simp [Session.view]) ?_ (by rw [hcall]; rfl) (by rw [hcall]; rfl) rfl rfl hunasked
      intro jobId hheld
      exact hid.trans (Option.some.inj hheld)
  · cases h

theorem succeedCommit_effect (h : act settings jsonb s now (.succeedCommit c) = some s') :
    Effect s s' (some c) := by
  simp only [act] at h
  split at h
  · rename_i job row result t hcall
    split at h
    · exact .holds (.excepted job _ none true) (Option.some.inj h) (by rw [hcall]; exact id) id
        (by simp) rfl (by rw [hcall]; rfl) (Or.inr (by rw [hcall]; rfl)) (by simp) rfl
    · rename_i db hcommit
      cases h
      unfold Database.commitSucceeded at hcommit
      split at hcommit
      · cases hcommit
      · rename_i stored _
        cases hcommit
        exact .succeed c job row result stored t hcall rfl rfl rfl rfl rfl
  · cases h

theorem succeedRefresh_effect (hknown : s.Known)
    (h : act settings jsonb s now (.succeedRefresh c) = some s') : Effect s s' (some c) := by
  simp only [act] at h
  split at h
  · rename_i job hcall
    obtain ⟨row, hrefresh, -, -⟩ := hknown.refresh (c := c) (j := job.id) (by rw [hcall]; rfl)
    simp only [hrefresh] at h
    exact .holds (.marked job _) (Option.some.inj h) (by rw [hcall]; exact id) id (by simp) rfl
      (by rw [hcall]; rfl) (Or.inl rfl) (by simp) rfl
  · cases h

theorem next_effect {after : Int} {nextJobId : UUID}
    (h : act settings jsonb s now (.next c after nextJobId) = some s') : Effect s s' (some c) := by
  simp only [act] at h
  split at h
  · rename_i job succeeded hcall
    split at h
    · cases h
    rename_i hfresh
    cases h
    have hunasked : ¬ (s.sessions c).Submits := by rw [hcall]; exact id
    unfold State.next
    split
    · exact .unheld ⟨rfl, rfl⟩ rfl rfl rfl (by simp [Session.pendingRow]) (by simp)
        (.draw nextJobId hunasked id (by simp) hfresh (by simp [Session.pendingRow]) rfl rfl)
    split
    · exact .quiet c (.excepted job _ (some succeeded) false) ⟨rfl, rfl⟩ rfl rfl
        (Or.inr (by rw [hcall]; rfl)) (Or.inl rfl) (by simp) (by simp [Session.pendingRow])
        (by simp)
        (.draw nextJobId hunasked id (by simp) hfresh (by simp [Session.pendingRow]) rfl rfl)
    · refine .quiet c (.nextPending job succeeded _) ⟨rfl, rfl⟩ rfl rfl
        (Or.inr (by rw [hcall]; rfl)) (Or.inl rfl) (by simp) ?_ (by simp)
        (.draw nextJobId hunasked id (by simp) hfresh ?_ rfl rfl)
      · intro row hrow
        cases hrow
        exact ⟨rfl, rfl⟩
      · intro row hrow
        cases hrow
        exact ⟨rfl, rfl⟩
  · cases h

theorem nextCommit_effect (hknown : s.Known)
    (h : act settings jsonb s now (.nextCommit c) = some s') : Effect s s' (some c) := by
  simp only [act] at h
  split at h
  · rename_i job succeeded row hcall
    have hunasked : ¬ (s.sessions c).Submits := by rw [hcall]; exact id
    have hpending : (s.sessions c).pendingRow = some row := by rw [hcall]; rfl
    split at h
    · exact .holds (.excepted job _ (some succeeded) true) (Option.some.inj h) hunasked id (by simp)
        rfl (by rw [hcall]; rfl) (Or.inl rfl) (by simp) rfl
    · rename_i db hinsert
      cases h
      obtain ⟨hfresh, hunkeyed, payload, rfl⟩ := insertJob_ok hinsert
      exact .insert c row payload (.returned (some succeeded)) rfl rfl hfresh
        (hknown.new c row hpending) rfl rfl rfl rfl rfl (by simp) rfl hunkeyed hpending
        (Or.inr ⟨hunasked, id, by simp⟩)
  · cases h

theorem failRead_effect (hknown : s.Known)
    (h : act settings jsonb s now (.failRead c) = some s') : Effect s s' (some c) := by
  simp only [act] at h
  split at h
  · rename_i job exc succeeded flushFailed hcall
    have hunasked : ¬ (s.sessions c).Submits := by rw [hcall]; exact id
    split at h
    · exact .fails _ (Option.some.inj h) (.plain trivial) hunasked
    split at h
    · exact .fails _ (Option.some.inj h) (.plain trivial) hunasked
    · rename_i row hrow
      cases h
      have hid : row.id = job.id := hknown.keyed job.id row hrow
      refine .reads c (.failPending job succeeded row (errorText exc) now) row ⟨rfl, rfl⟩ rfl rfl
        (hid ▸ hrow) (by simp [Session.view]) ?_ (by rw [hcall]; rfl) ?_ rfl rfl hunasked
      · intro jobId hheld
        exact hid.trans (Option.some.inj hheld)
      · rw [hcall]
        cases succeeded <;> rfl
  · cases h

theorem failCommit_effect (h : act settings jsonb s now (.failCommit c) = some s') :
    Effect s s' (some c) := by
  simp only [act] at h
  split at h
  · rename_i job succeeded row error t hcall
    split at h
    · rename_i herror
      exact .fails _ (Option.some.inj h) (.plain (plain_of_commitFailed herror))
        (by rw [hcall]; exact id)
    · rename_i db hcommit
      cases h
      unfold Database.commitFailed at hcommit
      split at hcommit
      · cases hcommit
      · rename_i hfits
        cases hcommit
        exact .fail c job succeeded row error t hcall (by simpa using hfits) rfl rfl rfl rfl rfl
  · cases h

theorem failRefresh_effect (h : act settings jsonb s now (.failRefresh c) = some s') :
    Effect s s' (some c) := by
  simp only [act] at h
  split at h
  · rename_i jobId hcall
    have hunasked : ¬ (s.sessions c).Submits := by rw [hcall]; exact id
    split at h
    · rename_i herror
      exact .fails _ (Option.some.inj h) (.plain (plain_of_refresh herror)) hunasked
    · refine .free _ (Option.some.inj h) hunasked ?_ ?_ ?_ ?_ ?_ <;> split <;>
        first | rfl | exact id | simp
  · cases h

theorem publishDeadLetter_effect (h : act settings jsonb s now (.publishDeadLetter c) = some s') :
    Effect s s' (some c) := by
  simp only [act] at h
  split at h
  · rename_i updated hcall
    have hunasked : ¬ (s.sessions c).Submits := by rw [hcall]; exact id
    split at h
    · rename_i herror
      exact .fails _ (Option.some.inj h) (.plain (plain_of_publishDeadLetter herror)) hunasked
    · cases h
      exact .unheld ⟨rfl, rfl⟩ rfl rfl rfl (by simp [Session.pendingRow]) (by simp)
        (.silent hunasked (fun h => absurd h id) (by simp) rfl rfl rfl)
  · cases h

theorem cancelRead_effect (hknown : s.Known) {jobId : UUID}
    (h : act settings jsonb s now (.cancelRead c jobId) = some s') : Effect s s' (some c) := by
  simp only [act] at h
  split at h
  · rename_i hcall
    have hunasked : ¬ (s.sessions c).Submits := by rw [hcall]; exact id
    split at h
    · exact .fails _ (Option.some.inj h) (.plain trivial) hunasked
    · rename_i row hrow
      split at h
      · exact .fails _ (Option.some.inj h) (.plain trivial) hunasked
      · cases h
        have hid : row.id = jobId := hknown.keyed jobId row hrow
        exact .reads c (.cancelPending row now) row ⟨rfl, rfl⟩ rfl rfl (hid ▸ hrow)
          (by simp [Session.view]) (by simp [Session.held]) (by rw [hcall]; rfl)
          (by rw [hcall]; rfl) rfl rfl hunasked
  · cases h

theorem cancelRefresh_effect (h : act settings jsonb s now (.cancelRefresh c) = some s') :
    Effect s s' (some c) := by
  simp only [act] at h
  split at h
  · rename_i jobId hcall
    have hunasked : ¬ (s.sessions c).Submits := by rw [hcall]; exact id
    split at h
    · rename_i herror
      exact .fails _ (Option.some.inj h) (.plain (plain_of_refresh herror)) hunasked
    · exact .free _ (Option.some.inj h) hunasked id (by simp) rfl rfl rfl
  · cases h

theorem commitDrain_error {db : Database} {loaded : Option OpsSetting} {enabled : Bool} {exc : Exc}
    (h : db.commitDrain loaded enabled now = .error exc) :
    loaded = none ∧ db.opsSettings.contains "drain_enabled" = true ∧
      exc = .integrityError "ops_settings_pkey" := by
  unfold Database.commitDrain at h
  split at h
  · split at h
    · rename_i hstored
      cases h
      exact ⟨rfl, hstored, rfl⟩
    · cases h
  · cases h

/-- A drain commit that goes through writes the one setting. -/
theorem commitDrain_ok {db db' : Database} {loaded : Option OpsSetting} {enabled : Bool}
    (h : db.commitDrain loaded enabled now = .ok db') :
    ∃ opsSettings, db' = { db with opsSettings := opsSettings } := by
  unfold Database.commitDrain at h
  split at h
  · split at h
    · cases h
    · cases h
      exact ⟨_, rfl⟩
  · cases h
    exact ⟨_, rfl⟩

theorem drainCommit_effect (h : act settings jsonb s now (.drainCommit c) = some s') :
    Effect s s' (some c) := by
  simp only [act] at h
  split at h
  · rename_i loaded enabled t hcall
    have hunasked : ¬ (s.sessions c).Submits := by rw [hcall]; exact id
    split at h
    · rename_i herror
      obtain ⟨rfl, hstored, hexc⟩ := commitDrain_error herror
      exact .fails _ (Option.some.inj h) (.drain enabled t hcall hstored hexc) hunasked
    · rename_i db hcommit
      cases h
      obtain ⟨opsSettings, rfl⟩ := commitDrain_ok hcommit
      exact .unheld ⟨rfl, rfl⟩ rfl rfl rfl (by simp [Session.pendingRow]) (by simp)
        (.silent hunasked (fun h => absurd h id) (by simp) rfl rfl rfl)
  · cases h

theorem process_effect {jobId : UUID} {workerId : String}
    (h : act settings jsonb s now (.process c jobId workerId) = some s') : Effect s s' (some c) := by
  simp only [act] at h
  split at h
  · rename_i hcall
    have hunasked : ¬ (s.sessions c).Submits := by rw [hcall]; exact id
    split at h
    · exact .free _ (Option.some.inj h) hunasked id (by simp) rfl rfl rfl
    · exact .free _ (Option.some.inj h) hunasked id (by simp) rfl rfl rfl
  · cases h

theorem cancelCommit_effect (h : act settings jsonb s now (.cancelCommit c) = some s') :
    Effect s s' (some c) := by
  simp only [act] at h
  split at h
  · rename_i row t hcall
    cases h
    exact .cancel c row t hcall rfl rfl rfl rfl rfl
  · cases h

theorem drainRead_effect {enabled : Bool}
    (h : act settings jsonb s now (.drainRead c enabled) = some s') : Effect s s' (some c) := by
  simp only [act] at h
  split at h
  · rename_i hcall
    exact .free _ (Option.some.inj h) (by rw [hcall]; exact id) id (by simp) rfl rfl rfl
  · cases h

/-- **Every step has one of the effects.** -/
theorem act_effect (hknown : s.Known) {action : Action}
    (h : act settings jsonb s now action = some s') : Effect s s' action.call := by
  cases action with
  | submit c request jobId => exact submit_effect h
  | insertCommit c => exact insertCommit_effect hknown h
  | reselect c => exact reselect_effect h
  | insertRefresh c => exact insertRefresh_effect h
  | publish c => exact publish_effect h
  | process c jobId workerId => exact process_effect h
  | claimRead c => exact claimRead_effect hknown h
  | claimCommit c => exact claimCommit_effect h
  | claimRefresh c => exact claimRefresh_effect hknown h
  | finish c outcome => exact finish_effect h
  | succeedRead c => exact succeedRead_effect hknown h
  | succeedCommit c => exact succeedCommit_effect h
  | succeedRefresh c => exact succeedRefresh_effect hknown h
  | next c after nextJobId => exact next_effect h
  | nextCommit c => exact nextCommit_effect hknown h
  | failRead c => exact failRead_effect hknown h
  | failCommit c => exact failCommit_effect h
  | failRefresh c => exact failRefresh_effect h
  | publishDeadLetter c => exact publishDeadLetter_effect h
  | cancelRead c jobId => exact cancelRead_effect hknown h
  | cancelCommit c => exact cancelCommit_effect h
  | cancelRefresh c => exact cancelRefresh_effect h
  | drainRead c enabled => exact drainRead_effect h
  | drainCommit c => exact drainCommit_effect h
  | setAvailable available =>
    cases h
    exact .idle ⟨rfl, rfl⟩ rfl rfl rfl

theorem session_of_setSession {d : CallId} {session point : Session}
    (h : (s.setSession d session).sessions c = point) :
    c = d ∧ session = point ∨ s.sessions c = point := by
  by_cases hcd : c = d
  · subst hcd
    exact .inl ⟨rfl, (sessions_setSession ..).symm.trans h⟩
  · exact .inr ((Function.update_of_ne hcd ..).symm.trans h)

/-- A session is at a program point that it was at before, or has come to it by its action. -/
theorem entered_of_act {action : Action} (hs : s.act settings jsonb now action = some s')
    (c : CallId) :
    s'.sessions c = s.sessions c ∨ (s'.sessions c).EnteredBy action := by
  have hmoves : ∀ {d : CallId} {session : Session},
      s'.sessions = Function.update s.sessions d session → session.EnteredBy action →
      s'.sessions c = s.sessions c ∨ (s'.sessions c).EnteredBy action := by
    intro d session hmoves hentered
    rw [hmoves]
    by_cases hcd : c = d
    · subst hcd
      rw [Function.update_self]
      exact .inr hentered
    · rw [Function.update_of_ne hcd]
      exact .inl rfl
  cases action with
  | failRefresh d =>
    simp only [act] at hs
    split at hs
    · split at hs
      · cases hs
        exact hmoves (d := d) rfl trivial
      · cases hs
        refine hmoves (d := d) rfl ?_
        split
        · exact ⟨d, rfl⟩
        · exact trivial
    · cases hs
  | setAvailable =>
    cases hs
    exact .inl rfl
  | submit d | insertCommit d | reselect d | insertRefresh d | publish d | process d | claimRead d
  | claimCommit d | claimRefresh d | finish d | succeedRead d | succeedCommit d | succeedRefresh d
  | next d | nextCommit d | failRead d | failCommit d | publishDeadLetter d | cancelRead d
  | cancelCommit d | cancelRefresh d | drainRead d | drainCommit d =>
    simp only [act, submitJob, insertCommit, reselect, claimRead, claimCommit, claimRefresh,
      State.next] at hs
    repeat' split at hs
    all_goals cases hs
    all_goals exact hmoves (d := d) rfl (by simp [Session.EnteredBy])

end State

end Sql

end JobPipeline
