import JobPipeline.Sql.Effects
import JobPipeline.Sql.Repository

/-!
# A method that nobody interrupts

`Sql.Repository` has a method of `SqlAlchemyJobRepository` in one piece, `Sql.Sessions` in steps.
When a call takes the steps of a method one after another, with no step of another call between
them, they come to what the one piece says: the tables it leaves, what it returns, what it
raises. What `Sql.Sessions` adds is the other calls.
-/

set_option autoImplicit false

namespace JobPipeline

/-- Rows stand under their own identifier. -/
def Database.Keyed (db : Database) : Prop := ∀ id row, db.jobs.get? id = some row → row.id = id

namespace Sql

/-- The exception on its way out of the method that the call was in. -/
def Session.exc? : Session → Option Exc
  | .raised exc => some exc
  | .excepted _ exc _ _ => some exc
  | _ => none

namespace State

variable {settings : Settings} {jsonb : Jsonb} {s s' : State} {c : CallId} {jobId : UUID}
  {now t : Int} {row : Job} {job : JobRecord} {action : Action} {db : Database} {session : Session}
  {exc : Exc}

/-- Every step is one of this call's. -/
def Alone (c : CallId) (_ : State) (label : Label) : Prop := label.action.call = some c

/-- From `s`, steps of this call alone end with these tables and this session. -/
def Ends (settings : Settings) (jsonb : Jsonb) (s : State) (c : CallId) (db : Database)
    (session : Session) : Prop :=
  ∃ s', (Sql.sessions settings jsonb).Steps (Alone c) s s' ∧ s'.db = db ∧ s'.sessions c = session

/-- The steps of this call alone come to what the method in one piece does. -/
def Comes (settings : Settings) (jsonb : Jsonb) (s : State) (c : CallId) {α : Type}
    (returns : α → Session) : Except Exc (α × Database) → Prop
  | .ok (a, db) => Ends settings jsonb s c db (returns a)
  | .error exc => ∃ session, session.exc? = some exc ∧ Ends settings jsonb s c s.db session

/-! ## Chaining the steps -/

theorem Ends.step (hs : s.act settings jsonb now action = some s') (hcall : action.call = some c)
    (h : Ends settings jsonb s' c db session) : Ends settings jsonb s c db session := by
  obtain ⟨s'', hsteps, hdb, hsession⟩ := h
  have hfirst : (Sql.sessions settings jsonb).Steps (Alone c) s s' :=
    .single (a := ⟨now, action⟩) hcall hs
  exact ⟨s'', hfirst.trans hsteps, hdb, hsession⟩

/-- The step after which the call stands where it ends. -/
theorem Ends.last (hs : s.act settings jsonb now action = some (s'.setSession c session))
    (hcall : action.call = some c) (hdb : s'.db = db) : Ends settings jsonb s c db session :=
  .step hs hcall ⟨_, .refl _, hdb, Function.update_self ..⟩

theorem Comes.raise {α : Type} {returns : α → Session}
    (hs : s.act settings jsonb now action = some (s'.setSession c session))
    (hcall : action.call = some c) (hdb : s'.db = s.db) (hexc : session.exc? = some exc) :
    Comes settings jsonb s c returns (.error exc) :=
  ⟨session, hexc, .last hs hcall hdb⟩

/-- A step that commits nothing. -/
theorem Comes.step {α : Type} {returns : α → Session} {result : Except Exc (α × Database)}
    (hs : s.act settings jsonb now action = some s') (hcall : action.call = some c)
    (hdb : s'.db = s.db) (h : Comes settings jsonb s' c returns result) :
    Comes settings jsonb s c returns result := by
  cases result with
  | ok answer => exact Ends.step hs hcall h
  | error exc =>
    obtain ⟨session, hexc, hends⟩ := h
    rw [hdb] at hends
    exact ⟨session, hexc, .step hs hcall hends⟩

/-! ## Reading a committed row back -/

theorem refresh_stored (hrow : db.jobs.get? jobId = some row) :
    SqlAlchemyJobRepository.refresh db jobId = .ok (recordFromModel row) := by
  simp [SqlAlchemyJobRepository.refresh, Database.getJob?, hrow]

theorem refresh_of_stored (hrow : s.db.jobs.get? jobId = some row) : s.refresh jobId = .ok row := by
  simp [State.refresh, Database.getJob?, hrow]

theorem get?_update (assign : Job → Job) (hrow : db.jobs.get? jobId = some row) :
    (db.update jobId assign).jobs.get? jobId = some (assign row) := by
  simp [Database.update, hrow]

/-! ## `cancel_job` -/

theorem ends_cancelling (hcall : s.sessions c = .cancelling jobId)
    (hrow : s.db.jobs.get? jobId = some row) :
    Ends settings jsonb s c s.db (.cancelled (recordFromModel row)) := by
  have hs : s.act settings jsonb 0 (.cancelRefresh c) =
      some (s.setSession c (.cancelled (recordFromModel row))) := by
    simp [act, hcall, refresh_of_stored hrow]
  exact .last hs rfl rfl

theorem ends_cancelPending (hcall : s.sessions c = .cancelPending row t)
    (hrow : s.db.jobs.get? row.id = some row) :
    Ends settings jsonb s c (s.db.commitCancelled row t)
      (.cancelled (recordFromModel (Job.cancelAssignments t row))) := by
  have hs : s.act settings jsonb t (.cancelCommit c) =
      some (((s.commit (s.db.commitCancelled row t)).note (.cancelled c row.id)).setSession c
        (.cancelling row.id)) := by
    simp [act, hcall]
  have hstored := get?_update (Job.cancelAssignments t) hrow
  exact .step hs rfl (ends_cancelling (sessions_setSession ..) hstored)

theorem cancelJob_comes (hkeyed : s.db.Keyed) (hcall : s.sessions c = .idle) (jobId : UUID)
    (now : Int) :
    Comes settings jsonb s c .cancelled (SqlAlchemyJobRepository.cancelJob s.db jobId now) := by
  unfold SqlAlchemyJobRepository.cancelJob SqlAlchemyJobRepository.getModel
  cases hrow : s.db.getJob? jobId with
  | none =>
    have hs : s.act settings jsonb now (.cancelRead c jobId) =
        some (s.setSession c (.raised (.service (notFoundError "Job not found")))) := by
      simp [act, hcall, hrow]
    exact .raise hs rfl rfl rfl
  | some row =>
    obtain rfl : row.id = jobId := hkeyed jobId row hrow
    by_cases hpending : row.status.isPending = true
    · have hs : s.act settings jsonb now (.cancelRead c row.id) =
          some (s.setSession c (.cancelPending row now)) := by
        simp [act, hcall, hrow, hpending]
      have hrefresh : SqlAlchemyJobRepository.refresh (s.db.commitCancelled row now) row.id = _ :=
        refresh_stored (get?_update _ hrow)
      simp only [hpending, not_true, if_false, hrefresh]
      exact Ends.step hs rfl (ends_cancelPending (sessions_setSession ..) hrow)
    · have hs : s.act settings jsonb now (.cancelRead c row.id) =
          some (s.setSession c (.raised (.service (conflictError "Only pending jobs can be cancelled"
            [("status", .str row.status.value)])))) := by
        simp [act, hcall, hrow, hpending]
      simp only [hpending]
      exact .raise hs rfl rfl rfl

/-! ## `claim_job` -/

theorem ends_claimed (hcall : s.sessions c = .claimed jobId)
    (hrow : s.db.jobs.get? jobId = some row) (hsupported : Supported row.handler) :
    Ends settings jsonb s c s.db (.running (recordFromModel row)) := by
  obtain ⟨handler, hhandler⟩ := hsupported
  have hfound : getHandler (recordFromModel row).handler = .ok handler := hhandler
  have hs : s.act settings jsonb 0 (.claimRefresh c) =
      some ((s.note (.started c jobId)).setSession c (.running (recordFromModel row))) := by
    simp [act, hcall, State.claimRefresh, refresh_of_stored hrow, hfound]
  exact .last hs rfl rfl

theorem commitClaim_ok {read : Job} {workerId : String} {db db' : Database}
    (h : db.commitClaim read workerId t = .ok db') (hrow : db.jobs.get? read.id = some row) :
    db'.jobs.get? read.id = some (read.claimAssignments workerId t row) := by
  unfold Database.commitClaim at h
  split at h
  · cases h
  split at h
  · cases h
  · cases h
    exact get?_update _ hrow

/-- The commit of `claim_job`, and what follows it. -/
theorem claimPending_comes {workerId : String} (hcall : s.sessions c = .claimPending row workerId t)
    (hrow : s.db.jobs.get? row.id = some row) (hsupported : Supported row.handler) :
    Comes settings jsonb s c (fun claimed => claimed.elim (.returned none) .running)
      (match s.db.commitClaim row workerId t with
        | .error e => .error e
        | .ok db' => (SqlAlchemyJobRepository.refresh db' row.id).map fun job => (some job, db')) := by
  cases hcommit : s.db.commitClaim row workerId t with
  | error exc =>
    have hs : s.act settings jsonb 0 (.claimCommit c) = some (s.setSession c (.raised exc)) := by
      simp [act, hcall, State.claimCommit, hcommit]
    exact .raise hs rfl rfl rfl
  | ok db =>
    have hs : s.act settings jsonb 0 (.claimCommit c) =
        some (((s.commit db).note (.claimed c row.id)).setSession c (.claimed row.id)) := by
      simp [act, hcall, State.claimCommit, hcommit]
    have hstored := commitClaim_ok hcommit hrow
    simp only [refresh_stored hstored]
    exact Ends.step hs rfl (ends_claimed (sessions_setSession ..) hstored hsupported)

/-- `claim_job` once `get_drain` has answered. -/
theorem claiming_comes {workerId : String} (hcall : s.sessions c = .claiming jobId workerId)
    (hkeyed : s.db.Keyed) (hdrain : s.db.getDrain = false) (now : Int)
    (hsupported : ∀ row, s.db.jobs.get? jobId = some row → Supported row.handler) :
    Comes settings jsonb s c (fun claimed => claimed.elim (.returned none) .running)
      (SqlAlchemyJobRepository.claimJob s.db jobId workerId now) := by
  unfold SqlAlchemyJobRepository.claimJob
  simp only [hdrain]
  cases hrow : s.db.getJob? jobId with
  | none =>
    have hs : s.act settings jsonb now (.claimRead c) =
        some (s.setSession c (.returned none)) := by
      simp [act, hcall, State.claimRead, hrow]
    exact Ends.last hs rfl rfl
  | some row =>
    obtain rfl : row.id = jobId := hkeyed jobId row hrow
    by_cases hpass : ¬ row.status.isPending = true ∨ now < row.nextRunAt
    · have hs : s.act settings jsonb now (.claimRead c) =
          some (s.setSession c (.returned none)) := by
        simp only [act, hcall, State.claimRead, hrow, hpass, if_true]
      simp only [hpass, if_true]
      exact Ends.last hs rfl rfl
    · have hs : s.act settings jsonb now (.claimRead c) =
          some (s.setSession c (.claimPending row workerId now)) := by
        simp only [act, hcall, State.claimRead, hrow, hpass, if_false]
      simp only [hpass, if_false]
      exact .step hs rfl rfl
        (claimPending_comes (sessions_setSession ..) hrow (hsupported row hrow))

/-- `claim_job`, and the start of the handler of the job it returns. -/
theorem claimJob_comes (hkeyed : s.db.Keyed) (hcall : s.sessions c = .idle) (jobId : UUID)
    (workerId : String) (now : Int)
    (hsupported : ∀ row, s.db.jobs.get? jobId = some row → Supported row.handler) :
    Comes settings jsonb s c (fun claimed => claimed.elim (.returned none) .running)
      (SqlAlchemyJobRepository.claimJob s.db jobId workerId now) := by
  cases hdrain : s.db.getDrain with
  | true =>
    have hs : s.act settings jsonb now (.process c jobId workerId) =
        some (s.setSession c (.returned none)) := by
      simp [act, hcall, hdrain]
    simp only [SqlAlchemyJobRepository.claimJob, hdrain, if_true]
    exact Ends.last hs rfl rfl
  | false =>
    have hs : s.act settings jsonb now (.process c jobId workerId) =
        some (s.setSession c (.claiming jobId workerId)) := by
      simp [act, hcall, hdrain]
    apply Comes.step hs rfl rfl
    exact claiming_comes (sessions_setSession ..) hkeyed hdrain now hsupported

/-! ## `mark_succeeded` and `mark_failed_attempt` -/

theorem commitSucceeded_ok {read : Job} {result : JsonObject} {db db' : Database}
    (h : db.commitSucceeded jsonb read result t = .ok db') (hrow : db.jobs.get? read.id = some row) :
    ∃ stored, db'.jobs.get? read.id = some (row.succeedAssignments stored t) := by
  unfold Database.commitSucceeded at h
  split at h
  · cases h
  · rename_i stored _
    cases h
    exact ⟨stored, get?_update _ hrow⟩

theorem commitFailed_ok {read : Job} {error : String} {backoff : Int} {db db' : Database}
    (h : db.commitFailed read error backoff t = .ok db') (hrow : db.jobs.get? read.id = some row) :
    db'.jobs.get? read.id = some (read.failAssignments error backoff t row) := by
  unfold Database.commitFailed at h
  split at h
  · cases h
  · cases h
    exact get?_update _ hrow

theorem ends_succeeded (hcall : s.sessions c = .succeeded job)
    (hrow : s.db.jobs.get? job.id = some row) :
    Ends settings jsonb s c s.db (.marked job (recordFromModel row)) := by
  have hs : s.act settings jsonb 0 (.succeedRefresh c) =
      some (s.setSession c (.marked job (recordFromModel row))) := by
    simp [act, hcall, refresh_of_stored hrow]
  exact .last hs rfl rfl

/-- The commit of `mark_succeeded`, and what follows it. -/
theorem succeedPending_comes {result : JsonObject}
    (hcall : s.sessions c = .succeedPending job row result t) (hid : row.id = job.id)
    (hrow : s.db.jobs.get? row.id = some row) :
    Comes settings jsonb s c (.marked job)
      (match s.db.commitSucceeded jsonb row result t with
        | .error e => .error e
        | .ok db' => (SqlAlchemyJobRepository.refresh db' job.id).map fun job => (job, db')) := by
  cases hcommit : s.db.commitSucceeded jsonb row result t with
  | error exc =>
    have hs : s.act settings jsonb 0 (.succeedCommit c) =
        some (s.setSession c (.excepted job exc none true)) := by
      simp [act, hcall, hcommit]
    exact .raise hs rfl rfl rfl
  | ok db =>
    have hs : s.act settings jsonb 0 (.succeedCommit c) =
        some ((s.commit db).setSession c (.succeeded job)) := by
      simp [act, hcall, hcommit]
    obtain ⟨stored, hstored⟩ := commitSucceeded_ok hcommit hrow
    rw [hid] at hstored
    simp only [refresh_stored hstored]
    exact Ends.step hs rfl (ends_succeeded (sessions_setSession ..) hstored)

/-- `mark_succeeded` with the handler's result. -/
theorem markSucceeded_comes {result : JsonObject} (hcall : s.sessions c = .handled job result)
    (hkeyed : s.db.Keyed) (now : Int) :
    Comes settings jsonb s c (.marked job)
      (SqlAlchemyJobRepository.markSucceeded jsonb s.db job.id result now) := by
  unfold SqlAlchemyJobRepository.markSucceeded SqlAlchemyJobRepository.getModel
  cases hrow : s.db.getJob? job.id with
  | none =>
    have hs : s.act settings jsonb now (.succeedRead c) = some (s.setSession c
        (.excepted job (.service (notFoundError "Job not found")) none false)) := by
      simp [act, hcall, hrow]
    exact .raise hs rfl rfl rfl
  | some row =>
    have hid : row.id = job.id := hkeyed job.id row hrow
    have hs : s.act settings jsonb now (.succeedRead c) =
        some (s.setSession c (.succeedPending job row result now)) := by
      simp [act, hcall, hrow]
    exact .step hs rfl rfl (succeedPending_comes (sessions_setSession ..) hid (hid ▸ hrow))

/-- Where `process_job` goes on from what `mark_failed_attempt` returned. -/
def afterFailed (updated : JobRecord) : Session :=
  if updated.status = .deadLettered then .deadLettering updated else .returned (some updated)

theorem ends_failed (hcall : s.sessions c = .failed jobId)
    (hrow : s.db.jobs.get? jobId = some row) :
    Ends settings jsonb s c s.db (afterFailed (recordFromModel row)) := by
  have hs : s.act settings jsonb 0 (.failRefresh c) =
      some (s.setSession c (afterFailed (recordFromModel row))) := by
    simp [act, hcall, refresh_of_stored hrow, afterFailed]
  exact .last hs rfl rfl

/-- The commit of `mark_failed_attempt`, and what follows it. -/
theorem failPending_comes {succeeded : Option JobRecord} {error : String}
    (hcall : s.sessions c = .failPending job succeeded row error t)
    (hrow : s.db.jobs.get? row.id = some row) :
    Comes settings jsonb s c afterFailed
      (match s.db.commitFailed row error (backoffSeconds job.attemptCount) t with
        | .error e => .error e
        | .ok db' => (SqlAlchemyJobRepository.refresh db' row.id).map fun job => (job, db')) := by
  cases hcommit : s.db.commitFailed row error (backoffSeconds job.attemptCount) t with
  | error exc =>
    have hs : s.act settings jsonb 0 (.failCommit c) = some (s.setSession c (.raised exc)) := by
      simp [act, hcall, hcommit]
    exact .raise hs rfl rfl rfl
  | ok db =>
    have hs : s.act settings jsonb 0 (.failCommit c) =
        some ((s.commit db).setSession c (.failed row.id)) := by
      simp [act, hcall, hcommit]
    have hstored := commitFailed_ok hcommit hrow
    simp only [refresh_stored hstored]
    exact Ends.step hs rfl (ends_failed (sessions_setSession ..) hstored)

/-- `mark_failed_attempt` in the `except` block, with the session usable. -/
theorem markFailedAttempt_comes {exc : Exc} {succeeded : Option JobRecord}
    (hcall : s.sessions c = .excepted job exc succeeded false) (hkeyed : s.db.Keyed) (now : Int) :
    Comes settings jsonb s c afterFailed
      (SqlAlchemyJobRepository.markFailedAttempt s.db job.id (errorText exc)
        (backoffSeconds job.attemptCount) now) := by
  unfold SqlAlchemyJobRepository.markFailedAttempt SqlAlchemyJobRepository.getModel
  cases hrow : s.db.getJob? job.id with
  | none =>
    have hs : s.act settings jsonb now (.failRead c) =
        some (s.setSession c (.raised (.service (notFoundError "Job not found")))) := by
      simp [act, hcall, hrow]
    exact .raise hs rfl rfl rfl
  | some row =>
    have hid : row.id = job.id := hkeyed job.id row hrow
    have hs : s.act settings jsonb now (.failRead c) =
        some (s.setSession c (.failPending job succeeded row (errorText exc) now)) := by
      simp [act, hcall, hrow]
    have hstored : s.db.jobs.get? row.id = some row := hid ▸ hrow
    rw [← hid]
    exact .step hs rfl rfl (failPending_comes (sessions_setSession ..) hstored)

/-! ## The rows that are inserted -/

theorem insertJob_stored {db db' : Database} (h : db.insertJob jsonb row = .ok db') :
    ∃ payload, db'.jobs.get? row.id = some { row with payload := payload } := by
  obtain ⟨-, -, payload, rfl⟩ := insertJob_ok h
  exact ⟨payload, Dict.get?_insert_self ..⟩

/-- The commit of `create_next_recurring_job`. -/
theorem nextPending_comes {succeeded : JobRecord} {next : Job}
    (hcall : s.sessions c = .nextPending job succeeded next) :
    Comes settings jsonb s c (fun _ => .returned (some succeeded))
      (match s.db.insertJob jsonb next with
        | .error e => .error e
        | .ok db' => (SqlAlchemyJobRepository.refresh db' next.id).map fun job =>
          (some job, db')) := by
  cases hcommit : s.db.insertJob jsonb next with
  | error exc =>
    have hs : s.act settings jsonb 0 (.nextCommit c) =
        some (s.setSession c (.excepted job exc (some succeeded) true)) := by
      simp [act, hcall, hcommit]
    exact .raise hs rfl rfl rfl
  | ok db =>
    have hs : s.act settings jsonb 0 (.nextCommit c) =
        some (((s.commit db).note (.inserted c next)).setSession c (.returned (some succeeded))) := by
      simp [act, hcall, hcommit]
    obtain ⟨payload, hstored⟩ := insertJob_stored hcommit
    simp only [refresh_stored hstored]
    exact Ends.last hs rfl rfl

/-- `create_next_recurring_job` for the job that `mark_succeeded` returned; `process_job` drops
    the record that this one returns. -/
theorem createNextRecurringJob_comes {succeeded : JobRecord} {nextJobId : UUID}
    (hcall : s.sessions c = .marked job succeeded) (hfresh : nextJobId ∉ s.drawn)
    (after now : Int) : Comes settings jsonb s c (fun _ => .returned (some succeeded))
      (SqlAlchemyJobRepository.createNextRecurringJob jsonb s.db succeeded after now nextJobId) := by
  have hs : s.act settings jsonb now (.next c after nextJobId) =
      some ({ s with drawn := nextJobId :: s.drawn }.next c job succeeded after now nextJobId) := by
    simp [act, hcall, hfresh]
  unfold SqlAlchemyJobRepository.createNextRecurringJob
  unfold State.next at hs
  cases hcron : succeeded.recurringCron with
  | none =>
    simp only [hcron, Option.filter_none] at hs
    exact Ends.last hs rfl rfl
  | some cron =>
    by_cases hempty : cron = ""
    · simp only [hcron, hempty, Option.filter_some, ne_eq, not_true, decide_false] at hs
      simp only [hempty, if_true]
      exact Ends.last hs rfl rfl
    · have hkept : succeeded.recurringCron.filter (· ≠ "") = some cron := by
        simp [hcron, hempty]
      simp only [hkept] at hs
      simp only [hempty, if_false]
      cases hnext : nextCronRun cron after with
      | error exc =>
        simp only [hnext] at hs
        exact .raise hs rfl rfl rfl
      | ok nextRunAt =>
        simp only [hnext] at hs
        exact .step hs rfl rfl (nextPending_comes (sessions_setSession ..))

/-! ## `set_drain` -/

theorem setDrain_comes (hcall : s.sessions c = .idle) (enabled : Bool) (now : Int) :
    Comes settings jsonb s c (fun _ => .drained)
      (SqlAlchemyJobRepository.setDrain s.db enabled now) := by
  have hread : s.act settings jsonb now (.drainRead c enabled) =
      some (s.setSession c (.drainPending s.db.drainSetting? enabled now)) := by
    simp [act, hcall]
  have hcommit : (s.setSession c (.drainPending s.db.drainSetting? enabled now)).act settings jsonb
      now (.drainCommit c) = some (((s.setSession c (.drainPending s.db.drainSetting? enabled
        now)).commit (s.db.withDrain enabled now)).setSession c .drained) := by
    have hloaded := s.db.commitDrain_loaded enabled now
    simp only [act, State.setSession, hloaded, Function.update_self]
  rw [SqlAlchemyJobRepository.setDrain_ok]
  exact .step hread rfl rfl (Ends.last hcommit rfl rfl)

/-! ## `create_job` -/

/-- Where `submit_job` goes on from what `create_job` returned. -/
def afterCreated (created : JobRecord × Bool) : Session :=
  if created.2 then .submitted created.1 true else .publishing created.1

theorem ends_inserted (hcall : s.sessions c = .inserted jobId)
    (hrow : s.db.jobs.get? jobId = some row) :
    Ends settings jsonb s c s.db (.publishing (recordFromModel row)) := by
  have hs : s.act settings jsonb 0 (.insertRefresh c) =
      some ((s.note (.answered c (recordFromModel row) false)).setSession c
        (.publishing (recordFromModel row))) := by
    simp [act, hcall, refresh_of_stored hrow]
  exact .last hs rfl rfl

/-- Nothing stands in the way of a fresh row whose key, if it has one, is free: the commit of
    `create_job` never has to look for the key again. -/
theorem insertCommit_error (hcommit : s.db.insertJob jsonb row = .error exc)
    (hkey : row.idempotencyKey.filter (· ≠ "") >>= s.db.findByKey = none)
    (hfresh : s.db.jobs.contains row.id = false) :
    s.insertCommit jsonb c row = s.setSession c (.raised exc) := by
  unfold State.insertCommit
  rw [hcommit]
  cases exc with
  | integrityError constraint =>
    cases hfilter : row.idempotencyKey.filter (· ≠ "") with
    | none => simp
    | some key =>
      have hgiven : row.idempotencyKey = some key := Option.eq_some_of_filter_eq_some hfilter
      obtain hplain | ⟨-, hcontains | htaken⟩ := insertJob_error hcommit
      · exact absurd hplain (by simp [Plain])
      · simp [hfresh] at hcontains
      · rw [hfilter] at hkey
        change s.db.findByKey key = none at hkey
        simp [hgiven, hkey] at htaken
  | _ => rfl

/-- The commit of `create_job`, and what follows it. -/
theorem inserting_comes (hcall : s.sessions c = .inserting row)
    (hkey : row.idempotencyKey.filter (· ≠ "") >>= s.db.findByKey = none)
    (hfresh : s.db.jobs.contains row.id = false) :
    Comes settings jsonb s c afterCreated
      (match s.db.insertJob jsonb row with
        | .error e => .error e
        | .ok db' => (SqlAlchemyJobRepository.refresh db' row.id).map fun job =>
          ((job, false), db')) := by
  cases hcommit : s.db.insertJob jsonb row with
  | error exc =>
    have hs : s.act settings jsonb 0 (.insertCommit c) = some (s.setSession c (.raised exc)) := by
      simp [act, hcall, insertCommit_error hcommit hkey hfresh]
    exact .raise hs rfl rfl rfl
  | ok db =>
    have hs : s.act settings jsonb 0 (.insertCommit c) =
        some (((s.commit db).note (.inserted c row)).setSession c (.inserted row.id)) := by
      simp [act, hcall, State.insertCommit, hcommit]
    obtain ⟨payload, hstored⟩ := insertJob_stored hcommit
    simp only [refresh_stored hstored]
    exact Ends.step hs rfl (ends_inserted (sessions_setSession ..) hstored)

section Submit

variable {request : JobCreate}

/-- The second `select` finds what the first one found: nothing. -/
theorem createJob_new (hexisting : SqlAlchemyJobRepository.existing db request = none) :
    SqlAlchemyJobRepository.createJob jsonb db request now jobId =
      match db.insertJob jsonb (.submittedRow request jobId now) with
        | .error e => .error e
        | .ok db' => (SqlAlchemyJobRepository.refresh db' jobId).map fun job =>
          ((job, false), db') := by
  unfold SqlAlchemyJobRepository.createJob
  simp only [hexisting]
  cases db.insertJob jsonb (.submittedRow request jobId now) with
  | ok db' => rfl
  | error exc => cases exc <;> rfl

theorem submitJob_existing (hsupported : Supported request.handler)
    (hsize : validatePayloadSize settings request.payload = .ok ())
    (hexisting : SqlAlchemyJobRepository.existing s.db request = some row) :
    s.submitJob settings c request now jobId =
      (s.note (.answered c (recordFromModel row) true)).setSession c
        (.submitted (recordFromModel row) true) := by
  obtain ⟨handler, hhandler⟩ := hsupported
  unfold SqlAlchemyJobRepository.existing at hexisting
  simp only [State.submitJob, hhandler, hsize, hexisting]

theorem submitJob_new (hsupported : Supported request.handler)
    (hsize : validatePayloadSize settings request.payload = .ok ())
    (hexisting : SqlAlchemyJobRepository.existing s.db request = none) :
    s.submitJob settings c request now jobId =
      s.setSession c (.inserting (.submittedRow request jobId now)) := by
  obtain ⟨handler, hhandler⟩ := hsupported
  unfold SqlAlchemyJobRepository.existing at hexisting
  simp only [State.submitJob, hhandler, hsize, hexisting]

/-- `create_job`, for a request that `submit_job` lets through to it. -/
theorem createJob_comes (hcall : s.sessions c = .idle) (hsupported : Supported request.handler)
    (hsize : validatePayloadSize settings request.payload = .ok ()) (hdrawn : jobId ∉ s.drawn)
    (hfresh : s.db.jobs.contains jobId = false) (now : Int) :
    Comes settings jsonb s c afterCreated
      (SqlAlchemyJobRepository.createJob jsonb s.db request now jobId) := by
  have hs : s.act settings jsonb now (.submit c request jobId) =
      some (({ s with drawn := jobId :: s.drawn }.note
        (.requested c request.idempotencyKey)).submitJob settings c request now jobId) := by
    simp [act, hcall, hdrawn]
  cases hexisting : SqlAlchemyJobRepository.existing s.db request with
  | some existing =>
    have hreplay := hs.trans (congrArg some (submitJob_existing hsupported hsize hexisting))
    simp only [SqlAlchemyJobRepository.createJob, hexisting]
    exact Ends.last hreplay rfl rfl
  | none =>
    have hinsert := hs.trans (congrArg some (submitJob_new hsupported hsize hexisting))
    rw [createJob_new hexisting]
    exact .step hinsert rfl rfl (inserting_comes (sessions_setSession ..) hexisting hfresh)

end Submit

end State

end Sql

end JobPipeline
