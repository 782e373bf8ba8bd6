import JobPipeline.Lib.CommitOrder
import JobPipeline.Sql.Drain
import JobPipeline.Sql.Orphans
import JobPipeline.Sql.Pacing
import JobPipeline.Sql.Processing
import JobPipeline.Sql.Sequential
import JobPipeline.Sql.Simulation

/-!
# Interleaved sessions and one call after another

The sessions cut every method of the repository into reads and a commit, and other sessions commit in
between. Still the tables are those that whole method calls leave behind, made one at a time in the
order of the commits, as long as three commits find what their reads found: a claim finds drain off
and its job not cancelled, a cancellation finds its job pending, and a `set_drain` finds what it left
out of its `UPDATE`. Marks and inserts need no such condition: a job that a call holds is written by
no other call, and a new row has a new identifier.
-/

set_option autoImplicit false

namespace JobPipeline

namespace Sql

namespace State

open Transition

variable {settings : Settings} {jsonb : Jsonb} {s s' : State} {c d : CallId} {jobId : UUID}
  {now t : Int} {action : Action} {label : Label} {call : Option CallId} {row row' : Job}

/-- The call of a repository method that a step commits, with what the call of the service has read
    from outside. A method that draws no identifier ignores `drawn`. -/
inductive Commits (jsonb : Jsonb) (s : State) : Label → MethodCall → Prop where
  | createJob {c : CallId} {t : Int} (request : JobCreate) (jobId : UUID) (now : Int) {db : Database}
      (before : s.sessions c = .inserting (.submittedRow request jobId now))
      (commit : s.db.insertJob jsonb (.submittedRow request jobId now) = .ok db) :
      Commits jsonb s ⟨t, .insertCommit c⟩ ⟨.createJob request, now, jobId, []⟩
  | claimJob {c : CallId} {t : Int} (read : Job) (workerId : String) (now : Int) (drawn : UUID)
      {db : Database} (before : s.sessions c = .claimPending read workerId now)
      (commit : s.db.commitClaim read workerId now = .ok db) :
      Commits jsonb s ⟨t, .claimCommit c⟩ ⟨.claimJob read.id workerId, now, drawn, []⟩
  | markSucceeded {c : CallId} {t : Int} (job : JobRecord) (read : Job) (result : JsonObject)
      (now : Int) (drawn : UUID) {db : Database}
      (before : s.sessions c = .succeedPending job read result now)
      (commit : s.db.commitSucceeded jsonb read result now = .ok db) :
      Commits jsonb s ⟨t, .succeedCommit c⟩ ⟨.markSucceeded job.id result, now, drawn, []⟩
  | createNextRecurringJob {c : CallId} {t : Int} (job succeeded : JobRecord) (cron : String)
      (nextJobId : UUID) (nextRunAt after now : Int) {db : Database}
      (before : s.sessions c =
        .nextPending job succeeded (.successorRow succeeded nextJobId nextRunAt now))
      (recurs : succeeded.recurringCron = some cron) (run : nextCronRun cron after = .ok nextRunAt)
      (commit : s.db.insertJob jsonb (.successorRow succeeded nextJobId nextRunAt now) = .ok db) :
      Commits jsonb s ⟨t, .nextCommit c⟩
        ⟨.createNextRecurringJob succeeded after, now, nextJobId, []⟩
  | markFailedAttempt {c : CallId} {t : Int} (job : JobRecord) (succeeded : Option JobRecord)
      (read : Job) (error : String) (now : Int) (drawn : UUID) {db : Database}
      (before : s.sessions c = .failPending job succeeded read error now)
      (commit : s.db.commitFailed read error (backoffSeconds job.attemptCount) now = .ok db) :
      Commits jsonb s ⟨t, .failCommit c⟩
        ⟨.markFailedAttempt job.id error (backoffSeconds job.attemptCount), now, drawn, []⟩
  | cancelJob {c : CallId} {t : Int} (read : Job) (now : Int) (drawn : UUID)
      (before : s.sessions c = .cancelPending read now) :
      Commits jsonb s ⟨t, .cancelCommit c⟩ ⟨.cancelJob read.id, now, drawn, []⟩
  | setDrain {c : CallId} {t : Int} (loaded : Option OpsSetting) (enabled : Bool) (now : Int)
      (drawn : UUID) {db : Database} (before : s.sessions c = .drainPending loaded enabled now)
      (commit : s.db.commitDrain loaded enabled now = .ok db) :
      Commits jsonb s ⟨t, .drainCommit c⟩ ⟨.setDrain enabled, now, drawn, []⟩

/-- The three commits that may not find what their reads found find it. -/
structure Uncontested (s : State) (label : Label) : Prop where
  claim : ∀ c read workerId now, label.action = .claimCommit c →
    s.sessions c = .claimPending read workerId now → fitsString 100 workerId = true →
    s.db.hasAttempt read.id (read.attemptCount + 1) = false →
    s.db.getDrain = false ∧ ∀ row, s.db.getJob? read.id = some row → row.status ≠ .cancelled
  cancel : ∀ c read now, label.action = .cancelCommit c → s.sessions c = .cancelPending read now →
    ∀ row, s.db.getJob? read.id = some row → row.status.isPending = true
  drain : ∀ c loaded enabled now, label.action = .drainCommit c →
    s.sessions c = .drainPending (some loaded) enabled now →
    ∀ row, s.db.drainSetting? = some row → loaded.UpToDate enabled now row

/-! ## What a step does to a row -/

/-- What becomes of a stored row. -/
inductive RowChange (s : State) (label : Label) (jobId : UUID) (row row' : Job) : Prop where
  | same (same : row' = row)
  | claim (c : CallId) (read : Job) (workerId : String) (t : Int)
      (action : label.action = .claimCommit c)
      (before : s.sessions c = .claimPending read workerId t) (id : read.id = jobId)
      (fits : fitsString 100 workerId = true)
      (free : s.db.hasAttempt read.id (read.attemptCount + 1) = false)
      (counted : row'.attemptCount = read.attemptCount + 1)
  /-- `mark_succeeded` or `mark_failed_attempt`, of the call that holds the job. -/
  | mark (c : CallId) (held : (s.sessions c).held = some jobId) (read : Job)
      (marks : (s.sessions c).read = some read)
  | cancel (c : CallId) (read : Job) (t : Int) (action : label.action = .cancelCommit c)
      (before : s.sessions c = .cancelPending read t) (id : read.id = jobId)
      (changed : row' = Job.cancelAssignments t row)

theorem rowChange_of_step (hinv : s.Inv) (hs : s.step settings jsonb label = some s')
    (hrow : s.db.jobs.get? jobId = some row) :
    ∃ row', s'.db.jobs.get? jobId = some row' ∧ RowChange s label jobId row row' := by
  have he := act_effect hinv.toKnown hs
  generalize hcall : label.action.call = call at he
  have hsame : s'.db.jobs = s.db.jobs →
      ∃ row', s'.db.jobs.get? jobId = some row' ∧ RowChange s label jobId row row' := by
    intro hjobs
    exact ⟨row, by rw [hjobs, hrow], .same rfl⟩
  have hother : ∀ {id : UUID} {assign : Job → Job}, s'.db.jobs = s.db.jobs.modify id assign →
      jobId ≠ id → ∃ row', s'.db.jobs.get? jobId = some row' ∧ RowChange s label jobId row row' := by
    intro id assign hjobs hne
    exact ⟨row, by rw [hjobs, Dict.get?_modify_of_ne _ _ hne, hrow], .same rfl⟩
  cases he with
  | idle tables => exact hsame tables.1
  | quiet _ _ tables => exact hsame tables.1
  | reads _ _ _ tables => exact hsame tables.1
  | start _ _ tables => exact hsame tables.1
  | insert c new payload session jobs attempts fresh =>
    have hne : jobId ≠ new.id := (Dict.ne_of_get?_eq_none fresh hrow).symm
    exact ⟨row, by rw [jobs, Dict.get?_insert_of_ne _ _ hne, hrow], .same rfl⟩
  | claim c read workerId t before fits free jobs =>
    by_cases hid : jobId = read.id
    · subst hid
      exact ⟨_, get?_of_update jobs hrow,
        .claim c read workerId t (act_of_claimPending hs hcall before) before rfl fits free rfl⟩
    · exact hother jobs hid
  -- Both marks are made by the call that holds the job.
  | succeed c job read result stored t before jobs =>
    by_cases hid : jobId = read.id
    · subst hid
      obtain ⟨hjob, -⟩ := hinv.read_current c read job.id (by rw [before]; rfl) (by rw [before]; rfl)
      exact ⟨_, get?_of_update jobs hrow,
        .mark c (by rw [before, hjob]; rfl) read (by rw [before]; rfl)⟩
    · exact hother jobs hid
  | fail c job succeeded read error t before fits jobs =>
    by_cases hid : jobId = read.id
    · subst hid
      obtain ⟨hjob, -⟩ := hinv.read_current c read job.id (by rw [before]; rfl) (by rw [before]; rfl)
      exact ⟨_, get?_of_update jobs hrow,
        .mark c (by rw [before, hjob]; rfl) read (by rw [before]; rfl)⟩
    · exact hother jobs hid
  | cancel c read t before jobs =>
    by_cases hid : jobId = read.id
    · subst hid
      exact ⟨_, get?_of_update jobs hrow,
        .cancel c read t (act_of_cancelPending hs hcall before) before rfl rfl⟩
    · exact hother jobs hid

/-! ## What a commit relies on -/

/-- A claim has read a job that was pending and due, and unless another call has claimed the job
    since, the row is what it has read, or was cancelled. -/
structure ClaimRead (s : State) (read : Job) (t : Int) : Prop where
  pending : read.status.isPending = true
  due : read.nextRunAt ≤ t
  current : read.attemptCount = s.version read.id → ∀ row, s.db.jobs.get? read.id = some row →
    row = read ∨ row.status = .cancelled

/-- What the calls are about to commit. -/
structure Prepared (s : State) : Prop where
  inserting : ∀ c row, s.sessions c = .inserting row →
    ∃ request jobId now, row = .submittedRow request jobId now
  claiming : ∀ c read workerId t, s.sessions c = .claimPending read workerId t → s.ClaimRead read t
  draining : ∀ c loaded enabled t, s.sessions c = .drainPending (some loaded) enabled t →
    ∃ row, s.db.drainSetting? = some row

theorem Effect.requestedRow (he : Effect s s' call) (h : s'.sessions c = .inserting row) :
    s.sessions c = .inserting row ∨ ∃ request jobId now, row = .submittedRow request jobId now := by
  rcases he.submits (c := c) (by rw [h]; trivial) with heq | htalk | ⟨_, -, heq⟩
  · exact .inl (heq ▸ h)
  · rw [h] at htalk
    cases htalk with
    | silent _ after => exact absurd (after trivial) (by simp)
    | draw _ _ after => exact absurd trivial after
    | ask request jobId now => exact .inr ⟨request, jobId, now, rfl⟩
    | publish _ _ after => simp at after
  · rw [h] at heq
    cases heq

theorem ClaimRead.step {read : Job} {workerId : String} (h : s.ClaimRead read t) (hinv : s.Inv)
    (hpending : s.sessions c = .claimPending read workerId t)
    (hs : s.step settings jsonb label = some s') : s'.ClaimRead read t := by
  refine ⟨h.pending, h.due, ?_⟩
  intro hcurrent row' hrow'
  have hbefore := hinv.current_before (act_effect hinv.toKnown hs) hpending hcurrent
  obtain ⟨row, hrow, -⟩ := hinv.read_stored c read (by rw [hpending]; rfl)
  obtain ⟨row'', hrow'', hchange⟩ := rowChange_of_step hinv hs hrow
  rw [hrow'] at hrow''
  cases hrow''
  cases hchange with
  | same heq => exact heq ▸ h.current hbefore row hrow
  | claim d read' workerId' t' _ before hid _ free counted =>
    -- The other claim has counted, so this one is stale.
    have hcurrent' := (hinv.free_iff before).mp free
    rw [hid] at hcurrent'
    rw [version_of_stored hrow'] at hcurrent
    omega
  | mark d held => exact absurd hbefore (hinv.stale_of_held held hpending rfl)
  | cancel d read' t' _ _ _ changed =>
    rw [changed]
    exact .inr rfl

theorem Prepared.step (h : s.Prepared) (hinv : s.Inv) (hs : s.step settings jsonb label = some s') :
    s'.Prepared := by
  constructor
  · intro c row hsession
    rcases (act_effect hinv.toKnown hs).requestedRow hsession with hbefore | hrequested
    · exact h.inserting c row hbefore
    · exact hrequested
  · intro c read workerId t hsession
    rcases claimPending_of_act hs hsession with hbefore | ⟨hdb, ⟨jobId, hread⟩, hpending, hdue, -⟩
    · exact (h.claiming c read workerId t hbefore).step hinv hbefore hs
    · refine ⟨hpending, hdue, ?_⟩
      intro _ row hrow
      rw [hdb, hinv.keyed jobId read hread, hread] at hrow
      cases hrow
      exact .inl rfl
  · intro c loaded enabled t hsession
    rcases drainPending_of_act hs hsession with hbefore | ⟨hloaded, hdb⟩
    · obtain ⟨row, hrow⟩ := h.draining c loaded enabled t hbefore
      exact drainSetting_of_act hs hrow
    · exact ⟨loaded, by rw [hdb, ← hloaded]⟩

theorem prepared_of_reachable (h : (Sql.sessions settings jsonb).Reachable Any s) : s.Prepared := by
  apply h.invariant_of_reachable (I := Prepared)
  · intro s hs
    have hs : s = State.initial := hs
    subst hs
    constructor
    · intro c row hsession
      cases hsession
    · intro c read workerId t hsession
      cases hsession
    · intro c loaded enabled t hsession
      cases hsession
  · intro s label s' hreach hprepared _ hs
    exact hprepared.step (inv_of_reachable hreach) hs

/-! ## A step that commits nothing -/

/-- **The tables change with the commits only.** -/
theorem db_of_silent (hreach : (Sql.sessions settings jsonb).Reachable Any s)
    (hs : s.step settings jsonb label = some s') (hsilent : ∀ call, ¬ Commits jsonb s label call) :
    s'.db = s.db := by
  have hprepared := prepared_of_reachable hreach
  have hchained := chained_of_reachable hreach
  obtain ⟨t, action⟩ := label
  cases action with
  -- A commit that goes through would be one of `Commits`.
  | insertCommit c =>
    simp only [State.step, act, insertCommit] at hs
    split at hs
    · rename_i row hcall
      obtain ⟨request, jobId, now, rfl⟩ := hprepared.inserting c row hcall
      repeat' split at hs
      all_goals cases hs
      all_goals first | rfl | skip
      rename_i db hcommit
      exact absurd (.createJob request jobId now hcall hcommit) (hsilent _)
    · cases hs
  | claimCommit c =>
    simp only [State.step, act, claimCommit] at hs
    split at hs
    · rename_i read workerId now hcall
      split at hs
      · cases hs
        rfl
      · rename_i db hcommit
        exact absurd (.claimJob read workerId now read.id hcall hcommit) (hsilent _)
    · cases hs
  | succeedCommit c =>
    simp only [State.step, act] at hs
    split at hs
    · rename_i job read result now hcall
      split at hs
      · cases hs
        rfl
      · rename_i db hcommit
        exact absurd (.markSucceeded job read result now job.id hcall hcommit) (hsilent _)
    · cases hs
  | nextCommit c =>
    simp only [State.step, act] at hs
    split at hs
    · rename_i job succeeded next hcall
      -- The row remembers only its creation; the invariant has both clock readings.
      obtain ⟨-, -, cron, after, now, nextRunAt, nextJobId, hrecurs, hrun, rfl⟩ :=
        hchained.pending c job succeeded next hcall
      split at hs
      · cases hs
        rfl
      · rename_i db hcommit
        exact absurd (.createNextRecurringJob job succeeded cron nextJobId nextRunAt after now hcall
          hrecurs hrun hcommit) (hsilent _)
    · cases hs
  | failCommit c =>
    simp only [State.step, act] at hs
    split at hs
    · rename_i job succeeded read error now hcall
      split at hs
      · cases hs
        rfl
      · rename_i db hcommit
        exact absurd (.markFailedAttempt job succeeded read error now job.id hcall hcommit)
          (hsilent _)
    · cases hs
  | cancelCommit c =>
    simp only [State.step, act] at hs
    split at hs
    · rename_i read now hcall
      exact absurd (.cancelJob read now read.id hcall) (hsilent _)
    · cases hs
  | drainCommit c =>
    simp only [State.step, act] at hs
    split at hs
    · rename_i loaded enabled now hcall
      split at hs
      · cases hs
        rfl
      · rename_i db hcommit
        exact absurd (.setDrain loaded enabled now Sample.jobId hcall hcommit) (hsilent _)
    · cases hs
  | setAvailable => cases hs; rfl
  | submit | reselect | insertRefresh | publish | process | claimRead | claimRefresh | finish
  | succeedRead | succeedRefresh | next | failRead | failRefresh | publishDeadLetter | cancelRead
  | cancelRefresh | drainRead =>
    simp only [State.step, act, submitJob, reselect, claimRead, claimRefresh, State.next] at hs
    repeat' split at hs
    all_goals cases hs
    all_goals rfl

/-! ## A commit is the whole method -/

open SqlAlchemyJobRepository (perform)

/-- What a method returns that has committed: the row as its `refresh` reads it at once. -/
def committedReply (db : Database) (call : MethodCall) : Except Exc Reply :=
  match call.operation with
  | .createJob _ =>
    (SqlAlchemyJobRepository.refresh db call.drawn).map fun job => .created job false
  | .claimJob jobId _ => (SqlAlchemyJobRepository.refresh db jobId).map fun job => .maybe (some job)
  | .createNextRecurringJob _ _ =>
    (SqlAlchemyJobRepository.refresh db call.drawn).map fun job => .maybe (some job)
  | .markSucceeded jobId _ | .markFailedAttempt jobId _ _ | .cancelJob jobId =>
    (SqlAlchemyJobRepository.refresh db jobId).map .job
  | _ => .ok .done

/-- Calls that only differ here make one row: two requests, or two readings with one next run. -/
def inserts : Operation → Bool
  | .createJob _ | .createNextRecurringJob _ _ => true
  | _ => false

/-- A step commits one operation, but for an insertion. -/
theorem Commits.unique {call call' : MethodCall} (h : Commits jsonb s label call)
    (hne : inserts call.operation = false) (h' : Commits jsonb s label call') (db : Database) :
    call'.operation = call.operation ∧ committedReply db call' = committedReply db call := by
  cases h with
  | createJob | createNextRecurringJob => cases hne
  | claimJob read workerId now drawn before =>
    cases h' with
    | claimJob read' workerId' now' drawn' before' =>
      rw [before] at before'
      cases before'
      exact ⟨rfl, rfl⟩
  | markSucceeded job read result now drawn before =>
    cases h' with
    | markSucceeded job' read' result' now' drawn' before' =>
      rw [before] at before'
      cases before'
      exact ⟨rfl, rfl⟩
  | markFailedAttempt job succeeded read error now drawn before =>
    cases h' with
    | markFailedAttempt job' succeeded' read' error' now' drawn' before' =>
      rw [before] at before'
      cases before'
      exact ⟨rfl, rfl⟩
  | cancelJob read now drawn before =>
    cases h' with
    | cancelJob read' now' drawn' before' =>
      rw [before] at before'
      cases before'
      exact ⟨rfl, rfl⟩
  | setDrain loaded enabled now drawn before =>
    cases h' with
    | setDrain loaded' enabled' now' drawn' before' =>
      rw [before] at before'
      cases before'
      exact ⟨rfl, rfl⟩

/-- A method that has committed reads back the row it wrote. -/
theorem settle_committed {α : Type} {db db' : Database} {reply : α → Reply} {value : JobRecord → α}
    (hrow : db'.jobs.get? jobId = some row) :
    settle db reply ((SqlAlchemyJobRepository.refresh db' jobId).map fun job => (value job, db')) =
      ((SqlAlchemyJobRepository.refresh db' jobId).map fun job => reply (value job), db') := by
  rw [refresh_stored hrow]
  rfl

theorem perform_createJob {request : JobCreate} {db' : Database}
    (hcommit : s.db.insertJob jsonb (.submittedRow request jobId now) = .ok db') :
    perform jsonb s.db ⟨.createJob request, now, jobId, []⟩ =
      (committedReply db' ⟨.createJob request, now, jobId, []⟩, db') := by
  obtain ⟨payload, hrow⟩ := insertJob_stored hcommit
  have hunkeyed : ∀ key ∈ request.idempotencyKey, s.db.findByKey key = none :=
    (insertJob_ok hcommit).2.1
  have hexisting : SqlAlchemyJobRepository.existing s.db request = none := by
    unfold SqlAlchemyJobRepository.existing
    cases hkey : request.idempotencyKey with
    | none => rfl
    | some key =>
      rw [filter_key (hkey ▸ request.key_ne_empty)]
      exact hunkeyed key hkey
  simp only [perform, createJob_new hexisting, hcommit]
  exact settle_committed hrow

theorem perform_claimJob {read : Job} {workerId : String} {drawn : UUID} {db' : Database}
    (hread : s.ClaimRead read now) (hdrain : s.db.getDrain = false)
    (hrow : s.db.jobs.get? read.id = some read)
    (hcommit : s.db.commitClaim read workerId now = .ok db') :
    perform jsonb s.db ⟨.claimJob read.id workerId, now, drawn, []⟩ =
      (committedReply db' ⟨.claimJob read.id workerId, now, drawn, []⟩, db') := by
  have hclaimable : ¬ (¬ read.status.isPending = true ∨ now < read.nextRunAt) := by
    rw [not_or, not_not, not_lt]
    exact ⟨hread.pending, hread.due⟩
  have hget : s.db.getJob? read.id = some read := hrow
  have hmethod : SqlAlchemyJobRepository.claimJob s.db read.id workerId now =
      (SqlAlchemyJobRepository.refresh db' read.id).map fun job => (some job, db') := by
    rw [SqlAlchemyJobRepository.claimJob, if_neg (by simp [hdrain])]
    simp only [hget, if_neg hclaimable, hcommit]
  simp only [perform, hmethod]
  exact settle_committed (commitClaim_ok hcommit hrow)

theorem perform_markSucceeded {read : Job} {result : JsonObject} {drawn : UUID} {db' : Database}
    (hrow : s.db.jobs.get? read.id = some row) (hcount : row.attemptCount = read.attemptCount)
    (hid : row.id = read.id) (hcommit : s.db.commitSucceeded jsonb read result now = .ok db') :
    perform jsonb s.db ⟨.markSucceeded read.id result, now, drawn, []⟩ =
      (committedReply db' ⟨.markSucceeded read.id result, now, drawn, []⟩, db') := by
  obtain ⟨stored, hstored⟩ := commitSucceeded_ok hcommit hrow
  have hget : s.db.getJob? read.id = some row := hrow
  have hsame : s.db.commitSucceeded jsonb row result now = .ok db' := by
    rw [← hcommit]
    simp only [Database.commitSucceeded, hid, hcount]
  simp only [perform, SqlAlchemyJobRepository.markSucceeded, SqlAlchemyJobRepository.getModel, hget,
    hsame]
  exact settle_committed hstored

theorem perform_markFailedAttempt {read : Job} {error : String} {backoff : Int} {drawn : UUID}
    {db' : Database} (hrow : s.db.jobs.get? read.id = some row)
    (hcount : row.attemptCount = read.attemptCount) (hid : row.id = read.id)
    (hretries : row.maxRetries = read.maxRetries)
    (hcommit : s.db.commitFailed read error backoff now = .ok db') :
    perform jsonb s.db ⟨.markFailedAttempt read.id error backoff, now, drawn, []⟩ =
      (committedReply db' ⟨.markFailedAttempt read.id error backoff, now, drawn, []⟩, db') := by
  have hstored := commitFailed_ok hcommit hrow
  have hget : s.db.getJob? read.id = some row := hrow
  have hexhausted : row.exhausted = read.exhausted := by
    rw [Job.exhausted, Job.exhausted, hcount, hretries]
  have hassign : row.failAssignments error backoff now = read.failAssignments error backoff now := by
    funext stored
    simp only [Job.failAssignments, hexhausted]
  have hsame : s.db.commitFailed row error backoff now = .ok db' := by
    rw [← hcommit]
    simp only [Database.commitFailed, hid, hcount, hassign]
  simp only [perform, SqlAlchemyJobRepository.markFailedAttempt, SqlAlchemyJobRepository.getModel,
    hget, hsame]
  exact settle_committed hstored

theorem perform_cancelJob {drawn : UUID} (hrow : s.db.jobs.get? jobId = some row)
    (hid : row.id = jobId) (hpending : row.status.isPending = true) {read : Job}
    (hread : read.id = jobId) :
    perform jsonb s.db ⟨.cancelJob jobId, now, drawn, []⟩ =
      (committedReply (s.db.commitCancelled read now) ⟨.cancelJob jobId, now, drawn, []⟩,
        s.db.commitCancelled read now) := by
  have hget : s.db.getJob? jobId = some row := hrow
  have hsame : s.db.commitCancelled row now = s.db.commitCancelled read now := by
    rw [Database.commitCancelled, Database.commitCancelled, hid, hread]
  have hstored : (s.db.commitCancelled read now).jobs.get? jobId =
      some (Job.cancelAssignments now row) := by
    rw [Database.commitCancelled, hread]
    exact get?_update _ hrow
  simp only [perform, SqlAlchemyJobRepository.cancelJob, SqlAlchemyJobRepository.getModel, hget,
    hpending, hsame]
  exact settle_committed hstored

theorem perform_createNext {succeeded : JobRecord} {cron : String} {nextRunAt after : Int}
    {db' : Database} (hrecurs : succeeded.recurringCron = some cron)
    (hrun : nextCronRun cron after = .ok nextRunAt)
    (hcommit : s.db.insertJob jsonb (.successorRow succeeded jobId nextRunAt now) = .ok db') :
    perform jsonb s.db ⟨.createNextRecurringJob succeeded after, now, jobId, []⟩ =
      (committedReply db' ⟨.createNextRecurringJob succeeded after, now, jobId, []⟩, db') := by
  obtain ⟨payload, hrow⟩ := insertJob_stored hcommit
  have hcron : cron ≠ "" := by
    rintro rfl
    cases hrun
  have hmethod : SqlAlchemyJobRepository.createNextRecurringJob jsonb s.db succeeded after now jobId =
      (SqlAlchemyJobRepository.refresh db' jobId).map fun job => (some job, db') := by
    simp [SqlAlchemyJobRepository.createNextRecurringJob, hrecurs, hcron, hrun, hcommit]
  simp only [perform, hmethod]
  exact settle_committed hrow

/-- A `set_drain` that inserts the setting has no other to overwrite, and one that updates it is as
    good as a whole one if it has loaded the setting as it is now. -/
theorem perform_setDrain {loaded : Option OpsSetting} {enabled : Bool} {drawn : UUID} {db' : Database}
    (hstored : ∀ setting, loaded = some setting → ∃ row, s.db.drainSetting? = some row ∧
      setting.UpToDate enabled now row)
    (hcommit : s.db.commitDrain loaded enabled now = .ok db') :
    perform jsonb s.db ⟨.setDrain enabled, now, drawn, []⟩ =
      (committedReply db' ⟨.setDrain enabled, now, drawn, []⟩, db') := by
  have hwithDrain : db' = s.db.withDrain enabled now := by
    cases loaded with
    | none =>
      simp only [Database.commitDrain] at hcommit
      split at hcommit
      · cases hcommit
      · cases hcommit
        rfl
    | some setting =>
      obtain ⟨row, hrow, hcurrent⟩ := hstored setting rfl
      rw [(Database.commitDrain_eq_iff hrow).mpr hcurrent] at hcommit
      cases hcommit
      rfl
  simp only [perform, SqlAlchemyJobRepository.setDrain_ok, hwithDrain]
  rfl

/-- **An uncontested commit does what the whole method does** when it is called at that moment. -/
theorem perform_of_commits (hreach : (Sql.sessions settings jsonb).Reachable Any s)
    (hs : s.step settings jsonb label = some s') (hok : Uncontested s label) {call : MethodCall}
    (hcommits : Commits jsonb s label call) :
    perform jsonb s.db call = (committedReply s'.db call, s'.db) := by
  have hinv := inv_of_reachable hreach
  -- What the holder of a job has read of it is still so.
  have hheld : ∀ {c : CallId} {read : Job} (job : JobRecord), (s.sessions c).read = some read →
      (s.sessions c).held = some job.id → ∃ row, s.db.jobs.get? read.id = some row ∧
        row.attemptCount = read.attemptCount ∧ row.id = read.id ∧
        row.maxRetries = read.maxRetries ∧ read.id = job.id := by
    intro c read job hread hheld
    obtain ⟨row, hrow, hretries⟩ := hinv.read_stored c read hread
    obtain ⟨hid, hcount⟩ := hinv.read_current c read job.id hread hheld
    have hversion := version_of_stored hrow
    rw [hid] at hversion
    exact ⟨row, hrow, by rw [hcount, hversion], hinv.keyed read.id row hrow, hretries, hid⟩
  cases hcommits with
  | @createJob c t request jobId now db before commit =>
    simp only [State.step, act, before, insertCommit, commit] at hs
    cases hs
    exact perform_createJob commit
  | @claimJob c t read workerId now drawn db before commit =>
    have hread := (prepared_of_reachable hreach).claiming c read workerId now before
    obtain ⟨row, hrow, -⟩ := hinv.read_stored c read (by rw [before]; rfl)
    obtain ⟨hfits, hfree⟩ := commitClaim_fits commit
    obtain ⟨hdrain, hcancelled⟩ := hok.claim c read workerId now rfl before hfits hfree
    have heq : row = read := (hread.current ((hinv.free_iff before).mp hfree) row hrow).resolve_right
      (hcancelled row hrow)
    simp only [State.step, act, before, claimCommit, commit] at hs
    cases hs
    exact perform_claimJob hread hdrain (heq ▸ hrow) commit
  | @markSucceeded c t job read result now drawn db before commit =>
    obtain ⟨row, hrow, hcount, hid, -, hjob⟩ :=
      hheld job (by rw [before]; rfl) (by rw [before]; rfl)
    simp only [State.step, act, before, commit] at hs
    cases hs
    rw [← hjob]
    exact perform_markSucceeded hrow hcount hid commit
  | @createNextRecurringJob c t job succeeded cron nextJobId nextRunAt after now db before recurs run
      commit =>
    simp only [State.step, act, before, commit] at hs
    cases hs
    exact perform_createNext recurs run commit
  | @markFailedAttempt c t job succeeded read error now drawn db before commit =>
    obtain ⟨row, hrow, hcount, hid, hretries, hjob⟩ :=
      hheld job (by rw [before]; rfl) (by rw [before]; rfl)
    simp only [State.step, act, before, commit] at hs
    cases hs
    rw [← hjob]
    exact perform_markFailedAttempt hrow hcount hid hretries commit
  | @cancelJob c t read now drawn before =>
    obtain ⟨row, hrow, -⟩ := hinv.read_stored c read (by rw [before]; rfl)
    have hpending := hok.cancel c read now rfl before row hrow
    simp only [State.step, act, before] at hs
    cases hs
    exact perform_cancelJob hrow (hinv.keyed read.id row hrow) hpending rfl
  | @setDrain c t loaded enabled now drawn db before commit =>
    have hstored : ∀ setting, loaded = some setting → ∃ row, s.db.drainSetting? = some row ∧
        setting.UpToDate enabled now row := by
      rintro setting rfl
      obtain ⟨row, hrow⟩ := (prepared_of_reachable hreach).draining c setting enabled now before
      exact ⟨row, hrow, hok.drain c setting enabled now rfl before row hrow⟩
    simp only [State.step, act, before, commit] at hs
    cases hs
    exact perform_setDrain hstored commit

/-- A claim that does as `claim_job` would finds drain off and a job that is not cancelled. -/
theorem uncontested_claim {read : Job} {workerId : String} {drawn : UUID}
    (h : (perform jsonb s.db ⟨.claimJob read.id workerId, now, drawn, []⟩).1 =
      committedReply s'.db ⟨.claimJob read.id workerId, now, drawn, []⟩) :
    s.db.getDrain = false ∧ ∀ row, s.db.getJob? read.id = some row → row.status ≠ .cancelled := by
  have hclaimed : committedReply s'.db ⟨.claimJob read.id workerId, now, drawn, []⟩ ≠
      .ok (.maybe none) := by
    simp only [committedReply]
    cases SqlAlchemyJobRepository.refresh s'.db read.id with
    | error exc => exact fun heq => nomatch heq
    | ok job => exact fun heq => nomatch heq
  rw [← h] at hclaimed
  constructor
  · rw [← Bool.not_eq_true]
    intro hdrain
    exact hclaimed (by simp [perform, SqlAlchemyJobRepository.claimJob, hdrain, settle])
  · intro row hrow hcancelled
    refine hclaimed ?_
    simp [perform, SqlAlchemyJobRepository.claimJob, hrow, hcancelled, JobStatus.isPending, settle]

/-- A cancellation that does as `cancel_job` would finds the job pending. -/
theorem uncontested_cancel {drawn : UUID}
    (h : (perform jsonb s.db ⟨.cancelJob jobId, now, drawn, []⟩).1 =
      committedReply s'.db ⟨.cancelJob jobId, now, drawn, []⟩) (hrow : s.db.getJob? jobId = some row)
    (hrow' : s'.db.jobs.get? jobId = some row') : row.status.isPending = true := by
  rw [← Bool.not_eq_false]
  intro hopen
  simp only [committedReply, refresh_stored hrow', perform, SqlAlchemyJobRepository.cancelJob,
    SqlAlchemyJobRepository.getModel, hrow, hopen] at h
  cases h

/-- A `set_drain` that does as a whole one has loaded the setting as it is now. -/
theorem uncontested_drain {loaded row : OpsSetting} {enabled : Bool} {drawn : UUID} {db' : Database}
    (h : (perform jsonb s.db ⟨.setDrain enabled, now, drawn, []⟩).2 = db')
    (hcommit : s.db.commitDrain (some loaded) enabled now = .ok db')
    (hrow : s.db.drainSetting? = some row) : loaded.UpToDate enabled now row := by
  simp only [perform, SqlAlchemyJobRepository.setDrain_ok] at h
  rw [← Database.commitDrain_eq_iff hrow, hcommit, ← h]
  rfl

/-- **A commit does what the whole method does exactly if it is uncontested.** -/
theorem perform_iff_uncontested (hreach : (Sql.sessions settings jsonb).Reachable Any s)
    (hs : s.step settings jsonb label = some s') {call : MethodCall}
    (hcommits : Commits jsonb s label call) :
    perform jsonb s.db call = (committedReply s'.db call, s'.db) ↔ Uncontested s label := by
  have hinv := inv_of_reachable hreach
  refine ⟨?_, fun hok => perform_of_commits hreach hs hok hcommits⟩
  intro hperform
  have hreply := congrArg Prod.fst hperform
  constructor
  · intro c read workerId now haction hpending _ _
    cases hcommits with
    | claimJob read' workerId' now' drawn before =>
      cases haction
      rw [hpending] at before
      cases before
      exact uncontested_claim hreply
    | _ => cases haction
  · intro c read now haction hpending row hrow
    cases hcommits with
    | cancelJob read' now' drawn before =>
      cases haction
      rw [hpending] at before
      cases before
      obtain ⟨row', hrow', -⟩ := rowChange_of_step hinv hs hrow
      exact uncontested_cancel hreply hrow hrow'
    | _ => cases haction
  · intro c loaded enabled now haction hpending row hrow
    cases hcommits with
    | setDrain loaded' enabled' now' drawn before commit =>
      cases haction
      rw [hpending] at before
      cases before
      simp only [State.step, act, hpending, commit] at hs
      cases hs
      exact uncontested_drain (congrArg Prod.snd hperform) commit hrow
    | _ => cases haction

theorem serial : Serial (Sql.sessions settings jsonb) Uncontested (Commits jsonb) State.db
    (perform jsonb) Database.empty where
  init := by
    intro s hs
    have hs : s = State.initial := hs
    rw [hs]
    rfl
  silent := fun s label s' hreach _ hs hsilent => db_of_silent hreach.any hs hsilent
  commit := by
    intro s label s' call hreach hok hs hcommits
    rw [perform_of_commits hreach.any hs hok hcommits]

/-! ## What the calls are told

`refresh` is a statement of its own, so what a method returns is what the row has become by then. The
methods that decide who runs a job return what they have committed all the same. -/

theorem claimed_of_act (hs : s.act settings jsonb now action = some s')
    (h : s'.sessions c = .claimed jobId) : s.sessions c = .claimed jobId ∨
      ∃ workerId t, Commits jsonb s ⟨now, action⟩ ⟨.claimJob jobId workerId, t, jobId, []⟩ := by
  rcases entered_of_act hs c with heq | hentered
  · exact .inl (heq.symm.trans h)
  · rw [h] at hentered
    obtain ⟨d, rfl⟩ := hentered
    simp only [act, claimCommit] at hs
    split at hs
    · rename_i read workerId t hcall
      split at hs
      all_goals cases hs
      all_goals rcases session_of_setSession h with ⟨rfl, heq⟩ | hbefore
      all_goals first | exact .inl hbefore | cases heq
      rename_i hcommit
      exact .inr ⟨workerId, t, .claimJob read workerId t read.id hcall hcommit⟩
    · cases hs

theorem succeeded_of_act (hs : s.act settings jsonb now action = some s') {job : JobRecord}
    (h : s'.sessions c = .succeeded job) : s.sessions c = .succeeded job ∨
      ∃ result t, Commits jsonb s ⟨now, action⟩ ⟨.markSucceeded job.id result, t, job.id, []⟩ := by
  rcases entered_of_act hs c with heq | hentered
  · exact .inl (heq.symm.trans h)
  · rw [h] at hentered
    obtain ⟨d, rfl⟩ := hentered
    simp only [act] at hs
    split at hs
    · rename_i job read result t hcall
      split at hs
      all_goals cases hs
      all_goals rcases session_of_setSession h with ⟨rfl, heq⟩ | hbefore
      all_goals first | exact .inl hbefore | cases heq
      rename_i hcommit
      exact .inr ⟨result, t, .markSucceeded job read result t job.id hcall hcommit⟩
    · cases hs

theorem cancelling_of_act (hs : s.act settings jsonb now action = some s')
    (h : s'.sessions c = .cancelling jobId) : s.sessions c = .cancelling jobId ∨
      action = .cancelCommit c ∧ ∃ read t, s.sessions c = .cancelPending read t ∧ read.id = jobId := by
  rcases entered_of_act hs c with heq | hentered
  · exact .inl (heq.symm.trans h)
  · rw [h] at hentered
    obtain ⟨d, rfl⟩ := hentered
    simp only [act] at hs
    split at hs
    · rename_i read t hcall
      cases hs
      rcases session_of_setSession h with ⟨rfl, heq⟩ | hbefore
      · cases heq
        exact .inr ⟨rfl, read, t, hcall, rfl⟩
      · exact .inl hbefore
    · cases hs

theorem cancelled_of_act (hs : s.act settings jsonb now action = some s') {job : JobRecord}
    (h : s'.sessions c = .cancelled job) : s.sessions c = .cancelled job ∨
      ∃ jobId row, s.sessions c = .cancelling jobId ∧ s.db.jobs.get? jobId = some row ∧
        job = recordFromModel row := by
  rcases entered_of_act hs c with heq | hentered
  · exact .inl (heq.symm.trans h)
  · rw [h] at hentered
    obtain ⟨d, rfl⟩ := hentered
    simp only [act] at hs
    split at hs
    · rename_i jobId hcall
      split at hs
      all_goals cases hs
      all_goals rcases session_of_setSession h with ⟨rfl, heq⟩ | hbefore
      all_goals first | exact .inl hbefore | cases heq
      rename_i row hrefresh
      exact .inr ⟨jobId, row, hcall, stored_of_refresh hrefresh, rfl⟩
    · cases hs

/-- A job that a call holds, and is not about to mark, is as the call has left it. -/
theorem row_of_held (hinv : s.Inv) (hs : s.step settings jsonb label = some s')
    (hok : Uncontested s label) (hheld : (s.sessions c).held = some jobId)
    (hread : (s.sessions c).read = none) (hrow : s'.db.jobs.get? jobId = some row) :
    s.db.jobs.get? jobId = some row := by
  obtain ⟨before, hbefore⟩ := hinv.held_stored c jobId hheld
  obtain ⟨row', hrow', hchange⟩ := rowChange_of_step hinv hs hbefore
  rw [hrow] at hrow'
  cases hrow'
  cases hchange with
  | same heq => rw [hbefore, heq]
  | claim d read workerId t _ pending hid _ free =>
    exact absurd (hid ▸ (hinv.free_iff pending).mp free) (hinv.stale_of_held hheld pending hid)
  | mark d held read marks =>
    rw [hinv.holder_unique held hheld, hread] at marks
    cases marks
  | cancel d read t haction pending hid =>
    subst hid
    have hpending := hok.cancel d read t haction pending before hbefore
    rw [hinv.not_pending_of_held hheld hbefore] at hpending
    cases hpending

/-- Nobody touches a job that was cancelled. -/
theorem row_of_cancelled (hinv : s.Inv) (hs : s.step settings jsonb label = some s')
    (hok : Uncontested s label) (hfree : ∀ d, (s.sessions d).held ≠ some jobId) {before : Job}
    (hbefore : s.db.jobs.get? jobId = some before) (hcancelled : before.status = .cancelled) :
    s'.db.jobs.get? jobId = some before ∧ ∀ d, (s'.sessions d).held ≠ some jobId := by
  obtain ⟨now, action⟩ := label
  obtain ⟨row', hrow', hchange⟩ := rowChange_of_step hinv hs hbefore
  have hsame : row' = before := by
    cases hchange with
    | same heq => exact heq
    | claim d read workerId t haction pending hid fits free =>
      subst hid
      have hopen := (hok.claim d read workerId t haction pending fits free).2 before hbefore
      exact absurd hcancelled hopen
    | mark d held => exact absurd held (hfree d)
    | cancel d read t haction pending hid =>
      subst hid
      have hpending := hok.cancel d read t haction pending before hbefore
      rw [hcancelled] at hpending
      cases hpending
  refine ⟨hsame ▸ hrow', ?_⟩
  intro d hheld
  rcases (act_effect hinv.toKnown hs).held hheld with hheld | ⟨hclaimed, -⟩
  · exact hfree d hheld
  · rcases claimed_of_act hs hclaimed with hclaimed | ⟨workerId, t, hcommits⟩
    · exact hfree d (by rw [hclaimed]; rfl)
    · cases hcommits with
      | claimJob read _ _ _ pending commit =>
        obtain ⟨hfits, hunused⟩ := commitClaim_fits commit
        have hopen := (hok.claim _ read workerId t rfl pending hfits hunused).2 before hbefore
        exact absurd hcancelled hopen

/-- The commit of a cancellation that finds the job pending. -/
theorem cancelled_row (hinv : s.Inv) (hs : s.step settings jsonb label = some s') {read : Job}
    (haction : label.action = .cancelCommit c) (hpending : s.sessions c = .cancelPending read t)
    (hrow : s.db.jobs.get? read.id = some row) (hopen : row.status.isPending = true) :
    s'.db.jobs.get? read.id = some (Job.cancelAssignments t row) ∧
      ∀ d, (s'.sessions d).held ≠ some read.id := by
  have hfree : ∀ d, (s.sessions d).held ≠ some read.id := by
    intro d hheld
    rw [hinv.not_pending_of_held hheld hrow] at hopen
    cases hopen
  obtain ⟨now, action⟩ := label
  cases haction
  have he := act_effect hinv.toKnown hs
  refine ⟨?_, ?_⟩
  · simp only [State.step, act, hpending] at hs
    cases hs
    exact get?_update _ hrow
  · intro d hheld
    rcases he.held hheld with hheld | ⟨hclaimed, -⟩
    · exact hfree d hheld
    · rcases claimed_of_act hs hclaimed with hclaimed | ⟨workerId, t', hcommits⟩
      · exact hfree d (by rw [hclaimed]; rfl)
      · cases hcommits

/-- Between the commit and the `refresh` of a cancellation. -/
structure Cancelling (returned : Operation → Reply → Prop) (s : State) (jobId : UUID) (row : Job) :
    Prop where
  status : row.status = .cancelled
  free : ∀ d, (s.sessions d).held ≠ some jobId
  told : returned (.cancelJob jobId) (.job (recordFromModel row))

/-- What `claim_job`, `mark_succeeded` and `cancel_job` are going to return, and have returned, is
    what `returned` says of the operation. -/
structure Told (returned : Operation → Reply → Prop) (s : State) : Prop where
  claimed : ∀ c jobId row, s.sessions c = .claimed jobId → s.db.jobs.get? jobId = some row →
    ∃ workerId, returned (.claimJob jobId workerId) (.maybe (some (recordFromModel row)))
  record : ∀ c job, (s.sessions c).record = some job →
    ∃ workerId, returned (.claimJob job.id workerId) (.maybe (some job))
  succeeded : ∀ c job row, s.sessions c = .succeeded job → s.db.jobs.get? job.id = some row →
    ∃ result, returned (.markSucceeded job.id result) (.job (recordFromModel row))
  marked : ∀ c job succeeded, s.sessions c = .marked job succeeded →
    ∃ result, returned (.markSucceeded job.id result) (.job succeeded)
  cancelling : ∀ c jobId, s.sessions c = .cancelling jobId →
    ∃ row, s.db.jobs.get? jobId = some row ∧ Cancelling returned s jobId row
  cancelled : ∀ c job, s.sessions c = .cancelled job → returned (.cancelJob job.id) (.job job)

theorem Told.step {returned returned' : Operation → Reply → Prop} (h : s.Told returned)
    (hreach : (Sql.sessions settings jsonb).Reachable Any s)
    (hs : s.step settings jsonb label = some s') (hok : Uncontested s label)
    (hmono : ∀ operation reply, returned operation reply → returned' operation reply)
    (hnew : ∀ call reply, Commits jsonb s label call → inserts call.operation = false →
      committedReply s'.db call = .ok reply → returned' call.operation reply) :
    s'.Told returned' := by
  have hinv := inv_of_reachable hreach
  constructor
  · intro c jobId row hsession hrow
    rcases claimed_of_act hs hsession with hbefore | ⟨workerId, t, hcommits⟩
    · have hheld : (s.sessions c).held = some jobId := by rw [hbefore]; rfl
      have hstored := row_of_held hinv hs hok hheld (by rw [hbefore]; rfl) hrow
      obtain ⟨workerId, htold⟩ := h.claimed c jobId row hbefore hstored
      exact ⟨workerId, hmono _ _ htold⟩
    · refine ⟨workerId, hnew _ _ hcommits rfl ?_⟩
      simp only [committedReply, refresh_stored hrow]
      rfl
  · intro c job hrecord
    rcases record_of_act hs hrecord with hbefore | ⟨-, jobId, row, hclaimed, hrow, rfl⟩
    · obtain ⟨workerId, htold⟩ := h.record c job hbefore
      exact ⟨workerId, hmono _ _ htold⟩
    · obtain ⟨workerId, htold⟩ := h.claimed c jobId row hclaimed hrow
      refine ⟨workerId, hmono _ _ ?_⟩
      have hid : (recordFromModel row).id = jobId := hinv.keyed jobId row hrow
      rwa [hid]
  · intro c job row hsession hrow
    rcases succeeded_of_act hs hsession with hbefore | ⟨result, t, hcommits⟩
    · have hheld : (s.sessions c).held = some job.id := by rw [hbefore]; rfl
      have hstored := row_of_held hinv hs hok hheld (by rw [hbefore]; rfl) hrow
      obtain ⟨result, htold⟩ := h.succeeded c job row hbefore hstored
      exact ⟨result, hmono _ _ htold⟩
    · refine ⟨result, hnew _ _ hcommits rfl ?_⟩
      simp only [committedReply, refresh_stored hrow]
      rfl
  · intro c job succeeded hsession
    rcases marked_of_act hs hsession with hbefore | ⟨hbefore, row, hrow, rfl⟩
    · obtain ⟨result, htold⟩ := h.marked c job succeeded hbefore
      exact ⟨result, hmono _ _ htold⟩
    · obtain ⟨result, htold⟩ := h.succeeded c job row hbefore hrow
      exact ⟨result, hmono _ _ htold⟩
  · intro c jobId hsession
    rcases cancelling_of_act hs hsession with hbefore | ⟨haction, read, t, hpending, rfl⟩
    · obtain ⟨row, hrow, hcancelling⟩ := h.cancelling c jobId hbefore
      obtain ⟨hrow', hfree⟩ :=
        row_of_cancelled hinv hs hok hcancelling.free hrow hcancelling.status
      exact ⟨row, hrow', hcancelling.status, hfree, hmono _ _ hcancelling.told⟩
    · obtain ⟨row, hrow, -⟩ := hinv.read_stored c read (by rw [hpending]; rfl)
      have hopen := hok.cancel c read t haction hpending row hrow
      obtain ⟨hrow', hfree⟩ := cancelled_row hinv hs haction hpending hrow hopen
      refine ⟨Job.cancelAssignments t row, hrow', rfl, hfree, ?_⟩
      refine hnew ⟨.cancelJob read.id, t, read.id, []⟩ _ ?_ rfl ?_
      · obtain ⟨now, action⟩ := label
        cases haction
        exact .cancelJob read t read.id hpending
      · simp only [committedReply, refresh_stored hrow']
        rfl
  · intro c job hsession
    rcases cancelled_of_act hs hsession with hbefore | ⟨jobId, row, hbefore, hrow, rfl⟩
    · exact hmono _ _ (h.cancelled c job hbefore)
    · have hid : (recordFromModel row).id = jobId := hinv.keyed jobId row hrow
      obtain ⟨row', hrow', hcancelling⟩ := h.cancelling c jobId hbefore
      rw [hrow] at hrow'
      cases hrow'
      rw [hid]
      exact hmono _ _ hcancelling.told

/-- One of the calls was of this operation and returned `reply`. -/
def Returned (jsonb : Jsonb) (calls : List MethodCall) (operation : Operation) (reply : Reply) :
    Prop :=
  ∃ call, call.operation = operation ∧
    Lockstep.Answered (perform jsonb) .empty calls call (.ok reply)

theorem Returned.concat {calls : List MethodCall} {operation : Operation} {reply : Reply}
    (h : Returned jsonb calls operation reply) (last : MethodCall) :
    Returned jsonb (calls ++ [last]) operation reply := by
  obtain ⟨call, hoperation, hanswered⟩ := h
  exact ⟨call, hoperation, (Lockstep.answered_concat last).mpr (.inl hanswered)⟩

theorem told_of_commitOrder {calls : List MethodCall}
    (h : CommitOrder (Sql.sessions settings jsonb) Uncontested (Commits jsonb) s calls) :
    s.Told (Returned jsonb calls) := by
  induction h with
  | init hs =>
    have hs : _ = State.initial := hs
    subst hs
    constructor
    · intro c jobId row hsession
      cases hsession
    · intro c job hrecord
      cases hrecord
    · intro c job row hsession
      cases hsession
    · intro c job succeeded hsession
      cases hsession
    · intro c jobId hsession
      cases hsession
    · intro c job hsession
      cases hsession
  | silent before guard step silent ih =>
    exact ih.step before.reachable.any step guard (fun _ _ h => h) fun call _ hcommits =>
      absurd hcommits (silent call)
  | @commit s s' label calls last before guard step committed ih =>
    have hperform := perform_of_commits before.reachable.any step guard committed
    have hdb := serial.store_eq before
    refine ih.step before.reachable.any step guard (fun _ _ h => h.concat last) ?_
    intro call reply hcommits hne hreply
    obtain ⟨hoperation, hsame⟩ := hcommits.unique hne committed s'.db
    refine ⟨last, hoperation, (Lockstep.answered_concat last).mpr (.inr ⟨rfl, ?_⟩)⟩
    rw [hdb, hperform, hsame, hreply]

/-- A step that commits no claim, no cancellation and no drain flag. -/
theorem Uncontested.of_quiet (h : ∀ c, label.action ≠ .claimCommit c ∧ label.action ≠ .cancelCommit c ∧
    label.action ≠ .drainCommit c) : Uncontested s label := by
  constructor
  · intro c _ _ _ haction
    exact absurd haction (h c).1
  · intro c _ _ haction
    exact absurd haction (h c).2.1
  · intro c _ _ _ haction
    exact absurd haction (h c).2.2

/-- No job is scheduled, fails or recurs. -/
def Immediate (s : State) (label : Label) : Prop :=
  (∀ c, label.action ≠ .failCommit c ∧ label.action ≠ .nextCommit c) ∧
    ∀ c row, label.action = .insertCommit c → s.sessions c = .inserting row → row.runAt = none

theorem Immediate.of_ne (h : ∀ c, label.action ≠ .failCommit c ∧ label.action ≠ .nextCommit c ∧
    label.action ≠ .insertCommit c) : Immediate s label :=
  ⟨fun c => ⟨(h c).1, (h c).2.1⟩, fun c _ haction => absurd haction (h c).2.2⟩

/-- Two workers have both read the job, the first one commits, and then drain is turned on: nothing
    is contested. -/
theorem reachable_racingClaim {ok : State → Label → Prop}
    (hok : ∀ s label, Uncontested s label → Immediate s label → ok s label) :
    ∃ (s : State) (read : Job), (Sql.sessions {} some).Reachable ok s ∧
      s.sessions 1 = .claimed Sample.jobId ∧ s.sessions 2 = .claimPending read "worker-2" 0 ∧
      s.db.getDrain = true := by
  have hrun : ∃ a b s₀ s₁ s₂ s row read,
      State.step {} some State.initial ⟨0, .submit 0 Sample.request Sample.jobId⟩ = some a ∧
      State.step {} some a ⟨0, .insertCommit 0⟩ = some b ∧
      System.replay (State.step {} some) b (racingReads.drop 2) = some s₀ ∧
      a.sessions 0 = .inserting row ∧ row.runAt = none ∧
      State.step {} some s₀ ⟨0, .claimCommit 1⟩ = some s₁ ∧
      State.step {} some s₁ ⟨1, .drainRead 3 true⟩ = some s₂ ∧
      State.step {} some s₂ ⟨1, .drainCommit 3⟩ = some s ∧
      s₀.sessions 1 = .claimPending read "worker-1" 0 ∧ s₀.db.getDrain = false ∧
      s₀.db.getJob? read.id = some read ∧ read.status = .queued ∧
      s₂.sessions 3 = .drainPending none true 1 ∧ s.sessions 1 = .claimed Sample.jobId ∧
      s.sessions 2 = .claimPending read "worker-2" 0 ∧ s.db.getDrain = true :=
    ⟨_, _, _, _, _, _, _, _, rfl, rfl, rfl, rfl, rfl, rfl, rfl, rfl, rfl, rfl, rfl, rfl, rfl, rfl, rfl,
      rfl⟩
  obtain ⟨a, b, s₀, s₁, s₂, s, row, read, ha, hb, hs₀, hinserting, hrunAt, hs₁, hs₂, hs, hpending,
    hopen, hstored, hstatus, hdraining, hclaimed, hsecond, hdrain⟩ := hrun
  have hsubmitted : (Sql.sessions {} some).Reachable ok a :=
    System.Reachable.tail (.init rfl) (hok _ _ (.of_quiet (by simp)) (.of_ne (by simp))) ha
  have hinserted : (Sql.sessions {} some).Reachable ok b := by
    refine hsubmitted.tail (hok _ _ (.of_quiet (by simp)) ⟨by simp, ?_⟩) hb
    intro c row' haction hinserting'
    cases haction
    rw [hinserting] at hinserting'
    cases hinserting'
    exact hrunAt
  have hreads : (Sql.sessions {} some).Reachable ok s₀ := by
    refine hinserted.steps (System.Steps.of_replay hs₀ ?_)
    intro label hmem s
    simp only [racingReads, List.drop_succ_cons, List.drop_zero, List.mem_cons, List.not_mem_nil,
      or_false] at hmem
    rcases hmem with rfl | rfl | rfl | rfl
    all_goals exact hok _ _ (.of_quiet (by simp)) (.of_ne (by simp))
  have hclaim : Uncontested s₀ ⟨0, .claimCommit 1⟩ := by
    constructor
    · intro c read' workerId now haction hpending' _ _
      cases haction
      rw [hpending] at hpending'
      cases hpending'
      refine ⟨hopen, ?_⟩
      intro row hrow
      rw [hstored] at hrow
      cases hrow
      rw [hstatus]
      exact fun heq => JobStatus.noConfusion heq
    · intro c read' now haction
      cases haction
    · intro c loaded enabled now haction
      cases haction
  have hcommit : Uncontested s₂ ⟨1, .drainCommit 3⟩ := by
    constructor
    · intro c read' workerId now haction
      cases haction
    · intro c read' now haction
      cases haction
    · intro c loaded enabled now haction hpending'
      cases haction
      rw [hdraining] at hpending'
      cases hpending'
  have hreach : (Sql.sessions {} some).Reachable ok s :=
    ((hreads.tail (hok _ _ hclaim (.of_ne (by simp))) hs₁).tail
      (hok _ _ (.of_quiet (by simp)) (.of_ne (by simp))) hs₂).tail
        (hok _ _ hcommit (.of_ne (by simp))) hs
  exact ⟨s, read, hreach, hclaimed, hsecond, hdrain⟩

end State

end Sql

end JobPipeline
