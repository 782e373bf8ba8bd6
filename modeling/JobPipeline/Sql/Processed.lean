import JobPipeline.Service.Terminal
import JobPipeline.Sql.Cancels
import JobPipeline.Sql.Metrics

/-!
# Completion times

`processed_at` is written by the commits that end a job and cleared by none. `mark_failed_attempt`
assigns it only when the attempts are exhausted, and `claim_job` never does, so a row that leaves a
terminal status keeps its completion time: a job whose successor could not be scheduled waits for
its next attempt with one, and so does a job that was claimed after all. `metrics` takes the rows
with a completion time for the finished ones.
-/

set_option autoImplicit false

namespace JobPipeline

/-- A job has a completion time exactly when it is in a terminal status. -/
def Database.MarksFinished (db : Database) : Prop :=
  ∀ jobId row, db.getJob? jobId = some row →
    (row.processedAt.isSome = true ↔ row.status.isTerminal = true)

namespace SqlAlchemyJobRepository

/-- The latencies are then those of the finished jobs. -/
theorem latencies_of_marksFinished {db : Database} (h : db.MarksFinished) :
    latencies (terminalJobs db) =
      latencies ((db.jobs.values.filter fun row => row.status.isTerminal).map recordFromModel) := by
  have hfilter : (db.jobs.values.filter fun row => row.processedAt.isSome) =
      db.jobs.values.filter fun row => row.status.isTerminal := by
    refine List.filter_congr fun row hrow => ?_
    obtain ⟨jobId, hget⟩ := Dict.mem_values_iff.mp hrow
    exact Bool.eq_iff_iff.mpr (h jobId row hget)
  rw [terminalJobs, hfilter]

end SqlAlchemyJobRepository

namespace Sql

namespace State

open Transition

variable {settings : Settings} {jsonb : Jsonb} {s s' : State} {c : CallId} {jobId : UUID}
  {call : Option CallId} {label : Label}

/-- The commit is not one of the two that would take a finished job up again: a claim that goes
    through, and a failure after which the job is to be retried. -/
structure SparesFinished (s : State) (label : Label) : Prop where
  claim : ∀ c read workerId now, label.action = .claimCommit c →
    s.sessions c = .claimPending read workerId now → fitsString 100 workerId = true →
    s.db.hasAttempt read.id (read.attemptCount + 1) = false →
    ∀ row, s.db.getJob? read.id = some row → row.status.isTerminal = false
  fail : ∀ c job succeeded read error now, label.action = .failCommit c →
    s.sessions c = .failPending job succeeded read error now → fitsText error = true →
    read.exhausted = false →
    ∀ row, s.db.getJob? read.id = some row → row.status.isTerminal = false

/-! ## Rows on their way in -/

/-- A row that is about to be inserted has no completion time. -/
def PendingUnprocessed (s : State) : Prop :=
  ∀ c row, (s.sessions c).pendingRow = some row → row.processedAt = none

theorem PendingUnprocessed.moves (h : s.PendingUnprocessed) {session : Session}
    (hmoves : s'.sessions = Function.update s.sessions c session)
    (hsession : ∀ row, session.pendingRow = some row → row.processedAt = none) :
    s'.PendingUnprocessed := by
  intro d row hrow
  rw [hmoves, Function.update_apply] at hrow
  split at hrow
  · exact hsession row hrow
  · exact h d row hrow

/-- The rows that the two `Job(...)` of the repository make. -/
theorem PendingUnprocessed.act (h : s.PendingUnprocessed) {now : Int} {action : Action}
    (hs : s.act settings jsonb now action = some s') : s'.PendingUnprocessed := by
  have hnone : ∀ {session : Session}, session.pendingRow = none →
      ∀ row, session.pendingRow = some row → row.processedAt = none := by
    intro session hsession row hrow
    rw [hsession] at hrow
    cases hrow
  cases action with
  | submit c request jobId =>
    simp only [State.act] at hs
    split at hs
    · split at hs
      · cases hs
      · cases hs
        unfold submitJob
        repeat' split
        all_goals refine h.moves (c := c) rfl ?_
        · exact hnone rfl
        · exact hnone rfl
        · exact hnone rfl
        · intro row hrow
          cases hrow
          rfl
    · cases hs
  | next c after nextJobId =>
    simp only [State.act] at hs
    split at hs
    · split at hs
      · cases hs
      · cases hs
        unfold State.next
        repeat' split
        all_goals refine h.moves (c := c) rfl ?_
        · exact hnone rfl
        · exact hnone rfl
        · intro row hrow
          cases hrow
          rfl
    · cases hs
  | setAvailable available =>
    cases hs
    exact h
  | insertCommit c | reselect c | claimRead c | claimCommit c | claimRefresh c | insertRefresh c
  | publish c | process c | finish c | succeedRead c | succeedCommit c | succeedRefresh c
  | nextCommit c | failRead c | failCommit c | failRefresh c | publishDeadLetter c | cancelRead c
  | cancelCommit c | cancelRefresh c | drainRead c | drainCommit c =>
    simp only [State.act, insertCommit, reselect, claimRead, claimCommit, claimRefresh] at hs
    repeat' split at hs
    all_goals cases hs
    all_goals exact h.moves (c := c) rfl (hnone rfl)

theorem pendingUnprocessed_of_reachable (h : (Sql.sessions settings jsonb).Reachable Any s) :
    s.PendingUnprocessed := by
  apply h.invariant (I := PendingUnprocessed)
  · intro s hs
    have hs : s = State.initial := hs
    subst hs
    intro c row hrow
    cases hrow
  · intro s label s' hpending _ hs
    exact hpending.act hs

/-! ## The law and its condition -/

/-- A commit on one row. -/
theorem marksFinished_update (h : s.db.MarksFinished) {assign : Job → Job}
    (hjobs : s'.db.jobs = s.db.jobs.modify jobId assign)
    (hassign : ∀ row, s.db.getJob? jobId = some row →
      ((assign row).processedAt.isSome = true ↔ (assign row).status.isTerminal = true)) :
    s'.db.MarksFinished := by
  intro id row' hrow'
  have hget : s'.db.jobs.get? id = some row' := hrow'
  by_cases hid : id = jobId
  · subst hid
    rw [hjobs, Dict.get?_modify_self, Option.map_eq_some_iff] at hget
    obtain ⟨row, hrow, rfl⟩ := hget
    exact hassign row hrow
  · rw [hjobs, Dict.get?_modify_of_ne _ _ hid] at hget
    exact h id row' hget

/-- A row that is not finished has no completion time. -/
theorem processedAt_of_unfinished (h : s.db.MarksFinished) {row : Job}
    (hrow : s.db.getJob? jobId = some row) (hstatus : row.status.isTerminal = false) :
    row.processedAt.isSome = false := by
  have hiff := h jobId row hrow
  rw [hstatus] at hiff
  simpa using hiff

/-- A commit that takes a row up and leaves its completion time had found it unfinished, if the
    law holds before and after. -/
theorem unfinished_of_kept (h : s.db.MarksFinished) (h' : s'.db.MarksFinished) {row : Job}
    {assign : Job → Job} (hrow : s.db.getJob? jobId = some row)
    (hjobs : s'.db.jobs = s.db.jobs.modify jobId assign)
    (hprocessed : (assign row).processedAt = row.processedAt)
    (hstatus : (assign row).status.isTerminal = false) : row.status.isTerminal = false := by
  have hafter := h' jobId _ (get?_of_update hjobs hrow)
  rw [hprocessed, hstatus] at hafter
  have hnone : ¬ row.processedAt.isSome = true := fun hsome => by simpa using hafter.mp hsome
  simpa using mt (h jobId row hrow).mpr hnone

/-- **A step that spares the finished jobs keeps the law.** -/
theorem marksFinished_step (h : s.db.MarksFinished) (hinv : s.Inv) (hpending : s.PendingUnprocessed)
    (hs : s.step settings jsonb label = some s') (hok : SparesFinished s label) :
    s'.db.MarksFinished := by
  have he := act_effect hinv.toKnown hs
  generalize hcall : label.action.call = call at he
  have hsame : s'.db.jobs = s.db.jobs → s'.db.MarksFinished := by
    intro hjobs id row hrow
    rw [Database.getJob?, hjobs] at hrow
    exact h id row hrow
  cases he with
  | idle tables => exact hsame tables.1
  | quiet c session tables => exact hsame tables.1
  | reads c session row tables => exact hsame tables.1
  | start c job tables => exact hsame tables.1
  | insert c row payload session jobs attempts fresh new moves read held pending history raised drawn
      unkeyed before =>
    intro id row' hrow'
    have hget : s'.db.jobs.get? id = some row' := hrow'
    rw [jobs, Dict.get?_insert] at hget
    split at hget
    · cases hget
      simp [hpending c row before, new.1, JobStatus.isTerminal]
    · exact h id row' hget
  | claim c read workerId now before fits free jobs =>
    refine marksFinished_update h jobs fun row hrow => ?_
    have hstatus := hok.claim c read workerId now (act_of_claimPending hs hcall before) before fits
      free row hrow
    have hnone := processedAt_of_unfinished h hrow hstatus
    simp [Job.claimAssignments, hnone, JobStatus.isTerminal]
  | succeed c job read result stored now before jobs =>
    refine marksFinished_update h jobs fun row hrow => ?_
    simp [Job.succeedAssignments, JobStatus.isTerminal]
  | fail c job succeeded read error now before fits jobs =>
    refine marksFinished_update h jobs fun row hrow => ?_
    cases hexhausted : read.exhausted with
    | true => simp [Job.failAssignments, hexhausted, JobStatus.isTerminal]
    | false =>
      have hstatus := hok.fail c job succeeded read error now (act_of_failPending hs hcall before)
        before fits hexhausted row hrow
      have hnone := processedAt_of_unfinished h hrow hstatus
      simp [Job.failAssignments, hexhausted, hnone, JobStatus.isTerminal]
  | cancel c read now before jobs =>
    refine marksFinished_update h jobs fun row hrow => ?_
    simp [Job.cancelAssignments, JobStatus.isTerminal]

/-- **A step that keeps the law spares the finished jobs.** -/
theorem sparesFinished_of_marksFinished (h : s.db.MarksFinished)
    (hs : s.step settings jsonb label = some s') (h' : s'.db.MarksFinished) :
    SparesFinished s label := by
  obtain ⟨t, action⟩ := label
  constructor
  · intro c read workerId now haction hpending hfits hfree row hrow
    subst haction
    exact unfinished_of_kept h h' hrow (jobs_of_claimCommit hpending hfits hfree hs) rfl rfl
  · intro c job succeeded read error now haction hpending hfits hexhausted row hrow
    subst haction
    refine unfinished_of_kept h h' hrow (jobs_of_failCommit hpending hfits hs) ?_ ?_
    · simp [Job.failAssignments, hexhausted]
    · simp [Job.failAssignments, hexhausted, JobStatus.isTerminal]

theorem marksFinished_of_reachable (h : (Sql.sessions settings jsonb).Reachable SparesFinished s) :
    s.db.MarksFinished := by
  apply h.invariant_of_reachable (I := fun s => s.db.MarksFinished)
  · intro s hs
    have hs : s = State.initial := hs
    subst hs
    intro jobId row hrow
    cases hrow
  · intro s label s' hreach hmarks hok hs
    exact marksFinished_step hmarks (inv_of_reachable hreach.any)
      (pendingUnprocessed_of_reachable hreach.any) hs hok

/-- **Completion times mark finished jobs as long as no finished job is taken up again**, and
    the next step keeps it so exactly if it takes up none. -/
theorem processedAt_marks_finished (h : (Sql.sessions settings jsonb).Reachable SparesFinished s) :
    (∀ jobId row, s.db.getJob? jobId = some row → (row.processedAt.isSome = true ↔
        row.status = .succeeded ∨ row.status = .deadLettered ∨ row.status = .cancelled)) ∧
      latencies (SqlAlchemyJobRepository.terminalJobs s.db) = latencies
        ((s.db.jobs.values.filter fun row => row.status.isTerminal).map recordFromModel) ∧
      ∀ label s', s.step settings jsonb label = some s' →
        (s'.db.MarksFinished ↔ SparesFinished s label) := by
  have hmarks := marksFinished_of_reachable h
  refine ⟨fun jobId row hrow => (hmarks jobId row hrow).trans JobStatus.isTerminal_iff,
    SqlAlchemyJobRepository.latencies_of_marksFinished hmarks, fun label s' hs => ⟨?_, ?_⟩⟩
  · exact sparesFinished_of_marksFinished hmarks hs
  · exact marksFinished_step hmarks (inv_of_reachable h.any) (pendingUnprocessed_of_reachable h.any)
      hs

/-- A step that commits neither a claim nor a failure takes up nothing. -/
theorem sparesFinished_of_other (hclaim : ∀ c, label.action ≠ .claimCommit c)
    (hfail : ∀ c, label.action ≠ .failCommit c) : SparesFinished s label :=
  ⟨fun c _ _ _ haction => absurd haction (hclaim c),
    fun c _ _ _ _ _ haction => absurd haction (hfail c)⟩

/-- A job is claimed, fails and is cancelled while it waits for its second attempt. -/
theorem processedAt_marks_finished_of_cancel : ∃ s row,
    (Sql.sessions {} some).Reachable SparesFinished s ∧ s.db.getJob? Sample.jobId = some row ∧
      row.attemptCount = 1 ∧ row.status = .cancelled ∧ row.processedAt.isSome = true := by
  have hrun : ∃ s₁ s₂ s₃ s₄ s read job failed row, System.replay (State.step {} some) State.initial
      [⟨0, .submit 0 Sample.request Sample.jobId⟩, ⟨0, .insertCommit 0⟩,
        ⟨0, .process 1 Sample.jobId "worker-1"⟩, ⟨0, .claimRead 1⟩] = some s₁ ∧
      s₁.sessions 1 = .claimPending read "worker-1" 0 ∧ s₁.db.getJob? read.id = some read ∧
      read.status = .queued ∧ s₁.step {} some ⟨0, .claimCommit 1⟩ = some s₂ ∧
      System.replay (State.step {} some) s₂
        [⟨1, .claimRefresh 1⟩, ⟨1, .finish 1 (.raised (.other "TransientJobError" "again"))⟩,
          ⟨1, .failRead 1⟩] = some s₃ ∧
      s₃.sessions 1 = .failPending job none failed "again" 1 ∧
      s₃.db.getJob? failed.id = some failed ∧ failed.status = .running ∧
      s₃.step {} some ⟨1, .failCommit 1⟩ = some s₄ ∧
      System.replay (State.step {} some) s₄
        [⟨2, .cancelRead 2 Sample.jobId⟩, ⟨2, .cancelCommit 2⟩] = some s ∧
      s.db.getJob? Sample.jobId = some row ∧ row.attemptCount = 1 ∧ row.status = .cancelled :=
    ⟨_, _, _, _, _, _, _, _, _, rfl, rfl, rfl, rfl, rfl, rfl, rfl, rfl, rfl, rfl, rfl, rfl, rfl, rfl⟩
  obtain ⟨s₁, s₂, s₃, s₄, s, read, job, failed, row, hs₁, hclaiming, hread, hqueued, hs₂, hs₃,
    hfailing, hfailed, hrunning, hs₄, hs, hrow, hcount, hstatus⟩ := hrun
  have hclaim : SparesFinished s₁ ⟨0, .claimCommit 1⟩ := by
    refine ⟨?_, fun c _ _ _ _ _ haction => absurd haction (by simp)⟩
    intro c read' workerId now haction hpending _ _ row hrow
    cases haction
    cases hclaiming.symm.trans hpending
    cases hread.symm.trans hrow
    rw [hqueued]
    rfl
  have hfail : SparesFinished s₃ ⟨1, .failCommit 1⟩ := by
    refine ⟨fun c _ _ _ haction => absurd haction (by simp), ?_⟩
    intro c job' succeeded read' error now haction hpending _ _ row hrow
    cases haction
    cases hfailing.symm.trans hpending
    cases hfailed.symm.trans hrow
    rw [hrunning]
    rfl
  have hother : ∀ {labels : List Label} {s s' : State},
      System.replay (State.step {} some) s labels = some s' →
      (∀ label ∈ labels, (∀ c, label.action ≠ .claimCommit c) ∧
        ∀ c, label.action ≠ .failCommit c) → (Sql.sessions {} some).Steps SparesFinished s s' :=
    fun hs hlabels => System.Steps.of_replay hs fun label hmem _ =>
      sparesFinished_of_other (hlabels label hmem).1 (hlabels label hmem).2
  have hreach : (Sql.sessions {} some).Reachable SparesFinished s := by
    refine ⟨State.initial, rfl, ?_⟩
    refine (((hother hs₁ ?_).tail hclaim hs₂).trans (hother hs₃ ?_)).tail hfail hs₄ |>.trans
      (hother hs ?_)
    · simp
    · simp
    · simp
  exact ⟨s, row, hreach, hrow, hcount, hstatus,
    ((processedAt_marks_finished hreach).1 _ row hrow).mpr (Or.inr (Or.inr hstatus))⟩

/-- A successor that cannot be scheduled. -/
theorem step_next_error {job succeeded : JobRecord} {cron : String} {exc : Exc} {after : Int}
    {nextJobId : UUID} (hcall : s.sessions c = .marked job succeeded) (hfresh : nextJobId ∉ s.drawn)
    (hcron : succeeded.recurringCron.filter (· ≠ "") = some cron)
    (herror : nextCronRun cron after = .error exc) (now : Int) :
    s.step settings jsonb ⟨now, .next c after nextJobId⟩ =
      some ({ s with drawn := nextJobId :: s.drawn }.setSession c
        (.excepted job exc (some succeeded) false)) := by
  simp only [State.step, act, hcall, State.next, hcron, herror, if_neg hfresh]

theorem commitFailed_stored {db : Database} {row : Job} {error : String}
    (hfits : fitsText error = true) (hrow : db.jobs.get? row.id = some row) (backoff now : Int) :
    ∃ db', db.commitFailed row error backoff now = .ok db' ∧
      db'.getJob? row.id = some (row.failAssignments error backoff now row) := by
  refine ⟨_, if_neg (by simp [hfits]), ?_⟩
  rw [Database.getJob?, Database.finishAttempt, Database.update, Dict.get?_modify_self, hrow]
  rfl

/-- `mark_failed_attempt` in the `except` block of an attempt that is not the last one. -/
theorem failed_of_excepted (h : (Sql.sessions settings jsonb).Reachable Any s) {job : JobRecord}
    {exc : Exc} {succeeded : Option JobRecord} {row : Job} (now : Int)
    (hcall : s.sessions c = .excepted job exc succeeded false)
    (hrow : s.db.getJob? job.id = some row) (hid : row.id = job.id)
    (hfits : fitsText (errorText exc) = true) :
    ∃ s', (Sql.sessions settings jsonb).Reachable Any s' ∧ s'.db.getJob? job.id =
      some (row.failAssignments (errorText exc) (backoffSeconds job.attemptCount) now row) := by
  have hread : s.step settings jsonb ⟨now, .failRead c⟩ =
      some (s.setSession c (.failPending job succeeded row (errorText exc) now)) := by
    simp [State.step, act, hcall, hrow]
  have hcall' := sessions_setSession s c (.failPending job succeeded row (errorText exc) now)
  have hdb : (s.setSession c (.failPending job succeeded row (errorText exc) now)).db = s.db := rfl
  generalize s.setSession c (.failPending job succeeded row (errorText exc) now) = s₁ at *
  have hrow₁ : s₁.db.jobs.get? row.id = some row := by
    rw [hdb, hid]
    exact hrow
  obtain ⟨db, hcommit, hstored⟩ := commitFailed_stored hfits hrow₁ (backoffSeconds job.attemptCount)
    now
  have hfail : s₁.step settings jsonb ⟨now, .failCommit c⟩ =
      some ((s₁.commit db).setSession c (.failed row.id)) := by
    simp only [State.step, act, hcall', hcommit]
  exact ⟨_, (h.tail trivial hread).tail trivial hfail, hid ▸ hstored⟩

/-- **A failed job with a completion time**: its handler succeeded, and its successor could not
    be scheduled. -/
theorem failed_job_processed : ∃ s row, (Sql.sessions {} some).Reachable Any s ∧
    s.db.getJob? Sample.jobId = some row ∧ row.status = .failed ∧ row.processedAt.isSome = true := by
  have hrun : ∃ s job succeeded row, System.replay (State.step {} some) State.initial
      [⟨0, .submit 0 (Sample.request.recurring "0 0 30 2 *" ⟨by decide, by decide, rfl⟩)
          Sample.jobId⟩, ⟨0, .insertCommit 0⟩, ⟨0, .process 1 Sample.jobId "worker-local"⟩,
        ⟨0, .claimRead 1⟩, ⟨0, .claimCommit 1⟩, ⟨0, .claimRefresh 1⟩, ⟨0, .finish 1 (.value [])⟩,
        ⟨0, .succeedRead 1⟩, ⟨0, .succeedCommit 1⟩, ⟨0, .succeedRefresh 1⟩] = some s ∧
      s.sessions 1 = .marked job succeeded ∧
      succeeded.recurringCron.filter (· ≠ "") = some "0 0 30 2 *" ∧
      Sample.nextJobId ∉ s.drawn ∧ s.db.getJob? job.id = some row ∧ job.id = Sample.jobId ∧
      row.id = Sample.jobId ∧ row.exhausted = false ∧ row.processedAt.isSome = true :=
    ⟨_, _, _, _, rfl, rfl, rfl, by decide, rfl, rfl, rfl, rfl, rfl⟩
  obtain ⟨s, job, succeeded, row, hs, hcall, hcron, hfresh, hrow, hjob, hid, hexhausted,
    hprocessed⟩ := hrun
  have hreach : (Sql.sessions {} some).Reachable Any s :=
    ⟨State.initial, rfl, System.Steps.of_replay hs fun _ _ _ => trivial⟩
  have herror := nextCronRun_error_of_not_hasRun (e := "0 0 30 2 *") rfl
    (JobPipeline.State.not_cronHasRun_thirtieth_of_february 0)
  generalize hexc : badRequestError "Cron expression has no run in the next year"
    [("cron", .str "0 0 30 2 *")] = exc at herror
  have hfits : fitsText (errorText (.service exc)) = true := by
    subst hexc
    rfl
  have hnext : s.step {} some ⟨0, .next 1 0 Sample.nextJobId⟩ =
      some ({ s with drawn := Sample.nextJobId :: s.drawn }.setSession 1
        (.excepted job (.service exc) (some succeeded) false)) :=
    step_next_error hcall hfresh hcron herror 0
  obtain ⟨s', hreach', hrow'⟩ := failed_of_excepted (hreach.tail trivial hnext) 0
    (sessions_setSession ..) hrow (hid.trans hjob.symm) hfits
  refine ⟨s', _, hreach', hjob ▸ hrow', ?_, ?_⟩
  · simp [Job.failAssignments, hexhausted]
  · simpa [Job.failAssignments, hexhausted] using hprocessed

end State

end Sql

end JobPipeline
