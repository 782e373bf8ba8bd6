import JobPipeline.Sql.Processed
import JobPipeline.Sql.Successors

/-!
# How a status changes

`mark_succeeded`, `mark_failed_attempt` and `cancel_job` overwrite the status of the row whatever it
is by then, and `claim_job` asks only for the attempt number, so a status does more than the guards
of the methods say. Still it does not do everything. `nextStatuses` lists the changes that some
interleaving makes, and no interleaving makes any other.
-/

set_option autoImplicit false

namespace JobPipeline

namespace Sql

/-- The statuses that a commit may put in the place of a status. -/
def nextStatuses : JobStatus → List JobStatus
  | .queued | .failed => [.running, .cancelled]
  | .running => [.succeeded, .failed, .deadLettered, .cancelled]
  -- The successor could not be scheduled.
  | .succeeded => [.failed, .deadLettered, .cancelled]
  -- The row was read when it was still pending.
  | .deadLettered => [.cancelled]
  -- A claim had been read, or committed, when the job was cancelled.
  | .cancelled => [.running, .succeeded, .failed, .deadLettered]

namespace State

open Transition

variable {settings : Settings} {jsonb : Jsonb} {s s' : State} {c : CallId} {jobId : UUID}
  {label : Label} {call : Option CallId} {row row' : Job} {a b : JobStatus}

/-- A step of some run takes the status of a job from the one to the other. -/
def Changes (settings : Settings) (jsonb : Jsonb) (a b : JobStatus) : Prop :=
  ∃ s label s' jobId row row', (Sql.sessions settings jsonb).Reachable Any s ∧
    (Sql.sessions settings jsonb).step s label s' ∧ s.db.getJob? jobId = some row ∧
    s'.db.getJob? jobId = some row' ∧ row.status = a ∧ row'.status = b

/-! ## No other change -/

/-- A dead-lettered job has no attempt left. -/
def DeadExhausted (s : State) : Prop := ∀ jobId row, s.db.jobs.get? jobId = some row →
  row.status = .deadLettered → row.exhausted = true

theorem DeadExhausted.step (h : s.DeadExhausted) (hinv : s.Inv) (he : Effect s s' call)
    (hmade : s.PendingMade) : s'.DeadExhausted := by
  intro jobId row' hrow' hdead
  have hsame : s'.db.jobs = s.db.jobs → row'.exhausted = true := by
    intro hjobs
    rw [hjobs] at hrow'
    exact h jobId row' hrow' hdead
  have hupdate : ∀ {id : UUID} {assign : Job → Job}, s'.db.jobs = s.db.jobs.modify id assign →
      (∀ row, s.db.jobs.get? id = some row → (assign row).status = .deadLettered →
        (assign row).exhausted = true) → row'.exhausted = true := by
    intro id assign hjobs hassign
    by_cases hid : jobId = id
    · subst hid
      rw [hjobs, Dict.get?_modify_self] at hrow'
      obtain ⟨row, hrow, heq⟩ := Option.map_eq_some_iff.mp hrow'
      subst heq
      exact hassign row hrow hdead
    · rw [hjobs, Dict.get?_modify_of_ne _ _ hid] at hrow'
      exact h jobId row' hrow' hdead
  cases he with
  | idle tables => exact hsame tables.1
  | quiet _ _ tables => exact hsame tables.1
  | reads _ _ _ tables => exact hsame tables.1
  | start _ _ tables => exact hsame tables.1
  | insert c created payload session jobs attempts fresh new moves read held pending history raised
      drawn unkeyed before =>
    rw [jobs, Dict.get?_insert] at hrow'
    split at hrow'
    · cases hrow'
      rcases hmade c created before with ⟨request, id, t, rfl⟩ | ⟨job, id, nextRunAt, t, rfl⟩
      · cases hdead
      · cases hdead
    · exact h jobId row' hrow' hdead
  | claim c read workerId t before fits free jobs =>
    refine hupdate jobs fun row _ hstatus => ?_
    cases hstatus
  | succeed c job read result stored t before jobs =>
    refine hupdate jobs fun row _ hstatus => ?_
    cases hstatus
  | cancel c read t before jobs =>
    refine hupdate jobs fun row _ hstatus => ?_
    cases hstatus
  | fail c job succeeded read error t before fits jobs =>
    refine hupdate jobs fun row hrow hstatus => ?_
    have hexhausted : read.exhausted = true := by
      by_contra hnot
      simp [Job.failAssignments, hnot] at hstatus
    -- What the call has read of the row is still so.
    obtain ⟨hid, hcount⟩ := hinv.read_current c read job.id (by rw [before]; rfl)
      (by rw [before]; rfl)
    obtain ⟨current, hcurrent, hretries⟩ := hinv.read_stored c read (by rw [before]; rfl)
    rw [hrow] at hcurrent
    cases hcurrent
    rw [hid] at hrow
    rw [version_of_stored hrow] at hcount
    rw [Job.exhausted, decide_eq_true_eq] at hexhausted ⊢
    show row.maxRetries < row.attemptCount
    omega

theorem deadExhausted_of_reachable (h : (Sql.sessions settings jsonb).Reachable Any s) :
    s.DeadExhausted := by
  apply h.invariant_of_reachable (I := DeadExhausted)
  · intro s hs
    have hs : s = State.initial := hs
    subst hs
    intro jobId row hrow
    cases hrow
  · intro s label s' hreach hdead _ hs
    have hinv := inv_of_reachable hreach
    exact hdead.step hinv (act_effect hinv.toKnown hs) (pendingMade_of_reachable hreach)

/-- A claim that goes through finds its row as it was read, or cancelled. -/
theorem status_of_claim (h : (Sql.sessions settings jsonb).Reachable Any s) {read : Job}
    {workerId : String} {now : Int} (hpending : s.sessions c = .claimPending read workerId now)
    (hfree : s.db.hasAttempt read.id (read.attemptCount + 1) = false)
    (hrow : s.db.jobs.get? read.id = some row) :
    row.status = .queued ∨ row.status = .failed ∨ row.status = .cancelled := by
  have hinv := inv_of_reachable h
  have haudit := audit_of_reachable h
  have hcurrent := (hinv.free_iff hpending).mp hfree
  have hfailed := haudit.claiming c read workerId now hpending hcurrent
  have hrows := haudit.rows read.id row hrow
  generalize s.attemptsOf read.id = attempts at hfailed hrows
  cases hrows with
  | unattempted status =>
    rcases status with heq | heq
    · exact .inl heq
    · exact .inr (.inr heq)
  | attempted earlier last _ _ status =>
    rcases status with heq | heq
    · exact .inr (.inr heq)
    · have hlast : last.status = .failed := (hfailed last (by simp)).1
      rw [hlast] at heq
      cases hstatus : row.status with
      | failed => exact .inr (.inl rfl)
      | deadLettered =>
        -- The row was pending at this attempt number, so the number is within the bound.
        have hbound := (hinv.exclusive read.id row hrow).view_bound c read.attemptCount (by
          simp [lease, hpending, Session.viewOf, Session.view])
        have hexhausted := deadExhausted_of_reachable h read.id row hrow hstatus
        rw [Job.exhausted, decide_eq_true_eq] at hexhausted
        rw [version_of_stored hrow] at hcurrent
        omega
      | queued | running | succeeded | cancelled =>
        rw [hstatus] at heq
        cases heq

/-- **Every change is listed.** -/
theorem mem_nextStatuses (h : (Sql.sessions settings jsonb).Reachable Any s)
    (hs : (Sql.sessions settings jsonb).step s label s') (hrow : s.db.getJob? jobId = some row)
    (hrow' : s'.db.getJob? jobId = some row') (hne : row.status ≠ row'.status) :
    row'.status ∈ nextStatuses row.status := by
  have hinv := inv_of_reachable h
  obtain ⟨row'', hrow'', hstep⟩ := (act_effect hinv.toKnown hs).status hinv hrow
  have hsame : row'' = row' := Option.some.inj (hrow''.symm.trans hrow')
  subst hsame
  generalize label.action.call = call at hstep
  cases hstep with
  | same heq => exact absurd heq.symm hne
  | claim c read workerId now before id fits free heq =>
    subst id
    rw [heq]
    rcases status_of_claim h before free hrow with hstatus | hstatus | hstatus <;>
      simp [hstatus, nextStatuses]
  | succeed c held attempting after heq =>
    obtain ⟨current, hcurrent, hstatus⟩ := attemptingRuns_of_reachable h c jobId attempting
    cases hcurrent.symm.trans hrow
    rw [heq]
    rcases hstatus with hstatus | hstatus <;> simp [hstatus, nextStatuses]
  | fail c job succeeded read error now before id held fits after heq =>
    have hstatus : row.status = .running ∨ row.status = .succeeded ∨ row.status = .cancelled := by
      cases succeeded with
      | none =>
        obtain ⟨current, hcurrent, hstatus⟩ :=
          attemptingRuns_of_reachable h c jobId (by rw [before, ← held]; rfl)
        cases hcurrent.symm.trans hrow
        exact hstatus.imp_right .inr
      | some succeeded =>
        obtain ⟨current, hcurrent, hstatus⟩ :=
          settledRow_of_reachable h c jobId (by rw [before, ← held]; rfl)
        cases hcurrent.symm.trans hrow
        exact .inr hstatus
    rcases heq with heq | heq <;> rw [heq] <;>
      rcases hstatus with hstatus | hstatus | hstatus <;> simp [hstatus, nextStatuses]
  | cancel c read now before id heq history =>
    rw [heq] at hne ⊢
    cases hstatus : row.status with
    | cancelled => exact absurd hstatus hne
    | queued | failed | running | succeeded | deadLettered => simp [nextStatuses]

/-! ## Every one of these -/

theorem changes_of_replay (labels : List Label) (label : Label)
    (h : ∃ s s' row row', System.replay (State.step {} some) State.initial labels = some s ∧
      State.step {} some s label = some s' ∧ s.db.getJob? Sample.jobId = some row ∧
      s'.db.getJob? Sample.jobId = some row' ∧ row.status = a ∧ row'.status = b) :
    Changes {} some a b := by
  obtain ⟨s, s', row, row', hs, hs', hrow, hrow', ha, hb⟩ := h
  exact ⟨s, label, s', Sample.jobId, row, row',
    ⟨State.initial, rfl, System.Steps.of_replay hs fun _ _ _ => trivial⟩, hs', hrow, hrow', ha, hb⟩

/-- A submission and its commit. -/
def submittedRun (request : JobCreate) : List Label :=
  [⟨0, .submit 0 request Sample.jobId⟩, ⟨0, .insertCommit 0⟩]

/-- `claim_job` before its commit. -/
def claimingRun : List Label := [⟨0, .process 1 Sample.jobId "worker-1"⟩, ⟨0, .claimRead 1⟩]

/-- From the commit of `claim_job` to that of the mark. -/
def succeedingRun : List Label :=
  [⟨0, .claimCommit 1⟩, ⟨0, .claimRefresh 1⟩, ⟨0, .finish 1 (.value [])⟩, ⟨0, .succeedRead 1⟩]

def failingRun : List Label :=
  [⟨0, .claimCommit 1⟩, ⟨0, .claimRefresh 1⟩,
    ⟨0, .finish 1 (.raised (.transient "handler failed"))⟩, ⟨0, .failRead 1⟩]

/-- `cancel_job` before its commit. -/
def cancellingRun : List Label := [⟨0, .cancelRead 2 Sample.jobId⟩]

/-- The changes that need no `cancel_job` and no cron expression. -/
theorem changes_of_attempt : Changes {} some .queued .running ∧
    Changes {} some .running .succeeded ∧ Changes {} some .running .failed ∧
    Changes {} some .running .deadLettered ∧ Changes {} some .failed .running := by
  refine ⟨?_, ?_, ?_, ?_, ?_⟩
  · exact changes_of_replay (submittedRun Sample.request ++ claimingRun) ⟨0, .claimCommit 1⟩
      ⟨_, _, _, _, rfl, rfl, rfl, rfl, rfl, rfl⟩
  · exact changes_of_replay (submittedRun Sample.request ++ claimingRun ++ succeedingRun)
      ⟨0, .succeedCommit 1⟩ ⟨_, _, _, _, rfl, rfl, rfl, rfl, rfl, rfl⟩
  · exact changes_of_replay (submittedRun Sample.request ++ claimingRun ++ failingRun)
      ⟨0, .failCommit 1⟩ ⟨_, _, _, _, rfl, rfl, rfl, rfl, rfl, rfl⟩
  · exact changes_of_replay (submittedRun Sample.request.unretried ++ claimingRun ++ failingRun)
      ⟨0, .failCommit 1⟩ ⟨_, _, _, _, rfl, rfl, rfl, rfl, rfl, rfl⟩
  · exact changes_of_replay (submittedRun Sample.request ++ claimingRun ++ failingRun ++
        [⟨0, .failCommit 1⟩, ⟨1000000, .process 3 Sample.jobId "worker-1"⟩, ⟨1000000, .claimRead 3⟩])
      ⟨1000000, .claimCommit 3⟩ ⟨_, _, _, _, rfl, rfl, rfl, rfl, rfl, rfl⟩

/-- What `cancel_job` overwrites: whatever has become of the row that it read. -/
theorem changes_to_cancelled : Changes {} some .queued .cancelled ∧
    Changes {} some .running .cancelled ∧ Changes {} some .failed .cancelled ∧
    Changes {} some .succeeded .cancelled ∧ Changes {} some .deadLettered .cancelled := by
  refine ⟨?_, ?_, ?_, ?_, ?_⟩
  · exact changes_of_replay (submittedRun Sample.request ++ cancellingRun) ⟨0, .cancelCommit 2⟩
      ⟨_, _, _, _, rfl, rfl, rfl, rfl, rfl, rfl⟩
  · exact changes_of_replay (submittedRun Sample.request ++ cancellingRun ++ claimingRun ++
        succeedingRun) ⟨0, .cancelCommit 2⟩
      ⟨_, _, _, _, rfl, rfl, rfl, rfl, rfl, rfl⟩
  · exact changes_of_replay (submittedRun Sample.request ++ cancellingRun ++ claimingRun ++
        failingRun ++ [⟨0, .failCommit 1⟩]) ⟨0, .cancelCommit 2⟩
      ⟨_, _, _, _, rfl, rfl, rfl, rfl, rfl, rfl⟩
  · exact changes_of_replay (submittedRun Sample.request ++ cancellingRun ++ claimingRun ++
        succeedingRun ++ [⟨0, .succeedCommit 1⟩]) ⟨0, .cancelCommit 2⟩
      ⟨_, _, _, _, rfl, rfl, rfl, rfl, rfl, rfl⟩
  · exact changes_of_replay (submittedRun Sample.request.unretried ++ cancellingRun ++ claimingRun ++
        failingRun ++ [⟨0, .failCommit 1⟩]) ⟨0, .cancelCommit 2⟩
      ⟨_, _, _, _, rfl, rfl, rfl, rfl, rfl, rfl⟩

/-- What a worker overwrites that had the job when it was cancelled. -/
theorem changes_of_cancelled : Changes {} some .cancelled .running ∧
    Changes {} some .cancelled .succeeded ∧ Changes {} some .cancelled .failed ∧
    Changes {} some .cancelled .deadLettered := by
  refine ⟨?_, ?_, ?_, ?_⟩
  · exact changes_of_replay (submittedRun Sample.request ++ claimingRun ++ cancellingRun ++
        [⟨0, .cancelCommit 2⟩]) ⟨0, .claimCommit 1⟩ ⟨_, _, _, _, rfl, rfl, rfl, rfl, rfl, rfl⟩
  · exact changes_of_replay (submittedRun Sample.request ++ cancellingRun ++ claimingRun ++
        succeedingRun ++ [⟨0, .cancelCommit 2⟩]) ⟨0, .succeedCommit 1⟩
      ⟨_, _, _, _, rfl, rfl, rfl, rfl, rfl, rfl⟩
  · exact changes_of_replay (submittedRun Sample.request ++ cancellingRun ++ claimingRun ++
        failingRun ++ [⟨0, .cancelCommit 2⟩]) ⟨0, .failCommit 1⟩
      ⟨_, _, _, _, rfl, rfl, rfl, rfl, rfl, rfl⟩
  · exact changes_of_replay (submittedRun Sample.request.unretried ++ cancellingRun ++ claimingRun ++
        failingRun ++ [⟨0, .cancelCommit 2⟩]) ⟨0, .failCommit 1⟩
      ⟨_, _, _, _, rfl, rfl, rfl, rfl, rfl, rfl⟩

/-- `process_job` of a success whose successor cannot be scheduled: the `except` block marks it. -/
theorem changes_of_marked (h : (Sql.sessions {} some).Reachable Any s) {job succeeded : JobRecord}
    (hcall : s.sessions c = .marked job succeeded)
    (hcron : succeeded.recurringCron.filter (· ≠ "") = some "0 0 30 2 *")
    (hfresh : Sample.nextJobId ∉ s.drawn) (hrow : s.db.getJob? job.id = some row)
    (hid : row.id = job.id) (hstatus : row.status = .succeeded) :
    Changes {} some .succeeded (if row.exhausted then .deadLettered else .failed) := by
  have herror := nextCronRun_error_of_not_hasRun (e := "0 0 30 2 *") rfl
    (JobPipeline.State.not_cronHasRun_thirtieth_of_february 0)
  generalize hexc : badRequestError "Cron expression has no run in the next year"
    [("cron", .str "0 0 30 2 *")] = exc at herror
  have hfits : fitsText (errorText (.service exc)) = true := by
    subst hexc
    rfl
  have hreach := h.tail trivial (step_next_error hcall hfresh hcron herror 0)
  generalize hs₁ : { s with drawn := Sample.nextJobId :: s.drawn }.setSession c
    (.excepted job (.service exc) (some succeeded) false) = s₁ at hreach
  have hcall₁ : s₁.sessions c = .excepted job (.service exc) (some succeeded) false :=
    hs₁ ▸ sessions_setSession ..
  have hrow₁ : s₁.db.getJob? job.id = some row := hs₁ ▸ hrow
  have hread : (Sql.sessions {} some).step s₁ ⟨0, .failRead c⟩ (s₁.setSession c
      (.failPending job (some succeeded) row (errorText (.service exc)) 0)) := by
    show s₁.act {} some 0 (.failRead c) = _
    simp [act, hcall₁, hrow₁]
  have hreach₂ := hreach.tail trivial hread
  generalize hs₂ : s₁.setSession c
    (.failPending job (some succeeded) row (errorText (.service exc)) 0) = s₂ at hreach₂
  have hcall₂ : s₂.sessions c =
      .failPending job (some succeeded) row (errorText (.service exc)) 0 :=
    hs₂ ▸ sessions_setSession ..
  have hrow₂ : s₂.db.jobs.get? row.id = some row := by
    rw [hid, ← hs₂]
    exact hrow₁
  obtain ⟨db, hcommit, hstored⟩ := commitFailed_stored hfits hrow₂
    (backoffSeconds job.attemptCount) 0
  have hfail : (Sql.sessions {} some).step s₂ ⟨0, .failCommit c⟩
      ((s₂.commit db).setSession c (.failed row.id)) := by
    show s₂.act {} some 0 (.failCommit c) = _
    simp only [act, hcall₂, hcommit]
  exact ⟨s₂, _, _, row.id, row, _, hreach₂, hfail, hrow₂, hstored, hstatus, rfl⟩

/-- The changes of a success that stay in `process_job`. -/
theorem changes_of_succeeded : Changes {} some .succeeded .failed ∧
    Changes {} some .succeeded .deadLettered := by
  have hchanges : ∀ (request : JobCreate) (b : JobStatus), (∃ s job succeeded row,
      System.replay (State.step {} some) State.initial (submittedRun request ++ claimingRun ++
        succeedingRun ++ [⟨0, .succeedCommit 1⟩, ⟨0, .succeedRefresh 1⟩]) = some s ∧
      s.sessions 1 = .marked job succeeded ∧ succeeded.recurringCron = some "0 0 30 2 *" ∧
      s.drawn = [Sample.jobId] ∧ s.db.getJob? job.id = some row ∧ row.id = job.id ∧
      row.status = .succeeded ∧ (if row.exhausted then JobStatus.deadLettered else .failed) = b) →
      Changes {} some .succeeded b := by
    intro request b h
    obtain ⟨s, job, succeeded, row, hs, hcall, hcron, hdrawn, hrow, hid, hstatus, hb⟩ := h
    have hreach : (Sql.sessions {} some).Reachable Any s :=
      ⟨State.initial, rfl, System.Steps.of_replay hs fun _ _ _ => trivial⟩
    rw [← hb]
    exact changes_of_marked hreach hcall (by rw [hcron]; rfl) (by rw [hdrawn]; decide) hrow hid
      hstatus
  constructor
  · exact hchanges (Sample.request.recurring "0 0 30 2 *" ⟨by decide, by decide, rfl⟩) _
      ⟨_, _, _, _, rfl, rfl, rfl, rfl, rfl, rfl, rfl, rfl⟩
  · exact hchanges { Sample.request.recurring "0 0 30 2 *" ⟨by decide, by decide, rfl⟩ with
        maxRetries := 0, maxRetries_le := by decide } _
      ⟨_, _, _, _, rfl, rfl, rfl, rfl, rfl, rfl, rfl, rfl⟩

/-- **The state machine of a status**: what commits make of it, over all interleavings, is exactly
    what `nextStatuses` lists. -/
theorem changes_iff (a b : JobStatus) :
    (a ≠ b ∧ ∃ settings jsonb, Changes settings jsonb a b) ↔ b ∈ nextStatuses a := by
  constructor
  · intro h
    obtain ⟨hne, settings, jsonb, s, label, s', jobId, row, row', hreach, hs, hrow, hrow', rfl,
      rfl⟩ := h
    exact mem_nextStatuses hreach hs hrow hrow' hne
  · intro h
    obtain ⟨hclaim, hsucceed, hfail, hdead, hretry⟩ := changes_of_attempt
    obtain ⟨hqueued, hrunning, hfailed, hsucceeded, hdeadLettered⟩ := changes_to_cancelled
    obtain ⟨hreclaim, hresucceed, hrefail, hredead⟩ := changes_of_cancelled
    obtain ⟨hrevert, hredeadLetter⟩ := changes_of_succeeded
    have hall : ∀ b ∈ nextStatuses a, Changes {} some a b := by
      cases a with
      | queued => simp [nextStatuses, hclaim, hqueued]
      | running => simp [nextStatuses, hsucceed, hfail, hdead, hrunning]
      | failed => simp [nextStatuses, hretry, hfailed]
      | succeeded => simp [nextStatuses, hrevert, hredeadLetter, hsucceeded]
      | deadLettered => simp [nextStatuses, hdeadLettered]
      | cancelled => simp [nextStatuses, hreclaim, hresucceed, hrefail, hredead]
    refine ⟨?_, {}, some, hall b h⟩
    rintro rfl
    cases a <;> simp [nextStatuses] at h

end State

end Sql

end JobPipeline
