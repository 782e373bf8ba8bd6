import JobPipeline.Lib.Lockstep
import JobPipeline.Service.Refinement

/-!
# One delivery

`process_job` as one call that nobody interrupts, which is how a single worker runs it. What it
reads from outside is in the `Delivery`: one clock reading for every repository method it may
call, the identifier `uuid4` draws for a successor, and what `_run_with_timeout` comes to.

A claimed job is settled: `Settlement` says with which record, and whether with a successor.
Everything proved of deliveries goes through `processJob_claimed`, which says that this is all a
delivery does.
-/

set_option autoImplicit false

namespace JobPipeline

structure Delivery where
  jobId : UUID
  workerId : String
  claimedAt : Int
  succeededAt : Int
  scheduledAt : Int
  failedAt : Int
  nextJobId : UUID
  /-- `_run_with_timeout(handler, payload, timeout_seconds)`. -/
  runWithTimeout : JobHandler → JsonObject → Nat → Outcome

/-- A delivery of the sample job at time zero; its handler returns an empty object. -/
def Sample.delivery : Delivery where
  jobId := Sample.jobId
  workerId := "worker-local"
  claimedAt := 0
  succeededAt := 0
  scheduledAt := 0
  failedAt := 0
  nextJobId := Sample.nextJobId
  runWithTimeout := fun _ _ _ => .value []

/-- The fields of the service. -/
structure JobService where
  repository : InMemoryJobRepository
  producer : FakeJobProducer

namespace JobService

variable (service : JobService) (d : Delivery)

/-- The `try` block; what it raises leaves the repository as it is then. -/
def attempt (r : InMemoryJobRepository) (job : JobRecord) (handler : JobHandler) :
    Except Exc JobRecord × InMemoryJobRepository :=
  match d.runWithTimeout handler job.payload job.timeoutSeconds with
  | .raised exc => (.error exc, r)
  | .value result =>
    match r.markSucceeded job.id result d.succeededAt with
    | .error e => (.error e, r)
    | .ok (succeeded, r) =>
      match r.createNextRecurringJob succeeded d.scheduledAt d.nextJobId with
      | .error e => (.error e, r)
      | .ok (_, r) => (.ok succeeded, r)

/-- The `except` block. -/
def handleFailure (r : InMemoryJobRepository) (job : JobRecord) (exc : Exc) :
    Except Exc (Option JobRecord) × JobService :=
  match r.markFailedAttempt job.id (errorText exc) (backoffSeconds job.attemptCount) d.failedAt with
  | .error e => (.error e, { service with repository := r })
  | .ok (updated, r) =>
    if updated.status = .deadLettered then
      match service.producer.publishDeadLetter updated.deadLetterMessage with
      | .error e => (.error e, { service with repository := r })
      | .ok producer => (.ok (some updated), ⟨r, producer⟩)
    else (.ok (some updated), { service with repository := r })

/-- `process_job`: what it returns or raises, and the service after it. -/
def processJob : Except Exc (Option JobRecord) × JobService :=
  match service.repository.claimJob d.jobId d.workerId d.claimedAt with
  | (none, r) => (.ok none, { service with repository := r })
  | (some job, r) =>
    match getHandler job.handler with
    | .error e => (.error e, { service with repository := r })
    | .ok handler =>
      match attempt d r job handler with
      | (.ok succeeded, r) => (.ok (some succeeded), { service with repository := r })
      | (.error exc, r) => handleFailure service d r job exc

end JobService

/-! ## What becomes of a claimed job -/

/-- The record an attempt ends with, and when the successor runs, if it schedules one. -/
structure Settlement where
  record : JobRecord
  next : Option Int

/-- `create_next_recurring_job` up to the record: when the next run is, if there is to be one. -/
def nextRun (recurringCron : Option String) (now : Int) : Except Exc (Option Int) :=
  match recurringCron with
  | none => .ok none
  | some cron => if cron = "" then .ok none else (nextCronRun cron now).map some

/-- The settlement of a claimed job. -/
def Delivery.settlement (d : Delivery) (handler : JobHandler) (job : JobRecord) : Settlement :=
  match d.runWithTimeout handler job.payload job.timeoutSeconds with
  | .raised exc => ⟨job.fail (errorText exc) (backoffSeconds job.attemptCount) d.failedAt, none⟩
  | .value result =>
    match nextRun job.recurringCron d.scheduledAt with
    | .ok next => ⟨job.succeed result d.succeededAt, next⟩
    -- The job had been marked succeeded.
    | .error exc => ⟨(job.succeed result d.succeededAt).fail (errorText exc)
        (backoffSeconds job.attemptCount) d.failedAt, none⟩

namespace Settlement

/-- The successor, under the identifier drawn for it. -/
def successor (s : Settlement) (d : Delivery) : Option JobRecord :=
  s.next.map fun nextRunAt => s.record.successor d.nextJobId nextRunAt d.scheduledAt

/-- The event that `process_job` publishes. -/
def deadLetter (s : Settlement) : Option DeadLetterMessage :=
  if s.record.status = .deadLettered then some s.record.deadLetterMessage else none

end Settlement

/-- The outcome of an attempt is one of three. -/
theorem Delivery.settlement_cases (d : Delivery) (handler : JobHandler) (job : JobRecord) :
    (∃ result, (d.settlement handler job).record = job.succeed result d.succeededAt) ∨
      (d.settlement handler job).next = none ∧ ((∃ error, (d.settlement handler job).record =
          job.fail error (backoffSeconds job.attemptCount) d.failedAt) ∨
        ∃ result error, (d.settlement handler job).record =
          (job.succeed result d.succeededAt).fail error (backoffSeconds job.attemptCount)
            d.failedAt) := by
  unfold settlement
  split
  · exact Or.inr ⟨rfl, Or.inl ⟨_, rfl⟩⟩
  · split
    · exact Or.inl ⟨_, rfl⟩
    · exact Or.inr ⟨rfl, Or.inr ⟨_, _, rfl⟩⟩

theorem Delivery.settlement_sameRequest (d : Delivery) (handler : JobHandler) (job : JobRecord) :
    JobRecord.SameRequest job (d.settlement handler job).record := by
  have hsucceed : ∀ result, JobRecord.SameRequest job (job.succeed result d.succeededAt) :=
    fun result => JobRecord.sameRequest_succeed job result _
  rcases d.settlement_cases handler job with ⟨result, h⟩ | ⟨-, ⟨error, h⟩ | ⟨result, error, h⟩⟩ <;>
    rw [h]
  · exact hsucceed result
  · exact JobRecord.sameRequest_fail job error _ _
  · exact (hsucceed result).trans (JobRecord.sameRequest_fail _ error _ _)

theorem nextRun_eq_some {recurringCron : Option String} {now nextRunAt : Int}
    (h : nextRun recurringCron now = .ok (some nextRunAt)) :
    ∃ cron, recurringCron = some cron ∧ nextCronRun cron now = .ok nextRunAt := by
  unfold nextRun at h
  cases recurringCron with
  | none => cases h
  | some cron =>
    dsimp only at h
    split at h
    · cases h
    · cases hrun : nextCronRun cron now with
      | error e =>
        rw [hrun] at h
        cases h
      | ok t =>
        rw [hrun] at h
        cases h
        exact ⟨cron, rfl, hrun⟩

/-- The successor runs when the expression of the job says. -/
theorem Delivery.settlement_next {d : Delivery} {handler : JobHandler} {job : JobRecord}
    {nextRunAt : Int} (h : (d.settlement handler job).next = some nextRunAt) :
    ∃ cron, job.recurringCron = some cron ∧ nextCronRun cron d.scheduledAt = .ok nextRunAt := by
  unfold settlement at h
  split at h
  · cases h
  · split at h
    · rename_i next hrun
      dsimp only at h
      subst h
      exact nextRun_eq_some hrun
    · cases h

/-- What settles a job leaves it unlocked and not running, with the attempts it had. -/
theorem Delivery.settlement_settled (d : Delivery) (handler : JobHandler) (job : JobRecord) :
    (d.settlement handler job).record.id = job.id ∧
      (d.settlement handler job).record.attemptCount = job.attemptCount ∧
      (d.settlement handler job).record.status ≠ .running ∧
      (d.settlement handler job).record.lockedBy = none ∧
      (d.settlement handler job).record.lockedAt = none := by
  have hfail : ∀ (r : JobRecord) error, (r.fail error (backoffSeconds job.attemptCount)
      d.failedAt).status ≠ .running := fun r error => Ledger.fail_not_running r error _ _
  rcases d.settlement_cases handler job with ⟨result, h⟩ | ⟨-, ⟨error, h⟩ | ⟨result, error, h⟩⟩ <;>
    rw [h]
  · exact ⟨rfl, rfl, by simp, rfl, rfl⟩
  · exact ⟨rfl, rfl, hfail _ _, rfl, rfl⟩
  · exact ⟨rfl, rfl, hfail _ _, rfl, rfl⟩

/-- A job that failed waits; any other is done with. -/
theorem Delivery.settlement_status (d : Delivery) (handler : JobHandler) (job : JobRecord) :
    (d.settlement handler job).record.status.isTerminal = true ∨
      (d.settlement handler job).record.status = .failed ∧
        d.failedAt < (d.settlement handler job).record.nextRunAt := by
  have hfail : ∀ (r : JobRecord) error,
      (r.fail error (backoffSeconds job.attemptCount) d.failedAt).status.isTerminal = true ∨
        (r.fail error (backoffSeconds job.attemptCount) d.failedAt).status = .failed ∧
          d.failedAt < (r.fail error (backoffSeconds job.attemptCount) d.failedAt).nextRunAt := by
    intro r error
    rw [JobRecord.fail_status]
    split
    · exact Or.inl rfl
    · refine Or.inr ⟨rfl, ?_⟩
      have hpos : 1 ≤ backoffSeconds job.attemptCount :=
        le_min (Nat.one_le_two_pow) (by omega)
      show d.failedAt < d.failedAt + seconds (backoffSeconds job.attemptCount)
      unfold seconds
      omega
  rcases d.settlement_cases handler job with ⟨result, h⟩ | ⟨-, ⟨error, h⟩ | ⟨result, error, h⟩⟩ <;>
    rw [h]
  · exact Or.inl rfl
  · exact hfail _ _
  · exact hfail _ _

/-! ## What one delivery does -/

namespace JobService

open InMemoryJobRepository

variable {service : JobService} {d : Delivery} {r : InMemoryJobRepository} {job : JobRecord}
  {handler : JobHandler}

/-- The producer after `process_job` has published what it had to. -/
def publishing (producer : FakeJobProducer) : Option DeadLetterMessage → FakeJobProducer
  | none => producer
  | some message =>
    match producer.publishDeadLetter message with
    | .ok producer' => producer'
    | .error _ => producer

theorem createNextRecurringJob_eq (r : InMemoryJobRepository) (job : JobRecord) (now : Int)
    (nextJobId : UUID) : r.createNextRecurringJob job now nextJobId =
      match nextRun job.recurringCron now with
      | .error e => .error e
      | .ok none => .ok (none, r)
      | .ok (some nextRunAt) => .ok (some (job.successor nextJobId nextRunAt now),
          r.store (job.successor nextJobId nextRunAt now)) := by
  unfold createNextRecurringJob nextRun
  cases job.recurringCron with
  | none => rfl
  | some cron =>
    by_cases hempty : cron = ""
    · simp only [hempty, if_true]
    · simp only [hempty, if_false]
      cases nextCronRun cron now <;> rfl

/-- The `except` block fails the stored record, and publishes when that was the last attempt. -/
theorem handleFailure_stored {stored : JobRecord} (exc : Exc)
    (hget : r.jobs.get? job.id = some stored) :
    (service.handleFailure d r job exc).2 =
      ⟨{ r with jobs := r.jobs.insert job.id (stored.fail (errorText exc)
          (backoffSeconds job.attemptCount) d.failedAt) },
        publishing service.producer (Settlement.deadLetter ⟨stored.fail (errorText exc)
          (backoffSeconds job.attemptCount) d.failedAt, none⟩)⟩ := by
  unfold handleFailure Settlement.deadLetter
  rw [markFailedAttempt_of_stored _ _ _ hget]
  dsimp only
  split
  · unfold publishing
    dsimp only
    split
    · rename_i e hpublish
      rw [hpublish]
    · rename_i producer hpublish
      rw [hpublish]
  · rfl

/-- The repository after a settlement. -/
def settled (r : InMemoryJobRepository) (d : Delivery) (s : Settlement) : UUID → Option JobRecord :=
  match s.successor d with
  | none => Function.update r.jobs.get? d.jobId (some s.record)
  | some next => Function.update (Function.update r.jobs.get? d.jobId (some s.record)) d.nextJobId
      (some next)

/-- Nothing else is stored, under no other identifier. -/
theorem settled_apply (s : Settlement) (hne : d.nextJobId ≠ d.jobId)
    (hfresh : r.jobs.get? d.nextJobId = none) (id : UUID) :
    settled r d s id = if id = d.jobId then some s.record
      else if id = d.nextJobId then s.successor d else r.jobs.get? id := by
  unfold settled
  cases s.successor d with
  | none =>
    dsimp only
    rw [Function.update_apply]
    split
    · rfl
    · split
      · rename_i heq
        rw [heq, hfresh]
      · rfl
  | some next =>
    dsimp only
    rw [Function.update_apply, Function.update_apply]
    by_cases hid : id = d.jobId
    · rw [if_neg (hid ▸ hne.symm), if_pos hid, if_pos hid]
    · rw [if_neg hid, if_neg hid]

/-- The `try` block returns the settled record, or raises with the record it has stored by then. -/
theorem attempt_claimed (handler : JobHandler) {claimed : JobRecord} (hid : claimed.id = d.jobId)
    (hget : r.jobs.get? d.jobId = some claimed) :
    (∃ r', attempt d r claimed handler = (.ok (d.settlement handler claimed).record, r') ∧
      (d.settlement handler claimed).deadLetter = none ∧
      r'.jobs.get? = settled r d (d.settlement handler claimed) ∧
      r'.drainEnabled = r.drainEnabled) ∨
    ∃ exc stored r', attempt d r claimed handler = (.error exc, r') ∧
      r'.jobs.get? = Function.update r.jobs.get? d.jobId (some stored) ∧
      r'.drainEnabled = r.drainEnabled ∧
      d.settlement handler claimed = ⟨stored.fail (errorText exc)
        (backoffSeconds claimed.attemptCount) d.failedAt, none⟩ := by
  have hstored : r.jobs.get? claimed.id = some claimed := hid.symm ▸ hget
  unfold attempt Delivery.settlement
  cases d.runWithTimeout handler claimed.payload claimed.timeoutSeconds with
  | raised exc =>
    exact Or.inr ⟨exc, claimed, r, rfl, by rw [← hget, Function.update_eq_self], rfl, rfl⟩
  | value result =>
    simp only [markSucceeded_of_stored result _ hstored, createNextRecurringJob_eq]
    have hcron : (claimed.succeed result d.succeededAt).recurringCron = claimed.recurringCron := rfl
    rw [hcron]
    cases nextRun claimed.recurringCron d.scheduledAt with
    | error exc =>
      exact Or.inr ⟨exc, _, _, rfl, by rw [Dict.get?_insert_fun, hid], rfl, rfl⟩
    | ok next =>
      apply Or.inl
      cases next with
      | none => exact ⟨_, rfl, by simp [Settlement.deadLetter], by
          simp [settled, Settlement.successor, Dict.get?_insert_fun, hid], rfl⟩
      | some nextRunAt => exact ⟨_, rfl, by simp [Settlement.deadLetter], by
          simp [settled, Settlement.successor, Dict.get?_insert_fun, hid, store,
            JobRecord.successor], rfl⟩

/-- What a delivery of a claimed job does: it settles the job. -/
structure Settles (service : JobService) (d : Delivery) (s : Settlement) (service' : JobService) :
    Prop where
  jobs : service'.repository.jobs.get? = settled service.repository d s
  producer : service'.producer = publishing service.producer s.deadLetter
  drain : service'.repository.drainEnabled = service.repository.drainEnabled

theorem processJob_claimed (hget : service.repository.jobs.get? d.jobId = some job)
    (hid : job.id = d.jobId) (hdrain : service.repository.drainEnabled = false)
    (hpending : job.status.isPending = true) (hdue : job.nextRunAt ≤ d.claimedAt)
    (hhandler : getHandler job.handler = .ok handler) :
    Settles service d (d.settlement handler (job.claim d.workerId d.claimedAt))
      (service.processJob d).2 := by
  have hclaim : service.repository.claimJob d.jobId d.workerId d.claimedAt =
      (some (job.claim d.workerId d.claimedAt), { service.repository with
        jobs := service.repository.jobs.insert d.jobId (job.claim d.workerId d.claimedAt) }) := by
    simp [claimJob, hdrain, hget, hpending, not_lt.mpr hdue]
  have hclaimed : (job.claim d.workerId d.claimedAt).id = d.jobId := hid
  have hhandler' : getHandler (job.claim d.workerId d.claimedAt).handler = .ok handler := hhandler
  unfold processJob
  rw [hclaim]
  dsimp only
  rw [hhandler']
  dsimp only
  generalize job.claim d.workerId d.claimedAt = claimed at *
  have hstored : (service.repository.jobs.insert d.jobId claimed).get? d.jobId = some claimed :=
    Dict.get?_insert_self _ _ _
  have hsettled : ∀ s : Settlement, settled { service.repository with
      jobs := service.repository.jobs.insert d.jobId claimed } d s =
        settled service.repository d s := by
    intro s
    simp [settled, Dict.get?_insert_fun]
  rcases attempt_claimed (r := { service.repository with
      jobs := service.repository.jobs.insert d.jobId claimed }) handler hclaimed hstored with
    ⟨r', hattempt, hdead, hjobs, hdrain'⟩ | ⟨exc, stored, r', hattempt, hjobs, hdrain', hsettlement⟩
  · rw [hattempt]
    refine ⟨hjobs.trans (hsettled _), ?_, hdrain'⟩
    rw [hdead]
    rfl
  · have hget' : r'.jobs.get? claimed.id = some stored := by
      rw [hjobs, hclaimed, Function.update_self]
    rw [hattempt, hsettlement]
    dsimp only
    rw [handleFailure_stored exc hget']
    refine ⟨?_, rfl, hdrain'⟩
    simp [settled, Settlement.successor, Dict.get?_insert_fun, hjobs, hclaimed]

/-- With the producer reachable, `process_job` returns. -/
theorem processJob_returns
    (hkeyed : ∀ id job, service.repository.jobs.get? id = some job → job.id = id)
    (hsupported : ∀ id job, service.repository.jobs.get? id = some job → Supported job.handler)
    (havailable : service.producer.available = true) :
    ∃ returned, (service.processJob d).1 = .ok returned := by
  unfold processJob
  rcases service.repository.claimJob_cases d.jobId d.workerId d.claimedAt with
    hnone | ⟨job, hget, -, -, hclaim⟩
  · rw [hnone]
    exact ⟨none, rfl⟩
  · obtain ⟨handler, hhandler⟩ := hsupported _ job hget
    have hid : (job.claim d.workerId d.claimedAt).id = d.jobId := hkeyed _ job hget
    have hhandler' : getHandler (job.claim d.workerId d.claimedAt).handler = .ok handler := hhandler
    rw [hclaim]
    dsimp only
    rw [hhandler']
    dsimp only
    rcases attempt_claimed (r := { service.repository with
        jobs := service.repository.jobs.insert d.jobId (job.claim d.workerId d.claimedAt) }) handler
      hid (Dict.get?_insert_self ..) with ⟨r', hattempt, -⟩ | ⟨exc, stored, r', hattempt, hjobs, -⟩
    · rw [hattempt]
      exact ⟨_, rfl⟩
    · have hget' : r'.jobs.get? (job.claim d.workerId d.claimedAt).id = some stored := by
        rw [hjobs, hid, Function.update_self]
      rw [hattempt]
      unfold handleFailure FakeJobProducer.publishDeadLetter
      simp only [markFailedAttempt_of_stored _ _ _ hget', havailable, not_true_eq_false, if_false]
      split
      · exact ⟨_, rfl⟩
      · exact ⟨_, rfl⟩

/-! ## Every delivery is ignored, or settles its job -/

/-- `claim_job` returns `None`. -/
def Ignores (service : JobService) (d : Delivery) : Prop :=
  service.repository.drainEnabled = true ∨ service.repository.jobs.get? d.jobId = none ∨
    ∃ job, service.repository.jobs.get? d.jobId = some job ∧
      (¬ (job.status = .queued ∨ job.status = .failed) ∨ d.claimedAt < job.nextRunAt)

theorem claimJob_of_ignores (h : service.Ignores d) :
    service.repository.claimJob d.jobId d.workerId d.claimedAt = (none, service.repository) := by
  rcases h with hdrain | hnone | ⟨job, hget, hnot⟩
  · simp [claimJob, hdrain]
  · simp [claimJob, hnone]
  · have hclaim : ¬ job.status.isPending = true ∨ d.claimedAt < job.nextRunAt := by
      rcases hnot with hstatus | hearly
      · exact Or.inl fun hpending => hstatus (JobRecord.pending_cases hpending)
      · exact Or.inr hearly
    simp only [claimJob, hget, hclaim, if_true, ite_self]

theorem processJob_of_ignores (h : service.Ignores d) :
    service.processJob d = (.ok none, service) := by
  rw [processJob, claimJob_of_ignores h]

theorem claimable_of_not_ignores (h : ¬ service.Ignores d) :
    service.repository.drainEnabled = false ∧
      ∃ job, service.repository.jobs.get? d.jobId = some job ∧ job.status.isPending = true ∧
        job.nextRunAt ≤ d.claimedAt := by
  unfold Ignores at h
  push Not at h
  obtain ⟨hdrain, hsome, hall⟩ := h
  obtain ⟨job, hget⟩ := Option.ne_none_iff_exists'.mp hsome
  obtain ⟨hstatus, hdue⟩ := hall job hget
  refine ⟨by simpa using hdrain, job, hget, ?_, hdue⟩
  rcases hstatus with h | h <;> rw [h] <;> rfl

/-- Deliveries that are ignored, however many, change nothing. -/
theorem run_ignored {ds : List Delivery} (h : ∀ d ∈ ds, service.Ignores d) :
    Lockstep.run processJob service ds = (ds.map fun _ => .ok none, service) := by
  induction ds with
  | nil => rfl
  | cons d rest ih =>
    have hrest := ih fun d' hd' => h d' (List.mem_cons_of_mem _ hd')
    simp only [Lockstep.run, processJob_of_ignores (h d List.mem_cons_self), hrest, List.map_cons]

/-- What a delivery that is not ignored leaves. -/
structure Attempted (service : JobService) (d : Delivery) (service' : JobService)
    (job job' : JobRecord) : Prop where
  before : service.repository.jobs.get? d.jobId = some job
  after : service'.repository.jobs.get? d.jobId = some job'
  counted : job'.attemptCount = job.attemptCount + 1
  settled : job'.status ≠ .running ∧ job'.lockedBy = none ∧ job'.lockedAt = none
  others : ∀ id other, id ≠ d.jobId → service.repository.jobs.get? id = some other →
    service'.repository.jobs.get? id = some other
  /-- A job that is not done with waits at least until after the failure. -/
  waits : job'.status.isTerminal = true ∨ job'.status = .failed ∧ d.failedAt < job'.nextRunAt

/-- A delivery of a job that can be claimed settles it. -/
theorem attempted_of_claimable (hdrain : service.repository.drainEnabled = false)
    (hget : service.repository.jobs.get? d.jobId = some job) (hid : job.id = d.jobId)
    (hpending : job.status.isPending = true) (hdue : job.nextRunAt ≤ d.claimedAt)
    (hhandler : getHandler job.handler = .ok handler)
    (hfresh : service.repository.jobs.get? d.nextJobId = none) :
    Attempted service d (service.processJob d).2 job
      (d.settlement handler (job.claim d.workerId d.claimedAt)).record := by
  have hne : d.nextJobId ≠ d.jobId := Dict.ne_of_get?_eq_none hfresh hget
  obtain ⟨hjobs, -, -⟩ := processJob_claimed hget hid hdrain hpending hdue hhandler
  obtain ⟨-, hcount, hstatus, hby, hat⟩ :=
    d.settlement_settled handler (job.claim d.workerId d.claimedAt)
  have hwaits := d.settlement_status handler (job.claim d.workerId d.claimedAt)
  generalize d.settlement handler (job.claim d.workerId d.claimedAt) = s at *
  refine ⟨hget, ?_, hcount, ⟨hstatus, hby, hat⟩, fun id other hother hstored => ?_, hwaits⟩
  · rw [hjobs, settled_apply s hne hfresh, if_pos rfl]
  · have hid : id ≠ d.nextJobId := (Dict.ne_of_get?_eq_none hfresh hstored).symm
    rw [hjobs, settled_apply s hne hfresh, if_neg hother, if_neg hid, hstored]

/-- After an attempt, deliveries of the job before its next run are ignored. -/
theorem Attempted.ignores {service' : JobService} {job' : JobRecord}
    (h : Attempted service d service' job job') {d' : Delivery} (hjob : d'.jobId = d.jobId)
    (hearly : job'.status.isTerminal = true ∨ d'.claimedAt < job'.nextRunAt) :
    service'.Ignores d' := by
  refine Or.inr (Or.inr ⟨job', hjob ▸ h.after, ?_⟩)
  rcases hearly with hterminal | hearly
  · apply Or.inl
    intro hstatus
    rcases hstatus with hstatus | hstatus <;> rw [hstatus] at hterminal <;> cases hterminal
  · exact Or.inr hearly

end JobService

namespace State

open Transition

variable {settings : Settings} {ok : State → Label → Prop} {s : State}

/-- The repository and the producer of a state. -/
def toService (s : State) : JobService := ⟨s.repository, s.producer⟩

/-- **Each delivery is a no-op or exactly one settled attempt.** -/
theorem delivery_settles (h : (service settings).Reachable ok s) (d : Delivery)
    (hfresh : s.repository.jobs.get? d.nextJobId = none) :
    (s.toService.processJob d = (.ok none, s.toService) ↔ s.toService.Ignores d) ∧
    (¬ s.toService.Ignores d → ∃ job job',
      JobService.Attempted s.toService d (s.toService.processJob d).2 job job' ∧
      ∀ ds : List Delivery, (∀ d' ∈ ds, d'.jobId = d.jobId ∧
          (job'.status.isTerminal = true ∨ d'.claimedAt < job'.nextRunAt)) →
        Lockstep.run JobService.processJob (s.toService.processJob d).2 ds =
          (ds.map fun _ => .ok none, (s.toService.processJob d).2)) := by
  have hinv := inv_of_reachable h
  have hattempted : ¬ s.toService.Ignores d → ∃ job job',
      JobService.Attempted s.toService d (s.toService.processJob d).2 job job' := by
    intro hclaimed
    obtain ⟨hdrain, job, hget, hpending, hdue⟩ := JobService.claimable_of_not_ignores hclaimed
    obtain ⟨handler, hhandler⟩ := hinv.getHandler hget
    exact ⟨job, _, JobService.attempted_of_claimable hdrain hget
      (hinv.consistent.keyed _ job hget) hpending hdue hhandler hfresh⟩
  constructor
  · constructor
    · intro hnoop
      by_contra hclaimed
      obtain ⟨job, job', hattempt⟩ := hattempted hclaimed
      -- The attempt counter tells the two apart.
      have hafter := hattempt.after
      rw [hnoop, hattempt.before, Option.some.injEq] at hafter
      have hcounted := hattempt.counted
      rw [← hafter] at hcounted
      omega
    · exact JobService.processJob_of_ignores
  · intro hclaimed
    obtain ⟨job, job', hattempt⟩ := hattempted hclaimed
    exact ⟨job, job', hattempt, fun ds hds => JobService.run_ignored fun d' hd' =>
      hattempt.ignores (hds d' hd').1 (hds d' hd').2⟩

/-- A submitted job is delivered. -/
theorem delivery_settles_of_submitted : ∃ (s : State) (d : Delivery) (job : JobRecord),
    (service {}).Reachable Transition.Any s ∧
      s.toService.processJob d ≠ (.ok none, s.toService) ∧
      (s.toService.processJob d).2.repository.jobs.get? d.jobId = some job ∧
      job.attemptCount = 1 := by
  have hrun : ∃ s r, System.replay (step {}) initial
      [⟨0, .submit 0 Sample.request Sample.jobId⟩] = some s ∧
      s.repository.jobs.get? Sample.jobId = some r ∧ r.attemptCount = 0 ∧
      (s.repository.claimJob Sample.jobId "worker-local" 0).1.isSome = true ∧
      s.repository.jobs.get? Sample.nextJobId = none := ⟨_, _, rfl, rfl, rfl, rfl, rfl⟩
  obtain ⟨s, r, hs, stored, hcount, hclaim, hfresh⟩ := hrun
  have hreach : (service {}).Reachable Transition.Any s :=
    ⟨initial, rfl, System.Steps.of_replay hs fun _ _ _ => trivial⟩
  have hclaimed : ¬ s.toService.Ignores Sample.delivery := by
    intro hignores
    have hnone : s.repository.claimJob Sample.jobId "worker-local" 0 = (none, s.repository) :=
      JobService.claimJob_of_ignores hignores
    rw [hnone] at hclaim
    cases hclaim
  have hsettles := delivery_settles hreach Sample.delivery hfresh
  obtain ⟨job, job', hattempt, -⟩ := hsettles.2 hclaimed
  refine ⟨s, Sample.delivery, job', hreach, mt hsettles.1.mp hclaimed, hattempt.after, ?_⟩
  have hbefore : job = r := Option.some.inj (hattempt.before.symm.trans stored)
  rw [hattempt.counted, hbefore, hcount]

end State

end JobPipeline
