import JobPipeline.Service.Delivery

/-!
# A call that nobody interrupts

`process_job` stands twice in the model: as steps that others may come between, and in one go.
`processJob_comes` says that the steps, taken one after the other, do what the one go does.
-/

set_option autoImplicit false

namespace JobPipeline

/-- Where a call of `process_job` stands when it is over. -/
def Call.ended : Except Exc (Option JobRecord) → Call
  | .ok job => .returned job
  | .error e => .raised e

namespace State

open Transition JobService

variable {settings : Settings} {s s' : State} {c : CallId} {d : Delivery} {job : JobRecord}
  {result : Except Exc (Option JobRecord) × JobService}

/-- Every step is one of this call's. -/
def Alone (c : CallId) (_ : State) (label : Label) : Prop := label.action.call = some c

/-- The call `c` goes on alone to its end, with this result and this service. -/
def Comes (settings : Settings) (s : State) (c : CallId)
    (result : Except Exc (Option JobRecord) × JobService) : Prop :=
  ∃ s', (service settings).Steps (Alone c) s s' ∧ s'.calls c = .ended result.1 ∧
    s'.toService = result.2

theorem Comes.done (hcall : s.calls c = .ended result.1) (hservice : s.toService = result.2) :
    Comes settings s c result := ⟨s, .refl s, hcall, hservice⟩

theorem Comes.step {now : Int} {action : Action} (time : s.clock ≤ now)
    (hact : act settings { s with clock := now } now action = some s')
    (hc : action.call = some c) (h : Comes settings s' c result) : Comes settings s c result := by
  obtain ⟨s'', hsteps, hcall, hservice⟩ := h
  have hfirst : (service settings).Steps (Alone c) s s' :=
    .single (a := ⟨now, action⟩) hc (step_eq_some_iff.mpr ⟨time, hact⟩)
  exact ⟨s'', hfirst.trans hsteps, hcall, hservice⟩

/-- `publish_dead_letter`, and the end. -/
theorem deadLettering_comes {updated : JobRecord} (hcall : s.calls c = .deadLettering updated) :
    Comes settings s c (match s.producer.publishDeadLetter updated.deadLetterMessage with
      | .error e => (.error e, s.toService)
      | .ok producer => (.ok (some updated), ⟨s.repository, producer⟩)) := by
  cases hpublish : s.producer.publishDeadLetter updated.deadLetterMessage with
  | error e =>
    have hs : act settings s s.clock (.publishDeadLetter c) = some (s.setCall c (.raised e)) := by
      simp only [act, hcall, hpublish]
    exact .step (le_refl _) hs rfl (.done (setCall_self ..) rfl)
  | ok producer =>
    have hs : act settings s s.clock (.publishDeadLetter c) =
        some ({ s with producer := producer }.setCall c (.returned (some updated))) := by
      simp only [act, hcall, hpublish]
    exact .step (le_refl _) hs rfl (.done (setCall_self ..) rfl)

/-- The `except` block. -/
theorem handleFailure_comes {exc : Exc} {succeeded : Option JobRecord}
    (hcall : s.calls c = .excepted job exc succeeded) (time : s.clock ≤ d.failedAt) :
    Comes settings s c (handleFailure s.toService d s.repository job exc) := by
  unfold handleFailure
  cases hfail : s.repository.markFailedAttempt job.id (errorText exc)
      (backoffSeconds job.attemptCount) d.failedAt with
  | error e =>
    have hs : act settings { s with clock := d.failedAt } d.failedAt (.markFailed c) =
        some ({ s with clock := d.failedAt }.setCall c (.raised e)) := by
      simp only [act, hcall, hfail]
    exact .step time hs rfl (.done (setCall_self ..) rfl)
  | ok failed =>
    obtain ⟨updated, r⟩ := failed
    have hs : act settings { s with clock := d.failedAt } d.failedAt (.markFailed c) =
        some ((({ s with clock := d.failedAt } : State).record r (.failed updated)).setCall c
          (if updated.status = .deadLettered then .deadLettering updated
            else .returned (some updated))) := by
      simp only [act, hcall, hfail]
    refine .step time hs rfl ?_
    dsimp only
    split
    · exact deadLettering_comes (setCall_self ..)
    · exact .done (setCall_self ..) rfl

/-- `create_next_recurring_job`, and what comes of it. -/
theorem marked_comes {succeeded : JobRecord} {service : JobService}
    (hcall : s.calls c = .marked job succeeded) (hservice : s.toService = service)
    (time : s.clock ≤ d.scheduledAt) (hfail : d.scheduledAt ≤ d.failedAt)
    (hfresh : s.repository.jobs.contains d.nextJobId = false) :
    Comes settings s c
      (match service.repository.createNextRecurringJob succeeded d.scheduledAt d.nextJobId with
        | .error e => handleFailure service d service.repository job e
        | .ok (_, r) => (.ok (some succeeded), { service with repository := r })) := by
  subst hservice
  show Comes settings s c (match s.repository.createNextRecurringJob succeeded _ _ with
    | .error e => handleFailure s.toService d s.repository job e
    | .ok (_, r) => (.ok (some succeeded), { s.toService with repository := r }))
  rcases s.repository.createNextRecurringJob_cases succeeded d.scheduledAt d.nextJobId with
    ⟨-, hnext⟩ | ⟨cron, -, -, ⟨e, -, hnext⟩ | ⟨nextRunAt, -, hnext⟩⟩ <;> rw [hnext]
  · have hs : act settings { s with clock := d.scheduledAt } d.scheduledAt
        (.createNext c d.nextJobId) =
          some ({ s with clock := d.scheduledAt }.setCall c (.returned (some succeeded))) := by
      simp [act, hcall, hfresh, hnext]
    exact .step time hs rfl (.done (setCall_self ..) rfl)
  · have hs : act settings { s with clock := d.scheduledAt } d.scheduledAt
        (.createNext c d.nextJobId) =
          some ({ s with clock := d.scheduledAt }.setCall c (.excepted job e (some succeeded))) := by
      simp [act, hcall, hfresh, hnext]
    exact .step time hs rfl (handleFailure_comes (setCall_self ..) hfail)
  · have hs : act settings { s with clock := d.scheduledAt } d.scheduledAt
        (.createNext c d.nextJobId) = some ((({ s with clock := d.scheduledAt } : State).record
          (s.repository.store (succeeded.successor d.nextJobId nextRunAt d.scheduledAt))
          (.scheduled succeeded (succeeded.successor d.nextJobId nextRunAt d.scheduledAt))).setCall c
            (.returned (some succeeded))) := by
      simp [act, hcall, hfresh, hnext]
    exact .step time hs rfl (.done (setCall_self ..) rfl)

/-- The `try` block, and what comes of it. -/
theorem attempt_comes {handler : JobHandler} (hcall : s.calls c = .running job)
    (hsucceed : s.clock ≤ d.succeededAt) (hschedule : d.succeededAt ≤ d.scheduledAt)
    (hfail : d.scheduledAt ≤ d.failedAt) (hstored : s.repository.jobs.get? job.id = some job)
    (hfresh : s.repository.jobs.get? d.nextJobId = none) :
    Comes settings s c (match attempt d s.repository job handler with
      | (.ok succeeded, r) => (.ok (some succeeded), { s.toService with repository := r })
      | (.error exc, r) => handleFailure s.toService d r job exc) := by
  unfold attempt
  cases d.runWithTimeout handler job.payload job.timeoutSeconds with
  | raised exc =>
    have hs : act settings s s.clock (.finish c (.raised exc)) =
        some (s.setCall c (.excepted job exc none)) := by
      simp only [act, hcall]
    exact .step (le_refl _) hs rfl (handleFailure_comes (setCall_self ..)
      (hsucceed.trans (hschedule.trans hfail)))
  | value result =>
    have hs : act settings s s.clock (.finish c (.value result)) =
        some (s.setCall c (.handled job result)) := by
      simp only [act, hcall]
    refine .step (le_refl _) hs rfl ?_
    have hmark := InMemoryJobRepository.markSucceeded_of_stored result d.succeededAt hstored
    dsimp only
    rw [hmark]
    generalize job.succeed result d.succeededAt = succeeded at hmark ⊢
    obtain ⟨s₁, hs, hcall₁, hclock, hservice⟩ : ∃ s₁, act settings
        { s.setCall c (.handled job result) with clock := d.succeededAt } d.succeededAt
          (.markSucceeded c) = some s₁ ∧ s₁.calls c = .marked job succeeded ∧
        s₁.clock = d.succeededAt ∧ s₁.toService = ⟨{ s.repository with
          jobs := s.repository.jobs.insert job.id succeeded }, s.producer⟩ := by
      refine ⟨(({ s.setCall c (.handled job result) with clock := d.succeededAt } : State).record _
        (.succeeded succeeded)).setCall c (.marked job succeeded), ?_, setCall_self .., rfl, rfl⟩
      simp only [act, setCall_self, setCall_repository, hmark]
    have hfresh₁ : s₁.repository.jobs.contains d.nextJobId = false := by
      have hjobs : s₁.repository.jobs = s.repository.jobs.insert job.id succeeded :=
        congrArg (fun service => service.repository.jobs) hservice
      have hne : d.nextJobId ≠ job.id := Dict.ne_of_get?_eq_none hfresh hstored
      rw [Dict.contains_eq_false_iff, hjobs, Dict.get?_insert_of_ne _ _ hne, hfresh]
    have hnext : Comes settings s₁ c _ :=
      marked_comes hcall₁ hservice (hclock ▸ hschedule) hfail hfresh₁
    refine .step hsucceed hs rfl ?_
    dsimp only at hnext ⊢
    cases hcase : InMemoryJobRepository.createNextRecurringJob { s.repository with
        jobs := s.repository.jobs.insert job.id succeeded } succeeded d.scheduledAt d.nextJobId with
    | error e =>
      rw [hcase] at hnext
      exact hnext
    | ok next =>
      rw [hcase] at hnext
      exact hnext

/-- **`process_job` in steps is `process_job` in one go**, when no other call comes between. -/
theorem processJob_comes (hinv : s.Inv) (hcall : s.calls c = .idle) (hclaim : s.clock ≤ d.claimedAt)
    (hsucceed : d.claimedAt ≤ d.succeededAt) (hschedule : d.succeededAt ≤ d.scheduledAt)
    (hfail : d.scheduledAt ≤ d.failedAt) (hfresh : s.repository.jobs.get? d.nextJobId = none) :
    Comes settings s c (s.toService.processJob d) := by
  have hs : act settings { s with clock := d.claimedAt } d.claimedAt
      (.claim c d.jobId d.workerId) = some (({ s with clock := d.claimedAt } : State).claimJob c
        d.jobId d.workerId d.claimedAt) := by
    simp only [act, hcall]
  refine .step hclaim hs rfl ?_
  unfold processJob State.claimJob
  rcases s.repository.claimJob_cases d.jobId d.workerId d.claimedAt with
    hnone | ⟨job, hget, hpending, hdue, hclaimed⟩
  · simp only [toService, hnone]
    exact .done (setCall_self ..) rfl
  · obtain ⟨handler, hhandler⟩ := hinv.getHandler hget
    have hhandler' : getHandler (job.claim d.workerId d.claimedAt).handler = .ok handler := hhandler
    simp only [toService, hclaimed, hhandler']
    have hid : job.id = d.jobId := hinv.consistent.keyed _ job hget
    refine attempt_comes (setCall_self ..) hsucceed hschedule hfail ?_ ?_
    · exact hid ▸ Dict.get?_insert_self ..
    · have hne : d.nextJobId ≠ d.jobId := Dict.ne_of_get?_eq_none hfresh hget
      exact (Dict.get?_insert_of_ne _ _ hne).trans hfresh

end State

end JobPipeline
