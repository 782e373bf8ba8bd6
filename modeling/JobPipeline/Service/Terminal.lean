import JobPipeline.Service.Moves
import JobPipeline.Service.Lifecycle

/-!
# Terminal states

`SUCCEEDED`, `DEAD_LETTERED` and `CANCELLED` are meant to be final. On the ledger they are,
under every move but `revert`. In the service a revert needs `create_next_recurring_job` to
raise after `mark_succeeded` has committed: both stand in the `try` of `process_job` whose
`except` records a failed attempt. That happens exactly for an accepted expression without a
run in the next 366 days, such as `0 0 30 2 *`; `Schedulable` is the guard of the runs without
such a step.
-/

set_option autoImplicit false

namespace JobPipeline

namespace State

open Transition (System)

variable {settings : Settings} {ok : State → Label → Prop} {s s' : State} {c : CallId}

/-- The step creates the successor of a recurring job only at a time from which the expression
    still has a run. -/
def Schedulable (s : State) (label : Label) : Prop :=
  ∀ c nextJobId job succeeded cron, label.action = .createNext c nextJobId →
    s.calls c = .marked job succeeded → succeeded.recurringCron = some cron →
      CronHasRun cron label.now

/-- A returned handler is followed by nothing but its `mark_succeeded`. -/
theorem act_of_handled {now : Int} {action : Action} {job : JobRecord} {result : JsonObject}
    (hinv : s.Inv) (hcall : s.calls c = .handled job result)
    (h : act settings s now action = some s') :
    s'.calls c = .handled job result ∨
      s'.repository.jobs.get? job.id = some (job.succeed result now) := by
  by_cases hc : action.call = some c
  · apply Or.inr
    have hstored := hinv.stored (show (s.calls c).held = some job by rw [hcall]; rfl)
    cases action with
    | markSucceeded c' =>
      cases hc
      simp only [act, hcall, InMemoryJobRepository.markSucceeded_of_stored _ _ hstored] at h
      cases h
      exact Dict.get?_insert_self _ _ _
    | submit | publish | claim | finish | createNext | markFailed | publishDeadLetter =>
      cases hc
      simp [act, hcall] at h
    | cancel | setDrain | setAvailable => cases hc
  · exact Or.inl ((act_calls h hc).trans hcall)

/-- A call turns to reverting only when it cannot schedule the successor. -/
theorem act_reverting {now : Int} {action : Action} (h : act settings s now action = some s')
    (hrev : (s'.calls c).Reverting) : (s.calls c).Reverting ∨
      ∃ nextJobId job succeeded e, action = .createNext c nextJobId ∧
        s.calls c = .marked job succeeded ∧
        s.repository.createNextRecurringJob succeeded now nextJobId = .error e := by
  by_cases hc : action.call = some c
  · cases action with
    | createNext c' nextJobId =>
      cases hc
      simp only [act] at h
      split at h
      · rename_i job succeeded hcall
        split at h
        · cases h
        · split at h <;> cases h
          · exact Or.inr ⟨nextJobId, job, succeeded, _, rfl, hcall, by assumption⟩
          · simp [Call.Reverting] at hrev
          · simp [Call.Reverting] at hrev
      · cases h
    | submit c' request jobId =>
      cases hc
      simp only [act, submitJob] at h
      repeat' split at h
      all_goals cases h
      all_goals simp [Call.Reverting] at hrev
    | claim c' jobId workerId =>
      cases hc
      simp only [act, claimJob] at h
      repeat' split at h
      all_goals cases h
      all_goals simp [Call.Reverting] at hrev
    | publish | finish | markSucceeded | markFailed | publishDeadLetter =>
      cases hc
      simp only [act] at h
      repeat' split at h
      all_goals cases h
      all_goals simp [Call.Reverting] at hrev
    | cancel | setDrain | setAvailable => cases hc
  · exact Or.inl (act_calls h hc ▸ hrev)

/-- What a call marked succeeded is stored, and its cron expression is an accepted one. -/
theorem Inv.marked (hinv : s.Inv) {job succeeded : JobRecord}
    (hcall : s.calls c = .marked job succeeded) :
    s.repository.jobs.get? succeeded.id = some succeeded ∧ succeeded.status = .succeeded ∧
      ∀ cron ∈ succeeded.recurringCron, validateCronExpression cron = .ok cron := by
  have hok : (Call.marked job succeeded).Ok := hcall ▸ hinv.calls c
  have hstored := hinv.stored (show (s.calls c).held = some succeeded by rw [hcall]; rfl)
  exact ⟨hstored, hok.2.2, (hinv.consistent.wellFormed _ _ hstored).cron⟩

/-- In a schedulable step no successor is refused. -/
theorem Inv.schedulable (hinv : s.Inv) {label : Label} (hok : s.Schedulable label)
    {nextJobId : UUID} {job succeeded : JobRecord} {e : Exc}
    (haction : label.action = .createNext c nextJobId) (hcall : s.calls c = .marked job succeeded) :
    s.repository.createNextRecurringJob succeeded label.now nextJobId ≠ .error e := by
  intro herror
  rcases s.repository.createNextRecurringJob_cases succeeded label.now nextJobId with
    ⟨-, h⟩ | ⟨cron, hcron, -, ⟨e', hrun, -⟩ | ⟨nextRunAt, -, h⟩⟩
  · rw [h] at herror; cases herror
  · obtain ⟨-, -, hvalid⟩ := hinv.marked hcall
    obtain ⟨r, hr⟩ := nextCronRun_ok_of_hasRun (hvalid cron hcron)
      (hok c nextJobId job succeeded cron haction hcall hcron)
    rw [hr] at hrun; cases hrun
  · rw [h] at herror; cases herror

/-- **No call reverts in a schedulable run.** -/
theorem not_reverting (h : (service settings).Reachable Schedulable s) :
    ∀ c, ¬ (s.calls c).Reverting := by
  refine h.invariant_of_reachable (I := fun s => ∀ c, ¬ (s.calls c).Reverting) ?_ ?_
  · intro _ h c hrev
    subst h
    exact hrev
  · intro s label s' hreach hnone hok hs c hrev
    rcases act_reverting (step_eq_some_iff.mp hs).2 hrev with hrev |
      ⟨nextJobId, job, succeeded, e, haction, hcall, he⟩
    · exact hnone c hrev
    · exact (inv_of_reachable hreach).schedulable hok haction hcall he

/-- **A schedulable step is a move that keeps terminal records.** -/
theorem step_terminal (hreach : (service settings).Reachable Schedulable s) {label : Label}
    (hs : step settings s label = some s') {id : UUID} {r : JobRecord}
    (stored : s.repository.jobs.get? id = some r) (terminal : r.status.isTerminal = true) :
    s'.repository.jobs.get? id = some r := by
  have hinv := inv_of_reachable hreach
  obtain ⟨⟨m, hmove, -, hrevert⟩, -⟩ := (step_refines hinv hs).1
  have hm : m ≠ .revert := fun hm =>
    let ⟨c, _, hrev⟩ := hrevert hm
    not_reverting hreach c hrev
  exact hmove.terminal hinv.consistent hm stored terminal

/-- **Terminal records stay** for the rest of a schedulable run. -/
theorem steps_terminal (hreach : (service settings).Reachable Schedulable s)
    (hrun : (service settings).Steps Schedulable s s') {id : UUID} {r : JobRecord}
    (stored : s.repository.jobs.get? id = some r) (terminal : r.status.isTerminal = true) :
    s'.repository.jobs.get? id = some r := by
  induction hrun with
  | refl => exact stored
  | tail hpre hs ih =>
    obtain ⟨label, -, hs⟩ := hs
    exact step_terminal (hreach.steps hpre) hs ih terminal

/-- **A job whose handler returned ends in `SUCCEEDED`** if it ends at all. -/
theorem steps_handled (hreach : (service settings).Reachable Schedulable s)
    (hrun : (service settings).Steps Schedulable s s') {job : JobRecord} {result : JsonObject}
    (hcall : s.calls c = .handled job result) :
    ∃ r, s'.repository.jobs.get? job.id = some r ∧
      (r.status = .running ∨ r.status = .succeeded) := by
  -- Along the run the call is still at `handled`, or the job is stored as succeeded.
  have key : s'.calls c = .handled job result ∨
      ∃ r, s'.repository.jobs.get? job.id = some r ∧ r.status = .succeeded := by
    induction hrun with
    | refl => exact Or.inl hcall
    | tail hpre hs ih =>
      obtain ⟨label, -, hs⟩ := hs
      have hreach' := hreach.steps hpre
      rcases ih with hcall | ⟨r, stored, hstatus⟩
      · obtain ⟨-, hact⟩ := step_eq_some_iff.mp hs
        have hinv := (inv_of_reachable hreach').setClock label.now
        rcases act_of_handled hinv hcall hact with h | h
        · exact Or.inl h
        · exact Or.inr ⟨_, h, rfl⟩
      · exact Or.inr ⟨r, step_terminal hreach' hs stored (by rw [hstatus]; rfl), hstatus⟩
  rcases key with hcall' | ⟨r, stored, hstatus⟩
  · have hinv := inv_of_reachable (hreach.steps hrun)
    obtain ⟨r, stored, hstatus⟩ := hinv.running_of_attempting
      (c := c) ⟨job, by rw [hcall']; rfl, rfl⟩
    exact ⟨r, stored, Or.inl hstatus⟩
  · exact ⟨r, stored, Or.inr hstatus⟩

/-- **Terminal states are absorbing in schedulable runs**: a terminal record never changes and
    no call is ever running its handler, and a job whose handler returned is never `FAILED` or
    `DEAD_LETTERED` afterwards. -/
theorem terminal_absorbing (hreach : (service settings).Reachable Schedulable s)
    (hrun : (service settings).Steps Schedulable s s') :
    (∀ id r, s.repository.jobs.get? id = some r → r.status.isTerminal = true →
      s'.repository.jobs.get? id = some r ∧
        ∀ c job, s'.calls c = .running job → job.id ≠ id) ∧
    ∀ c job result, s.calls c = .handled job result →
      ∃ r, s'.repository.jobs.get? job.id = some r ∧
        (r.status = .running ∨ r.status = .succeeded) := by
  refine ⟨fun id r stored terminal => ?_, fun c job result => steps_handled hreach hrun⟩
  have stored' := steps_terminal hreach hrun stored terminal
  refine ⟨stored', fun c job hcall hid => ?_⟩
  have hattempt : s'.Attempting c id := ⟨job, by rw [hcall]; rfl, hid⟩
  obtain ⟨r', hr', hstatus⟩ := (inv_of_reachable (hreach.steps hrun)).running_of_attempting hattempt
  rw [stored', Option.some.injEq] at hr'
  subst hr'
  rw [hstatus] at terminal
  cases terminal

theorem cronHasRun_everyMinute : CronHasRun "* * * * *" 0 := by
  have hvalid : validateCronExpression "* * * * *" = .ok "* * * * *" := rfl
  have hrun : nextCronRun "* * * * *" 0 = .ok (minutes 1) := rfl
  exact cronHasRun_of_ok hvalid hrun

/-- A recurring job that succeeded stays as it is when its successor is created and its message is
    delivered again. -/
theorem terminal_absorbing_of_success : ∃ s s' r next, (service {}).Reachable Schedulable s ∧
    (service {}).Steps Schedulable s s' ∧ s.repository.jobs.get? Sample.jobId = some r ∧
      r.status = .succeeded ∧ s'.repository.jobs.get? Sample.nextJobId = some next ∧
      s'.repository.jobs.get? Sample.jobId = some r := by
  have hrun : ∃ s s₁ s' r next job, System.replay (step {}) initial
      [⟨0, .submit 0 (Sample.request.recurring "* * * * *" ⟨by decide, by decide, rfl⟩) Sample.jobId⟩,
        ⟨0, .claim 1 Sample.jobId "worker-local"⟩, ⟨0, .finish 1 (.value [])⟩,
        ⟨0, .markSucceeded 1⟩] = some s ∧
      step {} s ⟨0, .createNext 1 Sample.nextJobId⟩ = some s₁ ∧
      System.replay (step {}) s₁ [⟨1, .claim 2 Sample.jobId "worker-local"⟩] = some s' ∧
      s.repository.jobs.get? Sample.jobId = some r ∧ r.status = .succeeded ∧
      s.calls 1 = .marked job r ∧ r.recurringCron = some "* * * * *" ∧
      s'.repository.jobs.get? Sample.nextJobId = some next :=
    ⟨_, _, _, _, _, _, rfl, rfl, rfl, rfl, rfl, rfl, rfl, rfl⟩
  obtain ⟨s, s₁, s', r, next, job, hs, hs₁, hs', stored, hstatus, hmarked, hcron, hnext⟩ := hrun
  have hreach : (service {}).Reachable Schedulable s := by
    refine ⟨initial, rfl, System.Steps.of_replay hs fun label hlabel s => ?_⟩
    intro c nextJobId job succeeded cron haction
    simp only [List.mem_cons, List.not_mem_nil, or_false] at hlabel
    rcases hlabel with rfl | rfl | rfl | rfl <;> cases haction
  have hschedulable : Schedulable s ⟨0, .createNext 1 Sample.nextJobId⟩ := by
    intro c nextJobId job' succeeded cron haction hcall hrecurs
    cases haction
    rw [hmarked] at hcall
    cases hcall
    rw [hcron] at hrecurs
    cases hrecurs
    exact cronHasRun_everyMinute
  have hsteps : (service {}).Steps Schedulable s s' := by
    refine (System.Steps.single hschedulable hs₁).trans
      (System.Steps.of_replay hs' fun label hlabel s => ?_)
    intro c nextJobId job succeeded cron haction
    rw [List.mem_singleton] at hlabel
    subst hlabel
    cases haction
  exact ⟨s, s', r, next, hreach, hsteps, stored, hstatus, hnext,
    ((terminal_absorbing hreach hsteps).1 _ r stored (by rw [hstatus]; rfl)).1⟩

/-! ### What happens otherwise -/

theorem act_createNext_of_error (settings : Settings) {now : Int} {job succeeded : JobRecord}
    {nextJobId : UUID} {e : Exc}
    (hcall : s.calls c = .marked job succeeded)
    (fresh : s.repository.jobs.contains nextJobId = false)
    (herror : s.repository.createNextRecurringJob succeeded now nextJobId = .error e) :
    act settings s now (.createNext c nextJobId) =
      some (s.setCall c (.excepted job e (some succeeded))) := by
  simp [act, hcall, fresh, herror]

theorem act_markFailed_of_stored (settings : Settings) (now : Int) {job r : JobRecord} {exc : Exc}
    {succeeded : Option JobRecord} (hcall : s.calls c = .excepted job exc succeeded)
    (stored : s.repository.jobs.get? job.id = some r) :
    ∃ s', act settings s now (.markFailed c) = some s' ∧ s'.repository.jobs.get? job.id =
      some (r.fail (errorText exc) (backoffSeconds job.attemptCount) now) := by
  have hfail := InMemoryJobRepository.markFailedAttempt_of_stored (errorText exc)
    (backoffSeconds job.attemptCount) now stored
  simp only [act, hcall, hfail]
  exact ⟨_, rfl, Dict.get?_insert_self _ _ _⟩

/-- **A call whose job cannot recur again takes it out of `SUCCEEDED`** in its next two steps. -/
theorem reverts_of_no_run (settings : Settings) (hinv : s.Inv) {job succeeded : JobRecord}
    {cron : String}
    (hcall : s.calls c = .marked job succeeded) (hcron : succeeded.recurringCron = some cron)
    {now : Int} (hnone : ¬ CronHasRun cron now) (time : s.clock ≤ now) {nextJobId : UUID}
    (fresh : s.repository.jobs.contains nextJobId = false) :
    ∃ s₁ s₂ error, step settings s ⟨now, .createNext c nextJobId⟩ = some s₁ ∧
      step settings s₁ ⟨now, .markFailed c⟩ = some s₂ ∧ s₂.repository.jobs.get? succeeded.id =
        some (succeeded.fail error (backoffSeconds job.attemptCount) now) := by
  obtain ⟨stored, -, hvalid⟩ := hinv.marked hcall
  have hok : (Call.marked job succeeded).Ok := hcall ▸ hinv.calls c
  obtain ⟨e, hrun⟩ : ∃ e, nextCronRun cron now = .error e :=
    ⟨_, nextCronRun_error_of_not_hasRun (hvalid cron hcron) hnone⟩
  have hne : cron ≠ "" := (hinv.consistent.wellFormed _ _ stored).cron_ne_empty hcron
  have herror : s.repository.createNextRecurringJob succeeded now nextJobId = .error e := by
    simp only [InMemoryJobRepository.createNextRecurringJob, hcron, if_neg hne, hrun]
  have h₁ := act_createNext_of_error settings (s := { s with clock := now }) hcall
    fresh herror
  obtain ⟨s₂, h₂, hfailed⟩ := act_markFailed_of_stored settings now (c := c)
    (s := { s with clock := now }.setCall c (.excepted job e (some succeeded)))
    (setCall_self _ _ _) (r := succeeded) (by rw [← hok.1]; exact stored)
  exact ⟨_, s₂, errorText e, step_eq_some_iff.mpr ⟨time, h₁⟩,
    step_eq_some_iff.mpr ⟨le_refl now, h₂⟩, by rw [hok.1]; exact hfailed⟩

/-- An expression `JobCreate` accepts that has no run in any year. -/
theorem not_cronHasRun_thirtieth_of_february (after : Int) :
    ¬ CronHasRun "0 0 30 2 *" after :=
  not_cronHasRun_of_february (c := ⟨[0], [0], [30], [2], List.range' 0 7⟩)
    ⟨"0", "0", "30", "2", "*", rfl, rfl, rfl, rfl, rfl, rfl⟩ (by simp) (by simp) after

/-- **A job leaves `SUCCEEDED`**: its handler succeeded, and it is `FAILED` two steps later. -/
theorem terminal_not_absorbing : ∃ s s' r r', (service {}).Reachable Transition.Any s ∧
    (service {}).Steps Transition.Any s s' ∧
      s.repository.jobs.get? Sample.jobId = some r ∧ r.status = .succeeded ∧
      s'.repository.jobs.get? Sample.jobId = some r' ∧ r'.status = .failed := by
  have hrun : ∃ s r job, System.replay (step {}) initial
      [⟨0, .submit 0 (Sample.request.recurring "0 0 30 2 *" ⟨by decide, by decide, rfl⟩)
          Sample.jobId⟩, ⟨0, .claim 1 Sample.jobId "worker-local"⟩,
        ⟨0, .finish 1 (.value [])⟩, ⟨0, .markSucceeded 1⟩] = some s ∧
      s.repository.jobs.get? Sample.jobId = some r ∧ r.status = .succeeded ∧
      s.calls 1 = .marked job r ∧ r.id = Sample.jobId ∧ r.recurringCron = some "0 0 30 2 *" ∧
      s.clock = 0 ∧ s.repository.jobs.contains Sample.nextJobId = false ∧ r.exhausted = false :=
    ⟨_, _, _, rfl, rfl, rfl, rfl, rfl, rfl, rfl, rfl, rfl⟩
  obtain ⟨s, r, job, hs, stored, hstatus, hcall, hid, hcron, hclock, hfresh, hexhausted⟩ := hrun
  have hreach : (service {}).Reachable Transition.Any s :=
    ⟨initial, rfl, System.Steps.of_replay hs fun _ _ _ => trivial⟩
  obtain ⟨s₁, s₂, error, h₁, h₂, hfailed⟩ := reverts_of_no_run {}
    (inv_of_reachable hreach) hcall hcron (not_cronHasRun_thirtieth_of_february 0)
    (le_of_eq hclock) hfresh
  refine ⟨s, s₂, r, _, hreach, (System.Steps.single trivial h₁).tail trivial h₂, stored, hstatus,
    hid ▸ hfailed, ?_⟩
  rw [JobRecord.fail_status, hexhausted]
  rfl

end State

end JobPipeline
