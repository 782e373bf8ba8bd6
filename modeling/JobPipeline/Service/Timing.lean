import JobPipeline.Jobs.CronRuns
import JobPipeline.Service.Chains

/-!
# No job runs early

`claim_job` compares the clock with `next_run_at`, so a job is as late as `next_run_at` says it
must be. `Paced` is what `next_run_at` says at any time: it is not before `run_at` nor before the
creation of the job, and while the last attempt recorded is a failure it is not before the end
of the backoff of that failure. A claim starts the next attempt, so every failure in the history
is of an earlier attempt than the one that runs.
-/

set_option autoImplicit false

namespace JobPipeline

/-- The claim that left `job`, after the events `before`, was not early. Its time is the
    `updated_at` of the record, as the time of a failure is that of the failed one. -/
structure OnTime (before : List Event) (job : JobRecord) : Prop where
  runAt : ∀ t ∈ job.runAt, t ≤ job.updatedAt
  createdAt : job.createdAt ≤ job.updatedAt
  /-- The claim that starts attempt `k + 1` follows the failure of attempt `k`. -/
  failed : ∀ k, 1 ≤ k → job.attemptCount = k + 1 →
    ∃ f, .failed f ∈ before ∧ f.id = job.id ∧ f.attemptCount = k
  backoff : ∀ f, .failed f ∈ before → f.id = job.id → job.attemptCount = f.attemptCount + 1 →
    f.updatedAt + seconds (min (2 ^ (f.attemptCount - 1)) 300 : Nat) ≤ job.updatedAt

theorem initialNextRunAt_spec (runAt : Option Int) (now : Int) :
    now ≤ initialNextRunAt runAt now ∧ ∀ t ∈ runAt, t ≤ initialNextRunAt runAt now := by
  cases runAt with
  | none => exact ⟨le_refl now, by simp⟩
  | some t =>
    simp only [initialNextRunAt, Option.mem_some_iff, forall_eq']
    split
    · exact ⟨by omega, le_refl t⟩
    · exact ⟨le_refl now, by omega⟩

namespace Ledger

variable {l l' : Ledger} {m : Move}

theorem put_cases {job r : JobRecord} {id : UUID} (h : (l.put job).jobs id = some r) :
    r = job ∨ l.jobs id = some r := by
  rw [put_jobs] at h
  split at h
  · exact Or.inl (Option.some.inj h).symm
  · exact Or.inr h

/-- A job comes to be `FAILED` by a failure that is noted. -/
theorem Step.failed_cases (hs : Step l m l') {id : UUID} {r : JobRecord}
    (stored : l'.jobs id = some r) (status : r.status = .failed) :
    l.jobs id = some r ∨ .failed r ∈ l'.history := by
  cases hs with
  | tick => exact Or.inl stored
  | close => exact Or.inl stored
  | create | claim | succeed | schedule | cancel =>
    rcases put_cases stored with rfl | hold
    · cases status
    · exact Or.inl hold
  | fail | revert =>
    rcases put_cases stored with rfl | hold
    · exact Or.inr List.mem_cons_self
    · exact Or.inl hold

/-- A failure is noted for the record that is stored with it. -/
theorem Step.failed_noted (hs : Step l m l') (hl : l.Consistent) {f : JobRecord}
    (h : .failed f ∈ l'.history) : .failed f ∈ l.history ∨
      ∃ r error, l.jobs r.id = some r ∧ (r.status = .running ∨ r.status = .succeeded) ∧
        f = r.fail error (backoffSeconds r.attemptCount) l'.clock ∧ l'.jobs f.id = some f := by
  cases hs with
  | tick => exact Or.inl h
  | close => exact Or.inl h
  | create | claim | succeed | schedule | cancel =>
    rcases List.mem_cons.mp h with heq | h
    · cases heq
    · exact Or.inl h
  | fail now c r error _ held status =>
    rcases List.mem_cons.mp h with heq | h
    · cases heq
      exact Or.inr ⟨r, error, (hl.held_stored c r held).1, Or.inl status, rfl, put_self ..⟩
    · exact Or.inl h
  | revert now c r error _ held status =>
    rcases List.mem_cons.mp h with heq | h
    · cases heq
      exact Or.inr ⟨r, error, (hl.held_stored c r held).1, Or.inr status, rfl, put_self ..⟩
    · exact Or.inl h

/-- A move adds one event at most, and a claim is noted for a pending job that is due. -/
theorem Step.noted (hs : Step l m l') : l'.history = l.history ∨ ∃ e, l'.history = e :: l.history ∧
    ∀ job, e = .claimed job → ∃ r workerId, l.jobs r.id = some r ∧ r.status.isPending = true ∧
      r.nextRunAt ≤ l'.clock ∧ job = r.claim workerId l'.clock := by
  cases hs with
  | tick => exact Or.inl rfl
  | close => exact Or.inl rfl
  | claim now c r workerId _ stored pending due =>
    refine Or.inr ⟨_, rfl, fun job heq => ?_⟩
    cases heq
    exact ⟨r, workerId, stored, pending, due, rfl⟩
  | create | succeed | schedule | fail | revert | cancel =>
    exact Or.inr ⟨_, rfl, fun job heq => by cases heq⟩

/-! ## The invariant -/

/-- What `next_run_at` says of a job. -/
structure Paced (l : Ledger) : Prop where
  scheduled : ∀ id r, l.jobs id = some r →
    r.createdAt ≤ r.nextRunAt ∧ ∀ t ∈ r.runAt, t ≤ r.nextRunAt
  /-- A failed job failed in its last attempt. -/
  failed : ∀ id r, l.jobs id = some r → r.status = .failed →
    ∃ f, .failed f ∈ l.history ∧ f.id = r.id ∧ f.attemptCount = r.attemptCount
  /-- A failure is of an earlier attempt, or the job has not been claimed since. -/
  waits : ∀ f, .failed f ∈ l.history → ∃ r, l.jobs f.id = some r ∧
    (f.attemptCount < r.attemptCount ∨ f.attemptCount = r.attemptCount ∧
      ¬ (r.status = .running ∨ r.status = .succeeded) ∧
      f.updatedAt + seconds (backoffSeconds f.attemptCount) ≤ r.nextRunAt)
  onTime : ∀ later job before, l.history = later ++ .claimed job :: before → OnTime before job

theorem paced_initial : initial.Paced := by
  constructor <;> simp [initial]

theorem Paced.scheduled_step (h : l.Paced) (hl : l.Consistent) (ht : l.Timely) (hs : Step l m l')
    {id : UUID} {r : JobRecord} (stored : l'.jobs id = some r) :
    r.createdAt ≤ r.nextRunAt ∧ ∀ t ∈ r.runAt, t ≤ r.nextRunAt := by
  -- A failed attempt was due, and is put off from now on.
  have hfail : ∀ (c : CallId) (x : JobRecord) error now, l.held c = some x → l.clock ≤ now →
      (x.fail error (backoffSeconds x.attemptCount) now).createdAt ≤
          (x.fail error (backoffSeconds x.attemptCount) now).nextRunAt ∧
        ∀ t ∈ x.runAt, t ≤ (x.fail error (backoffSeconds x.attemptCount) now).nextRunAt := by
    intro c x error now held time
    obtain ⟨hx, hstatus⟩ := hl.held_stored c x held
    obtain ⟨hcreated, hrunAt⟩ := h.scheduled _ x hx
    have hdue := (ht _ x hx).1 hstatus
    have hlater : x.nextRunAt ≤ now + seconds (backoffSeconds x.attemptCount) := by
      unfold seconds
      omega
    exact ⟨le_trans hcreated hlater, fun t ht => le_trans (hrunAt t ht) hlater⟩
  cases hs with
  | tick => exact h.scheduled id r stored
  | close => exact h.scheduled id r stored
  | create now request jobId =>
    rcases put_cases stored with rfl | hold
    · exact initialNextRunAt_spec _ now
    · exact h.scheduled id r hold
  | claim now c x workerId _ hx =>
    rcases put_cases stored with rfl | hold
    · exact h.scheduled _ x hx
    · exact h.scheduled id r hold
  | succeed now c x result _ held =>
    rcases put_cases stored with rfl | hold
    · exact h.scheduled _ x (hl.held_stored c x held).1
    · exact h.scheduled id r hold
  | schedule now c x cron nextJobId nextRunAt _ _ _ _ run =>
    rcases put_cases stored with rfl | hold
    · exact ⟨le_of_lt (lt_nextCronRun run), fun t ht => le_of_eq (Option.some.inj ht).symm⟩
    · exact h.scheduled id r hold
  | fail now c x error time held =>
    rcases put_cases stored with rfl | hold
    · exact hfail c x error now held time
    · exact h.scheduled id r hold
  | revert now c x error time held =>
    rcases put_cases stored with rfl | hold
    · exact hfail c x error now held time
    · exact h.scheduled id r hold
  | cancel now x _ hx =>
    rcases put_cases stored with rfl | hold
    · exact h.scheduled _ x hx
    · exact h.scheduled id r hold

theorem Paced.failed_step (h : l.Paced) (hs : Step l m l') {id : UUID} {r : JobRecord}
    (stored : l'.jobs id = some r) (status : r.status = .failed) :
    ∃ f, .failed f ∈ l'.history ∧ f.id = r.id ∧ f.attemptCount = r.attemptCount := by
  rcases hs.failed_cases stored status with hold | hnew
  · obtain ⟨f, hmem, hf⟩ := h.failed id r hold status
    exact ⟨f, hs.history_mono hmem, hf⟩
  · exact ⟨r, hnew, rfl, rfl⟩

theorem Paced.waits_step (h : l.Paced) (hl : l.Consistent) (hs : Step l m l') {f : JobRecord}
    (hf : .failed f ∈ l'.history) : ∃ r, l'.jobs f.id = some r ∧
      (f.attemptCount < r.attemptCount ∨ f.attemptCount = r.attemptCount ∧
        ¬ (r.status = .running ∨ r.status = .succeeded) ∧
        f.updatedAt + seconds (backoffSeconds f.attemptCount) ≤ r.nextRunAt) := by
  rcases hs.failed_noted hl hf with hold | ⟨x, error, hx, hstatus, hfail, hstored⟩
  · obtain ⟨r, stored, hwaits⟩ := h.waits f hold
    rcases hs.stored hl stored with hsame | ⟨r', hr', hevolves, -, -⟩
    · exact ⟨r, hsame, hwaits⟩
    · refine ⟨r', hr', ?_⟩
      cases hevolves with
      | claim workerId _ _ =>
        apply Or.inl
        show f.attemptCount < r.attemptCount + 1
        rcases hwaits with hlt | ⟨heq, -⟩ <;> omega
      -- An attempt that runs has not failed, so the failure is of an earlier one.
      | succeed result status =>
        exact Or.inl (hwaits.resolve_right fun hlast => hlast.2.1 (Or.inl status))
      | fail error status =>
        exact Or.inl (hwaits.resolve_right fun hlast => hlast.2.1 (Or.inl status))
      | revert error status =>
        exact Or.inl (hwaits.resolve_right fun hlast => hlast.2.1 (Or.inr status))
      | cancel =>
        rcases hwaits with hlt | ⟨heq, -, hle⟩
        · exact Or.inl hlt
        · exact Or.inr ⟨heq, by simp, hle⟩
  · refine ⟨f, hstored, Or.inr ⟨rfl, ?_, ?_⟩⟩
    · rw [hfail, JobRecord.fail_status]
      split <;> simp
    · rw [hfail]
      exact le_refl _

/-- **A claim is not early.** -/
theorem Paced.claim_onTime (h : l.Paced) (hl : l.Consistent) {r : JobRecord} {now : Int}
    (stored : l.jobs r.id = some r) (pending : r.status.isPending = true) (due : r.nextRunAt ≤ now)
    (workerId : String) : OnTime l.history (r.claim workerId now) := by
  obtain ⟨hcreated, hrunAt⟩ := h.scheduled _ r stored
  refine ⟨fun t ht => le_trans (hrunAt t ht) due, le_trans hcreated due, fun k hk hcount => ?_,
    fun f hf hid hcount => ?_⟩
  · have hcount' : r.attemptCount = k := Nat.succ.inj hcount
    rcases JobRecord.pending_cases pending with hqueued | hfailed
    · have hzero := (hl.wellFormed _ r stored).queued hqueued
      omega
    · obtain ⟨f, hf, hid, hfcount⟩ := h.failed _ r stored hfailed
      exact ⟨f, hf, hid, hfcount.trans hcount'⟩
  · obtain ⟨x, hx, hwaits⟩ := h.waits f hf
    rw [hid, show (r.claim workerId now).id = r.id from rfl, stored, Option.some.injEq] at hx
    subst hx
    have hcount' : r.attemptCount = f.attemptCount := Nat.succ.inj hcount
    rcases hwaits with hlt | ⟨-, -, hle⟩
    · omega
    · exact le_trans hle due

theorem Paced.step (h : l.Paced) (hl : l.Consistent) (ht : l.Timely) (hs : Step l m l') :
    l'.Paced := by
  refine ⟨fun id r => h.scheduled_step hl ht hs, fun id r => h.failed_step hs,
    fun f => h.waits_step hl hs, fun later job before heq => ?_⟩
  rcases hs.noted with hsame | ⟨e, hnoted, hclaim⟩
  · exact h.onTime later job before (hsame ▸ heq)
  · rw [hnoted] at heq
    cases later with
    | nil =>
      rw [List.nil_append, List.cons.injEq] at heq
      obtain ⟨r, workerId, stored, pending, due, rfl⟩ := hclaim job heq.1
      exact heq.2 ▸ h.claim_onTime hl stored pending due workerId
    | cons _ later =>
      rw [List.cons_append, List.cons.injEq] at heq
      exact h.onTime later job before heq.2

theorem paced_of_reachable {ok : Ledger → Move → Prop} (h : system.Reachable ok l) :
    l.Consistent ∧ l.Timely ∧ l.Paced := by
  refine h.invariant (I := fun l => l.Consistent ∧ l.Timely ∧ l.Paced) ?_ ?_
  · intro _ heq
    subst heq
    exact ⟨consistent_initial, timely_initial, paced_initial⟩
  · intro l m l' h _ hs
    obtain ⟨hl, ht, hp⟩ := h
    exact ⟨hl.step hs, ht.step hl hs, hp.step hl ht hs⟩

end Ledger

namespace State

open Transition

variable {settings : Settings} {s : State}

theorem paced_of_reachable (h : (service settings).Reachable Transition.Any s) : s.ledger.Paced := by
  have hledger : Ledger.system.Reachable Transition.Any s.ledger :=
    (simulates settings).reachable (fun _ => inv_of_reachable) h
  exact (Ledger.paced_of_reachable hledger).2.2

/-- What `claim_job` returns next, whenever it is called. -/
theorem claimJob_onTime (h : (service settings).Reachable Transition.Any s) {jobId : UUID}
    {workerId : String} {now : Int} {job : JobRecord} {r : InMemoryJobRepository}
    (hclaim : s.repository.claimJob jobId workerId now = (some job, r)) :
    job.updatedAt = now ∧ OnTime s.history job := by
  have hinv := inv_of_reachable h
  rcases s.repository.claimJob_cases jobId workerId now with
    hnone | ⟨old, hget, hpending, hdue, hclaimed⟩
  · rw [hnone] at hclaim
    cases hclaim
  · rw [hclaimed] at hclaim
    cases hclaim
    have hstored : s.ledger.jobs old.id = some old := hinv.consistent.keyed _ old hget ▸ hget
    exact ⟨rfl, (paced_of_reachable h).claim_onTime hinv.consistent hstored hpending hdue workerId⟩

/-- **No job runs early.** -/
theorem claims_onTime (h : (service settings).Reachable Transition.Any s) {later before : List Event}
    {job : JobRecord} (hclaim : s.history = later ++ .claimed job :: before) :
    OnTime before job :=
  (paced_of_reachable h).onTime later job before hclaim

/-- The second attempt of a job whose first one failed. -/
theorem claims_onTime_of_retry : ∃ s job before, (service {}).Reachable Transition.Any s ∧
    s.history = .claimed job :: before ∧ job.attemptCount = 2 ∧ OnTime before job := by
  have hrun : ∃ s job before, System.replay (step {}) initial
      [⟨0, .submit 0 Sample.request Sample.jobId⟩, ⟨0, .claim 1 Sample.jobId "worker-local"⟩,
        ⟨0, .finish 1 (.raised (.transient "boom"))⟩, ⟨0, .markFailed 1⟩,
        ⟨seconds 1, .claim 2 Sample.jobId "worker-local"⟩] = some s ∧
      s.history = [] ++ .claimed job :: before ∧ job.attemptCount = 2 := ⟨_, _, _, rfl, rfl, rfl⟩
  obtain ⟨s, job, before, hs, hhistory, hcount⟩ := hrun
  have hreach : (service {}).Reachable Transition.Any s :=
    ⟨initial, rfl, System.Steps.of_replay hs fun _ _ _ => trivial⟩
  exact ⟨s, job, before, hreach, hhistory, hcount, claims_onTime hreach hhistory⟩

end State

end JobPipeline
