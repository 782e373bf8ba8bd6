import JobPipeline.Service.Refinement

/-!
# The lifecycle of a stored job

What a job's record says about the calls in progress and about its own past, in every state the
service can reach: the lock fields name an attempt in progress, and the attempt count and
`processed_at` agree with the status.

The record by itself is `WellFormed`, which the ledger preserves. The calls come in through
`Call.attempting`: the program points of `process_job` between its claim and its first mark call.
-/

set_option autoImplicit false

namespace JobPipeline

/-- The record claimed by a call that has not made its first mark call yet. -/
def Call.attempting : Call → Option JobRecord
  | .running job => some job
  | .handled job _ => some job
  | .excepted job _ none => some job
  | _ => none

/-- An attempting call holds what it claimed, and that is running. -/
theorem Call.held_of_attempting {call : Call} {job : JobRecord} (h : call.attempting = some job)
    (hok : call.Ok) : call.held = some job ∧ job.status = .running := by
  cases call with
  | running job' =>
    cases h
    exact ⟨rfl, hok⟩
  | handled job' result =>
    cases h
    exact ⟨rfl, hok⟩
  | excepted job' exc succeeded =>
    cases succeeded with
    | none =>
      cases h
      exact ⟨rfl, hok⟩
    | some r => cases h
  | _ => cases h

/-- A call that holds a running job is attempting it. -/
theorem Call.attempting_of_held {call : Call} {job : JobRecord} (h : call.held = some job)
    (hstatus : job.status = .running) (hok : call.Ok) : call.attempting = some job := by
  cases call with
  | running job' => exact h
  | handled job' result => exact h
  | marked job' succeeded =>
    cases h
    exact absurd (hok.2.2.symm.trans hstatus) (by simp)
  | excepted job' exc succeeded =>
    cases succeeded with
    | none => exact h
    | some r =>
      cases h
      exact absurd (hok.2.2.symm.trans hstatus) (by simp)
  | _ => cases h

namespace State

open Transition (System)

variable {settings : Settings} {ok : State → Label → Prop} {s : State}

/-- The call is between its claim of the job and its first mark call on it. -/
def Attempting (s : State) (c : CallId) (jobId : UUID) : Prop :=
  ∃ job, (s.calls c).attempting = some job ∧ job.id = jobId

/-- **No two calls attempt one job.** -/
theorem Inv.attempting_unique (hinv : s.Inv) {c c' : CallId} {jobId : UUID}
    (h : s.Attempting c jobId) (h' : s.Attempting c' jobId) : c = c' := by
  obtain ⟨job, hjob, hid⟩ := h
  obtain ⟨job', hjob', hid'⟩ := h'
  exact hinv.consistent.held_unique c c' job job'
    (Call.held_of_attempting hjob (hinv.calls c)).1
    (Call.held_of_attempting hjob' (hinv.calls c')).1 (hid.trans hid'.symm)

/-- An attempted job is stored as running. -/
theorem Inv.running_of_attempting (hinv : s.Inv) {c : CallId} {jobId : UUID}
    (h : s.Attempting c jobId) :
    ∃ r, s.repository.jobs.get? jobId = some r ∧ r.status = .running := by
  obtain ⟨job, hjob, rfl⟩ := h
  obtain ⟨hheld, hstatus⟩ := Call.held_of_attempting hjob (hinv.calls c)
  exact ⟨job, hinv.stored hheld, hstatus⟩

/-- A job stored as running is attempted. -/
theorem Inv.attempting_of_running (hinv : s.Inv) {jobId : UUID} {r : JobRecord}
    (stored : s.repository.jobs.get? jobId = some r) (hstatus : r.status = .running) :
    ∃ c, s.Attempting c jobId := by
  obtain ⟨c, hc⟩ := hinv.consistent.running_held jobId r stored hstatus
  exact ⟨c, r, Call.attempting_of_held hc hstatus (hinv.calls c),
    hinv.consistent.keyed jobId r stored⟩

/-- What a stored record says, field group by field group. -/
structure Lifecycle (s : State) (jobId : UUID) (r : JobRecord) : Prop where
  lockedBy : r.status = .running ↔ r.lockedBy.isSome = true
  lockedAt : r.status = .running ↔ r.lockedAt.isSome = true
  attempted : r.status = .running ↔ ∃! c, s.Attempting c jobId
  attempted_once : ∀ c c', s.Attempting c jobId → s.Attempting c' jobId → c = c'
  queued : r.status = .queued → r.attemptCount = 0
  failed : r.status = .failed → 1 ≤ r.attemptCount ∧ r.attemptCount ≤ r.maxRetries
  deadLettered : r.status = .deadLettered → r.attemptCount = r.maxRetries + 1
  counted : r.status = .running ∨ r.status = .succeeded →
    1 ≤ r.attemptCount ∧ r.attemptCount ≤ r.maxRetries + 1
  processedAt : r.processedAt.isSome = true ↔
    r.status = .succeeded ∨ r.status = .deadLettered ∨ r.status = .cancelled

/-- **The lifecycle law.** -/
theorem lifecycle_of_reachable (h : (service settings).Reachable Transition.Any s) {jobId : UUID}
    {r : JobRecord} (stored : s.repository.jobs.get? jobId = some r) : s.Lifecycle jobId r := by
  have hinv := inv_of_reachable h
  have hwf := hinv.consistent.wellFormed jobId r stored
  refine ⟨hwf.lockedBy.symm, hwf.lockedAt.symm, ⟨?_, ?_⟩, fun _ _ => hinv.attempting_unique,
    hwf.queued, hwf.failed, hwf.deadLettered, hwf.attempted,
    hwf.processedAt.trans JobStatus.isTerminal_iff⟩
  · intro hstatus
    obtain ⟨c, hc⟩ := hinv.attempting_of_running stored hstatus
    exact ⟨c, hc, fun c' hc' => hinv.attempting_unique hc' hc⟩
  · intro h
    obtain ⟨c, hc, -⟩ := h
    obtain ⟨r', hr', hstatus⟩ := hinv.running_of_attempting hc
    rw [stored, Option.some.injEq] at hr'
    rwa [hr']

/-- A state in which a worker runs a job. -/
theorem lifecycle_of_claimed : ∃ s r, (service {}).Reachable Transition.Any s ∧
    s.repository.jobs.get? Sample.jobId = some r ∧ s.Lifecycle Sample.jobId r := by
  have hrun : ∃ s r, System.replay (step {}) initial
      [⟨0, .submit 0 Sample.request Sample.jobId⟩, ⟨0, .claim 1 Sample.jobId "worker-local"⟩] =
        some s ∧ s.repository.jobs.get? Sample.jobId = some r := ⟨_, _, rfl, rfl⟩
  obtain ⟨s, r, hs, stored⟩ := hrun
  have hreach : (service {}).Reachable Transition.Any s :=
    ⟨initial, rfl, System.Steps.of_replay hs fun _ _ _ => trivial⟩
  exact ⟨s, r, hreach, stored, lifecycle_of_reachable hreach stored⟩

end State

end JobPipeline
