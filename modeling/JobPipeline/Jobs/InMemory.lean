import Mathlib.Data.List.Sort
import JobPipeline.Jobs.Record
import JobPipeline.Lib.Dict

/-!
# `InMemoryJobRepository`

Every method is a function of the repository, its arguments and what it reads from outside: the
clock (`now`, one reading per method, as in the source) and the identifier `uuid4` drew. A
method that can raise answers in `Except Exc`.
-/

set_option autoImplicit false

namespace JobPipeline

/-- The result of `queue_depth`; `by_priority` pairs a priority with its count. -/
structure QueueDepth where
  queued : Nat
  due : Nat
  running : Nat
  deadLettered : Nat
  byPriority : List (Nat × Nat)
deriving DecidableEq, Repr

structure InMemoryJobRepository where
  jobs : Dict UUID JobRecord
  idempotency : Dict String UUID
  drainEnabled : Bool

namespace InMemoryJobRepository

/-- `InMemoryJobRepository()`. -/
def empty : InMemoryJobRepository := ⟨Dict.empty, Dict.empty, false⟩

/-- `self.jobs[job.id] = job`. -/
def store (r : InMemoryJobRepository) (job : JobRecord) : InMemoryJobRepository :=
  { r with jobs := r.jobs.insert job.id job }

/-- `self.jobs[self.idempotency[key]]`, when the key is known. -/
def replayOf (r : InMemoryJobRepository) (key : Option String) : Option (Except Exc JobRecord) :=
  match key with
  | none => none
  | some k =>
    if k = "" then none
    else match r.idempotency.get? k with
      | none => none
      | some jobId => match r.jobs.get? jobId with
        | some job => some (.ok job)
        | none => some (.error (.keyError jobId.str))

/-- `if request.idempotency_key: self.idempotency[request.idempotency_key] = job_id`. -/
def remember (r : InMemoryJobRepository) (key : Option String) (jobId : UUID) :
    InMemoryJobRepository :=
  match key with
  | none => r
  | some k => if k = "" then r else { r with idempotency := r.idempotency.insert k jobId }

/-- `create_job`: the record and the replay flag. -/
def createJob (r : InMemoryJobRepository) (request : JobCreate) (now : Int) (jobId : UUID) :
    Except Exc ((JobRecord × Bool) × InMemoryJobRepository) :=
  match r.replayOf request.idempotencyKey with
  | some (.ok job) => .ok ((job, true), r)
  | some (.error e) => .error e
  | none =>
    let job := JobRecord.submitted request jobId now
    .ok ((job, false), (r.store job).remember request.idempotencyKey jobId)

def getJob (r : InMemoryJobRepository) (jobId : UUID) : Except Exc JobRecord :=
  match r.jobs.get? jobId with
  | some job => .ok job
  | none => .error (.service (notFoundError "Job not found"))

/-- `if status:` and `if handler:` of `list_jobs`. -/
def passesFilters (status : Option JobStatus) (handler : Option String) (job : JobRecord) : Bool :=
  (match status with
    | none => true
    | some s => job.status = s) &&
  match handler with
    | none => true
    | some h => if h = "" then true else job.handler = h

def listJobs (r : InMemoryJobRepository) (status : Option JobStatus) (handler : Option String)
    (limit offset : Nat) : List JobRecord :=
  let jobs := r.jobs.values.insertionSort fun a b => b.createdAt ≤ a.createdAt
  ((jobs.filter (passesFilters status handler)).drop offset).take limit

/-- `(-job.priority, job.created_at)` compared as tuples. -/
def duePrecedes (a b : JobRecord) : Prop :=
  b.priority < a.priority ∨ a.priority = b.priority ∧ a.createdAt ≤ b.createdAt

instance (a b : JobRecord) : Decidable (duePrecedes a b) := by
  unfold duePrecedes; infer_instance

instance : Std.Total duePrecedes := ⟨fun a b => by unfold duePrecedes; omega⟩

instance : IsTrans JobRecord duePrecedes :=
  ⟨fun a b c hab hbc => by unfold duePrecedes at *; omega⟩

/-- The comprehension of `due_jobs`. -/
def isDue (now : Int) (job : JobRecord) : Bool := job.status.isPending && job.nextRunAt ≤ now

def dueJobs (r : InMemoryJobRepository) (limit : Nat) (now : Int) : List JobRecord :=
  ((r.jobs.values.filter (isDue now)).insertionSort duePrecedes).take limit

/-- The loop of `queue_depth`: `priorities[p] = priorities.get(p, 0) + 1`. -/
def countPriorities (jobs : List JobRecord) : Dict Nat Nat :=
  jobs.foldl (fun counts job =>
    counts.insert job.priority ((counts.get? job.priority).getD 0 + 1)) Dict.empty

def queueDepth (r : InMemoryJobRepository) (now : Int) : QueueDepth :=
  let queuedJobs := r.jobs.values.filter fun job => job.status.isPending
  { queued := queuedJobs.length
    due := queuedJobs.countP fun job => job.nextRunAt ≤ now
    running := r.jobs.values.countP fun job => job.status = .running
    deadLettered := r.jobs.values.countP fun job => job.status = .deadLettered
    byPriority := (countPriorities queuedJobs).entries.insertionSort
      fun a b => a.1 < b.1 ∨ a.1 = b.1 ∧ a.2 ≤ b.2 }

def claimJob (r : InMemoryJobRepository) (jobId : UUID) (workerId : String) (now : Int) :
    Option JobRecord × InMemoryJobRepository :=
  if r.drainEnabled then (none, r)
  else match r.jobs.get? jobId with
    | none => (none, r)
    | some job =>
      if ¬ job.status.isPending ∨ now < job.nextRunAt then (none, r)
      else
        let updated := job.claim workerId now
        (some updated, { r with jobs := r.jobs.insert jobId updated })

/-- `create_next_recurring_job`: `none` for a job that does not recur. -/
def createNextRecurringJob (r : InMemoryJobRepository) (job : JobRecord) (now : Int)
    (nextJobId : UUID) : Except Exc (Option JobRecord × InMemoryJobRepository) :=
  match job.recurringCron with
  | none => .ok (none, r)
  | some cron =>
    if cron = "" then .ok (none, r)
    else match nextCronRun cron now with
      | .error e => .error e
      | .ok nextRunAt =>
        let nextJob := job.successor nextJobId nextRunAt now
        .ok (some nextJob, r.store nextJob)

def markSucceeded (r : InMemoryJobRepository) (jobId : UUID) (result : JsonObject) (now : Int) :
    Except Exc (JobRecord × InMemoryJobRepository) :=
  match r.getJob jobId with
  | .error e => .error e
  | .ok job =>
    let updated := job.succeed result now
    .ok (updated, { r with jobs := r.jobs.insert jobId updated })

def markFailedAttempt (r : InMemoryJobRepository) (jobId : UUID) (error : String)
    (backoffSeconds : Int) (now : Int) : Except Exc (JobRecord × InMemoryJobRepository) :=
  match r.getJob jobId with
  | .error e => .error e
  | .ok job =>
    let updated := job.fail error backoffSeconds now
    .ok (updated, { r with jobs := r.jobs.insert jobId updated })

def cancelJob (r : InMemoryJobRepository) (jobId : UUID) (now : Int) :
    Except Exc (JobRecord × InMemoryJobRepository) :=
  match r.getJob jobId with
  | .error e => .error e
  | .ok job =>
    if ¬ job.status.isPending then
      .error (.service (conflictError "Only pending jobs can be cancelled"
        [("status", .str job.status.value)]))
    else
      let updated := job.cancel now
      .ok (updated, { r with jobs := r.jobs.insert jobId updated })

def setDrain (r : InMemoryJobRepository) (enabled : Bool) : InMemoryJobRepository :=
  { r with drainEnabled := enabled }

def getDrain (r : InMemoryJobRepository) : Bool := r.drainEnabled

/-! ## What each method can do -/

variable {r r' : InMemoryJobRepository} {jobId : UUID} {job : JobRecord} {now : Int}

@[simp] theorem remember_jobs (r : InMemoryJobRepository) (key : Option String) (jobId : UUID) :
    (r.remember key jobId).jobs = r.jobs := by
  unfold remember
  split
  · rfl
  · split <;> rfl

@[simp] theorem remember_drainEnabled (r : InMemoryJobRepository) (key : Option String)
    (jobId : UUID) : (r.remember key jobId).drainEnabled = r.drainEnabled := by
  unfold remember
  split
  · rfl
  · split <;> rfl

theorem get?_remember (r : InMemoryJobRepository) {key : Option String} (hkey : key ≠ some "")
    (jobId : UUID) (k : String) :
    (r.remember key jobId).idempotency.get? k =
      if key = some k then some jobId else r.idempotency.get? k := by
  cases key with
  | none => simp [remember]
  | some k' =>
    have hne : k' ≠ "" := fun h => hkey (by rw [h])
    simp [remember, hne, Dict.get?_insert, eq_comm]

theorem getJob_of_stored (h : r.jobs.get? jobId = some job) : r.getJob jobId = .ok job := by
  simp [getJob, h]

/-- A claim takes a due pending job, or changes nothing. -/
theorem claimJob_cases (r : InMemoryJobRepository) (jobId : UUID) (workerId : String) (now : Int) :
    r.claimJob jobId workerId now = (none, r) ∨
      ∃ job, r.jobs.get? jobId = some job ∧ job.status.isPending = true ∧ job.nextRunAt ≤ now ∧
        r.claimJob jobId workerId now =
          (some (job.claim workerId now),
            { r with jobs := r.jobs.insert jobId (job.claim workerId now) }) := by
  unfold claimJob
  split
  · exact Or.inl rfl
  · split
    · exact Or.inl rfl
    · rename_i job hjob
      split
      · exact Or.inl rfl
      · rename_i hclaim
        simp only [not_or, not_not, not_lt] at hclaim
        exact Or.inr ⟨job, hjob, hclaim.1, hclaim.2, rfl⟩

/-- A submission that is not a replay stores the new record. -/
theorem createJob_new {request : JobCreate}
    (h : r.createJob request now jobId = .ok ((job, false), r')) :
    job = .submitted request jobId now ∧ r'.jobs = r.jobs.insert jobId job := by
  unfold createJob at h
  split at h
  · simp at h
  · exact absurd h (by simp)
  · simp only [Except.ok.injEq, Prod.mk.injEq, and_true] at h
    obtain ⟨rfl, rfl⟩ := h
    exact ⟨rfl, by simp [store, JobRecord.submitted]⟩

theorem markSucceeded_of_stored (result : JsonObject) (now : Int)
    (h : r.jobs.get? jobId = some job) :
    r.markSucceeded jobId result now =
      .ok (job.succeed result now,
        { r with jobs := r.jobs.insert jobId (job.succeed result now) }) := by
  simp [markSucceeded, getJob_of_stored h]

theorem markFailedAttempt_of_stored (error : String) (backoff now : Int)
    (h : r.jobs.get? jobId = some job) :
    r.markFailedAttempt jobId error backoff now =
      .ok (job.fail error backoff now,
        { r with jobs := r.jobs.insert jobId (job.fail error backoff now) }) := by
  simp [markFailedAttempt, getJob_of_stored h]

/-- The successor is stored exactly when the job recurs and its expression has a next run. -/
theorem createNextRecurringJob_cases (r : InMemoryJobRepository) (job : JobRecord) (now : Int)
    (nextJobId : UUID) :
    ((∀ cron ∈ job.recurringCron, cron = "") ∧
        r.createNextRecurringJob job now nextJobId = .ok (none, r)) ∨
      ∃ cron, job.recurringCron = some cron ∧ cron ≠ "" ∧
        ((∃ e, nextCronRun cron now = .error e ∧
            r.createNextRecurringJob job now nextJobId = .error e) ∨
          ∃ nextRunAt, nextCronRun cron now = .ok nextRunAt ∧
            r.createNextRecurringJob job now nextJobId =
              .ok (some (job.successor nextJobId nextRunAt now),
                r.store (job.successor nextJobId nextRunAt now))) := by
  unfold createNextRecurringJob
  cases hc : job.recurringCron with
  | none => exact Or.inl ⟨by simp, rfl⟩
  | some cron =>
    by_cases hempty : cron = ""
    · exact Or.inl ⟨by simp [hempty], by simp [hempty]⟩
    · refine Or.inr ⟨cron, rfl, hempty, ?_⟩
      simp only [if_neg hempty]
      cases hrun : nextCronRun cron now with
      | error e => exact Or.inl ⟨e, rfl, rfl⟩
      | ok nextRunAt => exact Or.inr ⟨nextRunAt, rfl, rfl⟩

theorem cancelJob_ok (h : r.cancelJob jobId now = .ok (job, r')) :
    ∃ old, r.jobs.get? jobId = some old ∧ old.status.isPending = true ∧ job = old.cancel now ∧
      r' = { r with jobs := r.jobs.insert jobId (old.cancel now) } := by
  unfold cancelJob getJob at h
  cases hj : r.jobs.get? jobId with
  | none => rw [hj] at h; exact absurd h (by simp)
  | some old =>
    simp only [hj] at h
    split at h
    · exact absurd h (by simp)
    · rename_i hp
      simp only [Except.ok.injEq, Prod.mk.injEq] at h
      exact ⟨old, rfl, by simpa using hp, h.1.symm, h.2.symm⟩

/-- The loop over the pending jobs counts their priorities. -/
theorem get?_countPriorities (jobs : List JobRecord) (priority : Nat) :
    (countPriorities jobs).get? priority =
      if priority ∈ jobs.map JobRecord.priority then
        some ((jobs.map JobRecord.priority).count priority)
      else none := by
  have hloop : ∀ counts : Dict Nat Nat,
      (jobs.foldl (fun counts job =>
        counts.insert job.priority ((counts.get? job.priority).getD 0 + 1)) counts).get? priority =
        if priority ∈ jobs.map JobRecord.priority then
          some ((counts.get? priority).getD 0 + (jobs.map JobRecord.priority).count priority)
        else counts.get? priority := by
    induction jobs with
    | nil => intro counts; simp
    | cons job rest ih =>
      intro counts
      rw [List.foldl_cons, ih, Dict.get?_insert]
      by_cases hjob : priority = job.priority
      · subst hjob
        by_cases hrest : job.priority ∈ rest.map JobRecord.priority
        · simp only [hrest, List.map_cons, List.mem_cons, true_or, if_true,
            Option.getD_some, List.count_cons_self, Option.some.injEq]
          omega
        · simp [hrest, List.count_eq_zero_of_not_mem hrest]
      · simp [hjob, Ne.symm hjob]
  rw [countPriorities, hloop]
  simp

/-- One entry for every priority among the jobs, with its number of jobs. -/
theorem countPriorities_perm (jobs : List JobRecord) :
    (countPriorities jobs).entries.Perm ((jobs.map JobRecord.priority).dedup.map fun priority =>
      (priority, (jobs.map JobRecord.priority).count priority)) := by
  have hentries : (countPriorities jobs).entries.Nodup :=
    List.Nodup.of_map _ (countPriorities jobs).nodupKeys
  have hgroups : ((jobs.map JobRecord.priority).dedup.map fun priority =>
      (priority, (jobs.map JobRecord.priority).count priority)).Nodup :=
    (List.nodup_dedup _).map fun p q hpq => congrArg Prod.fst hpq
  refine (List.perm_ext_iff_of_nodup hentries hgroups).mpr ?_
  intro entry
  obtain ⟨priority, count⟩ := entry
  rw [Dict.mem_entries_iff, get?_countPriorities]
  by_cases hmem : priority ∈ jobs.map JobRecord.priority
  · simp only [hmem, if_true, Option.some.injEq, List.mem_map, List.mem_dedup, Prod.mk.injEq]
    constructor
    · intro h
      exact ⟨priority, List.mem_map.mp hmem, rfl, h⟩
    · intro h
      obtain ⟨_, -, rfl, h⟩ := h
      exact h
  · simp only [hmem, if_false, List.mem_map, List.mem_dedup, Prod.mk.injEq]
    constructor
    · intro h
      cases h
    · intro h
      obtain ⟨_, hmem', rfl, -⟩ := h
      exact absurd (List.mem_map.mpr hmem') hmem

end InMemoryJobRepository

end JobPipeline
