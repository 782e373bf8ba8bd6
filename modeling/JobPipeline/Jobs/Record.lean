import JobPipeline.Jobs.Schemas

/-!
# Job records

`JobRecord` and the records the repository operations build: each operation of
`InMemoryJobRepository` rebuilds the whole record from the old one and a few new fields, and
each of those rebuilds is one function here.
-/

set_option autoImplicit false

namespace JobPipeline

structure JobRecord where
  id : UUID
  handler : String
  payload : JsonObject
  status : JobStatus
  priority : Nat
  maxRetries : Nat
  timeoutSeconds : Nat
  attemptCount : Nat
  nextRunAt : Int
  runAt : Option Int
  recurringCron : Option String
  lockedBy : Option String
  lockedAt : Option Int
  kafkaMessageKey : Option String
  lastError : Option String
  result : Option JsonObject
  idempotencyKey : Option String
  createdAt : Int
  updatedAt : Int
  processedAt : Option Int

/-- `run_at if run_at and run_at > now else now`. -/
def initialNextRunAt (runAt : Option Int) (now : Int) : Int :=
  match runAt with
  | some t => if now < t then t else now
  | none => now

namespace JobRecord

/-- The record `create_job` stores. -/
def submitted (request : JobCreate) (jobId : UUID) (now : Int) : JobRecord where
  id := jobId
  handler := request.handler
  payload := request.payload
  status := .queued
  priority := request.priority
  maxRetries := request.maxRetries
  timeoutSeconds := request.timeoutSeconds
  attemptCount := 0
  nextRunAt := initialNextRunAt (ensureAware request.runAt) now
  runAt := ensureAware request.runAt
  recurringCron := request.recurringCron
  lockedBy := none
  lockedAt := none
  kafkaMessageKey := some jobId.str
  lastError := none
  result := none
  idempotencyKey := request.idempotencyKey
  createdAt := now
  updatedAt := now
  processedAt := none

/-- The record `create_next_recurring_job` stores for the run after `job`. -/
def successor (job : JobRecord) (nextJobId : UUID) (nextRunAt now : Int) : JobRecord where
  id := nextJobId
  handler := job.handler
  payload := job.payload
  status := .queued
  priority := job.priority
  maxRetries := job.maxRetries
  timeoutSeconds := job.timeoutSeconds
  attemptCount := 0
  nextRunAt := nextRunAt
  runAt := some nextRunAt
  recurringCron := job.recurringCron
  lockedBy := none
  lockedAt := none
  kafkaMessageKey := some nextJobId.str
  lastError := none
  result := none
  idempotencyKey := none
  createdAt := now
  updatedAt := now
  processedAt := none

/-- The record `claim_job` leaves. -/
def claim (job : JobRecord) (workerId : String) (now : Int) : JobRecord :=
  { job with
    status := .running, lockedBy := some workerId, lockedAt := some now,
    attemptCount := job.attemptCount + 1, updatedAt := now }

/-- The record `mark_succeeded` leaves, whatever the status was. -/
def succeed (job : JobRecord) (result : JsonObject) (now : Int) : JobRecord :=
  { job with
    status := .succeeded, result := some result, lockedBy := none, lockedAt := none,
    updatedAt := now, processedAt := some now }

def exhausted (job : JobRecord) : Bool := job.maxRetries < job.attemptCount

/-- The record `mark_failed_attempt` leaves, whatever the status was. -/
def fail (job : JobRecord) (error : String) (backoffSeconds : Int) (now : Int) : JobRecord :=
  { job with
    status := if job.exhausted then .deadLettered else .failed
    lastError := some error, lockedBy := none, lockedAt := none,
    nextRunAt := now + seconds backoffSeconds, updatedAt := now,
    processedAt := if job.exhausted then some now else none }

/-- The record `cancel_job` leaves. -/
def cancel (job : JobRecord) (now : Int) : JobRecord :=
  { job with status := .cancelled, updatedAt := now, processedAt := some now }

/-- The fields no operation ever changes. -/
structure SameRequest (job job' : JobRecord) : Prop where
  id : job'.id = job.id
  handler : job'.handler = job.handler
  payload : job'.payload = job.payload
  priority : job'.priority = job.priority
  maxRetries : job'.maxRetries = job.maxRetries
  timeoutSeconds : job'.timeoutSeconds = job.timeoutSeconds
  runAt : job'.runAt = job.runAt
  recurringCron : job'.recurringCron = job.recurringCron
  kafkaMessageKey : job'.kafkaMessageKey = job.kafkaMessageKey
  idempotencyKey : job'.idempotencyKey = job.idempotencyKey
  createdAt : job'.createdAt = job.createdAt

theorem SameRequest.refl (job : JobRecord) : SameRequest job job := by
  constructor <;> rfl

theorem SameRequest.trans {a b c : JobRecord} (h : SameRequest a b) (h' : SameRequest b c) :
    SameRequest a c :=
  ⟨h'.id.trans h.id, h'.handler.trans h.handler, h'.payload.trans h.payload,
    h'.priority.trans h.priority, h'.maxRetries.trans h.maxRetries,
    h'.timeoutSeconds.trans h.timeoutSeconds, h'.runAt.trans h.runAt,
    h'.recurringCron.trans h.recurringCron, h'.kafkaMessageKey.trans h.kafkaMessageKey,
    h'.idempotencyKey.trans h.idempotencyKey, h'.createdAt.trans h.createdAt⟩

theorem sameRequest_claim (job : JobRecord) (workerId : String) (now : Int) :
    SameRequest job (job.claim workerId now) := by
  constructor <;> rfl

theorem sameRequest_succeed (job : JobRecord) (result : JsonObject) (now : Int) :
    SameRequest job (job.succeed result now) := by
  constructor <;> rfl

theorem sameRequest_fail (job : JobRecord) (error : String) (backoff now : Int) :
    SameRequest job (job.fail error backoff now) := by
  constructor <;> rfl

theorem sameRequest_cancel (job : JobRecord) (now : Int) : SameRequest job (job.cancel now) := by
  constructor <;> rfl

@[simp] theorem succeed_status (job : JobRecord) (result : JsonObject) (now : Int) :
    (job.succeed result now).status = .succeeded := rfl

@[simp] theorem claim_status (job : JobRecord) (workerId : String) (now : Int) :
    (job.claim workerId now).status = .running := rfl

@[simp] theorem cancel_status (job : JobRecord) (now : Int) :
    (job.cancel now).status = .cancelled := rfl

theorem fail_status (job : JobRecord) (error : String) (backoff now : Int) :
    (job.fail error backoff now).status = if job.exhausted then .deadLettered else .failed := rfl

/-! ## Equality -/

/-- The record with its objects in canonical form. -/
def canonical (job : JobRecord) : JobRecord :=
  { job with payload := canonicalFields job.payload, result := job.result.map canonicalFields }

/-- `==` of the dataclass: field by field, dictionaries up to the order of their keys. -/
def Same (job job' : JobRecord) : Prop := job.canonical = job'.canonical

end JobRecord

end JobPipeline
