import JobPipeline.Jobs.Scheduling

/-!
# Requests, statuses, handlers and settings

`core/enums.py`, `core/config.py`, `jobs/schemas.py` and the registry of `jobs/handlers.py`. A
`JobCreate` carries as fields the proofs of what the request model checked, so every function
that takes one may rely on them and none has to check again.
-/

set_option autoImplicit false

namespace JobPipeline

inductive JobStatus where
  | queued
  | running
  | succeeded
  | failed
  | deadLettered
  | cancelled
deriving DecidableEq, Repr

def JobStatus.value : JobStatus → String
  | .queued => "queued"
  | .running => "running"
  | .succeeded => "succeeded"
  | .failed => "failed"
  | .deadLettered => "dead_lettered"
  | .cancelled => "cancelled"

/-- `status in {JobStatus.QUEUED, JobStatus.FAILED}`: waiting for a worker. -/
def JobStatus.isPending : JobStatus → Bool
  | .queued | .failed => true
  | _ => false

/-- A status the README calls terminal. -/
def JobStatus.isTerminal : JobStatus → Bool
  | .succeeded | .deadLettered | .cancelled => true
  | _ => false

theorem JobStatus.isTerminal_iff {status : JobStatus} :
    status.isTerminal = true ↔
      status = .succeeded ∨ status = .deadLettered ∨ status = .cancelled := by
  cases status <;> simp [isTerminal]

theorem JobStatus.not_terminal_of_pending {status : JobStatus} (h : status.isPending = true) :
    status.isTerminal = false := by
  cases status <;> simp_all [isPending, isTerminal]

inductive AttemptStatus where
  | running
  | succeeded
  | failed
  | timeout
deriving DecidableEq, Repr

/-- The settings the modelled functions read. -/
structure Settings where
  maxPageSize : Nat := 100
  maxPayloadBytes : Nat := 64 * 1024
  kafkaSubmittedHighTopic : String := "jobs.submitted.high"
  kafkaSubmittedDefaultTopic : String := "jobs.submitted.default"
  kafkaSubmittedLowTopic : String := "jobs.submitted.low"
  kafkaRetryTopic : String := "jobs.retry"
  kafkaDeadLetterTopic : String := "jobs.dead_lettered"
  workerId : String := "worker-local"
  workerBatchSize : Nat := 10

/-! ## The handler registry -/

inductive JobHandler where
  | echoHandler
  | alwaysFailHandler
  | failOnceHandler
  | sleepHandler
deriving DecidableEq, Repr

/-- `HANDLERS`. -/
def handlers : List (String × JobHandler) :=
  [("echo", .echoHandler), ("always_fail", .alwaysFailHandler), ("fail_once", .failOnceHandler),
   ("sleep", .sleepHandler)]

def getHandler (name : String) : Except Exc JobHandler :=
  match handlers.lookup name with
  | some handler => .ok handler
  | none => .error (.service (badRequestError "Unsupported job handler" [("handler", .str name)]))

/-- The registry knows the name. -/
def Supported (name : String) : Prop := ∃ handler, getHandler name = .ok handler

/-! ## `JobCreate` -/

/-- A validated submission. `handler` is stored stripped and `recurring_cron` normalised, so what
    the model remembers of those two is a raw text that was accepted. -/
structure JobCreate where
  handler : String
  payload : JsonObject
  priority : Nat := 0
  maxRetries : Nat := 3
  timeoutSeconds : Nat := 30
  runAt : Option DateTime := none
  recurringCron : Option String := none
  idempotencyKey : Option String := none
  handler_accepted : ∃ raw : String, 1 ≤ raw.length ∧ raw.length ≤ 100 ∧ handler = PyStr.strip raw
  priority_le : priority ≤ 10
  maxRetries_le : maxRetries ≤ 10
  timeoutSeconds_mem : 1 ≤ timeoutSeconds ∧ timeoutSeconds ≤ 300
  cron_accepted : ∀ e ∈ recurringCron, ∃ raw : String, 9 ≤ raw.length ∧ raw.length ≤ 100 ∧
    validateCronExpression raw = .ok e
  key_accepted : ∀ k ∈ idempotencyKey, 1 ≤ k.length ∧ k.length ≤ 200

/-- The stored expression is accepted unchanged. -/
theorem JobCreate.cron_valid (request : JobCreate) {e : String} (h : e ∈ request.recurringCron) :
    validateCronExpression e = .ok e :=
  let ⟨_, _, _, hraw⟩ := request.cron_accepted e h
  validateCronExpression_idem hraw

theorem JobCreate.key_ne_empty (request : JobCreate) : request.idempotencyKey ≠ some "" := by
  intro hkey
  have hlength := (request.key_accepted "" hkey).1
  simp at hlength

/-! ## Sample values -/

namespace Sample

def jobId : UUID := ⟨"00000000-0000-4000-8000-000000000001", by decide⟩

def nextJobId : UUID := ⟨"00000000-0000-4000-8000-000000000002", by decide⟩

/-- A submission with every default. -/
def request : JobCreate where
  handler := "echo"
  payload := []
  handler_accepted := ⟨"echo", by decide, by decide, by decide⟩
  priority_le := by decide
  maxRetries_le := by decide
  timeoutSeconds_mem := by decide
  cron_accepted := by simp
  key_accepted := by simp

/-- The same, recurring. -/
def request.recurring (cron : String)
    (accepted : 9 ≤ cron.length ∧ cron.length ≤ 100 ∧ validateCronExpression cron = .ok cron) :
    JobCreate :=
  { request with
    recurringCron := some cron
    cron_accepted := by
      intro e he
      cases he
      exact ⟨cron, accepted⟩ }

/-- The same, with no second attempt. -/
def request.unretried : JobCreate := { request with maxRetries := 0, maxRetries_le := by decide }

/-- The same, with one. -/
def request.retriedOnce : JobCreate := { request with maxRetries := 1, maxRetries_le := by decide }

/-- The same, of the highest priority. -/
def request.urgent : JobCreate := { request with priority := 10, priority_le := by decide }

/-- The same, under an idempotency key. -/
def request.keyed (key : String) (accepted : 1 ≤ key.length ∧ key.length ≤ 200) : JobCreate :=
  { request with
    idempotencyKey := some key
    key_accepted := by
      intro k hk
      cases hk
      exact accepted }

end Sample

end JobPipeline
