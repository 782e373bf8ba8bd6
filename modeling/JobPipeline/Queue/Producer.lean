import JobPipeline.Jobs.Record

/-!
# The producers (`queue/kafka.py`)

`FakeJobProducer` is the producer the service is tested with: two logs and a flag that stands
for the broker being reachable. `due_at` is kept as the instant whose `isoformat` is sent.
-/

set_option autoImplicit false

namespace JobPipeline

structure JobMessage where
  jobId : UUID
  handler : String
  priority : Nat
  dueAt : Int
  attempt : Nat
deriving DecidableEq

structure DeadLetterMessage where
  jobId : UUID
  handler : String
  attempt : Nat
deriving DecidableEq

structure FakeJobProducer where
  published : List JobMessage
  deadLetters : List DeadLetterMessage
  available : Bool

namespace FakeJobProducer

/-- `FakeJobProducer()`. -/
def empty : FakeJobProducer := ⟨[], [], true⟩

def publishJob (p : FakeJobProducer) (message : JobMessage) : Except Exc FakeJobProducer :=
  if ¬ p.available then
    .error (.service (dependencyUnavailableError "Kafka publish failed"
      [("job_id", .str message.jobId.str)]))
  else .ok { p with published := p.published ++ [message] }

def publishDeadLetter (p : FakeJobProducer) (message : DeadLetterMessage) :
    Except Exc FakeJobProducer :=
  if ¬ p.available then
    .error (.service (dependencyUnavailableError "Kafka dead-letter publish failed"
      [("job_id", .str message.jobId.str)]))
  else .ok { p with deadLetters := p.deadLetters ++ [message] }

/-- Publishing fails in one way only. -/
theorem publishJob_error {p : FakeJobProducer} {message : JobMessage} {e : Exc}
    (h : p.publishJob message = .error e) : e.className = "DependencyUnavailableError" := by
  unfold publishJob at h
  split at h
  · cases h
    rfl
  · cases h

theorem publishJob_ok {p p' : FakeJobProducer} {message : JobMessage}
    (h : p.publishJob message = .ok p') : p' = { p with published := p.published ++ [message] } := by
  unfold publishJob at h
  split at h
  · cases h
  · cases h
    rfl

theorem publishDeadLetter_error {p : FakeJobProducer} {message : DeadLetterMessage} {e : Exc}
    (h : p.publishDeadLetter message = .error e) :
    e = .service (dependencyUnavailableError "Kafka dead-letter publish failed"
      [("job_id", .str message.jobId.str)]) := by
  unfold publishDeadLetter at h
  split at h
  · cases h
    rfl
  · cases h

theorem publishDeadLetter_ok {p p' : FakeJobProducer} {message : DeadLetterMessage}
    (h : p.publishDeadLetter message = .ok p') :
    p' = { p with deadLetters := p.deadLetters ++ [message] } := by
  unfold publishDeadLetter at h
  split at h
  · cases h
  · cases h
    rfl

end FakeJobProducer

/-- The arguments `submit_job` and `publish_due_jobs` pass to `publish_job`. -/
def JobRecord.message (job : JobRecord) : JobMessage :=
  ⟨job.id, job.handler, job.priority, job.nextRunAt, job.attemptCount⟩

/-- The arguments `process_job` passes to `publish_dead_letter`. -/
def JobRecord.deadLetterMessage (job : JobRecord) : DeadLetterMessage :=
  ⟨job.id, job.handler, job.attemptCount⟩

end JobPipeline
