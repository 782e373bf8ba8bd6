import JobPipeline.Jobs.InMemory
import JobPipeline.Queue.Producer
import JobPipeline.Lib.Transition

/-!
# `JobService` over `InMemoryJobRepository`, step by step

`submit_job` and `process_job` are sequences of repository and producer calls; a repository call
holds the lock, so it is one atomic step, and between two calls of one thread any other thread
may make its own. A `Call` is the program point of one method call with the local variables it
still needs, and `act` is one step of one call.

What a step reads from outside is in its label: the clock, the identifier `uuid4` draws, what
the handler run came to, whether the producer is reachable. `step` refuses a clock that runs
backwards and an identifier already in use.
-/

set_option autoImplicit false

namespace JobPipeline

/-- What `_run_with_timeout` came to: the handler's value, or the exception it raised (the
    handler's own failure, a timeout, a child that left no result, a failed `fork`). -/
inductive Outcome where
  | value (result : JsonObject)
  | raised (exc : Exc)

/-- `str(exc) or exc.__class__.__name__`. -/
def errorText (exc : Exc) : String := if exc.text = "" then exc.className else exc.text

/-- `JobService._backoff_seconds`. -/
def backoffSeconds (attemptCount : Nat) : Nat := min (2 ^ (attemptCount - 1)) 300

/-- `JobService._validate_payload_size`. -/
def validatePayloadSize (settings : Settings) (payload : JsonObject) : Except Exc Unit :=
  if settings.maxPayloadBytes < (Json.obj payload).dumpsLength then
    .error (.service (badRequestError "Payload too large"
      [("max_payload_bytes", .num (toString settings.maxPayloadBytes))]))
  else .ok ()

abbrev CallId := Nat

/-- Where a call of `submit_job` or `process_job` stands. -/
inductive Call where
  /-- Not started. -/
  | idle
  /-- `submit_job`: stored, not yet published. -/
  | publishing (job : JobRecord)
  /-- `submit_job` returned. -/
  | submitted (job : JobRecord) (replay : Bool)
  /-- `process_job`: claimed; the handler is running. -/
  | running (job : JobRecord)
  /-- The handler returned. -/
  | handled (job : JobRecord) (result : JsonObject)
  /-- `mark_succeeded` returned `succeeded`. -/
  | marked (job succeeded : JobRecord)
  /-- In the `except` block; `succeeded` is that local variable, if it was bound. -/
  | excepted (job : JobRecord) (exc : Exc) (succeeded : Option JobRecord)
  /-- `mark_failed_attempt` dead-lettered the job; its event is not yet published. -/
  | deadLettering (updated : JobRecord)
  /-- `process_job` returned. -/
  | returned (job : Option JobRecord)
  /-- The call raised. -/
  | raised (exc : Exc)

/-- What happened to the jobs so far, latest first. The history is never read by a step; the
    records are those the repository stored, so `updated_at` is the time of the event. -/
inductive Event where
  | created (job : JobRecord)
  | claimed (job : JobRecord)
  | succeeded (job : JobRecord)
  | scheduled (parent next : JobRecord)
  | failed (job : JobRecord)
  | cancelled (job : JobRecord)

structure State where
  repository : InMemoryJobRepository
  producer : FakeJobProducer
  clock : Int
  calls : CallId → Call
  history : List Event

/-- An empty repository, an empty producer and no call. -/
def State.initial : State :=
  { repository := .empty, producer := .empty, clock := 0, calls := fun _ => .idle, history := [] }

inductive Action where
  /-- `submit_job(request)` up to the publish; `uuid4` draws `jobId`. -/
  | submit (c : CallId) (request : JobCreate) (jobId : UUID)
  /-- `submit_job`: `publish_job`. -/
  | publish (c : CallId)
  /-- `process_job(job_id, worker_id)`: `claim_job` and `get_handler`. -/
  | claim (c : CallId) (jobId : UUID) (workerId : String)
  /-- The handler run ends. -/
  | finish (c : CallId) (outcome : Outcome)
  | markSucceeded (c : CallId)
  | createNext (c : CallId) (nextJobId : UUID)
  | markFailed (c : CallId)
  | publishDeadLetter (c : CallId)
  | cancel (jobId : UUID)
  | setDrain (enabled : Bool)
  /-- The producer becomes reachable or unreachable. -/
  | setAvailable (available : Bool)

/-- A step's label: the clock reading of the step and what is done. -/
structure Label where
  now : Int
  action : Action

/-- The call an action is a step of. -/
def Action.call : Action → Option CallId
  | .submit c _ _ => some c
  | .publish c => some c
  | .claim c _ _ => some c
  | .finish c _ => some c
  | .markSucceeded c => some c
  | .createNext c _ => some c
  | .markFailed c => some c
  | .publishDeadLetter c => some c
  | _ => none

namespace State

def setCall (s : State) (c : CallId) (call : Call) : State :=
  { s with calls := Function.update s.calls c call }

/-- The repository after a call, and what to remember of it. -/
def record (s : State) (repository : InMemoryJobRepository) (event : Event) : State :=
  { s with repository := repository, history := event :: s.history }

/-- `submit_job` up to its publish. -/
def submitJob (settings : Settings) (s : State) (c : CallId) (request : JobCreate) (now : Int)
    (jobId : UUID) : State :=
  match getHandler request.handler with
  | .error e => s.setCall c (.raised e)
  | .ok _ =>
    match validatePayloadSize settings request.payload with
    | .error e => s.setCall c (.raised e)
    | .ok _ =>
      match s.repository.createJob request now jobId with
      | .error e => s.setCall c (.raised e)
      | .ok ((job, true), _) => s.setCall c (.submitted job true)
      | .ok ((job, false), repository) =>
        (s.record repository (.created job)).setCall c (.publishing job)

/-- `process_job` up to the handler run. -/
def claimJob (s : State) (c : CallId) (jobId : UUID) (workerId : String) (now : Int) : State :=
  match s.repository.claimJob jobId workerId now with
  | (none, _) => s.setCall c (.returned none)
  | (some job, repository) =>
    let s := s.record repository (.claimed job)
    -- `get_handler` stands before the `try`: what it raises leaves `process_job`.
    match getHandler job.handler with
    | .error e => s.setCall c (.raised e)
    | .ok _ => s.setCall c (.running job)

/-- One step of the service at time `now`; `none` when the action is not enabled. -/
def act (settings : Settings) (s : State) (now : Int) : Action → Option State
  | .submit c request jobId =>
    match s.calls c with
    | .idle =>
      if s.repository.jobs.contains jobId then none
      else some (s.submitJob settings c request now jobId)
    | _ => none
  | .publish c =>
    match s.calls c with
    | .publishing job =>
      match s.producer.publishJob job.message with
      | .error e => some (s.setCall c (.raised e))
      | .ok producer => some ({ s with producer := producer }.setCall c (.submitted job false))
    | _ => none
  | .claim c jobId workerId =>
    match s.calls c with
    | .idle => some (s.claimJob c jobId workerId now)
    | _ => none
  | .finish c outcome =>
    match s.calls c with
    | .running job =>
      match outcome with
      | .value result => some (s.setCall c (.handled job result))
      | .raised exc => some (s.setCall c (.excepted job exc none))
    | _ => none
  | .markSucceeded c =>
    match s.calls c with
    | .handled job result =>
      match s.repository.markSucceeded job.id result now with
      | .error e => some (s.setCall c (.excepted job e none))
      | .ok (succeeded, repository) =>
        some ((s.record repository (.succeeded succeeded)).setCall c (.marked job succeeded))
    | _ => none
  | .createNext c nextJobId =>
    match s.calls c with
    | .marked job succeeded =>
      if s.repository.jobs.contains nextJobId then none
      else
        match s.repository.createNextRecurringJob succeeded now nextJobId with
        | .error e => some (s.setCall c (.excepted job e (some succeeded)))
        | .ok (none, _) => some (s.setCall c (.returned (some succeeded)))
        | .ok (some next, repository) =>
          some ((s.record repository (.scheduled succeeded next)).setCall c
            (.returned (some succeeded)))
    | _ => none
  | .markFailed c =>
    match s.calls c with
    | .excepted job exc _ =>
      match s.repository.markFailedAttempt job.id (errorText exc)
          (backoffSeconds job.attemptCount) now with
      | .error e => some (s.setCall c (.raised e))
      | .ok (updated, repository) =>
        some ((s.record repository (.failed updated)).setCall c
          (if updated.status = .deadLettered then .deadLettering updated
           else .returned (some updated)))
    | _ => none
  | .publishDeadLetter c =>
    match s.calls c with
    | .deadLettering updated =>
      match s.producer.publishDeadLetter updated.deadLetterMessage with
      | .error e => some (s.setCall c (.raised e))
      | .ok producer =>
        some ({ s with producer := producer }.setCall c (.returned (some updated)))
    | _ => none
  | .cancel jobId =>
    match s.repository.cancelJob jobId now with
    | .error _ => some s
    | .ok (job, repository) => some (s.record repository (.cancelled job))
  | .setDrain enabled => some { s with repository := s.repository.setDrain enabled }
  | .setAvailable available =>
    some { s with producer := { s.producer with available := available } }

/-- One step. Time does not run backwards. -/
def step (settings : Settings) (s : State) (label : Label) : Option State :=
  if label.now < s.clock then none
  else act settings { s with clock := label.now } label.now label.action

/-! ## Calls step one at a time -/

variable {settings : Settings} {s s' : State} {c : CallId}

@[simp] theorem setCall_self (s : State) (c : CallId) (call : Call) :
    (s.setCall c call).calls c = call := by simp [setCall]

theorem setCall_calls (s : State) (c c' : CallId) (call : Call) :
    (s.setCall c call).calls c' = if c' = c then call else s.calls c' := by
  simp only [setCall, Function.update_apply]

@[simp] theorem setCall_repository (s : State) (c : CallId) (call : Call) :
    (s.setCall c call).repository = s.repository := rfl
@[simp] theorem setCall_producer (s : State) (c : CallId) (call : Call) :
    (s.setCall c call).producer = s.producer := rfl
@[simp] theorem setCall_history (s : State) (c : CallId) (call : Call) :
    (s.setCall c call).history = s.history := rfl
@[simp] theorem record_calls (s : State) (r : InMemoryJobRepository) (e : Event) :
    (s.record r e).calls = s.calls := rfl

/-- Other calls stay where they are. -/
theorem submitJob_calls (settings : Settings) (s : State) (request : JobCreate) (now : Int)
    (jobId : UUID) {c' : CallId} (hne : c' ≠ c) :
    (s.submitJob settings c request now jobId).calls c' = s.calls c' := by
  unfold submitJob
  split
  · rw [setCall_calls, if_neg hne]
  · split
    · rw [setCall_calls, if_neg hne]
    · split <;> rw [setCall_calls, if_neg hne]
      rfl

theorem claimJob_calls (s : State) (jobId : UUID) (workerId : String) (now : Int) {c' : CallId}
    (hne : c' ≠ c) : (s.claimJob c jobId workerId now).calls c' = s.calls c' := by
  unfold claimJob
  split
  · rw [setCall_calls, if_neg hne]
  · dsimp only
    split <;> rw [setCall_calls, if_neg hne] <;> rfl

/-- **A step of one call leaves the others where they are.** -/
theorem act_calls {now : Int} {action : Action} (h : act settings s now action = some s')
    (hc : action.call ≠ some c) : s'.calls c = s.calls c := by
  cases action with
  | submit c' request jobId =>
    have hne : c ≠ c' := by rintro rfl; exact hc rfl
    simp only [act] at h
    split at h
    · split at h
      · cases h
      · cases h
        exact submitJob_calls settings s request now jobId hne
    · cases h
  | claim c' jobId workerId =>
    have hne : c ≠ c' := by rintro rfl; exact hc rfl
    simp only [act] at h
    split at h
    · cases h
      exact claimJob_calls s jobId workerId now hne
    · cases h
  | cancel jobId =>
    simp only [act] at h
    split at h <;> cases h <;> rfl
  | setDrain enabled => cases h; rfl
  | setAvailable available => cases h; rfl
  | publish c' | finish c' outcome | markSucceeded c' | createNext c' nextJobId | markFailed c'
  | publishDeadLetter c' =>
    have hne : c ≠ c' := by rintro rfl; exact hc rfl
    simp only [act] at h
    repeat' split at h
    all_goals cases h
    all_goals exact Function.update_of_ne hne _ _

/-- A run leaves the calls it makes no step of where they are. -/
theorem replay_calls {labels : List Label} (hc : ∀ label ∈ labels, label.action.call ≠ some c)
    {s s' : State} (h : Transition.System.replay (step settings) s labels = some s') :
    s'.calls c = s.calls c := by
  refine Transition.System.replay_invariant (I := fun t => t.calls c = s.calls c) ?_ h rfl
  intro label hmem t t' hcalls hs
  unfold step at hs
  split at hs
  · cases hs
  · exact (act_calls hs (hc label hmem)).trans hcalls

end State

/-- The runs of `JobService` over an initially empty `InMemoryJobRepository`. -/
def service (settings : Settings) : Transition.System State Label :=
  .ofFunction (· = State.initial) (State.step settings)

end JobPipeline
