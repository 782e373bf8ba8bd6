import JobPipeline.Queue.Messages
import JobPipeline.Sql.Processing
import JobPipeline.Sql.Repository
import JobPipeline.Worker.Loop

/-!
# The worker loop over its messages

`Worker.Loop` leaves open what `_publish_due_jobs` and `_process_message` come to. Here they are
worked out: the worker runs `publish_due_jobs` on the tables of `Sql.Sessions`, and each
`_process_message` is a session of its own there, in which other workers and the API take steps
at any time and the broker of the producers comes and goes. The value of a message is whatever
JSON its log holds.

Neither call stands in a `try`, so an exception of either leaves the `for` and the `while`.
-/

set_option autoImplicit false

namespace JobPipeline

open Transition (System Any)

/-- What a step of `run` is in the middle of. -/
inductive MessageLoop.Activity where
  | none
  /-- In `publish_due_jobs`, with these jobs still to be published. -/
  | scheduling (jobs : List JobRecord)
  /-- In the `process_job` that is this call. -/
  | processing (call : CallId)

/-- How `run` came to its end. -/
inductive MessageLoop.Ending where
  /-- `running` was false at the head of the `while`. -/
  | finished
  /-- `_publish_due_jobs` or `_process_message` raised. -/
  | raised (exc : Exc)
  /-- The process was killed, or `consumer.commit` raised. -/
  | lost

/-- The worker, and the service it works for. `batch` is what was polled last, `called` for what
    of it `_process_message` was called; no step reads `ending`, `batch` or `called`. -/
structure MessageLoop where
  worker : Worker
  service : Sql.State
  activity : MessageLoop.Activity
  ending : Option MessageLoop.Ending
  batch : List ConsumerRecord
  called : List ConsumerRecord

namespace MessageLoop

inductive Action where
  /-- A step of the loop itself or of the broker. -/
  | loop (action : Worker.Action)
  /-- A step of a session: of the `process_job` in progress, or of anyone else's call. -/
  | service (label : Sql.Label)
  /-- `due_jobs`; PostgreSQL visits the rows in this order. -/
  | dueJobs (now : Int) (order : List UUID)
  | publishDueJob
  | dueJobsPublished
  /-- `_process_message` of the next message, up to `get_drain`. -/
  | processMessage (now : Int) (call : CallId)

section Steps

variable (settings : Settings) (jsonb : Jsonb) (assigned : List TopicPartition)
  (value : ConsumerRecord → Json)

/-- What is noted beside a step of the loop itself. -/
def note (w : MessageLoop) (worker : Worker) : Worker.Action → MessageLoop
  | .poll _ => { w with worker := worker, batch := worker.left, called := [] }
  | .next =>
    { w with
      worker := worker
      ending := if worker.point = .stopped then some .finished else w.ending }
  | .commit false => { w with worker := worker, ending := some .lost }
  | .crash =>
    { w with worker := worker, activity := .none, ending := some (w.ending.getD .lost) }
  | .restart =>
    { w with worker := worker, activity := .none, ending := none, batch := [], called := [] }
  | _ => { w with worker := worker }

/-- `_publish_due_jobs` or `_process_message` raises. -/
def raise (w : MessageLoop) (action : Worker.Action) (exc : Exc) : Option MessageLoop :=
  (w.worker.step settings assigned action).map fun worker =>
    { w with worker := worker, activity := .none, ending := some (.raised exc) }

/-- `_publish_due_jobs` or `_process_message` returns. -/
def returns (w : MessageLoop) (action : Worker.Action) : Option MessageLoop :=
  (w.worker.step settings assigned action).map fun worker =>
    { w with worker := worker, activity := .none }

/-- `_process_message` ends as its `process_job` does. -/
def settle (w : MessageLoop) (call : CallId) : Option MessageLoop :=
  match w.service.sessions call with
  | .returned _ => w.returns settings assigned (.processMessage true)
  | .raised exc => w.raise settings assigned (.processMessage false) exc
  | _ => some { w with activity := .processing call }

/-- One step; `none` when the action is not enabled. -/
def step (w : MessageLoop) : Action → Option MessageLoop
  | .loop (.publishDueJobs _) | .loop (.processMessage _) => none
  | .loop action =>
    (w.worker.step settings assigned action).map fun worker => w.note worker action
  | .service label =>
    match w.service.step settings jsonb label with
    | none => none
    | some service =>
      match w.activity with
      | .processing call => { w with service := service }.settle settings assigned call
      | _ => some { w with service := service }
  | .dueJobs now order =>
    match w.worker.point, w.activity with
    | .polled _, .none =>
      if order.Perm w.service.db.jobs.keys then
        let rows := order.filterMap w.service.db.jobs.get?
        some { w with
          activity := .scheduling
            (SqlAlchemyJobRepository.dueJobs rows settings.workerBatchSize now) }
      else none
    | _, _ => none
  | .publishDueJob =>
    match w.activity with
    | .scheduling (job :: rest) =>
      match w.service.producer.publishJob job.message with
      | .error exc => w.raise settings assigned (.publishDueJobs false) exc
      | .ok producer =>
        some { w with
          service := { w.service with producer := producer }, activity := .scheduling rest }
    | _ => none
  | .dueJobsPublished =>
    match w.activity with
    | .scheduling [] => w.returns settings assigned (.publishDueJobs true)
    | _ => none
  | .processMessage now call =>
    match w.worker.point, w.activity with
    | .looping (message :: _), .none =>
      let w := { w with called := message :: w.called }
      match messageJobId (value message) with
      | .error exc => w.raise settings assigned (.processMessage false) exc
      | .ok jobId =>
        match w.service.act settings jsonb now (.process call jobId settings.workerId) with
        | none => none
        | some service => { w with service := service }.settle settings assigned call
    | _, _ => none

/-- A new worker, with the service in any state that its sessions can bring it to. -/
structure Initial (w : MessageLoop) : Prop where
  worker : w.worker = .initial
  service : (Sql.sessions settings jsonb).Reachable Any w.service
  activity : w.activity = .none
  ending : w.ending = none
  batch : w.batch = []
  called : w.called = []

/-- The runs of a worker, through any number of ends and restarts. -/
def system : System MessageLoop Action :=
  .ofFunction (Initial settings jsonb) (step settings jsonb assigned value)

end Steps

/-! ## What the loop above leaves open

A step here is a step of `Worker` or none of it, so what holds of every run of `Worker`, whatever
its calls come to, holds of the loop over its messages. -/

section Simulation

variable {settings : Settings} {jsonb : Jsonb} {assigned : List TopicPartition}
  {value : ConsumerRecord → Json} {w w' : MessageLoop} {call : CallId}

/-- A step of the loop with an outcome of one of its calls, or no step of the loop. -/
def StepsWorker (settings : Settings) (assigned : List TopicPartition) (worker worker' : Worker) :
    Prop :=
  worker' = worker ∨ ∃ action, action ≠ .commit true ∧
    worker.step settings assigned action = some worker'

theorem raise_worker {action : Worker.Action} {exc : Exc} (hne : action ≠ .commit true)
    (hs : w.raise settings assigned action exc = some w') :
    StepsWorker settings assigned w.worker w'.worker := by
  obtain ⟨worker, hstep, rfl⟩ := Option.map_eq_some_iff.mp hs
  exact Or.inr ⟨action, hne, hstep⟩

theorem returns_worker {action : Worker.Action} (hne : action ≠ .commit true)
    (hs : w.returns settings assigned action = some w') :
    StepsWorker settings assigned w.worker w'.worker := by
  obtain ⟨worker, hstep, rfl⟩ := Option.map_eq_some_iff.mp hs
  exact Or.inr ⟨action, hne, hstep⟩

theorem settle_worker (hs : w.settle settings assigned call = some w') :
    StepsWorker settings assigned w.worker w'.worker := by
  unfold settle at hs
  split at hs
  · exact returns_worker (by simp) hs
  · exact raise_worker (by simp) hs
  · cases hs
    exact Or.inl rfl

theorem loop_worker {action : Worker.Action}
    (hs : step settings jsonb assigned value w (.loop action) = some w') :
    w.worker.step settings assigned action = some w'.worker := by
  have hnote : ∀ worker action, (w.note worker action).worker = worker := by
    intro worker action
    unfold note
    split <;> rfl
  cases action with
  | publishDueJobs | processMessage => cases hs
  | produce | stop | crash =>
    cases hs
    rfl
  | poll | commit | next | restart =>
    obtain ⟨worker, hstep, rfl⟩ := Option.map_eq_some_iff.mp hs
    rw [hnote]
    exact hstep

/-- Only the loop itself commits. -/
theorem step_worker {action : Action} (hs : step settings jsonb assigned value w action = some w')
    (hloop : ∀ b, action ≠ .loop b) : StepsWorker settings assigned w.worker w'.worker := by
  cases action with
  | loop b => exact absurd rfl (hloop b)
  | service label =>
    simp only [step] at hs
    split at hs
    · cases hs
    · split at hs
      · have hworker := settle_worker hs
        exact hworker
      · cases hs
        exact Or.inl rfl
  | dueJobs now order =>
    simp only [step] at hs
    split at hs
    · split at hs
      · cases hs
        exact Or.inl rfl
      · cases hs
    · cases hs
  | publishDueJob =>
    simp only [step] at hs
    split at hs
    · split at hs
      · exact raise_worker (by simp) hs
      · cases hs
        exact Or.inl rfl
    · cases hs
  | dueJobsPublished =>
    simp only [step] at hs
    split at hs
    · exact returns_worker (by simp) hs
    · cases hs
  | processMessage now call =>
    simp only [step] at hs
    split at hs
    · split at hs
      · have hworker := raise_worker (by simp) hs
        exact hworker
      · split at hs
        · cases hs
        · have hworker := settle_worker hs
          exact hworker
    · cases hs

/-- The guard of `Worker`, on the commits of this loop. -/
def Drained (w : MessageLoop) (action : Action) : Prop :=
  ∀ b, action = .loop b → w.worker.Drained b

theorem simulates : Transition.Simulates (system settings jsonb assigned value) Drained
    (Worker.system settings assigned) Worker.Drained (fun _ => True) worker where
  init := fun w h => h.worker
  step := by
    intro w action w' _ hok hs
    by_cases hloop : ∃ b, action = .loop b
    · obtain ⟨b, rfl⟩ := hloop
      exact Or.inr ⟨b, hok b rfl, loop_worker hs⟩
    · rcases step_worker hs fun b hb => hloop ⟨b, hb⟩ with heq | ⟨b, hne, hstep⟩
      · exact Or.inl heq
      · exact Or.inr ⟨b, fun hcommit => absurd hcommit hne, hstep⟩

/-- **The law of committed offsets**, with the calls worked out. -/
theorem committedProcessed (h : (system settings jsonb assigned value).Reachable Drained w) :
    w.worker.CommittedProcessed :=
  (Worker.inv_of_reachable (simulates.reachable (fun _ _ => trivial) h)).committed

end Simulation

end MessageLoop

end JobPipeline
