import JobPipeline.Service.RunWithTimeout

/-!
# The handlers (`jobs/handlers.py`)

Each handler as a function of the payload, which it returns or raises on, and what an attempt makes
of it: `_run_with_timeout` runs it in a process of its own, so what comes of an attempt is what the
handler came to or one of the errors of the process around it. Python's `str` of a JSON value, and
`time.sleep(float(value))` with the exception it may raise, are parameters.
-/

set_option autoImplicit false

namespace JobPipeline

section Handlers

variable (str : Json → String) (sleep : Json → Except Exc Unit)

def echoHandler (payload : JsonObject) : Except Exc JsonObject := .ok payload

def alwaysFailHandler (payload : JsonObject) : Except Exc JsonObject :=
  .error (.transient (str ((payload.lookup "message").getD (.str "handler failed"))))

/-- It fails whenever the payload says so, not once. -/
def failOnceHandler (payload : JsonObject) : Except Exc JsonObject :=
  match payload.lookup "fail" with
  | some (.bool true) => .error (.transient "configured first-attempt failure")
  | _ => .ok payload

def sleepHandler (payload : JsonObject) : Except Exc JsonObject :=
  (sleep ((payload.lookup "seconds").getD (.num "1"))).map fun _ => payload

def JobHandler.run : JobHandler → JsonObject → Except Exc JsonObject
  | .echoHandler => JobPipeline.echoHandler
  | .alwaysFailHandler => JobPipeline.alwaysFailHandler str
  | .failOnceHandler => JobPipeline.failOnceHandler
  | .sleepHandler => JobPipeline.sleepHandler sleep

/-- The handler raises on this payload every time. -/
def JobHandler.Refuses (handler : JobHandler) (payload : JsonObject) : Prop :=
  handler = .alwaysFailHandler ∨
    handler = .failOnceHandler ∧ payload.lookup "fail" = some (.bool true)

/-- **What a handler returns is its payload**, and it returns on no payload that it refuses. -/
theorem JobHandler.run_ok {handler : JobHandler} {payload result : JsonObject}
    (h : handler.run str sleep payload = .ok result) :
    result = payload ∧ ¬ handler.Refuses payload := by
  cases handler with
  | echoHandler =>
    cases h
    exact ⟨rfl, by simp [Refuses]⟩
  | alwaysFailHandler => cases h
  | failOnceHandler =>
    simp only [run, JobPipeline.failOnceHandler] at h
    split at h
    · cases h
    · rename_i hfail
      cases h
      exact ⟨rfl, by simpa [Refuses] using hfail⟩
  | sleepHandler =>
    simp only [run, JobPipeline.sleepHandler] at h
    cases hsleep : sleep ((payload.lookup "seconds").getD (.num "1")) with
    | error e => simp [hsleep, Except.map] at h
    | ok u =>
      rw [hsleep] at h
      cases h
      exact ⟨rfl, by simp [Refuses]⟩

/-! ## An attempt -/

open Transition

/-- What `_run_with_timeout` can come to for a handler and its payload. -/
inductive AttemptOutcome (handler : JobHandler) (payload : JsonObject) : Outcome → Prop where
  | ended (pickle : List UInt8) (capacity : Nat) (s : RunWithTimeout.State) (outcome : Outcome)
      (reached : (RunWithTimeout.attempt (handler.run str sleep payload) pickle capacity).Reachable
        Any s)
      (ended : s.parent = .ended outcome) : AttemptOutcome handler payload outcome
  /-- `process.start()` raises: there is no process to fork. -/
  | unstarted (text : String) : AttemptOutcome handler payload (.raised (.other "OSError" text))

/-- The texts of the errors of an attempt. -/
inductive AttemptError (handler : JobHandler) (payload : JsonObject) : String → Prop where
  | raised (exc : Exc) (raised : handler.run str sleep payload = .error exc) :
      AttemptError handler payload (errorText (.transient (errorText exc)))
  | timedOut : AttemptError handler payload "job attempt timed out"
  | noResult : AttemptError handler payload "job attempt failed without a result"
  | unstarted (text : String) : AttemptError handler payload (errorText (.other "OSError" text))

variable {str sleep}

theorem AttemptOutcome.value {handler : JobHandler} {payload result : JsonObject}
    (h : AttemptOutcome str sleep handler payload (.value result)) :
    handler.run str sleep payload = .ok result := by
  cases h with
  | ended pickle capacity s _ reached ended =>
    rcases RunWithTimeout.outcome_of_ended reached ended with heq | heq | heq
    · cases hrun : handler.run str sleep payload with
      | ok value =>
        rw [hrun] at heq
        cases heq
        rfl
      | error exc =>
        rw [hrun] at heq
        cases heq
    · cases heq
    · cases heq

theorem AttemptOutcome.error {handler : JobHandler} {payload : JsonObject} {exc : Exc}
    (h : AttemptOutcome str sleep handler payload (.raised exc)) :
    AttemptError str sleep handler payload (errorText exc) := by
  cases h with
  | unstarted text => exact .unstarted text
  | ended pickle capacity s _ reached ended =>
    rcases RunWithTimeout.outcome_of_ended reached ended with heq | heq | heq
    · cases hrun : handler.run str sleep payload with
      | ok value =>
        rw [hrun] at heq
        cases heq
      | error exc' =>
        rw [hrun] at heq
        cases heq
        exact .raised exc' hrun
    · cases heq
      exact .timedOut
    · cases heq
      exact .noResult

end Handlers

end JobPipeline
