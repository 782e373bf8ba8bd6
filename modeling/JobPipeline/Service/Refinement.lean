import JobPipeline.Service.Ledger

/-!
# The service refines the ledger

`State.ledger` reads the ledger off a service state: the repository's job map, and for every
call the record it is answerable for. Every step of the service is one move of the ledger
(`step_refines`), so `Consistent` and every law proved of moves holds of the code.

A revert is made by one step only: `mark_failed_attempt` after `mark_succeeded` had returned,
which is reached through a `create_next_recurring_job` that raised.
-/

set_option autoImplicit false

namespace JobPipeline

/-- The stored record the call is answerable for. -/
def Call.held : Call → Option JobRecord
  | .running job => some job
  | .handled job _ => some job
  | .marked _ succeeded => some succeeded
  | .excepted job _ none => some job
  | .excepted _ _ (some succeeded) => some succeeded
  | _ => none

/-- The local variables of a call agree with each other. -/
def Call.Ok : Call → Prop
  | .running job => job.status = .running
  | .handled job _ => job.status = .running
  | .marked job succeeded =>
    succeeded.id = job.id ∧ succeeded.attemptCount = job.attemptCount ∧
      succeeded.status = .succeeded
  | .excepted job _ none => job.status = .running
  | .excepted job _ (some succeeded) =>
    succeeded.id = job.id ∧ succeeded.attemptCount = job.attemptCount ∧
      succeeded.status = .succeeded
  | _ => True

/-- `process_job` has claimed its job and has not returned. -/
def Call.InProgress : Call → Prop
  | .running _ => True
  | .handled _ _ => True
  | .marked _ _ => True
  | .excepted _ _ _ => True
  | .deadLettering _ => True
  | _ => False

theorem Call.held_of_not_inProgress {call : Call} (h : ¬ call.InProgress) : call.held = none := by
  cases call <;> first | rfl | exact absurd trivial h

/-- In the `except` block although `mark_succeeded` had returned. -/
def Call.Reverting : Call → Prop
  | .excepted _ _ (some _) => True
  | _ => False

namespace State

/-- The ledger of a service state. -/
def ledger (s : State) : Ledger :=
  ⟨s.repository.jobs.get?, fun c => (s.calls c).held, s.clock, s.history⟩

/-- The invariant of the service. -/
structure Inv (s : State) : Prop where
  consistent : s.ledger.Consistent
  calls : ∀ c, (s.calls c).Ok

variable {settings : Settings} {s s' : State} {c : CallId} {call : Call}

/-- Moving a call within what it holds is invisible. -/
theorem ledger_setCall (h : call.held = (s.calls c).held) :
    (s.setCall c call).ledger = s.ledger := by
  have : (fun c' => ((s.setCall c call).calls c').held) = fun c' => (s.calls c').held := by
    funext c'
    rw [setCall_calls]
    by_cases hc : c' = c
    · rw [if_pos hc, h, hc]
    · rw [if_neg hc]
  simp only [ledger, this, setCall_repository, setCall_history]
  rfl

theorem ledger_setCall_hold (s : State) (c : CallId) (call : Call) :
    (s.setCall c call).ledger = s.ledger.hold c call.held := by
  have : (fun c' => ((s.setCall c call).calls c').held) =
      Function.update (fun c' => (s.calls c').held) c call.held := by
    funext c'
    by_cases hc : c' = c
    · subst hc; simp
    · rw [setCall_calls, if_neg hc, Function.update_of_ne hc]
  simp only [ledger, Ledger.hold, this, setCall_repository, setCall_history]
  rfl

/-- Storing a record under its own identifier. -/
theorem ledger_record {r : InMemoryJobRepository} (job : JobRecord) (e : Event)
    (h : r.jobs = s.repository.jobs.insert job.id job) :
    (s.record r e).ledger = (s.ledger.put job).note s.clock e := by
  simp only [ledger, record, Ledger.put, Ledger.note, h, Dict.get?_insert_fun]

theorem ok_setCall (h : ∀ c, (s.calls c).Ok) (hcall : call.Ok) (c' : CallId) :
    ((s.setCall c call).calls c').Ok := by
  rw [setCall_calls]
  split
  · exact hcall
  · exact h c'

/-- What a call holds is what the repository stores. -/
theorem Inv.stored (h : s.Inv) {job : JobRecord} (hheld : (s.calls c).held = some job) :
    s.repository.jobs.get? job.id = some job :=
  (h.consistent.held_stored c job hheld).1

/-- One step of a call is a move of the ledger. Attempts fail by `mark_failed_attempt` only, and
    a revert is one by a reverting call. -/
structure Refines (s : State) (action : Action) (s' : State) : Prop where
  move : ∃ m, Ledger.Step s.ledger m s'.ledger ∧
    (m = .fail → ∃ c, action = .markFailed c) ∧
    (m = .revert → ∃ c, action = .markFailed c ∧ (s.calls c).Reverting)
  calls : ∀ c, (s'.calls c).Ok

/-- A step that leaves the ledger alone. -/
theorem Refines.silent {action : Action} (hledger : s'.ledger = s.ledger)
    (calls : ∀ c, (s'.calls c).Ok) : Refines s action s' :=
  ⟨⟨.tick, by rw [hledger]; exact .tick (l := s.ledger) s.clock (le_refl _), by simp, by simp⟩,
    calls⟩

/-- `get_handler` knows the handler of every stored job. -/
theorem Inv.getHandler (h : s.Inv) {id : UUID} {job : JobRecord}
    (hjob : s.repository.jobs.get? id = some job) : ∃ handler, getHandler job.handler = .ok handler :=
  (h.consistent.wellFormed id job hjob).supported

theorem submitJob_refines (settings : Settings) (hinv : s.Inv) (hidle : s.calls c = .idle)
    {request : JobCreate} {jobId : UUID} (hfresh : s.repository.jobs.contains jobId = false) :
    Refines s (.submit c request jobId)
      (s.submitJob settings c request s.clock jobId) := by
  -- Every exit but the last leaves the repository alone and the call without a job.
  have silent : ∀ call : Call, call.held = none → call.Ok →
      Refines s (.submit c request jobId) (s.setCall c call) := fun call hheld hok =>
    .silent (ledger_setCall (by rw [hheld, hidle]; rfl)) (ok_setCall hinv.calls hok)
  unfold submitJob
  cases hget : getHandler request.handler with
  | error e => exact silent _ rfl trivial
  | ok handler =>
    cases hsize : validatePayloadSize settings request.payload with
    | error e => exact silent _ rfl trivial
    | ok _ =>
      cases hcreate : s.repository.createJob request s.clock jobId with
      | error e => exact silent _ rfl trivial
      | ok result =>
        obtain ⟨⟨job, replay⟩, r⟩ := result
        cases replay with
        | true => exact silent _ rfl trivial
        | false =>
          obtain ⟨rfl, hjobs⟩ := InMemoryJobRepository.createJob_new hcreate
          refine ⟨⟨.create, ?_, by simp, by simp⟩, ok_setCall hinv.calls trivial⟩
          have hledger := ledger_record (s := s) (.submitted request jobId s.clock)
            (.created (.submitted request jobId s.clock)) hjobs
          rw [ledger_setCall (by rw [record_calls, hidle]; rfl), hledger]
          exact .create s.clock request jobId (le_refl _)
            (Dict.contains_eq_false_iff.mp hfresh) ⟨handler, hget⟩

theorem claimJob_refines (hinv : s.Inv) (hidle : s.calls c = .idle) {jobId : UUID}
    {workerId : String} :
    Refines s (.claim c jobId workerId) (s.claimJob c jobId workerId s.clock) := by
  unfold claimJob
  rcases s.repository.claimJob_cases jobId workerId s.clock with
    hclaim | ⟨job, hjob, hpending, hdue, hclaim⟩ <;> simp only [hclaim]
  · exact .silent (ledger_setCall (by rw [hidle]; rfl)) (ok_setCall hinv.calls trivial)
  · obtain ⟨handler, hget⟩ := hinv.getHandler hjob
    have hid : job.id = jobId := hinv.consistent.keyed jobId job hjob
    subst hid
    simp only [JobRecord.claim] at hget ⊢
    rw [hget]
    refine ⟨⟨.claim, ?_, by simp, by simp⟩, ok_setCall hinv.calls rfl⟩
    rw [ledger_setCall_hold, ledger_record (job.claim workerId s.clock) _ rfl]
    exact .claim s.clock c job workerId (le_refl _) hjob hpending hdue
      (by simp [ledger, hidle, Call.held])

theorem markSucceeded_refines (hinv : s.Inv) {job : JobRecord} {result : JsonObject}
    (hcall : s.calls c = .handled job result)
    (h : act settings s s.clock (.markSucceeded c) = some s') :
    Refines s (.markSucceeded c) s' := by
  have hheld : (s.calls c).held = some job := by rw [hcall]; rfl
  have hok : job.status = .running := by simpa [hcall, Call.Ok] using hinv.calls c
  simp only [act, hcall, InMemoryJobRepository.markSucceeded_of_stored _ _ (hinv.stored hheld),
    Option.some.injEq] at h
  subst h
  refine ⟨⟨.succeed, ?_, by simp, by simp⟩, ok_setCall hinv.calls ⟨rfl, rfl, rfl⟩⟩
  rw [ledger_setCall_hold, ledger_record (job.succeed result s.clock) _ rfl]
  exact .succeed s.clock c job result (le_refl _) hheld hok

theorem createNext_refines (hinv : s.Inv) {job succeeded : JobRecord} {nextJobId : UUID}
    (hcall : s.calls c = .marked job succeeded)
    (h : act settings s s.clock (.createNext c nextJobId) = some s') :
    Refines s (.createNext c nextJobId) s' := by
  have hheld : (s.calls c).held = some succeeded := by rw [hcall]; rfl
  have hok : succeeded.id = job.id ∧ succeeded.attemptCount = job.attemptCount ∧
      succeeded.status = .succeeded := by simpa [hcall, Call.Ok] using hinv.calls c
  simp only [act, hcall] at h
  split at h
  · cases h
  rename_i hfresh
  have hfresh : s.repository.jobs.get? nextJobId = none :=
    Dict.contains_eq_false_iff.mp (by simpa using hfresh)
  rcases s.repository.createNextRecurringJob_cases succeeded s.clock nextJobId with
    ⟨honce, hnext⟩ | ⟨cron, hcron, -, ⟨e, -, hnext⟩ | ⟨nextRunAt, hrun, hnext⟩⟩ <;>
    simp only [hnext, Option.some.injEq] at h <;> subst h
  · refine ⟨⟨.close, ?_, by simp, by simp⟩, ok_setCall hinv.calls trivial⟩
    rw [ledger_setCall_hold]
    exact .close s.clock c succeeded (le_refl _) hheld hok.2.2 honce
  · exact .silent (ledger_setCall (by rw [hcall]; rfl)) (ok_setCall hinv.calls hok)
  · refine ⟨⟨.schedule, ?_, by simp, by simp⟩, ok_setCall hinv.calls trivial⟩
    rw [ledger_setCall_hold,
      ledger_record (succeeded.successor nextJobId nextRunAt s.clock) _ rfl]
    exact .schedule s.clock c succeeded cron nextJobId nextRunAt (le_refl _) hheld hok.2.2 hcron hrun
      hfresh

/-- What `mark_failed_attempt` does: it fails the record `r` that the call holds, which is the
    claimed one, or the one marked succeeded. -/
theorem act_markFailed (hinv : s.Inv) {now : Int}
    (h : act settings s now (.markFailed c) = some s') :
    ∃ r updated error, (s.calls c).held = some r ∧
      updated = r.fail error (backoffSeconds r.attemptCount) now ∧
      (r.status = .running ∨ r.status = .succeeded ∧ (s.calls c).Reverting) ∧
      s' = (s.record { s.repository with jobs := s.repository.jobs.insert r.id updated }
        (.failed updated)).setCall c
          (if updated.status = .deadLettered then .deadLettering updated
            else .returned (some updated)) := by
  cases hcall : s.calls c with
  | excepted job exc succeeded =>
    have hok : (Call.excepted job exc succeeded).Ok := hcall ▸ hinv.calls c
    obtain ⟨r, hheld, hid, hcount, hstatus⟩ : ∃ r, (Call.excepted job exc succeeded).held = some r ∧
        r.id = job.id ∧ r.attemptCount = job.attemptCount ∧ (r.status = .running ∨
          r.status = .succeeded ∧ (Call.excepted job exc succeeded).Reverting) := by
      cases succeeded with
      | none => exact ⟨job, rfl, rfl, rfl, Or.inl hok⟩
      | some r => exact ⟨r, rfl, hok.1, hok.2.1, Or.inr ⟨hok.2.2, trivial⟩⟩
    have hstored := hinv.stored (hcall ▸ hheld)
    simp only [act, hcall, ← hid, ← hcount,
      InMemoryJobRepository.markFailedAttempt_of_stored _ _ _ hstored, Option.some.injEq] at h
    exact ⟨r, _, errorText exc, hheld, rfl, hstatus, h.symm⟩
  | _ => simp [act, hcall] at h

theorem markFailed_refines (hinv : s.Inv) (h : act settings s s.clock (.markFailed c) = some s') :
    Refines s (.markFailed c) s' := by
  obtain ⟨r, updated, error, hheld, rfl, hstatus, rfl⟩ := act_markFailed hinv h
  set updated := r.fail error (backoffSeconds r.attemptCount) s.clock with hupdated
  have hcallOk : (if updated.status = .deadLettered then Call.deadLettering updated
      else .returned (some updated)).Ok := by split <;> trivial
  have hdrop : (if updated.status = .deadLettered then Call.deadLettering updated
      else .returned (some updated)).held = none := by split <;> rfl
  have hledger : ((s.record { s.repository with jobs := s.repository.jobs.insert r.id updated }
      (.failed updated)).setCall c (if updated.status = .deadLettered then .deadLettering updated
        else .returned (some updated))).ledger =
      ((s.ledger.put updated).hold c none).note s.clock (.failed updated) := by
    rw [ledger_setCall_hold, hdrop, ledger_record updated _ rfl]
    rfl
  rcases hstatus with hstatus | ⟨hstatus, hrev⟩
  · refine ⟨⟨.fail, ?_, fun _ => ⟨c, rfl⟩, by simp⟩, ok_setCall hinv.calls hcallOk⟩
    rw [hledger]
    exact .fail s.clock c r error (le_refl _) hheld hstatus
  · refine ⟨⟨.revert, ?_, by simp, fun _ => ⟨c, rfl, hrev⟩⟩, ok_setCall hinv.calls hcallOk⟩
    rw [hledger]
    exact .revert s.clock c r error (le_refl _) hheld hstatus

theorem cancel_refines (hinv : s.Inv) {jobId : UUID}
    (h : act settings s s.clock (.cancel jobId) = some s') :
    Refines s (.cancel jobId) s' := by
  simp only [act] at h
  cases hcancel : s.repository.cancelJob jobId s.clock with
  | error e =>
    rw [hcancel, Option.some.injEq] at h
    subst h
    exact .silent rfl hinv.calls
  | ok result =>
    obtain ⟨job, r⟩ := result
    rw [hcancel, Option.some.injEq] at h
    subst h
    obtain ⟨old, hold, hpending, rfl, rfl⟩ := InMemoryJobRepository.cancelJob_ok hcancel
    have hid : old.id = jobId := hinv.consistent.keyed jobId old hold
    subst hid
    refine ⟨⟨.cancel, ?_, by simp, by simp⟩, hinv.calls⟩
    rw [ledger_record (old.cancel s.clock) _ rfl]
    exact .cancel s.clock old (le_refl _) hold hpending

/-- **One step of one call is one move.** -/
theorem act_refines (hinv : s.Inv) {action : Action} (h : act settings s s.clock action = some s') :
    Refines s action s' := by
  -- Steps that move a call within what it holds.
  have silent : ∀ (c : CallId) (call : Call), s.setCall c call = s' →
      call.held = (s.calls c).held → call.Ok → Refines s action s' := by
    intro c call h hheld hok
    subst h
    exact .silent (ledger_setCall hheld) (ok_setCall hinv.calls hok)
  cases action with
  | submit c request jobId =>
    simp only [act] at h
    split at h
    · rename_i hidle
      split at h
      · cases h
      · rename_i hfresh
        rw [Option.some.injEq] at h
        subst h
        exact submitJob_refines settings hinv hidle (by simpa using hfresh)
    · cases h
  | publish c =>
    simp only [act] at h
    split at h
    · rename_i job hcall
      split at h <;> rw [Option.some.injEq] at h
      · exact silent c _ h (by rw [hcall]; rfl) trivial
      · subst h
        exact .silent (ledger_setCall (s := { s with producer := _ }) (by
          show _ = (s.calls c).held; rw [hcall]; rfl)) (ok_setCall hinv.calls trivial)
    · cases h
  | claim c jobId workerId =>
    simp only [act] at h
    split at h
    · rename_i hidle
      rw [Option.some.injEq] at h
      subst h
      exact claimJob_refines hinv hidle
    · cases h
  | finish c outcome =>
    simp only [act] at h
    split at h
    · rename_i job hcall
      have hok : job.status = .running := by simpa [hcall, Call.Ok] using hinv.calls c
      split at h <;> rw [Option.some.injEq] at h
      · exact silent c _ h (by rw [hcall]; rfl) hok
      · exact silent c _ h (by rw [hcall]; rfl) hok
    · cases h
  | markSucceeded c =>
    cases hcall : s.calls c with
    | handled job result => exact markSucceeded_refines hinv hcall h
    | _ => simp [act, hcall] at h
  | createNext c nextJobId =>
    cases hcall : s.calls c with
    | marked job succeeded => exact createNext_refines hinv hcall h
    | _ => simp [act, hcall] at h
  | markFailed c =>
    exact markFailed_refines hinv h
  | publishDeadLetter c =>
    simp only [act] at h
    split at h
    · rename_i updated hcall
      split at h <;> rw [Option.some.injEq] at h
      · exact silent c _ h (by rw [hcall]; rfl) trivial
      · subst h
        exact .silent (ledger_setCall (s := { s with producer := _ }) (by
          show _ = (s.calls c).held; rw [hcall]; rfl)) (ok_setCall hinv.calls trivial)
    · cases h
  | cancel jobId => exact cancel_refines hinv h
  | setDrain enabled =>
    simp only [act, Option.some.injEq] at h
    subst h
    exact .silent rfl hinv.calls
  | setAvailable available =>
    simp only [act, Option.some.injEq] at h
    subst h
    exact .silent rfl hinv.calls

/-- A step is an act at a time that is not in the past. -/
theorem step_eq_some_iff {label : Label} : step settings s label = some s' ↔
    s.clock ≤ label.now ∧
      act settings { s with clock := label.now } label.now label.action = some s' := by
  unfold step
  split <;> simp_all

/-- The invariant does not speak of the time. -/
theorem Inv.setClock (hinv : s.Inv) (now : Int) : ({ s with clock := now } : State).Inv :=
  ⟨hinv.consistent.congr rfl rfl, hinv.calls⟩

/-- **One step of the service is one move**, and keeps the invariant. -/
theorem step_refines (hinv : s.Inv) {label : Label} (h : step settings s label = some s') :
    Refines s label.action s' ∧ s'.Inv := by
  obtain ⟨time, hact⟩ := step_eq_some_iff.mp h
  obtain ⟨⟨m, hmove, hfail, hrevert⟩, hcalls⟩ := act_refines (hinv.setClock label.now) hact
  have hmove' : Ledger.Step s.ledger m s'.ledger := hmove.after time
  exact ⟨⟨⟨m, hmove', hfail, hrevert⟩, hcalls⟩, ⟨hinv.consistent.step hmove', hcalls⟩⟩

theorem inv_initial : State.initial.Inv :=
  ⟨Ledger.consistent_initial.congr rfl rfl, fun _ => trivial⟩

variable {ok : State → Label → Prop}

/-- **The invariant holds in every run.** -/
theorem inv_of_reachable (h : (service settings).Reachable ok s) : s.Inv :=
  h.invariant (fun _ hs => hs ▸ inv_initial) fun _ _ _ hI _ hs => (step_refines hI hs).2

/-- **The service refines the ledger.** -/
theorem simulates (settings : Settings) :
    Transition.Simulates (service settings) Transition.Any Ledger.system Transition.Any Inv
      ledger where
  init := by rintro _ rfl; rfl
  step := by
    intro s label s' hinv _ h
    obtain ⟨⟨m, hmove, -⟩, -⟩ := (step_refines hinv h).1
    exact Or.inr ⟨m, trivial, hmove⟩

end State

end JobPipeline
