import JobPipeline.Jobs.Handlers
import JobPipeline.Sql.Durable
import JobPipeline.Sql.Attempts
import JobPipeline.Sql.Sequential

/-!
# Results and errors are those of the handlers

A row gets its result and its last error from a call that read the job, ran the handler and marked
the job, each in a step of its own with other sessions between. When every handler run comes to what
an attempt of that handler can come to, what the row says is what the handler its name stands for
makes of the payload in the same row: a result is that payload, and an error is one of the attempt or
of the cron expression.
-/

set_option autoImplicit false

namespace JobPipeline

namespace Sql

section Columns

variable (str : Json → String) (sleep : Json → Except Exc Unit)

/-- The handler of the job returns this value. -/
def Yields (job : FixedColumns) (value : JsonObject) : Prop :=
  ∃ handler, getHandler job.handler = .ok handler ∧ handler.run str sleep job.payload = .ok value

/-- The texts that an attempt of the job, or the rescheduling after it, can fail with. -/
inductive JobError (job : FixedColumns) : String → Prop where
  | attempt (handler : JobHandler) (error : String) (known : getHandler job.handler = .ok handler)
      (failed : AttemptError str sleep handler job.payload error) : JobError job error
  | unscheduled (cron : String) (now : Int) (exc : Exc) (recurs : job.recurringCron = some cron)
      (fails : nextCronRun cron now = .error exc) : JobError job (errorText exc)

/-- What the row of a job says of its attempts is true of its handler. -/
structure RowHonest (jsonb : Jsonb) (row : Job) : Prop where
  result : ∀ result, row.result = some result →
    ∃ value, Yields str sleep row.fixed value ∧ jsonb value = some result
  succeeded : row.status = .succeeded → row.result ≠ none
  lastError : ∀ error, row.lastError = some error → JobError str sleep row.fixed error

end Columns

namespace State

open Transition

variable {settings : Settings} {jsonb : Jsonb} {s s' : State} {c d : CallId} {jobId : UUID}
  {now : Int} {action : Action} {label : Label} {call : Option CallId} {row : Job}
  {str : Json → String} {sleep : Json → Except Exc Unit} {session : Session}

/-- The handler run comes to what an attempt of the job's handler can come to. -/
def Ran (str : Json → String) (sleep : Json → Except Exc Unit) (s : State) (label : Label) : Prop :=
  ∀ c outcome job handler, label.action = .finish c outcome → s.sessions c = .running job →
    getHandler job.handler = .ok handler → AttemptOutcome str sleep handler job.payload outcome

/-- What a call of `process_job` knows of its job and of the handler run. -/
def Honest (str : Json → String) (sleep : Json → Except Exc Unit) (s : State) : Session → Prop
  | .running job => s.Stored job ∧ Supported job.handler
  | .handled job result => s.Stored job ∧ Yields str sleep job.fixed result
  | .succeedPending job _ result _ => s.Stored job ∧ Yields str sleep job.fixed result
  | .succeeded job => s.Stored job
  | .marked job succeeded => s.Stored job ∧ succeeded.fixed = job.fixed
  | .nextPending job _ _ => s.Stored job
  | .excepted job exc _ flushFailed =>
    s.Stored job ∧ (flushFailed = false → JobError str sleep job.fixed (errorText exc))
  | .failPending job _ _ error _ => s.Stored job ∧ JobError str sleep job.fixed error
  | _ => True

/-- It stays so while the tables change. -/
theorem Honest.mono (h : Honest str sleep s session) (he : Effect s s' call) :
    Honest str sleep s' session := by
  unfold Honest at h ⊢
  cases session with
  | succeeded | nextPending => exact h.step he
  | running | handled | succeedPending | marked | excepted | failPending => exact ⟨h.1.step he, h.2⟩
  | _ => trivial

/-- A row that a record of its job was made of has the record's columns. -/
theorem Stored.fixed {job : JobRecord} (h : s.Stored job) (hrow : s.db.jobs.get? job.id = some row) :
    row.fixed = job.fixed := by
  obtain ⟨row', hrow', hfixed⟩ := h
  rw [hrow] at hrow'
  cases hrow'
  exact hfixed

theorem act_of_succeedPending {job : JobRecord} {read : Job} {result : JsonObject} {t : Int}
    (h : s.act settings jsonb now action = some s') (hcall : action.call = some c)
    (hpending : s.sessions c = .succeedPending job read result t) : action = .succeedCommit c := by
  cases action <;> cases hcall <;>
    first | rfl | exact absurd h (by simp [act, hpending])

/-! ### What a call goes on to know -/

/-- Every call knows what its program point says. -/
abbrev AllHonest (str : Json → String) (sleep : Json → Except Exc Unit) (s s' : State) : Prop :=
  ∀ c, Honest str sleep s (s'.sessions c)

/-- One call moves on to a program point where it knows enough. -/
theorem AllHonest.moves (h : AllHonest str sleep s s) {t : State}
    (ht : t.sessions = s.sessions) (hsession : Honest str sleep s session) :
    AllHonest str sleep s (t.setSession d session) := by
  intro c
  by_cases hcd : c = d
  · subst hcd
    rwa [sessions_setSession]
  · have hother : (t.setSession d session).sessions c = t.sessions c := Function.update_of_ne hcd ..
    rw [hother, ht]
    exact h c

theorem AllHonest.claimRefresh (h : AllHonest str sleep s s) (hinv : s.Inv)
    (hs : s.act settings jsonb now (.claimRefresh d) = some s') : AllHonest str sleep s s' := by
  simp only [State.act, State.claimRefresh] at hs
  repeat' split at hs
  all_goals cases hs
  · exact h.moves rfl trivial
  · exact h.moves rfl trivial
  · rename_i row hrefresh _ handler hhandler
    exact h.moves rfl ⟨hinv.toKnown.stored (stored_of_refresh hrefresh), handler, hhandler⟩

theorem AllHonest.finish (h : AllHonest str sleep s s) {outcome : Outcome}
    (hs : s.act settings jsonb now (.finish d outcome) = some s')
    (hran : Ran str sleep s ⟨now, .finish d outcome⟩) : AllHonest str sleep s s' := by
  simp only [State.act] at hs
  split at hs
  · rename_i job hcall
    have hd := h d
    rw [hcall] at hd
    obtain ⟨hstored, handler, hhandler⟩ := hd
    have houtcome := hran d outcome job handler rfl hcall hhandler
    split at hs
    · cases hs
      exact h.moves rfl ⟨hstored, handler, hhandler, houtcome.value⟩
    · cases hs
      exact h.moves rfl ⟨hstored, fun _ => .attempt handler _ hhandler houtcome.error⟩
  · cases hs

theorem AllHonest.succeedRead (h : AllHonest str sleep s s)
    (hs : s.act settings jsonb now (.succeedRead d) = some s') : AllHonest str sleep s s' := by
  simp only [State.act] at hs
  split at hs
  · rename_i job result hcall
    have hd := h d
    rw [hcall] at hd
    obtain ⟨row, hrow, -⟩ := hd.1
    split at hs
    · rename_i hnone
      exact absurd (hrow.symm.trans hnone) (by simp)
    · cases hs
      exact h.moves rfl hd
  · cases hs

theorem AllHonest.succeedCommit (h : AllHonest str sleep s s)
    (hs : s.act settings jsonb now (.succeedCommit d) = some s') : AllHonest str sleep s s' := by
  simp only [State.act] at hs
  split at hs
  · rename_i job read result t hcall
    have hd := h d
    rw [hcall] at hd
    split at hs
    · cases hs
      exact h.moves rfl ⟨hd.1, by simp⟩
    · cases hs
      exact h.moves rfl hd.1
  · cases hs

theorem AllHonest.succeedRefresh (h : AllHonest str sleep s s)
    (hs : s.act settings jsonb now (.succeedRefresh d) = some s') : AllHonest str sleep s s' := by
  simp only [State.act] at hs
  split at hs
  · rename_i job hcall
    have hd : s.Stored job := by
      have hd := h d
      rwa [hcall] at hd
    split at hs
    · rename_i e hrefresh
      obtain ⟨row, hrow, -⟩ := hd
      rw [refresh_of_stored hrow] at hrefresh
      cases hrefresh
    · rename_i row hrefresh
      cases hs
      exact h.moves rfl ⟨hd, hd.fixed (stored_of_refresh hrefresh)⟩
  · cases hs

theorem AllHonest.next (h : AllHonest str sleep s s) {after : Int} {nextJobId : UUID}
    (hs : s.act settings jsonb now (.next d after nextJobId) = some s') :
    AllHonest str sleep s s' := by
  simp only [State.act, State.next] at hs
  split at hs
  · rename_i job succeeded hcall
    have hd := h d
    rw [hcall] at hd
    repeat' split at hs
    all_goals cases hs
    · exact h.moves rfl trivial
    · rename_i cron hcron _ e hnext
      have hrecurs : job.fixed.recurringCron = some cron := by
        rw [← hd.2]
        exact (Option.filter_eq_some_iff.mp hcron).1
      exact h.moves rfl ⟨hd.1, fun _ => .unscheduled cron after e hrecurs hnext⟩
    · exact h.moves rfl hd.1
  · cases hs

theorem AllHonest.nextCommit (h : AllHonest str sleep s s)
    (hs : s.act settings jsonb now (.nextCommit d) = some s') : AllHonest str sleep s s' := by
  simp only [State.act] at hs
  split at hs
  · rename_i job succeeded next hcall
    have hd := h d
    rw [hcall] at hd
    split at hs
    · cases hs
      exact h.moves rfl ⟨hd, by simp⟩
    · cases hs
      exact h.moves rfl trivial
  · cases hs

theorem AllHonest.failRead (h : AllHonest str sleep s s)
    (hs : s.act settings jsonb now (.failRead d) = some s') : AllHonest str sleep s s' := by
  simp only [State.act] at hs
  split at hs
  · rename_i job exc succeeded flushFailed hcall
    have hd := h d
    rw [hcall] at hd
    repeat' split at hs
    all_goals cases hs
    · exact h.moves rfl trivial
    · exact h.moves rfl trivial
    · rename_i hflush _ read hread
      exact h.moves rfl ⟨hd.1, hd.2 (by simpa using hflush)⟩
  · cases hs

/-- **What a call goes on to know.** -/
theorem AllHonest.act (h : AllHonest str sleep s s) (hinv : s.Inv)
    (hs : s.act settings jsonb now action = some s') (hran : Ran str sleep s ⟨now, action⟩) :
    AllHonest str sleep s s' := by
  cases action with
  | claimRefresh d => exact h.claimRefresh hinv hs
  | finish d outcome => exact h.finish hs hran
  | succeedRead d => exact h.succeedRead hs
  | succeedCommit d => exact h.succeedCommit hs
  | succeedRefresh d => exact h.succeedRefresh hs
  | next d after nextJobId => exact h.next hs
  | nextCommit d => exact h.nextCommit hs
  | failRead d => exact h.failRead hs
  | setAvailable =>
    cases hs
    exact h
  | submit d | insertCommit d | reselect d | insertRefresh d | publish d | process d | claimRead d
  | claimCommit d | failCommit d | failRefresh d | publishDeadLetter d | cancelRead d
  | cancelCommit d | cancelRefresh d | drainRead d | drainCommit d =>
    simp only [State.act, submitJob, insertCommit, reselect, claimRead, claimCommit] at hs
    repeat' split at hs
    all_goals cases hs
    all_goals exact h.moves rfl trivial

/-! ## The rows -/

/-- The commit of `mark_succeeded` stores the value as the column gives it back. -/
theorem succeedCommit_of_act {job : JobRecord} {read : Job} {result : JsonObject} {t : Int}
    (hpending : s.sessions c = .succeedPending job read result t)
    (hs : s.act settings jsonb now (.succeedCommit c) = some s')
    (hsucceeded : s'.sessions c = .succeeded job) :
    ∃ stored, jsonb result = some stored ∧
      s'.db.jobs = s.db.jobs.modify read.id (Job.succeedAssignments stored t) := by
  simp only [State.act, hpending, Database.commitSucceeded] at hs
  cases hresult : jsonb result with
  | none =>
    rw [hresult] at hs
    cases hs
    rw [sessions_setSession] at hsucceeded
    cases hsucceeded
  | some stored =>
    rw [hresult] at hs
    cases hs
    exact ⟨stored, rfl, rfl⟩

/-- **What a step writes into a row** is true of the handler. -/
theorem RowHonest.act (hmade : s.PendingMade)
    (hhonest : ∀ c, Honest str sleep s (s.sessions c)) (hinv : s.Inv)
    (hrows : ∀ jobId row, s.db.jobs.get? jobId = some row → RowHonest str sleep jsonb row)
    (hs : s.act settings jsonb now action = some s') {row' : Job}
    (hrow' : s'.db.jobs.get? jobId = some row') : RowHonest str sleep jsonb row' := by
  have he := act_effect hinv.toKnown hs
  have hsame : s'.db.jobs = s.db.jobs → RowHonest str sleep jsonb row' := by
    intro hjobs
    rw [hjobs] at hrow'
    exact hrows jobId row' hrow'
  have hupdate : ∀ {id : UUID} {assign : Job → Job}, s'.db.jobs = s.db.jobs.modify id assign →
      (∀ row, s.db.jobs.get? id = some row → RowHonest str sleep jsonb row →
        RowHonest str sleep jsonb (assign row)) → RowHonest str sleep jsonb row' := by
    intro id assign hjobs hassign
    by_cases hid : jobId = id
    · subst hid
      rw [hjobs, Dict.get?_modify_self] at hrow'
      obtain ⟨row, hrow, heq⟩ := Option.map_eq_some_iff.mp hrow'
      subst heq
      exact hassign row hrow (hrows jobId row hrow)
    · rw [hjobs, Dict.get?_modify_of_ne _ _ hid] at hrow'
      exact hrows jobId row' hrow'
  generalize hcall : action.call = call at he
  cases he with
  | idle tables => exact hsame tables.1
  | quiet _ _ tables => exact hsame tables.1
  | reads _ _ _ tables => exact hsame tables.1
  | start _ _ tables => exact hsame tables.1
  | insert c created payload session jobs attempts fresh new moves read held pending history raised
      drawn unkeyed before =>
    rw [jobs, Dict.get?_insert] at hrow'
    split at hrow'
    · cases hrow'
      rcases hmade c created before with ⟨request, id, t, rfl⟩ | ⟨job, id, nextRunAt, t, rfl⟩
      · exact ⟨by simp [Job.submittedRow], by simp [Job.submittedRow], by simp [Job.submittedRow]⟩
      · exact ⟨by simp [Job.successorRow], by simp [Job.successorRow], by simp [Job.successorRow]⟩
    · exact hrows jobId row' hrow'
  | claim c read workerId t before fits free jobs =>
    exact hupdate jobs fun row _ h => ⟨h.result, by simp [Job.claimAssignments], h.lastError⟩
  | succeed c job read result stored t before _ _ moves =>
    have hd := hhonest c
    rw [before] at hd
    have hid : read.id = job.id :=
      (hinv.read_current c read job.id (by rw [before]; rfl) (by rw [before]; rfl)).1
    -- The commit stores what the column gives back for the value.
    have haction := act_of_succeedPending hs hcall before
    subst haction
    have hsucceeded : s'.sessions c = .succeeded job := by rw [moves, Function.update_self]
    obtain ⟨stored', hstored, hjobs⟩ := succeedCommit_of_act before hs hsucceeded
    refine hupdate hjobs fun row hrow h => ⟨?_, by simp [Job.succeedAssignments], h.lastError⟩
    intro result' hresult
    cases hresult
    rw [hid] at hrow
    refine ⟨result, ?_, hstored⟩
    have hfixed : row.fixed = job.fixed := hd.1.fixed hrow
    show Yields str sleep row.fixed result
    rw [hfixed]
    exact hd.2
  | fail c job succeeded read error t before fits jobs =>
    have hd := hhonest c
    rw [before] at hd
    have hid : read.id = job.id :=
      (hinv.read_current c read job.id (by rw [before]; rfl) (by rw [before]; rfl)).1
    refine hupdate jobs fun row hrow h => ⟨h.result, ?_, ?_⟩
    · intro hstatus
      simp only [Job.failAssignments] at hstatus
      split at hstatus <;> cases hstatus
    · intro error' herror
      cases herror
      rw [hid] at hrow
      have hfixed : row.fixed = job.fixed := hd.1.fixed hrow
      show JobError str sleep row.fixed error
      rw [hfixed]
      exact hd.2
  | cancel c read t before jobs =>
    exact hupdate jobs fun row _ h => ⟨h.result, by simp [Job.cancelAssignments], h.lastError⟩

theorem rowHonest_of_reachable (h : (Sql.sessions settings jsonb).Reachable (Ran str sleep) s) :
    (∀ c, Honest str sleep s (s.sessions c)) ∧
      ∀ jobId row, s.db.jobs.get? jobId = some row → RowHonest str sleep jsonb row := by
  apply h.invariant_of_reachable (I := fun s => (∀ c, Honest str sleep s (s.sessions c)) ∧
    ∀ jobId row, s.db.jobs.get? jobId = some row → RowHonest str sleep jsonb row)
  · intro s hs
    have hs : s = State.initial := hs
    subst hs
    exact ⟨fun _ => trivial, fun jobId row hrow => by cases hrow⟩
  · intro s label s' hreach hhonest hran hs
    obtain ⟨hsessions, hrows⟩ := hhonest
    have hinv := inv_of_reachable hreach.any
    constructor
    · intro c
      have hc := AllHonest.act hsessions hinv hs hran c
      exact hc.mono (act_effect hinv.toKnown hs)
    · intro jobId row hrow
      exact RowHonest.act (pendingMade_of_reachable hreach.any) hsessions hinv hrows hs hrow

/-- **Results and errors are those of the handlers**: a result is the payload of the same row, the
    row of a succeeded job has one, the last error is one of an attempt or of the cron expression,
    and a handler that refuses its payload never succeeds on it. -/
theorem results_of_handlers (h : (Sql.sessions settings jsonb).Reachable (Ran str sleep) s)
    (hrow : s.db.getJob? jobId = some row) :
    (∀ result, row.result = some result →
      Supported row.handler ∧ jsonb row.payload = some result) ∧
    (row.status = .succeeded → row.result ≠ none) ∧
    (∀ error, row.lastError = some error → JobError str sleep row.fixed error) ∧
    ∀ handler, getHandler row.handler = .ok handler → handler.Refuses row.payload →
      row.status ≠ .succeeded ∧ row.result = none := by
  have hhonest := (rowHonest_of_reachable h).2 jobId row hrow
  have hresult : ∀ result, row.result = some result →
      ∃ handler, getHandler row.handler = .ok handler ∧ ¬ handler.Refuses row.payload ∧
        jsonb row.payload = some result := by
    intro result hresult
    obtain ⟨value, ⟨handler, hhandler, hrun⟩, hstored⟩ := hhonest.result result hresult
    obtain ⟨heq, hrefuses⟩ := JobHandler.run_ok str sleep hrun
    subst heq
    exact ⟨handler, hhandler, hrefuses, hstored⟩
  refine ⟨?_, hhonest.succeeded, hhonest.lastError, ?_⟩
  · intro result hsome
    obtain ⟨handler, hhandler, -, hstored⟩ := hresult result hsome
    exact ⟨⟨handler, hhandler⟩, hstored⟩
  · intro handler hhandler hrefuses
    have hnone : row.result = none := by
      by_contra hsome
      obtain ⟨result, hsome⟩ := Option.ne_none_iff_exists'.mp hsome
      obtain ⟨handler', hhandler', hnot, -⟩ := hresult result hsome
      rw [hhandler] at hhandler'
      cases hhandler'
      exact hnot hrefuses
    exact ⟨fun hsucceeded => hhonest.succeeded hsucceeded hnone, hnone⟩

/-- An `echo` job: its attempt, and the state in which it is marked. -/
theorem results_of_handlers_of_echo : ∃ s row,
    (Sql.sessions {} some).Reachable (Ran (fun _ => "") fun _ => .ok ()) s ∧
      s.db.getJob? Sample.jobId = some row ∧ row.status = .succeeded ∧ row.result ≠ none := by
  have hattempt : AttemptOutcome (fun _ => "") (fun _ => .ok ()) .echoHandler [] (.value []) := by
    have hrun : ∃ s, System.replay (RunWithTimeout.State.step (.ok []) [] 65536) .initial
        [.start, .finish, .put, .write 4, .exit, .join, .isAlive, .empty, .get] = some s ∧
        s.parent = .ended (.value []) := ⟨_, rfl, rfl⟩
    obtain ⟨s, hs, hended⟩ := hrun
    exact .ended [] 65536 s _ ⟨_, rfl, System.Steps.of_replay hs fun _ _ _ => trivial⟩ hended
  have hrun : ∃ s₀ s₁ s job row,
      System.replay (State.step {} some) State.initial startedRun = some s₀ ∧
      s₀.sessions 1 = .running job ∧ job.handler = "echo" ∧ job.payload = [] ∧
      State.step {} some s₀ ⟨1, .finish 1 (.value [])⟩ = some s₁ ∧
      System.replay (State.step {} some) s₁ [⟨1, .succeedRead 1⟩, ⟨1, .succeedCommit 1⟩] = some s ∧
      s.db.getJob? Sample.jobId = some row ∧ row.status = .succeeded :=
    ⟨_, _, _, _, _, rfl, rfl, rfl, rfl, rfl, rfl, rfl, rfl⟩
  obtain ⟨s₀, s₁, s, job, row, hs₀, hrunning, hhandler, hpayload, hs₁, hs, hrow, hstatus⟩ := hrun
  -- Only `finish` is guarded, and it comes to what the attempt came to.
  have hquiet : ∀ {label : Label} {s : State}, (∀ c outcome, label.action ≠ .finish c outcome) →
      Ran (fun _ => "") (fun _ => .ok ()) s label :=
    fun hne c outcome _ _ heq => absurd heq (hne c outcome)
  have hreach₀ : (Sql.sessions {} some).Reachable (Ran (fun _ => "") fun _ => .ok ()) s₀ := by
    refine ⟨State.initial, rfl, System.Steps.of_replay hs₀ fun label hmem s => hquiet ?_⟩
    simp only [startedRun, List.mem_cons, List.not_mem_nil, or_false] at hmem
    rcases hmem with rfl | rfl | rfl | rfl | rfl | rfl <;> simp
  have hreach₁ : (Sql.sessions {} some).Reachable (Ran (fun _ => "") fun _ => .ok ()) s₁ := by
    refine hreach₀.tail ?_ hs₁
    intro c outcome job' handler heq hjob' hknown
    cases heq
    rw [hrunning] at hjob'
    cases hjob'
    rw [hhandler] at hknown
    cases hknown
    rw [hpayload]
    exact hattempt
  have hreach : (Sql.sessions {} some).Reachable (Ran (fun _ => "") fun _ => .ok ()) s := by
    refine hreach₁.steps (System.Steps.of_replay hs fun label hmem s => hquiet ?_)
    simp only [List.mem_cons, List.not_mem_nil, or_false] at hmem
    rcases hmem with rfl | rfl <;> simp
  exact ⟨s, row, hreach, hrow, hstatus, (results_of_handlers hreach hrow).2.1 hstatus⟩

end State

end Sql

end JobPipeline
