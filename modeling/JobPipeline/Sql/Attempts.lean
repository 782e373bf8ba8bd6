import JobPipeline.Sql.Cancels

/-!
# The record of the attempts

`job_attempts` is the history of a job: an `INSERT` for each claim, and an `UPDATE` of the attempt
with the job's current number for each mark. No reader of the table looks at the job's row, so what
the two tables say has to agree by itself. It does, whatever the interleaving: all the attempts
before the last one have failed, the last one tells the job's status unless the job was cancelled,
and the job's lock and its last error are those of its attempts.
-/

set_option autoImplicit false

namespace JobPipeline

/-- An attempt with the columns its status calls for. No code writes `timeout`. -/
def JobAttempt.WellFormed (attempt : JobAttempt) : Prop :=
  match attempt.status with
  | .running => attempt.finishedAt = none ∧ attempt.error = none
  | .succeeded => attempt.finishedAt.isSome = true ∧ attempt.error = none
  | .failed => attempt.finishedAt.isSome = true ∧ attempt.error.isSome = true
  | .timeout => False

/-- What a status says about the last attempt. -/
def JobStatus.lastAttempt : JobStatus → Option AttemptStatus
  | .running => some .running
  | .succeeded => some .succeeded
  | .failed | .deadLettered => some .failed
  | .queued | .cancelled => none

/-- A row of `jobs` beside the attempts of the job, in the order of their numbers. -/
inductive Audited (row : Job) : List JobAttempt → Prop where
  | unattempted (status : row.status = .queued ∨ row.status = .cancelled)
      (lastError : row.lastError = none) : Audited row []
  | attempted (earlier : List JobAttempt) (last : JobAttempt)
      (failed : ∀ attempt ∈ earlier, attempt.status = .failed ∧ attempt.WellFormed)
      (formed : last.WellFormed)
      (status : row.status = .cancelled ∨ row.status.lastAttempt = some last.status)
      (lastError : row.lastError = last.error.or (earlier.getLast?.bind JobAttempt.error))
      (locked : row.status = .running →
        row.lockedBy = last.workerId ∧ row.lockedAt = some last.startedAt) :
      Audited row (earlier ++ [last])

/-- The attempts of a pending job have all failed. -/
theorem Audited.failed_of_pending {row : Job} {attempts : List JobAttempt}
    (h : Audited row attempts) (hpending : row.status.isPending = true) :
    ∀ attempt ∈ attempts, attempt.status = .failed ∧ attempt.WellFormed := by
  cases h with
  | unattempted => simp
  | attempted earlier last failed formed status =>
    have hlast : last.status = .failed := by
      cases hstatus : row.status <;>
        simp_all [JobStatus.isPending, JobStatus.lastAttempt]
    intro attempt hmem
    rcases List.mem_append.mp hmem with hmem | hmem
    · exact failed attempt hmem
    · rw [List.mem_singleton.mp hmem]
      exact ⟨hlast, formed⟩

/-- A cancellation. -/
theorem Audited.cancel {row : Job} {attempts : List JobAttempt} (h : Audited row attempts)
    (now : Int) : Audited (Job.cancelAssignments now row) attempts := by
  cases h with
  | unattempted status lastError => exact .unattempted (.inr rfl) lastError
  | attempted earlier last failed formed status lastError =>
    exact .attempted earlier last failed formed (.inl rfl) lastError nofun

/-- A claim, on attempts that have all failed. -/
theorem Audited.claim {row read : Job} {attempts : List JobAttempt} (h : Audited row attempts)
    (hfailed : ∀ attempt ∈ attempts, attempt.status = .failed ∧ attempt.WellFormed)
    (workerId : String) (now : Int) :
    Audited (read.claimAssignments workerId now row)
      (attempts ++ [⟨read.id, read.attemptCount + 1, .running, now, none, none, some workerId⟩]) := by
  refine .attempted attempts _ hfailed ⟨rfl, rfl⟩ (.inr rfl) ?_ fun _ => ⟨rfl, rfl⟩
  show row.lastError = none.or (attempts.getLast?.bind JobAttempt.error)
  cases h with
  | unattempted status lastError => exact lastError
  | attempted earlier last failed formed status lastError =>
    have hlast := hfailed last (by simp)
    have herror : last.error.isSome = true := by
      have hformed := hlast.2
      rw [JobAttempt.WellFormed, hlast.1] at hformed
      exact hformed.2
    obtain ⟨error, herror⟩ := Option.isSome_iff_exists.mp herror
    simp [lastError, herror]

theorem number_of_last {earlier : List JobAttempt} {last : JobAttempt} {n : Nat}
    (hnumbers : (earlier ++ [last]).map JobAttempt.attemptNumber = List.range' 1 n) :
    last.attemptNumber = n := by
  have hlength := congrArg List.length hnumbers
  have hget := congrArg List.getLast? hnumbers
  simp [List.getLast?_range'] at hlength hget
  omega

/-- `_finish_attempt` reaches the last attempt. -/
theorem map_finish {earlier : List JobAttempt} {last : JobAttempt} {n : Nat}
    (hnumbers : (earlier ++ [last]).map JobAttempt.attemptNumber = List.range' 1 n)
    (finish : JobAttempt → JobAttempt) :
    ((earlier ++ [last]).map fun attempt =>
      if attempt.attemptNumber = n then finish attempt else attempt) = earlier ++ [finish last] := by
  have hnumber := number_of_last hnumbers
  have hlength : n = earlier.length + 1 := by
    have := congrArg List.length hnumbers
    simpa using this.symm
  rw [hlength, List.range'_concat, List.map_append] at hnumbers
  obtain ⟨hearlier, -⟩ := List.append_inj' hnumbers (by simp)
  have hrest : (earlier.map fun attempt =>
      if attempt.attemptNumber = n then finish attempt else attempt) = earlier := by
    refine (List.map_congr_left fun attempt hmem => ?_).trans (List.map_id earlier)
    have hmem' : attempt.attemptNumber ∈ List.range' 1 earlier.length :=
      hearlier ▸ List.mem_map_of_mem hmem
    rw [List.mem_range'_1] at hmem'
    rw [if_neg (by omega)]
    rfl
  rw [List.map_append, hrest]
  simp [hnumber]

/-- An attempt that is running is the last one, and unfinished. -/
theorem Audited.unfinished {row : Job} {attempts : List JobAttempt} (h : Audited row attempts)
    (hnumbers : attempts.map JobAttempt.attemptNumber = List.range' 1 row.attemptCount)
    (hclaimed : 0 < row.attemptCount)
    (hrunning : ∀ attempt ∈ attempts, attempt.attemptNumber = row.attemptCount →
      attempt.status = .running) :
    ∃ earlier last, attempts = earlier ++ [last] ∧ last.attemptNumber = row.attemptCount ∧
      last.status = .running ∧ last.finishedAt = none := by
  cases h with
  | unattempted =>
    rw [List.map_nil, eq_comm, List.range'_eq_nil_iff] at hnumbers
    omega
  | attempted earlier last failed formed =>
    have hlast := number_of_last hnumbers
    have hstatus := hrunning last (by simp) hlast
    rw [JobAttempt.WellFormed, hstatus] at formed
    exact ⟨earlier, last, rfl, hlast, hstatus, formed.1⟩

/-- The success of the attempt that is running. -/
theorem Audited.succeed {row : Job} {attempts : List JobAttempt} (h : Audited row attempts)
    (hnumbers : attempts.map JobAttempt.attemptNumber = List.range' 1 row.attemptCount)
    (hclaimed : 0 < row.attemptCount)
    (hrunning : ∀ attempt ∈ attempts, attempt.attemptNumber = row.attemptCount →
      attempt.status = .running) (result : JsonObject) (now : Int) :
    Audited (Job.succeedAssignments result now row) (attempts.map fun attempt =>
      if attempt.attemptNumber = row.attemptCount then
        { attempt with status := .succeeded, error := none, finishedAt := some now }
      else attempt) := by
  cases h with
  | unattempted =>
    rw [List.map_nil, eq_comm, List.range'_eq_nil_iff] at hnumbers
    omega
  | attempted earlier last failed formed status lastError =>
    rw [map_finish hnumbers]
    have hstatus := hrunning last (by simp) (number_of_last hnumbers)
    have herror : last.error = none := by
      rw [JobAttempt.WellFormed, hstatus] at formed
      exact formed.2
    refine .attempted earlier _ failed ⟨rfl, rfl⟩ (.inr rfl) ?_ nofun
    show row.lastError = none.or (earlier.getLast?.bind JobAttempt.error)
    rw [lastError, herror]

/-- The failure of the last attempt. -/
theorem Audited.fail {row read : Job} {attempts : List JobAttempt} (h : Audited row attempts)
    (hnumbers : attempts.map JobAttempt.attemptNumber = List.range' 1 row.attemptCount)
    (hclaimed : 0 < row.attemptCount) (error : String) (backoff now : Int) :
    Audited (read.failAssignments error backoff now row) (attempts.map fun attempt =>
      if attempt.attemptNumber = row.attemptCount then
        { attempt with status := .failed, error := some error, finishedAt := some now }
      else attempt) := by
  cases h with
  | unattempted =>
    rw [List.map_nil, eq_comm, List.range'_eq_nil_iff] at hnumbers
    omega
  | attempted earlier last failed formed status lastError =>
    rw [map_finish hnumbers]
    have hstatus : (read.failAssignments error backoff now row).status = .deadLettered ∨
        (read.failAssignments error backoff now row).status = .failed := by
      unfold Job.failAssignments
      cases read.exhausted with
      | true => exact .inl rfl
      | false => exact .inr rfl
    refine .attempted earlier _ failed ⟨rfl, rfl⟩ (.inr ?_) rfl ?_
    · rcases hstatus with heq | heq <;> rw [heq] <;> rfl
    · intro hrunning
      rcases hstatus with heq | heq <;> rw [heq] at hrunning <;> cases hrunning

namespace Sql

namespace State

open Transition

variable {settings : Settings} {jsonb : Jsonb} {s s' : State} {c d : CallId} {jobId : UUID}
  {now : Int} {action : Action} {call : Option CallId} {row : Job}

/-- The attempts of a job, in the order of insertion. -/
def attemptsOf (s : State) (jobId : UUID) : List JobAttempt :=
  s.db.jobAttempts.filter fun attempt => attempt.jobId = jobId

theorem attemptsOf_congr (h : s'.db.jobAttempts = s.db.jobAttempts) (jobId : UUID) :
    s'.attemptsOf jobId = s.attemptsOf jobId := by
  simp only [attemptsOf, h]

/-- Finishing an attempt, among the attempts of one job. -/
theorem attemptsOf_finish {id : UUID} {n : Nat} {status : AttemptStatus} {error : Option String}
    (h : s'.db.jobAttempts = (s.db.finishAttempt id n status error now).jobAttempts) (jobId : UUID) :
    s'.attemptsOf jobId = (s.attemptsOf jobId).map fun attempt =>
      if jobId = id ∧ attempt.attemptNumber = n then
        { attempt with status := status, error := error, finishedAt := some now }
      else attempt := by
  simp only [attemptsOf, h, Database.finishAttempt]
  induction s.db.jobAttempts with
  | nil => rfl
  | cons attempt rest ih =>
    have hjob : (if attempt.jobId = id ∧ attempt.attemptNumber = n then
        { attempt with status := status, error := error, finishedAt := some now }
        else attempt).jobId = attempt.jobId := by split <;> rfl
    rw [List.map_cons, List.filter_cons, List.filter_cons, hjob, ih]
    by_cases hid : attempt.jobId = jobId
    · simp only [hid, decide_true, if_true, List.map_cons]
    · simp only [hid, decide_false, Bool.false_eq_true, if_false]

theorem attemptsOf_finish_ne {id : UUID} {n : Nat} {status : AttemptStatus} {error : Option String}
    (h : s'.db.jobAttempts = (s.db.finishAttempt id n status error now).jobAttempts)
    (hne : jobId ≠ id) : s'.attemptsOf jobId = s.attemptsOf jobId := by
  rw [attemptsOf_finish h]
  simp [hne]

/-- A claim adds the attempt it starts. -/
theorem attemptsOf_claim {attempt : JobAttempt}
    (h : s'.db.jobAttempts = s.db.jobAttempts ++ [attempt]) (jobId : UUID) :
    s'.attemptsOf jobId =
      s.attemptsOf jobId ++ if attempt.jobId = jobId then [attempt] else [] := by
  simp only [attemptsOf, h, List.filter_append, List.filter_cons, List.filter_nil, decide_eq_true_eq]

/-- The row of a job whose attempt is running in a call. -/
def AttemptingRuns (s : State) : Prop :=
  ∀ c jobId, (s.sessions c).attempting = some jobId →
    ∃ row, s.db.jobs.get? jobId = some row ∧ (row.status = .running ∨ row.status = .cancelled)

theorem AttemptingRuns.step (h : s.AttemptingRuns) (hinv : s.Inv) (he : Effect s s' call) :
    s'.AttemptingRuns := by
  intro c jobId hattempting
  rcases he.attempting hinv hattempting with hbefore | ⟨row, hrow, hstatus⟩
  · obtain ⟨row, hrow, hstatus⟩ := h c jobId hbefore
    obtain ⟨row', hrow', hstep⟩ := he.status hinv hrow
    refine ⟨row', hrow', ?_⟩
    have hheld := Session.held_of_attempting hbefore
    cases hstep with
    | same heq => rwa [heq]
    | claim d read workerId now before hid fits free heq => exact .inl heq
    | succeed d held attempting after =>
      rw [hinv.holder_unique held hheld, hattempting] at after
      cases after
    | fail d job succeeded read error now before hid held fits after =>
      have heq : d = c := hinv.holder_unique (by rw [before, ← held]; rfl) hheld
      rw [heq, hattempting] at after
      cases after
    | cancel d read now before hid heq => exact .inr heq
  · exact ⟨row, hrow, .inl hstatus⟩

theorem attemptingRuns_of_reachable (h : (Sql.sessions settings jsonb).Reachable Any s) :
    s.AttemptingRuns := by
  apply h.invariant_of_reachable (I := AttemptingRuns)
  · intro s hs
    have hs : s = State.initial := hs
    subst hs
    intro c jobId hattempting
    cases hattempting
  · intro s label s' hreach hruns _ hs
    have hinv := inv_of_reachable hreach
    exact hruns.step hinv (act_effect hinv.toKnown hs)

/-! ## Rows on their way in -/

/-- A row that one of the two `Job(...)` of the repository makes. -/
def Made (row : Job) : Prop :=
  (∃ request jobId now, row = .submittedRow request jobId now) ∨
    ∃ job nextJobId nextRunAt now, row = .successorRow job nextJobId nextRunAt now

/-- Every row that is about to be inserted is such a row. -/
def PendingMade (s : State) : Prop := ∀ c row, (s.sessions c).pendingRow = some row → Made row

theorem PendingMade.moves (h : s.PendingMade) {session : Session}
    (hmoves : s'.sessions = Function.update s.sessions c session)
    (hsession : ∀ row, session.pendingRow = some row → Made row) : s'.PendingMade := by
  intro d row hrow
  rw [hmoves, Function.update_apply] at hrow
  split at hrow
  · exact hsession row hrow
  · exact h d row hrow

theorem PendingMade.act (h : s.PendingMade) (hs : s.act settings jsonb now action = some s') :
    s'.PendingMade := by
  have hnone : ∀ {session : Session}, session.pendingRow = none →
      ∀ row, session.pendingRow = some row → Made row := by
    intro session hsession row hrow
    rw [hsession] at hrow
    cases hrow
  cases action with
  | submit c request jobId =>
    simp only [State.act, submitJob] at hs
    repeat' split at hs
    all_goals cases hs
    · exact h.moves (c := c) rfl (hnone rfl)
    · exact h.moves (c := c) rfl (hnone rfl)
    · exact h.moves (c := c) rfl (hnone rfl)
    · -- The row is made here, of a request.
      refine h.moves (c := c) rfl fun row hrow => ?_
      cases hrow
      exact .inl ⟨request, jobId, now, rfl⟩
  | next c after nextJobId =>
    simp only [State.act, State.next] at hs
    repeat' split at hs
    all_goals cases hs
    · exact h.moves (c := c) rfl (hnone rfl)
    · exact h.moves (c := c) rfl (hnone rfl)
    · -- The row is made here, after a job.
      refine h.moves (c := c) rfl fun row hrow => ?_
      cases hrow
      exact .inr ⟨_, nextJobId, _, now, rfl⟩
  | setAvailable available =>
    cases hs
    exact h
  | insertCommit c | reselect c | claimRead c | claimCommit c | claimRefresh c | insertRefresh c
  | publish c | process c | finish c | succeedRead c | succeedCommit c | succeedRefresh c
  | nextCommit c | failRead c | failCommit c | failRefresh c | publishDeadLetter c | cancelRead c
  | cancelCommit c | cancelRefresh c | drainRead c | drainCommit c =>
    simp only [State.act, insertCommit, reselect, claimRead, claimCommit, claimRefresh] at hs
    repeat' split at hs
    all_goals cases hs
    all_goals exact h.moves (c := c) rfl (hnone rfl)

theorem pendingMade_of_reachable (h : (Sql.sessions settings jsonb).Reachable Any s) :
    s.PendingMade := by
  apply h.invariant (I := PendingMade)
  · intro s hs
    have hs : s = State.initial := hs
    subst hs
    intro c row hrow
    cases hrow
  · intro s label s' hpending _ hs
    exact hpending.act hs

/-! ## The two tables agree -/

/-- The rows agree with the attempts, an attempt that a call is making is running, and those that a
    current claim has read have failed. -/
structure Audit (s : State) : Prop where
  rows : ∀ jobId row, s.db.jobs.get? jobId = some row → Audited row (s.attemptsOf jobId)
  attempting : ∀ c jobId, (s.sessions c).attempting = some jobId → ∀ attempt ∈ s.attemptsOf jobId,
    attempt.attemptNumber = s.version jobId → attempt.status = .running
  claiming : ∀ c read workerId t, s.sessions c = .claimPending read workerId t →
    read.attemptCount = s.version read.id → ∀ attempt ∈ s.attemptsOf read.id,
      attempt.status = .failed ∧ attempt.WellFormed

/-- A call that is attempting a job after it moved on was doing so before. -/
theorem attempting_of_moves {session : Session} (hmoves : Moves s s' d session)
    (hsession : session.attempting = none ∨ session.attempting = (s.sessions d).attempting)
    (h : (s'.sessions c).attempting = some jobId) : (s.sessions c).attempting = some jobId := by
  rcases session_cases hmoves c with ⟨rfl, heq⟩ | ⟨-, heq⟩
  · rw [heq] at h
    rcases hsession with hnone | hsame
    · rw [hnone] at h
      cases h
    · rwa [hsame] at h
  · rwa [heq] at h

/-- A call that has read a claimable row had read it before another session moved on. -/
theorem claimPending_of_moves {session : Session} (hmoves : Moves s s' d session)
    (hsession : session.view = none) {read : Job} {workerId : String} {t : Int}
    (h : s'.sessions c = .claimPending read workerId t) :
    c ≠ d ∧ s.sessions c = .claimPending read workerId t := by
  rcases session_cases hmoves c with ⟨-, heq⟩ | ⟨hne, heq⟩
  · rw [← heq, h] at hsession
    cases hsession
  · exact ⟨hne, heq ▸ h⟩

/-- A claim has read its row before, or finds it pending now. -/
theorem Effect.claiming (he : Effect s s' call) {read : Job} {workerId : String} {t : Int}
    (h : s'.sessions c = .claimPending read workerId t) :
    s.sessions c = .claimPending read workerId t ∨
      s.db.jobs.get? read.id = some read ∧ read.status.isPending = true := by
  have hmoved : ∀ {d : CallId} {session : Session}, Moves s s' d session → session.read = none →
      s.sessions c = .claimPending read workerId t := by
    intro d session hmoves hread
    have hview : session.view = none := by
      cases hv : session.view with
      | none => rfl
      | some row =>
        rw [Session.read_of_view hv] at hread
        cases hread
    exact (claimPending_of_moves hmoves hview h).2
  cases he with
  | idle tables sessions => exact .inl (sessions ▸ h)
  | quiet d session tables moves read => exact .inl (hmoved moves read)
  | reads d session row tables moves read stored claimable =>
    rcases session_cases moves c with ⟨-, heq⟩ | ⟨-, heq⟩
    · rw [← heq, h] at read claimable
      cases read
      exact .inr ⟨stored, claimable _ rfl⟩
    · exact .inl (heq ▸ h)
  | start d job tables moves => exact .inl (hmoved moves rfl)
  | insert d row payload session jobs attempts fresh new moves read => exact .inl (hmoved moves read)
  | claim d row workerId' t' before fits free jobs attempts moves => exact .inl (hmoved moves rfl)
  | succeed d job row result stored t' before jobs attempts moves => exact .inl (hmoved moves rfl)
  | fail d job succeeded row error t' before fits jobs attempts moves =>
    exact .inl (hmoved moves rfl)
  | cancel d row t' before jobs attempts moves => exact .inl (hmoved moves rfl)

/-- A call that may win a claim after the step knows of failed attempts only. -/
def ClaimsAfterFailures (s s' : State) : Prop :=
  ∀ c read workerId t, s'.sessions c = .claimPending read workerId t →
    read.attemptCount = s.version read.id →
    ∀ attempt ∈ s.attemptsOf read.id, attempt.status = .failed ∧ attempt.WellFormed

theorem Audit.claimsAfterFailures (h : s.Audit) (he : Effect s s' call) :
    ClaimsAfterFailures s s' := by
  intro c read workerId t hpending hcurrent
  rcases he.claiming hpending with hbefore | ⟨hstored, hpending⟩
  · exact h.claiming c read workerId t hbefore hcurrent
  · exact (h.rows read.id read hstored).failed_of_pending hpending

/-- A step that leaves jobs and attempts as they are. -/
theorem Audit.same (h : s.Audit) (hclaiming : ClaimsAfterFailures s s') (htables : SameTables s s')
    (hattempting : ∀ c jobId, (s'.sessions c).attempting = some jobId →
      (s.sessions c).attempting = some jobId) : s'.Audit := by
  have hattempts := fun jobId => attemptsOf_congr htables.2 jobId
  have hversion := fun jobId => version_congr htables.1 jobId
  constructor
  · intro jobId row hrow
    rw [htables.1] at hrow
    rw [hattempts]
    exact h.rows jobId row hrow
  · intro c jobId hc
    rw [hattempts, hversion]
    exact h.attempting c jobId (hattempting c jobId hc)
  · intro c read workerId t hc
    rw [hattempts, hversion]
    exact hclaiming c read workerId t hc

/-- A claim that is pending on a job that a call holds is stale. -/
theorem Inv.stale_of_held (h : s.Inv) (hheld : (s.sessions c).held = some jobId) {read : Job}
    {workerId : String} {t : Int} (hpending : s.sessions d = .claimPending read workerId t)
    (hid : read.id = jobId) : read.attemptCount ≠ s.version jobId := by
  intro hcurrent
  obtain ⟨row, hrow⟩ := h.held_stored c jobId hheld
  refine (h.exclusive jobId row hrow).current_free d ?_ c hheld
  simp [lease, hpending, Session.viewOf, Session.view, hid, hcurrent]

/-- The commit of a claim. -/
theorem Audit.claim (h : s.Audit) (hinv : s.Inv) {read : Job} {workerId : String} {t : Int}
    (hpending : s.sessions c = .claimPending read workerId t)
    (hfree : s.db.hasAttempt read.id (read.attemptCount + 1) = false)
    (hjobs : s'.db.jobs = s.db.jobs.modify read.id (read.claimAssignments workerId t))
    (hattempts : s'.db.jobAttempts = s.db.jobAttempts ++
      [⟨read.id, read.attemptCount + 1, .running, t, none, none, some workerId⟩])
    (hmoves : Moves s s' c (.claimed read.id)) : s'.Audit := by
  have hcurrent := (hinv.free_iff hpending).mp hfree
  obtain ⟨row, hrow, -⟩ := hinv.read_stored c read (by rw [hpending]; rfl)
  have hrow' := get?_of_update hjobs hrow
  have hversion : s'.version read.id = read.attemptCount + 1 := version_of_stored hrow'
  have hown := attemptsOf_claim hattempts read.id
  rw [if_pos rfl] at hown
  have hother : ∀ id, id ≠ read.id → s'.attemptsOf id = s.attemptsOf id := by
    intro id hne
    rw [attemptsOf_claim hattempts, if_neg (Ne.symm hne), List.append_nil]
  have hversion_other : ∀ id, id ≠ read.id → s'.version id = s.version id := by
    intro id hne
    simp only [version, hjobs, Dict.get?_modify_of_ne _ _ hne]
  constructor
  · intro id row₁ hrow₁
    by_cases hid : id = read.id
    · subst hid
      rw [hrow'] at hrow₁
      cases hrow₁
      rw [hown]
      exact (h.rows read.id row hrow).claim (h.claiming c read workerId t hpending hcurrent) ..
    · rw [hjobs, Dict.get?_modify_of_ne _ _ hid] at hrow₁
      rw [hother id hid]
      exact h.rows id row₁ hrow₁
  · intro d id hd
    by_cases hid : id = read.id
    · subst hid
      intro attempt hmem hnumber
      rw [hown, List.mem_append, List.mem_singleton] at hmem
      rcases hmem with hmem | rfl
      · -- The numbers before are 1 to `attempt_count`, so only the new attempt has the next.
        have hmem' : attempt.attemptNumber ∈ s.attemptNumbers read.id := List.mem_map_of_mem hmem
        rw [hinv.attempts, List.mem_range'_1] at hmem'
        omega
      · rfl
    · rw [hother id hid, hversion_other id hid]
      rcases session_cases hmoves d with ⟨-, heq⟩ | ⟨-, heq⟩
      · rw [heq] at hd
        exact absurd (Option.some.inj hd).symm hid
      · exact h.attempting d id (heq ▸ hd)
  · intro d read' workerId' t' hd
    obtain ⟨-, hbefore⟩ := claimPending_of_moves hmoves rfl hd
    by_cases hid : read'.id = read.id
    · -- What it read before the claim is out of date.
      intro hcurrent'
      have hle := (hinv.exclusive read.id row hrow).view_le d read'.attemptCount (by
        simp [lease, hbefore, Session.viewOf, Session.view, hid])
      change read'.attemptCount ≤ s.version read.id at hle
      rw [hid, hversion] at hcurrent'
      omega
    · rw [hother _ hid, hversion_other _ hid]
      exact h.claiming d read' workerId' t' hbefore

/-- The commit of a mark, by the call that holds the job. -/
theorem Audit.finish (h : s.Audit) (hinv : s.Inv) (hheld : (s.sessions c).held = some jobId)
    {assign : Job → Job} {status : AttemptStatus} {error : Option String} {session : Session}
    (hjobs : s'.db.jobs = s.db.jobs.modify jobId assign)
    (hcount : ∀ row, (assign row).attemptCount = row.attemptCount)
    (hattempts : s'.db.jobAttempts =
      (s.db.finishAttempt jobId (s.version jobId) status error now).jobAttempts)
    (hmoves : Moves s s' c session) (hdone : session.attempting = none) (hview : session.view = none)
    (haudited : ∀ row, s.db.jobs.get? jobId = some row → Audited (assign row)
      ((s.attemptsOf jobId).map fun attempt => if attempt.attemptNumber = row.attemptCount then
        { attempt with status := status, error := error, finishedAt := some now } else attempt)) :
    s'.Audit := by
  have hversion := version_of_update hjobs hcount
  constructor
  · intro id row' hrow'
    by_cases hid : id = jobId
    · subst hid
      obtain ⟨row, hrow⟩ := hinv.held_stored c id hheld
      rw [get?_of_update hjobs hrow] at hrow'
      cases hrow'
      have hown := attemptsOf_finish hattempts id
      rw [version_of_stored hrow] at hown
      simp only [true_and] at hown
      rw [hown]
      exact haudited row hrow
    · rw [hjobs, Dict.get?_modify_of_ne _ _ hid] at hrow'
      rw [attemptsOf_finish_ne hattempts hid]
      exact h.rows id row' hrow'
  · intro d id hd
    have hbefore := attempting_of_moves hmoves (.inl hdone) hd
    -- The call of the mark is through, and no other was attempting this job.
    have hid : id ≠ jobId := by
      rintro rfl
      rw [hinv.holder_unique (Session.held_of_attempting hbefore) hheld, hmoves,
        Function.update_self, hdone] at hd
      cases hd
    rw [attemptsOf_finish_ne hattempts hid, hversion]
    exact h.attempting d id hbefore
  · intro d read workerId t hd
    obtain ⟨-, hbefore⟩ := claimPending_of_moves hmoves hview hd
    rw [hversion]
    intro hcurrent
    -- A read that is current would be of a job that nobody holds.
    have hid : read.id ≠ jobId := by
      intro hid
      exact hinv.stale_of_held hheld hbefore hid (hid ▸ hcurrent)
    rw [attemptsOf_finish_ne hattempts hid]
    exact h.claiming d read workerId t hbefore hcurrent

/-- A job that a call holds has been claimed. -/
def HeldClaimed (s : State) : Prop :=
  ∀ c jobId, (s.sessions c).held = some jobId → 0 < s.version jobId

theorem heldClaimed_of_reachable (h : (Sql.sessions settings jsonb).Reachable Any s) :
    s.HeldClaimed := by
  apply h.invariant_of_reachable (I := HeldClaimed)
  · intro s hs
    have hs : s = State.initial := hs
    subst hs
    intro c jobId hheld
    cases hheld
  · intro s label s' hreach hclaimed _ hs
    have hinv := inv_of_reachable hreach
    have he := act_effect hinv.toKnown hs
    intro c jobId hheld
    rcases he.held hheld with hbefore | ⟨hsession, -⟩
    · have hpos := hclaimed c jobId hbefore
      cases he.tick hinv jobId with
      | same hversion => rwa [hversion]
      | claim d _ hversion => omega
      | start d job _ _ hversion => rwa [hversion]
    · have hstarted := started_of_reachable (hreach.tail trivial hs)
      exact Nat.zero_lt_of_lt (hstarted.unstarted c jobId hsession)

/-- The commit of a new row. -/
theorem Audit.insert (h : s.Audit) (hinv : s.Inv) (hclaiming : ClaimsAfterFailures s s') {row : Job}
    {payload : JsonObject} {session : Session}
    (hjobs : s'.db.jobs = s.db.jobs.insert row.id { row with payload := payload })
    (hattempts : s'.db.jobAttempts = s.db.jobAttempts) (hfresh : s.db.jobs.get? row.id = none)
    (hnew : New row) (hmade : Made row) (hmoves : Moves s s' c session)
    (hheld : session.held = none) : s'.Audit := by
  have hsame := fun jobId => attemptsOf_congr hattempts jobId
  have hversion := fun jobId => (version_of_insert hjobs hfresh hnew jobId).1
  constructor
  · intro jobId row' hrow'
    rw [hsame]
    rw [hjobs, Dict.get?_insert] at hrow'
    split at hrow'
    · rename_i hid
      cases hrow'
      -- A new identifier has no attempts: their numbers go with the version.
      have hnone : s.attemptsOf jobId = [] := by
        have hnumbers : s.attemptNumbers jobId = [] := by
          rw [hinv.attempts, version, hid, hfresh]
          rfl
        exact List.map_eq_nil_iff.mp hnumbers
      rw [hnone]
      refine .unattempted (.inl hnew.1) ?_
      rcases hmade with ⟨_, _, _, rfl⟩ | ⟨_, _, _, _, rfl⟩ <;> rfl
    · exact h.rows jobId row' hrow'
  · intro d jobId hd
    rw [hsame, hversion]
    exact h.attempting d jobId
      (attempting_of_moves hmoves (.inl (Session.attempting_of_unheld hheld)) hd)
  · intro d read workerId t hd
    rw [hsame, hversion]
    exact hclaiming d read workerId t hd

/-- The commit of a cancellation. -/
theorem Audit.cancel (h : s.Audit) (hclaiming : ClaimsAfterFailures s s') {read current : Job}
    {t : Int} {session : Session} (hcurrent : s.db.jobs.get? read.id = some current)
    (hjobs : s'.db.jobs = s.db.jobs.modify read.id (Job.cancelAssignments t))
    (hattempts : s'.db.jobAttempts = s.db.jobAttempts) (hmoves : Moves s s' c session)
    (hidle : session.attempting = none) : s'.Audit := by
  have hsame := fun jobId => attemptsOf_congr hattempts jobId
  have hversion := version_of_update hjobs fun _ => rfl
  constructor
  · intro jobId row' hrow'
    rw [hsame]
    by_cases hid : jobId = read.id
    · subst hid
      rw [get?_of_update hjobs hcurrent] at hrow'
      cases hrow'
      exact (h.rows read.id current hcurrent).cancel t
    · rw [hjobs, Dict.get?_modify_of_ne _ _ hid] at hrow'
      exact h.rows jobId row' hrow'
  · intro d jobId hd
    rw [hsame, hversion]
    exact h.attempting d jobId (attempting_of_moves hmoves (.inl hidle) hd)
  · intro d read' workerId t' hd
    rw [hsame, hversion]
    exact hclaiming d read' workerId t' hd

/-- **Every step keeps the two tables in agreement.** -/
theorem Audit.step (h : s.Audit) (hinv : s.Inv) (hmade : s.PendingMade) (hclaimed : s.HeldClaimed)
    (he : Effect s s' call) : s'.Audit := by
  have hclaiming := h.claimsAfterFailures he
  have hsame := h.same hclaiming
  cases he with
  | idle tables sessions => exact hsame tables fun c jobId hc => sessions ▸ hc
  | quiet c session tables moves read held attempting =>
    exact hsame tables fun d jobId hd => attempting_of_moves moves attempting hd
  | reads c session row tables moves read stored claimable owner held attempting =>
    exact hsame tables fun d jobId hd => attempting_of_moves moves (.inr attempting) hd
  | start c job tables moves before =>
    refine hsame tables fun d jobId hd => attempting_of_moves moves (.inr ?_) hd
    rw [before]
    rfl
  | insert c row payload session jobs attempts fresh new moves read held pending history raised drawn
      unkeyed before =>
    exact h.insert hinv hclaiming jobs attempts fresh new (hmade c row before) moves held
  | claim c row workerId t before fits free jobs attempts moves =>
    exact h.claim hinv before free jobs attempts moves
  | succeed c job row result stored t before jobs attempts moves =>
    obtain ⟨hjob, hcount⟩ := hinv.read_current c row job.id (by rw [before]; rfl) (by rw [before]; rfl)
    rw [hjob] at jobs attempts
    rw [hcount] at attempts
    have hheld : (s.sessions c).held = some job.id := by rw [before]; rfl
    refine h.finish hinv hheld jobs (fun _ => rfl) attempts moves rfl rfl ?_
    intro current hcurrent
    have hversion := version_of_stored hcurrent
    refine (h.rows job.id current hcurrent).succeed ?_ ?_ ?_ stored t
    · rw [← hversion]
      exact hinv.attempts job.id
    · rw [← hversion]
      exact hclaimed c job.id hheld
    · rw [← hversion]
      exact h.attempting c job.id (by rw [before]; rfl)
  | fail c job succeeded row error t before fits jobs attempts moves =>
    obtain ⟨hjob, hcount⟩ := hinv.read_current c row job.id (by rw [before]; rfl) (by rw [before]; rfl)
    rw [hjob] at jobs attempts
    rw [hcount] at attempts
    have hheld : (s.sessions c).held = some job.id := by rw [before]; rfl
    refine h.finish hinv hheld jobs (fun _ => rfl) attempts moves rfl rfl ?_
    intro current hcurrent
    have hversion := version_of_stored hcurrent
    refine (h.rows job.id current hcurrent).fail ?_ ?_ error _ t
    · rw [← hversion]
      exact hinv.attempts job.id
    · rw [← hversion]
      exact hclaimed c job.id hheld
  | cancel c row t before jobs attempts moves =>
    obtain ⟨current, hcurrent, -⟩ := hinv.read_stored c row (by rw [before]; rfl)
    exact h.cancel hclaiming hcurrent jobs attempts moves rfl

theorem audit_of_reachable (h : (Sql.sessions settings jsonb).Reachable Any s) : s.Audit := by
  apply h.invariant_of_reachable (I := Audit)
  · intro s hs
    have hs : s = State.initial := hs
    subst hs
    constructor
    · intro jobId row hrow
      exact absurd hrow (by simp [State.initial, Database.empty])
    · intro c jobId hattempting
      cases hattempting
    · intro c read workerId t hpending
      cases hpending
  · intro s label s' hreach haudit _ hs
    have hinv := inv_of_reachable hreach
    exact haudit.step hinv (pendingMade_of_reachable hreach) (heldClaimed_of_reachable hreach)
      (act_effect hinv.toKnown hs)

/-- **The record of the attempts is complete and says what became of the job**: in every reachable
    state and for every job, the attempts are numbered 1 to `attempt_count` in the order they were
    inserted, all but the last have failed, and the last, unless the job was cancelled, has the
    status that the job's status tells, with the columns that this status calls for. The last error
    of the job is that of its last failed attempt, and the lock of a running job is its attempt's. -/
theorem attempts_audited (h : (Sql.sessions settings jsonb).Reachable Any s)
    (hrow : s.db.getJob? jobId = some row) :
    (s.attemptsOf jobId).map JobAttempt.attemptNumber = List.range' 1 row.attemptCount ∧
      Audited row (s.attemptsOf jobId) := by
  refine ⟨?_, (audit_of_reachable h).rows jobId row hrow⟩
  rw [← version_of_stored hrow]
  exact (inv_of_reachable h).attempts jobId

/-- A job whose first attempt failed, in the middle of its second. -/
def retriedRun : List Label :=
  startedRun ++ [⟨5, .finish 1 (.raised (.transient "handler failed"))⟩, ⟨5, .failRead 1⟩,
    ⟨5, .failCommit 1⟩, ⟨seconds 2, .process 2 Sample.jobId "worker-2"⟩, ⟨seconds 2, .claimRead 2⟩,
    ⟨seconds 2, .claimCommit 2⟩]

theorem attempts_audited_of_retriedRun : ∃ s row,
    (Sql.sessions {} some).Reachable Any s ∧ s.db.getJob? Sample.jobId = some row ∧
      row.attemptCount = 2 ∧ row.status = .running ∧ row.lockedBy = some "worker-2" ∧
      row.lastError = some "handler failed" ∧ Audited row (s.attemptsOf Sample.jobId) := by
  have hrun : ∃ s row, System.replay (State.step {} some) State.initial retriedRun = some s ∧
      s.db.getJob? Sample.jobId = some row ∧ row.attemptCount = 2 ∧ row.status = .running ∧
      row.lockedBy = some "worker-2" ∧ row.lastError = some "handler failed" :=
    ⟨_, _, rfl, rfl, rfl, rfl, rfl, rfl⟩
  obtain ⟨s, row, hs, hrow, hcount, hstatus, hworker, herror⟩ := hrun
  have hreach : (Sql.sessions {} some).Reachable Any s :=
    ⟨State.initial, rfl, System.Steps.of_replay hs fun _ _ _ => trivial⟩
  exact ⟨s, row, hreach, hrow, hcount, hstatus, hworker, herror, (attempts_audited hreach hrow).2⟩

end State

end Sql

end JobPipeline
