import JobPipeline.Sql.Successors

/-!
# The pace of the attempts

`mark_failed_attempt` sets the next run and `claim_job` checks it, but the check is made on a row
that was read some time before the commit, and other sessions write the row in between. The attempts
keep the pace all the same: whatever the interleaving, none starts before the job is due, nor earlier
after the one before it than the backoff of that one, if the clock does not run backwards.
-/

set_option autoImplicit false

namespace JobPipeline

namespace JobAttempt

/-- The earliest start of the attempt after this one. -/
def retryAt (attempt : JobAttempt) : Int :=
  attempt.startedAt + seconds (backoffSeconds attempt.attemptNumber)

/-- None of the attempts starts before it may, the first of them not before `start`. -/
def Paced : Int → List JobAttempt → Prop
  | _, [] => True
  | start, attempt :: rest => start ≤ attempt.startedAt ∧ Paced attempt.retryAt rest

/-- When the attempt after all of these may start. -/
def nextStart : Int → List JobAttempt → Int
  | start, [] => start
  | _, attempt :: rest => nextStart attempt.retryAt rest

variable {start : Int} {attempts : List JobAttempt} {attempt : JobAttempt}

theorem nextStart_concat : nextStart start (attempts ++ [attempt]) = attempt.retryAt := by
  induction attempts generalizing start with
  | nil => rfl
  | cons first rest ih => exact ih

theorem paced_concat :
    Paced start (attempts ++ [attempt]) ↔
      Paced start attempts ∧ nextStart start attempts ≤ attempt.startedAt := by
  induction attempts generalizing start with
  | nil => simp [Paced, nextStart]
  | cons first rest ih =>
    show start ≤ first.startedAt ∧ Paced first.retryAt (rest ++ [attempt]) ↔
      (start ≤ first.startedAt ∧ Paced first.retryAt rest) ∧
        nextStart first.retryAt rest ≤ attempt.startedAt
    rw [ih, and_assoc]

/-- Only the numbers and the starts matter. -/
theorem paced_map {finish : JobAttempt → JobAttempt}
    (hretry : ∀ attempt, (finish attempt).retryAt = attempt.retryAt)
    (hstarted : ∀ attempt, (finish attempt).startedAt = attempt.startedAt) :
    (Paced start (attempts.map finish) ↔ Paced start attempts) ∧
      nextStart start (attempts.map finish) = nextStart start attempts := by
  induction attempts generalizing start with
  | nil => exact ⟨Iff.rfl, rfl⟩
  | cons first rest ih =>
    obtain ⟨hpaced, hnext⟩ := @ih first.retryAt
    constructor
    · show start ≤ (finish first).startedAt ∧ Paced (finish first).retryAt (rest.map finish) ↔
        start ≤ first.startedAt ∧ Paced first.retryAt rest
      rw [hstarted, hretry, hpaced]
    · show nextStart (finish first).retryAt (rest.map finish) = nextStart first.retryAt rest
      rw [hretry, hnext]

end JobAttempt

open JobAttempt

/-- The attempts of a job that was first due at `start`, and its row: while they have all failed,
    the next run is not before the next attempt may start. -/
structure PacedRow (start : Int) (row : Job) (attempts : List JobAttempt) : Prop where
  paced : Paced start attempts
  next : (∀ attempt ∈ attempts, attempt.status = .failed) → nextStart start attempts ≤ row.nextRunAt

variable {start : Int} {row : Job} {attempts : List JobAttempt}

/-- A claim of the row as it is, at a time when it is due. -/
theorem PacedRow.claim (h : PacedRow start row attempts)
    (hfailed : ∀ attempt ∈ attempts, attempt.status = .failed) {row' : Job} {attempt : JobAttempt}
    (hrunning : attempt.status = .running) (hdue : row.nextRunAt ≤ attempt.startedAt) :
    PacedRow start row' (attempts ++ [attempt]) := by
  constructor
  · rw [paced_concat]
    exact ⟨h.paced, (h.next hfailed).trans hdue⟩
  · intro hall
    have hlast := hall attempt (by simp)
    rw [hrunning] at hlast
    cases hlast

/-- A mark of the last attempt. If it is one of failure, the next run is a backoff later. -/
theorem PacedRow.finish {n : Nat} (h : PacedRow start row attempts)
    (hnumbers : attempts.map JobAttempt.attemptNumber = List.range' 1 n) (hpos : 0 < n)
    {row' : Job} {status : AttemptStatus} {error : Option String} {now : Int}
    (hnext : status = .failed → ∀ attempt ∈ attempts,
      attempt.startedAt + seconds (backoffSeconds n) ≤ row'.nextRunAt) :
    PacedRow start row' (attempts.map fun attempt => if attempt.attemptNumber = n then
      { attempt with status := status, error := error, finishedAt := some now } else attempt) := by
  obtain ⟨hpaced, hsame⟩ := @paced_map start attempts (fun attempt =>
      if attempt.attemptNumber = n then
        { attempt with status := status, error := error, finishedAt := some now }
      else attempt)
    (fun attempt => by split <;> rfl) (fun attempt => by split <;> rfl)
  refine ⟨hpaced.mpr h.paced, ?_⟩
  rw [hsame]
  intro hall
  have hne : attempts ≠ [] := by
    rintro rfl
    rw [List.map_nil, eq_comm, List.range'_eq_nil_iff] at hnumbers
    omega
  obtain ⟨earlier, last, rfl⟩ := (List.eq_nil_or_concat' attempts).resolve_left hne
  have hlast := number_of_last hnumbers
  have hstatus : status = .failed := by
    have hfailed := hall { last with status := status, error := error, finishedAt := some now } (by
      rw [List.map_append]
      simp [hlast])
    exact hfailed
  rw [nextStart_concat, retryAt, hlast]
  exact hnext hstatus last (by simp)

namespace Sql

namespace Session

/-- The record of the job that a call has claimed. -/
def record : Session → Option JobRecord
  | .running job => some job
  | .handled job _ => some job
  | .succeedPending job _ _ _ => some job
  | .succeeded job => some job
  | .marked job _ => some job
  | .nextPending job _ _ => some job
  | .excepted job _ _ _ => some job
  | .failPending job _ _ _ _ => some job
  | _ => none

theorem held_of_record {session : Session} {job : JobRecord} (h : session.record = some job) :
    session.held = some job.id := by
  cases session with
  | running | handled | succeedPending | succeeded | marked | nextPending | excepted | failPending =>
    cases h
    rfl
  | _ => cases h

end Session

namespace State

open Transition

variable {settings : Settings} {jsonb : Jsonb} {s s' : State} {c d : CallId} {jobId : UUID}
  {now : Int} {action : Action} {label : Label} {call : Option CallId} {row : Job}

/-! ## What a call reads, and when -/

theorem claimPending_of_act (hs : s.act settings jsonb now action = some s') {read : Job}
    {workerId : String} {t : Int} (h : s'.sessions c = .claimPending read workerId t) :
    s.sessions c = .claimPending read workerId t ∨
      s'.db = s.db ∧ (∃ jobId, s.db.jobs.get? jobId = some read) ∧ read.status.isPending = true ∧
        read.nextRunAt ≤ t ∧ t = now := by
  rcases entered_of_act hs c with heq | hentered
  · exact .inl (heq.symm.trans h)
  · rw [h] at hentered
    obtain ⟨d, rfl⟩ := hentered
    simp only [State.act, claimRead] at hs
    split at hs
    · rename_i jobId workerId' hcall
      repeat' split at hs
      all_goals cases hs
      all_goals rcases session_of_setSession h with ⟨rfl, heq⟩ | hbefore
      all_goals first | exact .inl hbefore | cases heq
      rename_i hrow hclaimable
      simp only [not_or, not_not, not_lt] at hclaimable
      exact .inr ⟨rfl, ⟨jobId, hrow⟩, hclaimable.1, hclaimable.2, rfl⟩
    · cases hs

/-- A claim that is current after a step was so before it. -/
theorem Inv.current_before (hinv : s.Inv) (he : Effect s s' call) {read : Job} {workerId : String}
    {t : Int} (hbefore : s.sessions c = .claimPending read workerId t)
    (hcurrent : read.attemptCount = s'.version read.id) : read.attemptCount = s.version read.id := by
  cases he.tick hinv read.id with
  | same hsame => rw [hcurrent, hsame]
  | start _ _ _ _ hsame => rw [hcurrent, hsame]
  | claim d hview hclaimed =>
    obtain ⟨row, hrow, -⟩ := hinv.read_stored c read (by rw [hbefore]; rfl)
    have hle := (hinv.exclusive read.id row hrow).view_le c read.attemptCount (by
      simp [lease, hbefore, Session.viewOf, Session.view])
    change read.attemptCount ≤ s.version read.id at hle
    omega

theorem failPending_of_act (hs : s.act settings jsonb now action = some s') {job : JobRecord}
    {succeeded : Option JobRecord} {read : Job} {error : String} {t : Int}
    (h : s'.sessions c = .failPending job succeeded read error t) :
    s.sessions c = .failPending job succeeded read error t ∨ s'.db = s.db ∧ t = now := by
  rcases entered_of_act hs c with heq | hentered
  · exact .inl (heq.symm.trans h)
  · rw [h] at hentered
    obtain ⟨d, rfl⟩ := hentered
    simp only [State.act] at hs
    split at hs
    · repeat' split at hs
      all_goals cases hs
      all_goals rcases session_of_setSession h with ⟨rfl, heq⟩ | hbefore
      all_goals first | exact .inl hbefore | cases heq
      exact .inr ⟨rfl, rfl⟩
    · cases hs

/-- A call comes to know of its job by the refresh after its claim. -/
theorem record_of_act (hs : s.act settings jsonb now action = some s') {job : JobRecord}
    (h : (s'.sessions c).record = some job) :
    (s.sessions c).record = some job ∨
      s'.db = s.db ∧ ∃ jobId row, s.sessions c = .claimed jobId ∧
        s.db.jobs.get? jobId = some row ∧ job = recordFromModel row := by
  have hmoved : ∀ {t : State} {d : CallId} {session : Session}, s' = t.setSession d session →
      t.sessions = s.sessions →
      (session.record = none ∨ session.record = (s.sessions d).record) →
      (s.sessions c).record = some job := by
    intro t d session heq ht hsession
    subst heq
    by_cases hcd : c = d
    · subst hcd
      rw [sessions_setSession] at h
      rcases hsession with hnone | hsame
      · rw [hnone] at h
        cases h
      · rwa [hsame] at h
    · have hother : (t.setSession d session).sessions c = t.sessions c :=
        Function.update_of_ne hcd ..
      rwa [hother, ht] at h
  cases action with
  | claimRefresh d =>
    simp only [State.act, claimRefresh] at hs
    split at hs
    · rename_i jobId hcall
      repeat' split at hs
      all_goals cases hs
      · exact .inl (hmoved rfl rfl (.inl rfl))
      · exact .inl (hmoved rfl rfl (.inl rfl))
      · rename_i row hrefresh _ _ _
        by_cases hcd : c = d
        · subst hcd
          rw [sessions_setSession] at h
          cases h
          exact .inr ⟨rfl, jobId, row, hcall, stored_of_refresh hrefresh, rfl⟩
        · refine .inl ?_
          have hother : (((s.note (.started d jobId)).setSession d
              (.running (recordFromModel row))).sessions c) = s.sessions c :=
            Function.update_of_ne hcd ..
          rwa [hother] at h
    · cases hs
  | setAvailable =>
    cases hs
    exact .inl h
  -- These hand the record on to the next point of the call.
  | finish d | succeedRead d | succeedCommit d | succeedRefresh d | next d | nextCommit d
  | failRead d =>
    simp only [State.act, State.next] at hs
    split at hs
    · rename_i hcall
      repeat' split at hs
      all_goals cases hs
      all_goals
        first
        | exact .inl (hmoved rfl rfl (.inl rfl))
        | exact .inl (hmoved rfl rfl (.inr (by rw [hcall]; rfl)))
    · cases hs
  | submit d | insertCommit d | reselect d | insertRefresh d | publish d | process d | claimRead d
  | claimCommit d | failCommit d | failRefresh d | publishDeadLetter d | cancelRead d
  | cancelCommit d | cancelRefresh d | drainRead d | drainCommit d =>
    simp only [State.act, submitJob, insertCommit, reselect, claimRead, claimCommit] at hs
    repeat' split at hs
    all_goals cases hs
    all_goals exact .inl (hmoved rfl rfl (.inl rfl))

/-- The record of a call counts the attempts of its job. -/
def RecordCurrent (s : State) : Prop :=
  ∀ c job, (s.sessions c).record = some job → job.attemptCount = s.version job.id

theorem RecordCurrent.act (h : s.RecordCurrent) (hinv : s.Inv)
    (hs : s.act settings jsonb now action = some s') : s'.RecordCurrent := by
  intro c job hrecord
  have he := act_effect hinv.toKnown hs
  rcases record_of_act hs hrecord with hbefore | ⟨hdb, jobId, row, -, hrow, rfl⟩
  · have hcount := h c job hbefore
    cases he.tick hinv job.id with
    | same hversion => rw [hversion, hcount]
    | start d job' _ _ hversion => rw [hversion, hcount]
    | claim d hview hversion =>
      -- A job that is held cannot be claimed.
      obtain ⟨stored, hstored⟩ := hinv.held_stored c job.id (Session.held_of_record hbefore)
      exact absurd (Session.held_of_record hbefore)
        ((hinv.exclusive job.id stored hstored).current_free d hview c)
  · have hid : row.id = jobId := hinv.keyed jobId row hrow
    have hrow' : s'.db.jobs.get? row.id = some row := by
      rw [hdb, hid]
      exact hrow
    show row.attemptCount = s'.version row.id
    rw [version_of_stored hrow']

theorem recordCurrent_of_reachable (h : (Sql.sessions settings jsonb).Reachable Any s) :
    s.RecordCurrent := by
  apply h.invariant_of_reachable (I := RecordCurrent)
  · intro s hs
    have hs : s = State.initial := hs
    subst hs
    intro c job hrecord
    cases hrecord
  · intro s label s' hreach hcurrent _ hs
    exact hcurrent.act (inv_of_reachable hreach) hs

/-! ## The invariant -/

/-- The clock is not behind the start of an attempt that is stored. -/
def ClockAhead (s : State) (label : Label) : Prop :=
  ∀ attempt ∈ s.db.jobAttempts, attempt.startedAt ≤ label.now

structure OnPace (s : State) : Prop where
  jobs : ∀ c created, .inserted c created ∈ s.history → ∀ row,
    s.db.jobs.get? created.id = some row →
      PacedRow created.nextRunAt row (s.attemptsOf created.id)
  /-- What a claim has checked is still so when it goes through. -/
  claiming : ∀ c read workerId t, s.sessions c = .claimPending read workerId t →
    read.nextRunAt ≤ t ∧ (read.attemptCount = s.version read.id →
      ∀ row, s.db.jobs.get? read.id = some row → row.nextRunAt = read.nextRunAt)
  failing : ∀ c job succeeded read error t,
    s.sessions c = .failPending job succeeded read error t →
      ∀ attempt ∈ s.attemptsOf job.id, attempt.startedAt ≤ t

/-- What a step does to the next run and the attempts of a stored job. -/
inductive RunStep (s s' : State) (jobId : UUID) (row row' : Job) : Prop where
  | same (next : row'.nextRunAt = row.nextRunAt)
      (attempts : s'.attemptsOf jobId = s.attemptsOf jobId)
  | claim (c : CallId) (read : Job) (workerId : String) (t : Int)
      (before : s.sessions c = .claimPending read workerId t) (id : read.id = jobId)
      (free : s.db.hasAttempt read.id (read.attemptCount + 1) = false)
      (next : row'.nextRunAt = row.nextRunAt)
      (attempts : s'.attemptsOf jobId = s.attemptsOf jobId ++
        [⟨jobId, read.attemptCount + 1, .running, t, none, none, some workerId⟩])
  | succeed (c : CallId) (t : Int) (held : (s.sessions c).held = some jobId)
      (next : row'.nextRunAt = row.nextRunAt)
      (attempts : s'.attemptsOf jobId = (s.attemptsOf jobId).map fun attempt =>
        if attempt.attemptNumber = s.version jobId then
          { attempt with status := .succeeded, error := none, finishedAt := some t }
        else attempt)
  | fail (c : CallId) (job : JobRecord) (succeeded : Option JobRecord) (read : Job)
      (error : String) (t : Int) (before : s.sessions c = .failPending job succeeded read error t)
      (id : job.id = jobId)
      (next : row'.nextRunAt = t + seconds (backoffSeconds job.attemptCount))
      (attempts : s'.attemptsOf jobId = (s.attemptsOf jobId).map fun attempt =>
        if attempt.attemptNumber = s.version jobId then
          { attempt with status := .failed, error := some error, finishedAt := some t }
        else attempt)

theorem Effect.runStep (he : Effect s s' call) (hinv : s.Inv)
    (hrow : s.db.jobs.get? jobId = some row) :
    ∃ row', s'.db.jobs.get? jobId = some row' ∧ RunStep s s' jobId row row' := by
  have hsame : SameTables s s' →
      ∃ row', s'.db.jobs.get? jobId = some row' ∧ RunStep s s' jobId row row' := by
    intro htables
    exact ⟨row, by rw [htables.1, hrow], .same rfl (attemptsOf_congr htables.2 jobId)⟩
  have hother : ∀ {id : UUID} {assign : Job → Job}, s'.db.jobs = s.db.jobs.modify id assign →
      id ≠ jobId → s'.attemptsOf jobId = s.attemptsOf jobId →
      ∃ row', s'.db.jobs.get? jobId = some row' ∧ RunStep s s' jobId row row' := by
    intro id assign hjobs hid hattempts
    exact ⟨row, by rw [hjobs, Dict.get?_modify_of_ne _ _ (Ne.symm hid), hrow], .same rfl hattempts⟩
  cases he with
  | idle tables => exact hsame tables
  | quiet _ _ tables => exact hsame tables
  | reads _ _ _ tables => exact hsame tables
  | start _ _ tables => exact hsame tables
  | insert c created payload session jobs attempts fresh =>
    refine ⟨row, ?_, .same rfl (attemptsOf_congr attempts jobId)⟩
    rw [jobs, Dict.get?_insert_of_ne, hrow]
    rintro rfl
    rw [fresh] at hrow
    cases hrow
  | claim c read workerId t before fits free jobs attempts =>
    have hattempts := attemptsOf_claim attempts jobId
    by_cases hid : read.id = jobId
    · subst hid
      rw [if_pos rfl] at hattempts
      exact ⟨_, get?_of_update jobs hrow, .claim c read workerId t before rfl free rfl hattempts⟩
    · rw [if_neg hid, List.append_nil] at hattempts
      exact hother jobs hid hattempts
  | succeed c job read result stored t before jobs attempts =>
    obtain ⟨hjob, hcount⟩ :=
      hinv.read_current c read job.id (by rw [before]; rfl) (by rw [before]; rfl)
    -- The holder's read is current, so the attempt it finishes is the last one.
    have hattempts := attemptsOf_finish attempts jobId
    rw [hcount] at hattempts
    by_cases hid : read.id = jobId
    · have hheld : (s.sessions c).held = some jobId := by
        rw [before, ← hid, hjob]
        rfl
      rw [← hjob, hid] at hattempts
      simp only [true_and] at hattempts
      exact ⟨_, get?_of_update (hid ▸ jobs) hrow, .succeed c t hheld rfl hattempts⟩
    · exact hother jobs hid (attemptsOf_finish_ne attempts (Ne.symm hid))
  | fail c job succeeded read error t before fits jobs attempts =>
    obtain ⟨hjob, hcount⟩ :=
      hinv.read_current c read job.id (by rw [before]; rfl) (by rw [before]; rfl)
    have hattempts := attemptsOf_finish attempts jobId
    rw [hcount] at hattempts
    by_cases hid : read.id = jobId
    · rw [← hjob, hid] at hattempts
      simp only [true_and] at hattempts
      exact ⟨_, get?_of_update (hid ▸ jobs) hrow,
        .fail c job succeeded read error t before (hjob.symm.trans hid) rfl hattempts⟩
    · exact hother jobs hid (attemptsOf_finish_ne attempts (Ne.symm hid))
  | cancel c read t before jobs attempts =>
    have hattempts := attemptsOf_congr attempts jobId
    by_cases hid : read.id = jobId
    · exact ⟨_, get?_of_update (hid ▸ jobs) hrow, .same rfl hattempts⟩
    · exact hother jobs hid hattempts

theorem OnPace.claiming_act (h : s.OnPace) (hinv : s.Inv)
    (hs : s.act settings jsonb now action = some s') {read : Job} {workerId : String} {t : Int}
    (hpending : s'.sessions c = .claimPending read workerId t) :
    read.nextRunAt ≤ t ∧ (read.attemptCount = s'.version read.id →
      ∀ row, s'.db.jobs.get? read.id = some row → row.nextRunAt = read.nextRunAt) := by
  have he := act_effect hinv.toKnown hs
  rcases claimPending_of_act hs hpending with hbefore | ⟨hdb, ⟨jobId, hread⟩, -, hdue, -⟩
  · obtain ⟨hdue, hcurrent⟩ := h.claiming c read workerId t hbefore
    refine ⟨hdue, ?_⟩
    intro hversion row' hrow'
    obtain ⟨row, hrow, -⟩ := hinv.read_stored c read (by rw [hbefore]; rfl)
    have hbefore_version := hinv.current_before he hbefore hversion
    have hnext := hcurrent hbefore_version row hrow
    obtain ⟨row'', hrow'', hstep⟩ := he.runStep hinv hrow
    rw [hrow'] at hrow''
    cases hrow''
    cases hstep with
    | same hsame => exact hsame.trans hnext
    | claim _ _ _ _ _ _ _ hsame => exact hsame.trans hnext
    | succeed _ _ _ hsame => exact hsame.trans hnext
    | fail d job _ _ _ _ before hid =>
      have hheld : (s.sessions d).held = some read.id := by rw [before, ← hid]; rfl
      exact absurd hbefore_version (hinv.stale_of_held hheld hbefore rfl)
  · refine ⟨hdue, ?_⟩
    intro _ row hrow
    rw [hdb, hinv.keyed jobId read hread, hread] at hrow
    cases hrow
    rfl

/-- While a call holds a job the attempts of it keep their starts, and there is no new one. -/
theorem Inv.starts_of_held (hinv : s.Inv) (hs : s.act settings jsonb now action = some s')
    (hheld : (s.sessions c).held = some jobId) {t : Int}
    (hold : ∀ attempt ∈ s.attemptsOf jobId, attempt.startedAt ≤ t) :
    ∀ attempt ∈ s'.attemptsOf jobId, attempt.startedAt ≤ t := by
  have hmap : ∀ {finish : JobAttempt → JobAttempt},
      (∀ attempt, (finish attempt).startedAt = attempt.startedAt) →
      ∀ attempt ∈ (s.attemptsOf jobId).map finish, attempt.startedAt ≤ t := by
    intro finish hstarted attempt hmem
    obtain ⟨old, hold_mem, rfl⟩ := List.mem_map.mp hmem
    rw [hstarted]
    exact hold old hold_mem
  obtain ⟨row, hrow⟩ := hinv.held_stored c jobId hheld
  obtain ⟨row', -, hstep⟩ := (act_effect hinv.toKnown hs).runStep hinv hrow
  cases hstep with
  | same _ hattempts => rwa [hattempts]
  | claim d read' workerId t' before hid free =>
    exact absurd (hid ▸ (hinv.free_iff before).mp free) (hinv.stale_of_held hheld before hid)
  | succeed _ _ _ _ hattempts =>
    rw [hattempts]
    exact hmap fun attempt => by split <;> rfl
  | fail _ _ _ _ _ _ _ _ _ hattempts =>
    rw [hattempts]
    exact hmap fun attempt => by split <;> rfl

theorem OnPace.failing_act (h : s.OnPace) (hinv : s.Inv) (hclock : s.ClockAhead ⟨now, action⟩)
    (hs : s.act settings jsonb now action = some s') {job : JobRecord}
    {succeeded : Option JobRecord} {read : Job} {error : String} {t : Int}
    (hfailing : s'.sessions c = .failPending job succeeded read error t) :
    ∀ attempt ∈ s'.attemptsOf job.id, attempt.startedAt ≤ t := by
  rcases failPending_of_act hs hfailing with hbefore | ⟨hdb, rfl⟩
  · exact hinv.starts_of_held hs (by rw [hbefore]; rfl)
      (h.failing c job succeeded read error t hbefore)
  · intro attempt hmem
    have hattempts : s'.attemptsOf job.id = s.attemptsOf job.id :=
      attemptsOf_congr (congrArg Database.jobAttempts hdb) job.id
    rw [hattempts] at hmem
    exact hclock attempt (List.mem_of_mem_filter hmem)

/-- **A step keeps the pace of a job** that is stored. -/
theorem RunStep.paced (h : s.OnPace) (hinv : s.Inv) (haudit : s.Audit) (hrecord : s.RecordCurrent)
    (hclaimed : s.HeldClaimed) {row' : Job} {start : Int}
    (hpaced : PacedRow start row (s.attemptsOf jobId)) (hrow : s.db.jobs.get? jobId = some row)
    (hstep : RunStep s s' jobId row row') : PacedRow start row' (s'.attemptsOf jobId) := by
  cases hstep with
  | same hnext hattempts =>
    rw [hattempts]
    exact ⟨hpaced.paced, fun hall => hnext ▸ hpaced.next hall⟩
  | claim c read workerId t before hid free hnext hattempts =>
    subst hid
    have hcurrent := (hinv.free_iff before).mp free
    obtain ⟨hdue, hsame⟩ := h.claiming c read workerId t before
    have hfailed := haudit.claiming c read workerId t before hcurrent
    rw [hattempts]
    refine hpaced.claim (fun attempt hmem => (hfailed attempt hmem).1) rfl ?_
    rw [hsame hcurrent row hrow]
    exact hdue
  | succeed c t held hnext hattempts =>
    rw [hattempts]
    refine hpaced.finish (hinv.attempts jobId) (hclaimed c jobId held) ?_
    intro hfailed
    cases hfailed
  | fail c job succeeded read error t before hid hnext hattempts =>
    subst hid
    rw [hattempts]
    refine hpaced.finish (hinv.attempts job.id) (hclaimed c job.id (by rw [before]; rfl)) ?_
    intro _ attempt hmem
    have hstarted := h.failing c job succeeded read error t before attempt hmem
    have hcount := hrecord c job (by rw [before]; rfl)
    rw [hnext, hcount]
    omega

theorem OnPace.act (h : s.OnPace) (hinv : s.Inv) (haudit : s.Audit) (hrecord : s.RecordCurrent)
    (hclaimed : s.HeldClaimed) (hcreated : s.CreatedStored) (hclock : s.ClockAhead ⟨now, action⟩)
    (hs : s.act settings jsonb now action = some s') : s'.OnPace := by
  have he := act_effect hinv.toKnown hs
  constructor
  · intro c created hmem row' hrow'
    rcases he.created hmem with hold | ⟨payload, hstored, hfresh, -⟩
    · obtain ⟨row, hrow, -⟩ := hcreated c created hold
      obtain ⟨row'', hrow'', hstep⟩ := he.runStep hinv hrow
      rw [hrow'] at hrow''
      cases hrow''
      exact hstep.paced h hinv haudit hrecord hclaimed (h.jobs c created hold row hrow) hrow
    · -- A new job has made no attempt.
      have hnone : s'.attemptsOf created.id = [] := by
        have hstep : s.step settings jsonb ⟨now, action⟩ = some s' := hs
        have hnumbers := (hinv.step hstep).attempts created.id
        rcases he.stored hstored with ⟨row, hrow, -⟩ | ⟨-, hnew, -⟩
        · rw [hfresh] at hrow
          cases hrow
        · rw [version_of_stored hstored, hnew.2] at hnumbers
          exact List.map_eq_nil_iff.mp hnumbers
      rw [hstored] at hrow'
      cases hrow'
      rw [hnone]
      exact ⟨trivial, fun _ => le_refl _⟩
  · intro c read workerId t
    exact h.claiming_act hinv hs
  · intro c job succeeded read error t
    exact h.failing_act hinv hclock hs

theorem onPace_of_reachable (h : (Sql.sessions settings jsonb).Reachable ClockAhead s) :
    s.OnPace := by
  apply h.invariant_of_reachable (I := OnPace)
  · intro s hs
    have hs : s = State.initial := hs
    subst hs
    constructor
    · intro c created hmem
      cases hmem
    · intro c read workerId t hpending
      cases hpending
    · intro c job succeeded read error t hfailing
      cases hfailing
  · intro s label s' hreach hpace hclock hs
    have hreach := hreach.any
    exact hpace.act (inv_of_reachable hreach) (audit_of_reachable hreach)
      (recordCurrent_of_reachable hreach) (heldClaimed_of_reachable hreach)
      (createdStored_of_reachable hreach) hclock hs

/-- **The attempts of a job keep their pace** in every run in which no call reads an earlier time than
    the start of an attempt that is committed. -/
theorem paced_of_reachable (h : (Sql.sessions settings jsonb).Reachable ClockAhead s) {created : Job}
    (hinserted : .inserted c created ∈ s.history) :
    ∃ row, s.db.getJob? created.id = some row ∧
      Paced created.nextRunAt (s.attemptsOf created.id) ∧
      (row.status.isPending = true →
        nextStart created.nextRunAt (s.attemptsOf created.id) ≤ row.nextRunAt) := by
  obtain ⟨row, hrow, -⟩ := createdStored_of_reachable h.any c created hinserted
  obtain ⟨hpaced, hnext⟩ := (onPace_of_reachable h).jobs c created hinserted row hrow
  refine ⟨row, hrow, hpaced, ?_⟩
  intro hpending
  have hfailed := ((audit_of_reachable h.any).rows created.id row hrow).failed_of_pending hpending
  exact hnext fun attempt hmem => (hfailed attempt hmem).1

/-! ## A clock that does not run backwards -/

/-- Every start of an attempt, and of one that is being claimed, is at `t` or before. -/
structure StampedBy (s : State) (t : Int) : Prop where
  attempts : ∀ attempt ∈ s.db.jobAttempts, attempt.startedAt ≤ t
  claiming : ∀ c read workerId t', s.sessions c = .claimPending read workerId t' → t' ≤ t

theorem StampedBy.act {t : Int} (h : s.StampedBy t) (hinv : s.Inv) (hlater : t ≤ now)
    (hs : s.act settings jsonb now action = some s') : s'.StampedBy now := by
  have hold : ∀ attempt ∈ s.db.jobAttempts, attempt.startedAt ≤ now :=
    fun attempt hmem => (h.attempts attempt hmem).trans hlater
  have hfinish : ∀ {id : UUID} {n : Nat} {status : AttemptStatus} {error : Option String} {t' : Int},
      s'.db.jobAttempts = (s.db.finishAttempt id n status error t').jobAttempts →
      ∀ attempt ∈ s'.db.jobAttempts, attempt.startedAt ≤ now := by
    intro id n status error t' hattempts attempt hmem
    rw [hattempts, Database.finishAttempt] at hmem
    obtain ⟨before, hbefore, rfl⟩ := List.mem_map.mp hmem
    have hle := hold before hbefore
    split
    · exact hle
    · exact hle
  have he := act_effect hinv.toKnown hs
  generalize action.call = call at he
  constructor
  · cases he with
    | idle tables => exact tables.2 ▸ hold
    | quiet _ _ tables => exact tables.2 ▸ hold
    | reads _ _ _ tables => exact tables.2 ▸ hold
    | start _ _ tables => exact tables.2 ▸ hold
    | insert _ _ _ _ _ attempts => exact attempts ▸ hold
    | cancel _ _ _ _ _ attempts => exact attempts ▸ hold
    | succeed _ _ _ _ _ _ _ _ attempts => exact hfinish attempts
    | fail _ _ _ _ _ _ _ _ _ attempts => exact hfinish attempts
    -- The attempt starts at the reading that the call took with its read.
    | claim c read workerId t' before _ _ _ attempts =>
      intro attempt hmem
      rw [attempts, List.mem_append, List.mem_singleton] at hmem
      rcases hmem with hmem | rfl
      · exact hold attempt hmem
      · exact (h.claiming c read workerId t' before).trans hlater
  · intro c read workerId t' hpending
    rcases claimPending_of_act hs hpending with hbefore | ⟨-, -, -, -, rfl⟩
    · exact (h.claiming c read workerId t' hbefore).trans hlater
    · exact le_refl _

theorem stampedBy_initial (t : Int) : State.initial.StampedBy t := by
  constructor
  · intro attempt hmem
    cases hmem
  · intro c read workerId t' hpending
    cases hpending

theorem clockAhead_of_sorted {labels : List Label} {s₀ : State} {t : Int}
    (hreach : (Sql.sessions settings jsonb).Reachable Any s₀) (h : s₀.StampedBy t)
    (hlater : ∀ label ∈ labels, t ≤ label.now) (hsorted : labels.Pairwise fun a b => a.now ≤ b.now)
    (hrun : System.replay (State.step settings jsonb) s₀ labels = some s) :
    (Sql.sessions settings jsonb).Steps ClockAhead s₀ s := by
  induction labels generalizing s₀ t with
  | nil =>
    cases hrun
    exact .refl _
  | cons label rest ih =>
    -- What was stamped so far is bounded by the label before, and so by the rest.
    obtain ⟨s₁, hs, hrest⟩ := System.replay_cons.mp hrun
    obtain ⟨hfirst, hsorted⟩ := List.pairwise_cons.mp hsorted
    have hnow := hlater label List.mem_cons_self
    have hclock : s₀.ClockAhead label := fun attempt hmem => (h.attempts attempt hmem).trans hnow
    have hstamped : s₁.StampedBy label.now := h.act (inv_of_reachable hreach) hnow hs
    exact (System.Steps.single hclock hs).trans
      (ih (hreach.tail trivial hs) hstamped hfirst hsorted hrest)

/-- **The attempts of a job are paced**: with a clock that does not run backwards, in every
    run, no attempt starts before the job is first due, nor earlier after the attempt before it than
    the backoff of that one, and a job that waits is not due before its next attempt may start. -/
theorem attempts_paced {labels : List Label} (hsorted : labels.Pairwise fun a b => a.now ≤ b.now)
    (hrun : System.replay (State.step settings jsonb) State.initial labels = some s)
    {created : Job} (hinserted : .inserted c created ∈ s.history) :
    ∃ row, s.db.getJob? created.id = some row ∧
      Paced created.nextRunAt (s.attemptsOf created.id) ∧
      (row.status.isPending = true →
        nextStart created.nextRunAt (s.attemptsOf created.id) ≤ row.nextRunAt) := by
  have hsteps : (Sql.sessions settings jsonb).Steps ClockAhead State.initial s := by
    cases labels with
    | nil =>
      cases hrun
      exact .refl _
    | cons label rest =>
      have hlater : ∀ other ∈ label :: rest, label.now ≤ other.now := by
        intro other hmem
        rcases List.mem_cons.mp hmem with rfl | hmem
        · exact le_refl _
        · exact (List.pairwise_cons.mp hsorted).1 other hmem
      exact clockAhead_of_sorted (.init rfl) (stampedBy_initial label.now) hlater hsorted hrun
  exact paced_of_reachable ⟨State.initial, rfl, hsteps⟩ hinserted

/-- A job that fails, and is claimed again a second later. -/
theorem attempts_paced_of_retriedRun :
    ∃ (s : State) (row created : Job) (first second : JobAttempt),
      (Sql.sessions {} some).Reachable Any s ∧ .inserted 0 created ∈ s.history ∧
      s.attemptsOf created.id = [first, second] ∧ s.db.getJob? created.id = some row ∧
      row.status = .running ∧ first.startedAt + seconds 1 ≤ second.startedAt := by
  have hrun : ∃ s row created first second,
      System.replay (State.step {} some) State.initial retriedRun = some s ∧
      s.history[3]? = some (.inserted 0 created) ∧ s.attemptsOf created.id = [first, second] ∧
      s.db.getJob? created.id = some row ∧ row.status = .running ∧ first.attemptNumber = 1 :=
    ⟨_, _, _, _, _, rfl, rfl, rfl, rfl, rfl, rfl⟩
  obtain ⟨s, row, created, first, second, hs, hcreated, hattempts, hrow, hstatus, hnumber⟩ := hrun
  have hinserted := List.mem_of_getElem? hcreated
  obtain ⟨row', -, hpaced, -⟩ := attempts_paced (by decide) hs hinserted
  rw [hattempts] at hpaced
  obtain ⟨-, hsecond, -⟩ := hpaced
  rw [retryAt, hnumber] at hsecond
  have hreach : (Sql.sessions {} some).Reachable Any s :=
    ⟨State.initial, rfl, System.Steps.of_replay hs fun _ _ _ => trivial⟩
  exact ⟨s, row, created, first, second, hreach, hinserted, hattempts, hrow, hstatus, hsecond⟩

end State

end Sql

end JobPipeline
