import JobPipeline.Sql.Attempts
import JobPipeline.Sql.Durable
import JobPipeline.Sql.Processing
import JobPipeline.Sql.Sequential

/-!
# The successors of a recurring job

`process_job` inserts the successor in a transaction of its own, after the one that marks the job
`succeeded`. Nothing in the tables ties the two rows together, so that a job has one successor at
most rests on the order of a call's steps: between its mark and its last commit the call holds the
job, and once the successor is inserted nobody holds the job or can claim it any more.
-/

set_option autoImplicit false

namespace JobPipeline

namespace Sql

namespace Session

/-- In a `process_job` that has committed its claim, or after one. -/
def AfterClaim : Session → Prop
  | .claimed _ => True
  | .running _ => True
  | .handled _ _ => True
  | .succeedPending _ _ _ _ => True
  | .succeeded _ => True
  | .marked _ _ => True
  | .nextPending _ _ _ => True
  | .excepted _ _ _ _ => True
  | .failPending _ _ _ _ _ => True
  | .failed _ => True
  | .deadLettering _ => True
  | .returned _ => True
  | .raised _ => True
  | _ => False

/-- Of a call that has inserted its row. -/
def HasInserted : Session → Prop
  | .inserted _ => True
  | .publishing _ => True
  | .submitted _ _ => True
  | .returned _ => True
  | .raised _ => True
  | _ => False

/-- The job of a `process_job` that has marked it as succeeded and is not through. -/
def settled : Session → Option UUID
  | .succeeded job => some job.id
  | .marked job _ => some job.id
  | .nextPending job _ _ => some job.id
  | .excepted job _ (some _) _ => some job.id
  | .failPending job (some _) _ _ _ => some job.id
  | _ => none

theorem held_of_settled {session : Session} {jobId : UUID} (h : session.settled = some jobId) :
    session.held = some jobId := by
  unfold settled at h
  split at h <;> first | exact h | cases h

end Session

/-- `next` is what `create_next_recurring_job` makes of `job`: the run is the one after one clock
    reading, and the row is stamped with the next reading. -/
def Succeeds (job : JobRecord) (next : Job) : Prop :=
  ∃ cron after now nextRunAt nextJobId, job.recurringCron = some cron ∧
    nextCronRun cron after = .ok nextRunAt ∧ next = .successorRow job nextJobId nextRunAt now

namespace State

open Transition

variable {settings : Settings} {jsonb : Jsonb} {s s' : State} {c d : CallId} {jobId : UUID}
  {now : Int} {action : Action} {call : Option CallId} {row : Job}

/-! ## The steps of one call -/

/-- The session of a call after a step of any call. -/
theorem moved_of_update {P : Session → Prop} {session : Session}
    (hmoves : s'.sessions = Function.update s.sessions d session) (hother : P (s.sessions c))
    (hown : c = d → P session) : P (s'.sessions c) := by
  rcases session_cases (c := d) hmoves c with ⟨hcd, heq⟩ | ⟨-, heq⟩
  · rw [heq]
    exact hown hcd
  · rw [heq]
    exact hother

/-- A call that has claimed does not claim again. -/
theorem afterClaim_of_act (hs : s.act settings jsonb now action = some s')
    (h : (s.sessions c).AfterClaim) : (s'.sessions c).AfterClaim := by
  have hmoved : ∀ {d : CallId} {session : Session},
      s'.sessions = Function.update s.sessions d session →
      ((s.sessions d).AfterClaim → session.AfterClaim) → (s'.sessions c).AfterClaim := by
    intro d session hmoves hown
    exact moved_of_update hmoves h fun hcd => hown (hcd ▸ h)
  cases action with
  | setAvailable available =>
    cases hs
    exact h
  | submit d | process d | claimRead d | insertCommit d | reselect d | insertRefresh d | publish d
  | cancelRead d | cancelCommit d | cancelRefresh d | drainRead d | drainCommit d =>
    simp only [State.act, submitJob, claimRead, insertCommit, reselect] at hs
    split at hs
    · rename_i hcall
      repeat' split at hs
      all_goals cases hs
      all_goals exact hmoved (d := d) rfl (by rw [hcall]; exact fun h => h.elim)
    · cases hs
  | claimCommit d | claimRefresh d | finish d | succeedRead d | succeedCommit d | succeedRefresh d
  | next d | nextCommit d | failRead d | failCommit d | failRefresh d | publishDeadLetter d =>
    simp only [State.act, claimCommit, claimRefresh, State.next] at hs
    repeat' split at hs
    all_goals cases hs
    all_goals exact hmoved (d := d) rfl fun _ => trivial

/-- A call that has inserted its row has no other row to insert, and no job to claim. -/
theorem hasInserted_of_act (hs : s.act settings jsonb now action = some s')
    (h : (s.sessions c).HasInserted) : (s'.sessions c).HasInserted := by
  have hmoved : ∀ {d : CallId} {session : Session},
      s'.sessions = Function.update s.sessions d session →
      ((s.sessions d).HasInserted → session.HasInserted) → (s'.sessions c).HasInserted := by
    intro d session hmoves hown
    exact moved_of_update hmoves h fun hcd => hown (hcd ▸ h)
  cases action with
  | setAvailable available =>
    cases hs
    exact h
  | insertRefresh d | publish d =>
    simp only [State.act] at hs
    repeat' split at hs
    all_goals cases hs
    all_goals exact hmoved (d := d) rfl fun _ => trivial
  | submit d | insertCommit d | reselect d | process d | claimRead d | claimCommit d | claimRefresh d
  | finish d | succeedRead d | succeedCommit d | succeedRefresh d | next d | nextCommit d | failRead d
  | failCommit d | failRefresh d | publishDeadLetter d | cancelRead d | cancelCommit d
  | cancelRefresh d | drainRead d | drainCommit d =>
    simp only [State.act, submitJob, insertCommit, reselect, claimRead, claimCommit, claimRefresh,
      State.next] at hs
    split at hs
    · rename_i hcall
      repeat' split at hs
      all_goals cases hs
      all_goals exact hmoved (d := d) rfl (by rw [hcall]; exact fun h => h.elim)
    · cases hs

/-- `mark_succeeded` returns the row as it is stored, and what `create_next_recurring_job` goes on
    to insert is the successor of that record. -/
theorem marked_of_act (hs : s.act settings jsonb now action = some s') {job succeeded : JobRecord}
    (h : s'.sessions c = .marked job succeeded) :
    s.sessions c = .marked job succeeded ∨
      s.sessions c = .succeeded job ∧
        ∃ row, s.db.jobs.get? job.id = some row ∧ succeeded = recordFromModel row := by
  rcases entered_of_act hs c with heq | hentered
  · exact .inl (heq.symm.trans h)
  · rw [h] at hentered
    obtain ⟨d, rfl⟩ := hentered
    simp only [State.act] at hs
    split at hs
    · rename_i hcall
      split at hs
      all_goals cases hs
      all_goals rcases session_of_setSession h with ⟨rfl, heq⟩ | hbefore
      all_goals first | exact .inl hbefore | cases heq
      rename_i row hrefresh
      exact .inr ⟨hcall, row, stored_of_refresh hrefresh, rfl⟩
    · cases hs

theorem nextPending_of_act (hs : s.act settings jsonb now action = some s')
    {job succeeded : JobRecord} {next : Job} (h : s'.sessions c = .nextPending job succeeded next) :
    s.sessions c = .nextPending job succeeded next ∨
      s.sessions c = .marked job succeeded ∧ Succeeds succeeded next := by
  rcases entered_of_act hs c with heq | hentered
  · exact .inl (heq.symm.trans h)
  · rw [h] at hentered
    obtain ⟨d, after, nextJobId, rfl⟩ := hentered
    simp only [State.act, State.next] at hs
    split at hs
    · rename_i hcall
      repeat' split at hs
      all_goals cases hs
      all_goals rcases session_of_setSession h with ⟨rfl, heq⟩ | hbefore
      all_goals first | exact .inl hbefore | cases heq
      rename_i cron _ nextRunAt hnext hcron
      exact .inr ⟨hcall, cron, after, now, nextRunAt, nextJobId,
        (Option.filter_eq_some_iff.mp hcron).1, hnext, rfl⟩
    · cases hs

/-- A successor comes in with the last commit of its call. -/
theorem nextCommit_of_act (hs : s.act settings jsonb now action = some s')
    (h : .inserted c row ∈ s'.history) :
    .inserted c row ∈ s.history ∨
      s.sessions c = .inserting row ∧ (∃ jobId, s'.sessions c = .inserted jobId) ∨
      action.call = some c ∧ ∃ job succeeded payload, s.sessions c = .nextPending job succeeded row ∧
        s'.sessions c = .returned (some succeeded) ∧ s.db.jobs.get? row.id = none ∧
        s'.db.jobs = s.db.jobs.insert row.id { row with payload := payload } := by
  cases action with
  | insertCommit d =>
    simp only [State.act, insertCommit] at hs
    split at hs
    · rename_i pending hcall
      repeat' split at hs
      all_goals cases hs
      · rcases List.mem_cons.mp h with heq | hmem
        · cases heq
          exact .inr (.inl ⟨hcall, row.id, sessions_setSession ..⟩)
        · exact .inl hmem
      all_goals exact .inl h
    · cases hs
  | nextCommit d =>
    simp only [State.act] at hs
    split at hs
    · rename_i job succeeded next hcall
      split at hs
      · cases hs
        exact .inl h
      · rename_i db hinsert
        cases hs
        rcases List.mem_cons.mp h with heq | hmem
        · cases heq
          obtain ⟨hfresh, -, payload, rfl⟩ := insertJob_ok hinsert
          exact .inr (.inr ⟨rfl, job, succeeded, payload, hcall, sessions_setSession .., hfresh, rfl⟩)
        · exact .inl hmem
    · cases hs
  -- No other step says that a row was inserted.
  | submit d | reselect d | insertRefresh d | publish d | claimCommit d | claimRefresh d
  | cancelCommit d =>
    simp only [State.act, submitJob, reselect, claimCommit, claimRefresh] at hs
    repeat' split at hs
    all_goals cases hs
    all_goals exact .inl (by simpa [note, setSession, commit] using h)
  | next d | process d | claimRead d | finish d | succeedRead d | succeedCommit d | succeedRefresh d
  | failRead d | failCommit d | failRefresh d | publishDeadLetter d | cancelRead d | cancelRefresh d
  | drainRead d | drainCommit d | setAvailable =>
    simp only [State.act, State.next, claimRead] at hs
    repeat' split at hs
    all_goals cases hs
    all_goals exact .inl h

/-- A job is settled by the commit of `mark_succeeded`, or was settled before. -/
theorem settled_of_act (hinv : s.Inv) (hs : s.act settings jsonb now action = some s')
    (h : (s'.sessions c).settled = some jobId) :
    (s.sessions c).settled = some jobId ∨
      ∃ row, s'.db.jobs.get? jobId = some row ∧ row.status = .succeeded := by
  have hmoved : ∀ {d : CallId} {session : Session},
      s'.sessions = Function.update s.sessions d session →
      (session.settled = none ∨ session.settled = (s.sessions d).settled) →
      (s.sessions c).settled = some jobId := by
    intro d session hmoves hsession
    rcases session_cases (c := d) hmoves c with ⟨rfl, heq⟩ | ⟨-, heq⟩
    · rw [heq] at h
      rcases hsession with hnone | hsame
      · rw [hnone] at h
        cases h
      · rwa [hsame] at h
    · rwa [heq] at h
  cases action with
  | succeedCommit d =>
    simp only [State.act] at hs
    split at hs
    · rename_i job read result t hcall
      split at hs
      · cases hs
        exact .inl (hmoved (d := d) rfl (.inl rfl))
      · rename_i db hcommit
        cases hs
        have hmoves : Moves s ((s.commit db).setSession d (.succeeded job)) d (.succeeded job) := rfl
        rcases session_cases hmoves c with ⟨rfl, heq⟩ | ⟨-, heq⟩
        · rw [heq] at h
          cases h
          obtain ⟨hid, -⟩ := hinv.read_current c read job.id (by rw [hcall]; rfl) (by rw [hcall]; rfl)
          obtain ⟨row, hrow, -⟩ := hinv.read_stored c read (by rw [hcall]; rfl)
          obtain ⟨stored, hstored⟩ := commitSucceeded_ok hcommit hrow
          exact .inr ⟨_, hid ▸ hstored, rfl⟩
        · exact .inl (heq ▸ h)
    · cases hs
  | setAvailable available =>
    cases hs
    exact .inl h
  | submit d | process d | claimRead d | claimCommit d | claimRefresh d | finish d | insertCommit d
  | reselect d | insertRefresh d | publish d | succeedRead d | cancelRead d | cancelCommit d
  | cancelRefresh d | drainRead d | drainCommit d | failCommit d | failRefresh d
  | publishDeadLetter d =>
    simp only [State.act, submitJob, claimRead, claimCommit, claimRefresh, insertCommit, reselect] at hs
    repeat' split at hs
    all_goals cases hs
    all_goals exact .inl (hmoved (d := d) rfl (.inl rfl))
  | succeedRefresh d | next d | nextCommit d =>
    simp only [State.act, State.next] at hs
    split at hs
    · rename_i hcall
      repeat' split at hs
      all_goals cases hs
      all_goals
        first
        | exact .inl (hmoved (d := d) rfl (.inl rfl))
        | exact .inl (hmoved (d := d) rfl (.inr (by rw [hcall]; rfl)))
    · cases hs
  | failRead d =>
    simp only [State.act] at hs
    split at hs
    · rename_i job exc succeeded flushFailed hcall
      repeat' split at hs
      all_goals cases hs
      · exact .inl (hmoved (d := d) rfl (.inl rfl))
      · exact .inl (hmoved (d := d) rfl (.inl rfl))
      · -- The exception came after `mark_succeeded` if the call has its record.
        refine .inl (hmoved (d := d) rfl (.inr ?_))
        rw [hcall]
        cases succeeded <;> rfl
    · cases hs

/-- The row of a job that a call has settled, until it marks it as failed. -/
def SettledRow (s : State) : Prop := ∀ c jobId, (s.sessions c).settled = some jobId →
  ∃ row, s.db.jobs.get? jobId = some row ∧ (row.status = .succeeded ∨ row.status = .cancelled)

theorem SettledRow.act (h : s.SettledRow) (hinv : s.Inv)
    (hs : s.act settings jsonb now action = some s') : s'.SettledRow := by
  intro c jobId hsettled
  rcases settled_of_act hinv hs hsettled with hbefore | ⟨row, hrow, hstatus⟩
  · obtain ⟨row, hrow, hstatus⟩ := h c jobId hbefore
    have hheld := Session.held_of_settled hbefore
    have he := act_effect hinv.toKnown hs
    have hother : ∀ {id : UUID} {assign : Job → Job},
        s'.db.jobs = s.db.jobs.modify id assign → id ≠ jobId →
        ∃ row, s'.db.jobs.get? jobId = some row ∧
          (row.status = .succeeded ∨ row.status = .cancelled) := by
      intro id assign hjobs hne
      exact ⟨row, by rw [hjobs, Dict.get?_modify_of_ne _ _ (Ne.symm hne), hrow], hstatus⟩
    generalize hcall : action.call = call at he
    cases he with
    | idle tables => exact ⟨row, by rw [tables.1, hrow], hstatus⟩
    | quiet d session tables => exact ⟨row, by rw [tables.1, hrow], hstatus⟩
    | reads d session read tables => exact ⟨row, by rw [tables.1, hrow], hstatus⟩
    | start d job tables => exact ⟨row, by rw [tables.1, hrow], hstatus⟩
    | insert d created payload session jobs attempts fresh =>
      refine ⟨row, ?_, hstatus⟩
      rw [jobs, Dict.get?_insert_of_ne, hrow]
      rintro rfl
      rw [fresh] at hrow
      cases hrow
    | claim d read workerId t before fits free jobs =>
      -- Who read the job before it was held cannot claim it any more.
      refine hother jobs fun hid => ?_
      exact hinv.stale_of_held hheld before hid (hid ▸ (hinv.free_iff before).mp free)
    | succeed d job read result stored t before jobs =>
      by_cases hid : read.id = jobId
      · exact ⟨_, get?_of_update (hid ▸ jobs) hrow, .inl rfl⟩
      · exact hother jobs hid
    | fail d job succeeded read error t before fits jobs attempts moves =>
      refine hother jobs fun hid => ?_
      obtain ⟨hjob, -⟩ := hinv.read_current d read job.id (by rw [before]; rfl) (by rw [before]; rfl)
      -- The mark is the holder's own, and the job is not settled for it after that.
      have hcd : d = c := hinv.holder_unique (by rw [before, ← hid, hjob]; rfl) hheld
      rw [← hcd, moves, Function.update_self] at hsettled
      cases hsettled
    | cancel d read t before jobs =>
      by_cases hid : read.id = jobId
      · exact ⟨_, get?_of_update (hid ▸ jobs) hrow, .inr rfl⟩
      · exact hother jobs hid
  · exact ⟨row, hrow, .inl hstatus⟩

theorem settledRow_of_reachable (h : (Sql.sessions settings jsonb).Reachable Any s) :
    s.SettledRow := by
  apply h.invariant_of_reachable (I := SettledRow)
  · intro s hs
    have hs : s = State.initial := hs
    subst hs
    intro c jobId hsettled
    cases hsettled
  · intro s label s' hreach hsettled _ hs
    exact hsettled.act (inv_of_reachable hreach) hs

/-! ## Released jobs -/

/-- A job that is finished and that nobody holds or can still claim. -/
structure Released (s : State) (jobId : UUID) : Prop where
  row : ∃ row, s.db.jobs.get? jobId = some row ∧ (row.status = .succeeded ∨ row.status = .cancelled)
  unheld : ∀ c, (s.sessions c).held ≠ some jobId
  stale : ∀ c read workerId t, s.sessions c = .claimPending read workerId t → read.id = jobId →
    read.attemptCount ≠ s.version jobId

/-- Nobody comes to hold a job that nobody holds or can still claim, and nothing but a cancellation
    changes its status. -/
theorem Effect.unclaimed (he : Effect s s' call) (hinv : s.Inv)
    (hrow : s.db.jobs.get? jobId = some row) (hunheld : ∀ c, (s.sessions c).held ≠ some jobId)
    (hstale : ∀ c, (s.lease jobId).view c ≠ some (s.version jobId)) :
    s'.version jobId = s.version jobId ∧ (∀ c, (s'.sessions c).held ≠ some jobId) ∧
      ∃ row', s'.db.jobs.get? jobId = some row' ∧
        (row'.status = row.status ∨ row'.status = .cancelled) := by
  have htick : s'.version jobId = s.version jobId ∧
      ∀ c, s'.sessions c = .claimed jobId → s.sessions c = .claimed jobId := by
    cases he.tick hinv jobId with
    | same hversion _ _ hclaimed => exact ⟨hversion, hclaimed⟩
    | claim c hview => exact absurd hview (hstale c)
    | start c job before => exact absurd (by rw [before]; rfl) (hunheld c)
  refine ⟨htick.1, ?_, ?_⟩
  · intro c hheld
    rcases he.held hheld with hbefore | ⟨hclaimed, -⟩
    · exact hunheld c hbefore
    · exact hunheld c (by rw [htick.2 c hclaimed]; rfl)
  · obtain ⟨row', hrow', hstep⟩ := he.status hinv hrow
    refine ⟨row', hrow', ?_⟩
    cases hstep with
    | same heq => exact .inl heq
    | claim c read workerId now before hid fits free =>
      have hcurrent := (hinv.free_iff before).mp free
      refine absurd ?_ (hstale c)
      simp [lease, before, Session.viewOf, Session.view, ← hid, hcurrent]
    | succeed c held => exact absurd held (hunheld c)
    | fail c job succeeded read error now before hid held =>
      exact absurd (by rw [before, ← held]; rfl) (hunheld c)
    | cancel c read now before hid heq => exact .inr heq

/-- **A job that is released stays so.** -/
theorem Released.step (h : s.Released jobId) (hinv : s.Inv) (he : Effect s s' call) :
    s'.Released jobId := by
  obtain ⟨row, hrow, hstatus⟩ := h.row
  have hview : ∀ d, (s.lease jobId).view d ≠ some (s.version jobId) := by
    intro d hd
    change (s.sessions d).viewOf jobId = some (s.version jobId) at hd
    unfold Session.viewOf at hd
    split at hd
    · rename_i read hread
      split at hd
      · rename_i hid
        unfold Session.view at hread
        split at hread
        · rename_i hsession
          cases hread
          exact h.stale d _ _ _ hsession hid (Option.some.inj hd)
        · cases hread
      · cases hd
    · cases hd
  obtain ⟨hversion, hunheld, row', hrow', hstatus'⟩ := he.unclaimed hinv hrow h.unheld hview
  constructor
  · refine ⟨row', hrow', ?_⟩
    rcases hstatus' with heq | heq
    · rwa [heq]
    · exact .inr heq
  · exact hunheld
  · intro d read workerId t hpending hid
    rw [hversion]
    rcases he.claiming hpending with hbefore | ⟨hstored, hopen⟩
    · exact h.stale d read workerId t hbefore hid
    · rw [hid, hrow] at hstored
      cases hstored
      rcases hstatus with heq | heq <;> rw [heq] at hopen <;> cases hopen

/-! ## One successor -/

/-- A claim that is new has just been committed. -/
theorem Effect.claimed_mem (he : Effect s s' call) (h : .claimed c jobId ∈ s'.history) :
    .claimed c jobId ∈ s.history ∨ s'.sessions c = .claimed jobId ∧
      ∃ read workerId t, s.sessions c = .claimPending read workerId t := by
  cases he with
  | idle tables sessions history => exact .inl (history ▸ h)
  | quiet d session tables moves read held attempting unstarted pending raised talk =>
    obtain ⟨events, heq, hquiet⟩ := talk.events
    rw [heq, List.mem_append] at h
    rcases h with h | h
    · exact absurd (hquiet _ h) id
    · exact .inl h
  | reads d session row tables moves read stored claimable owner held attempting history =>
    exact .inl (history ▸ h)
  | start d job tables moves before history => exact .inl (by simpa [history] using h)
  | insert d row payload session jobs attempts fresh new moves read held pending history =>
    exact .inl (by simpa [history] using h)
  | claim d row workerId t before fits free jobs attempts moves history =>
    rw [history, List.mem_cons] at h
    rcases h with h | h
    · cases h
      exact .inr ⟨by rw [moves, Function.update_self], row, workerId, t, before⟩
    · exact .inl h
  | succeed d job row result stored t before jobs attempts moves history => exact .inl (history ▸ h)
  | fail d job succeeded row error t before fits jobs attempts moves history =>
    exact .inl (history ▸ h)
  | cancel d row t before jobs attempts moves history => exact .inl (by simpa [history] using h)

/-- A job that a call holds after the step is the one of a claim it has committed. -/
theorem Effect.held_claimed (he : Effect s s' call)
    (hclaimed : ∀ jobId, (s.sessions c).held = some jobId → .claimed c jobId ∈ s.history)
    (h : (s'.sessions c).held = some jobId) : .claimed c jobId ∈ s'.history := by
  have hmoved : ∀ {d : CallId} {session : Session}, Moves s s' d session →
      (session.held = none ∨ session.held = (s.sessions d).held) →
      .claimed c jobId ∈ s'.history := by
    intro d session hmoves hsession
    apply he.history_mem
    apply hclaimed
    rcases session_cases hmoves c with ⟨rfl, heq⟩ | ⟨-, heq⟩
    · rw [heq] at h
      rcases hsession with hnone | hsame
      · rw [hnone] at h
        cases h
      · rwa [hsame] at h
    · rwa [heq] at h
  cases he with
  | idle tables sessions history => exact history ▸ hclaimed jobId (sessions ▸ h)
  | quiet d session tables moves read held => exact hmoved moves held
  | reads d session row tables moves read stored claimable owner held => exact hmoved moves (.inr held)
  | start d job tables moves before => exact hmoved moves (.inr (by rw [before]; rfl))
  | insert d row payload session jobs attempts fresh new moves read held =>
    exact hmoved moves (.inl held)
  | claim d row workerId t before fits free jobs attempts moves history =>
    rcases session_cases moves c with ⟨rfl, heq⟩ | ⟨-, heq⟩
    · rw [heq] at h
      cases h
      rw [history]
      exact List.mem_cons_self
    · rw [history]
      exact List.mem_cons_of_mem _ (hclaimed jobId (heq ▸ h))
  | succeed d job row result stored t before jobs attempts moves =>
    exact hmoved moves (.inr (by rw [before]; rfl))
  | fail d job succeeded row error t before fits jobs attempts moves => exact hmoved moves (.inl rfl)
  | cancel d row t before jobs attempts moves => exact hmoved moves (.inl rfl)

/-- Calls, the jobs they have claimed, and the rows they have inserted. -/
structure Chained (s : State) : Prop where
  after : ∀ c jobId, .claimed c jobId ∈ s.history → (s.sessions c).AfterClaim
  held : ∀ c jobId, (s.sessions c).held = some jobId → .claimed c jobId ∈ s.history
  once : ∀ c i j, .claimed c i ∈ s.history → .claimed c j ∈ s.history → i = j
  marked : ∀ c job succeeded, s.sessions c = .marked job succeeded →
    s.Stored succeeded ∧ succeeded.id = job.id
  pending : ∀ c job succeeded next, s.sessions c = .nextPending job succeeded next →
    s.Stored succeeded ∧ succeeded.id = job.id ∧ Succeeds succeeded next
  inserted : ∀ c row, .inserted c row ∈ s.history → (s.sessions c).HasInserted
  successor : ∀ c jobId next, .claimed c jobId ∈ s.history → .inserted c next ∈ s.history →
    s.Released jobId ∧ ∃ job, s.Stored job ∧ job.id = jobId ∧ Succeeds job next
  unique : ∀ c d jobId next next', .claimed c jobId ∈ s.history → .claimed d jobId ∈ s.history →
    .inserted c next ∈ s.history → .inserted d next' ∈ s.history → c = d ∧ next = next'

/-- The last commit of a call releases its job. -/
theorem released_of_nextCommit (hinv : s.Inv) (hsettled : s.SettledRow) (he : Effect s s' (some c))
    {job succeeded : JobRecord} {next : Job} {payload : JsonObject} {result : Option JobRecord}
    (hcall : s.sessions c = .nextPending job succeeded next)
    (hreturned : s'.sessions c = .returned result) (hfresh : s.db.jobs.get? next.id = none)
    (hjobs : s'.db.jobs = s.db.jobs.insert next.id { next with payload := payload }) :
    s'.Released job.id := by
  have hheld : (s.sessions c).held = some job.id := by rw [hcall]; rfl
  obtain ⟨row, hrow, hstatus⟩ := hsettled c job.id (by rw [hcall]; rfl)
  have hrow' : s'.db.jobs.get? job.id = some row := by
    rw [hjobs, Dict.get?_insert_of_ne, hrow]
    intro heq
    rw [heq, hfresh] at hrow
    cases hrow
  have hother : ∀ {d}, d ≠ c → s'.sessions d = s.sessions d :=
    fun hne => he.other fun heq => hne (Option.some.inj heq).symm
  constructor
  · exact ⟨row, hrow', hstatus⟩
  · intro d hd
    by_cases hcd : d = c
    · rw [hcd, hreturned] at hd
      cases hd
    · exact hcd (hinv.holder_unique (hother hcd ▸ hd) hheld)
  · intro d read workerId t hpending hid
    by_cases hcd : d = c
    · rw [hcd, hreturned] at hpending
      cases hpending
    · rw [version_of_stored hrow', ← version_of_stored hrow]
      exact hinv.stale_of_held hheld (hother hcd ▸ hpending) hid

/-- A successor that its call has inserted, had been inserted before or comes in now. -/
theorem Chained.inserted_cases (h : s.Chained) (hs : s.act settings jsonb now action = some s')
    (he : Effect s s' action.call) {next : Job} (hclaimed : .claimed c jobId ∈ s'.history)
    (hinserted : .inserted c next ∈ s'.history) :
    (.claimed c jobId ∈ s.history ∧ .inserted c next ∈ s.history) ∨
      action.call = some c ∧ ∃ job succeeded payload, job.id = jobId ∧
        s.sessions c = .nextPending job succeeded next ∧
        s'.sessions c = .returned (some succeeded) ∧ s.db.jobs.get? next.id = none ∧
        s'.db.jobs = s.db.jobs.insert next.id { next with payload := payload } := by
  rcases he.claimed_mem hclaimed with hbefore | ⟨hsession, read, workerId, t, hpending⟩
  · rcases nextCommit_of_act hs hinserted with
      hold | ⟨hcall, -⟩ | ⟨hcall, job, succeeded, payload, hpending, hrest⟩
    · exact .inl ⟨hbefore, hold⟩
    · have hafter := h.after c jobId hbefore
      rw [hcall] at hafter
      exact hafter.elim
    · have hid := h.once c job.id jobId (h.held c job.id (by rw [hpending]; rfl)) hbefore
      exact .inr ⟨hcall, job, succeeded, payload, hid, hpending, hrest⟩
  · -- A call that claims now has inserted nothing and inserts nothing now.
    rcases nextCommit_of_act hs hinserted with
      hold | ⟨hcall, -⟩ | ⟨-, job, succeeded, payload, hcall, -⟩
    · have hafter := h.inserted c next hold
      rw [hpending] at hafter
      exact hafter.elim
    · rw [hpending] at hcall
      cases hcall
    · rw [hpending] at hcall
      cases hcall

/-- **Every step keeps the chains.** -/
theorem Chained.act (h : s.Chained) (hinv : s.Inv) (hsettled : s.SettledRow)
    (hs : s.act settings jsonb now action = some s') : s'.Chained := by
  have he := act_effect hinv.toKnown hs
  constructor
  · intro c jobId hmem
    rcases he.claimed_mem hmem with hbefore | ⟨hsession, -⟩
    · exact afterClaim_of_act hs (h.after c jobId hbefore)
    · rw [hsession]
      trivial
  · intro c jobId hheld
    exact he.held_claimed (h.held c) hheld
  · intro c i j hi hj
    -- A call claims once: after its claim it does not come back to where it could.
    have hstale : ∀ {i}, .claimed c i ∈ s.history → ∀ read workerId t,
        s.sessions c ≠ .claimPending read workerId t := by
      intro i hi read workerId t hpending
      have hafter := h.after c i hi
      rw [hpending] at hafter
      exact hafter
    rcases he.claimed_mem hi with hi | ⟨hci, read, workerId, t, hpending⟩
    · rcases he.claimed_mem hj with hj | ⟨-, read, workerId, t, hpending⟩
      · exact h.once c i j hi hj
      · exact absurd hpending (hstale hi read workerId t)
    · rcases he.claimed_mem hj with hj | ⟨hcj, -⟩
      · exact absurd hpending (hstale hj read workerId t)
      · rw [hci] at hcj
        cases hcj
        rfl
  · intro c job succeeded hsession
    rcases marked_of_act hs hsession with hbefore | ⟨-, row, hrow, rfl⟩
    · obtain ⟨hstored, hid⟩ := h.marked c job succeeded hbefore
      exact ⟨hstored.step he, hid⟩
    · exact ⟨(hinv.toKnown.stored hrow).step he, hinv.keyed job.id row hrow⟩
  · intro c job succeeded next hsession
    rcases nextPending_of_act hs hsession with hbefore | ⟨hbefore, hsucceeds⟩
    · obtain ⟨hstored, hid, hsucceeds⟩ := h.pending c job succeeded next hbefore
      exact ⟨hstored.step he, hid, hsucceeds⟩
    · obtain ⟨hstored, hid⟩ := h.marked c job succeeded hbefore
      exact ⟨hstored.step he, hid, hsucceeds⟩
  · intro c row hmem
    rcases nextCommit_of_act hs hmem with
      hbefore | ⟨-, jobId, hsession⟩ | ⟨-, _, succeeded, _, -, hsession, -⟩
    · exact hasInserted_of_act hs (h.inserted c row hbefore)
    · rw [hsession]
      trivial
    · rw [hsession]
      trivial
  · intro c jobId next hclaimed hinserted
    rcases h.inserted_cases hs he hclaimed hinserted with
      ⟨hclaimed, hinserted⟩ | ⟨hcall, job, succeeded, payload, rfl, hpending, hreturned, hfresh, hjobs⟩
    · obtain ⟨hreleased, job, hstored, hid, hsucceeds⟩ := h.successor c jobId next hclaimed hinserted
      exact ⟨hreleased.step hinv he, job, hstored.step he, hid, hsucceeds⟩
    · obtain ⟨hstored, hid, hsucceeds⟩ := h.pending c job succeeded next hpending
      rw [hcall] at he
      exact ⟨released_of_nextCommit hinv hsettled he hpending hreturned hfresh hjobs, succeeded,
        hstored.step he, hid, hsucceeds⟩
  · intro c d jobId next next' hc hd hnext hnext'
    rcases h.inserted_cases hs he hc hnext with
      ⟨hc, hnext⟩ | ⟨hcall, job, succeeded, payload, hid, hpending, -⟩
    · rcases h.inserted_cases hs he hd hnext' with
        ⟨hd, hnext'⟩ | ⟨-, job, succeeded, payload, hid, hpending, -⟩
      · exact h.unique c d jobId next next' hc hd hnext hnext'
      · -- Who inserts a successor holds the job, and nobody does after one was inserted.
        have hreleased := (h.successor c jobId next hc hnext).1
        exact absurd (by rw [hpending, ← hid]; rfl) (hreleased.unheld d)
    · rcases h.inserted_cases hs he hd hnext' with
        ⟨hd, hnext'⟩ | ⟨hcall', job', succeeded', payload', hid', hpending', -⟩
      · have hreleased := (h.successor d jobId next' hd hnext').1
        exact absurd (by rw [hpending, ← hid]; rfl) (hreleased.unheld c)
      · rw [hcall] at hcall'
        cases hcall'
        rw [hpending] at hpending'
        cases hpending'
        exact ⟨rfl, rfl⟩

theorem chained_of_reachable (h : (Sql.sessions settings jsonb).Reachable Any s) : s.Chained := by
  apply h.invariant_of_reachable (I := Chained)
  · intro s hs
    have hs : s = State.initial := hs
    subst hs
    constructor
    · intro c jobId hmem
      cases hmem
    · intro c jobId hheld
      cases hheld
    · intro c i j hmem
      cases hmem
    · intro c job succeeded hsession
      cases hsession
    · intro c job succeeded next hsession
      cases hsession
    · intro c row hmem
      cases hmem
    · intro c jobId next hmem
      cases hmem
    · intro c d jobId next next' hmem
      cases hmem
  · intro s label s' hreach hchained _ hs
    exact hchained.act (inv_of_reachable hreach) (settledRow_of_reachable hreach) hs

theorem everyMinute_accepted : 9 ≤ "* * * * *".length ∧ "* * * * *".length ≤ 100 ∧
    validateCronExpression "* * * * *" = .ok "* * * * *" := ⟨by decide, by decide, rfl⟩

/-- A recurring job that succeeds, with its successor. -/
def recurringRun : List Label :=
  [⟨0, .submit 0 (Sample.request.recurring "* * * * *" everyMinute_accepted) Sample.jobId⟩,
    ⟨0, .insertCommit 0⟩, ⟨0, .process 1 Sample.jobId "worker-1"⟩, ⟨0, .claimRead 1⟩,
    ⟨0, .claimCommit 1⟩, ⟨0, .claimRefresh 1⟩, ⟨0, .finish 1 (.value [])⟩, ⟨0, .succeedRead 1⟩,
    ⟨0, .succeedCommit 1⟩, ⟨0, .succeedRefresh 1⟩,
    ⟨seconds 60, .next 1 (seconds 59) Sample.nextJobId⟩, ⟨seconds 60, .nextCommit 1⟩]

end State

end Sql

end JobPipeline
