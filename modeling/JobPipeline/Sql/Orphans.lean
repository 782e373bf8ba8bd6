import JobPipeline.Sql.Attempts
import JobPipeline.Sql.Processing

/-!
# Jobs whose worker is gone

A call that has committed its claim and takes no further step (its worker was killed) holds the job
for ever: the row stays `running`, no other call can claim it, and nothing resets a stale lock. The
setting `stale_lock_seconds` is read nowhere. The one commit that can still reach the row is that of
a `cancel_job` which had read it before it was claimed.
-/

set_option autoImplicit false

namespace JobPipeline

namespace Sql

namespace State

open Transition

variable {settings : Settings} {jsonb : Jsonb} {s₀ s s' : State} {c d : CallId} {jobId : UUID}
  {now t : Int} {action : Action} {call : Option CallId} {row row₀ read : Job}

/-! ## While a call holds a job -/

/-- The row of a job that a call holds is not pending. -/
theorem Inv.not_pending_of_held (h : s.Inv) (hheld : (s.sessions c).held = some jobId)
    (hrow : s.db.jobs.get? jobId = some row) : row.status.isPending = false := by
  rw [← claimable_of_stored hrow, ← Bool.not_eq_true]
  intro hopen
  exact (h.exclusive jobId row hrow).open_free hopen c hheld

/-- Nobody claims a job that a call holds. -/
theorem Inv.not_claimed_of_held (h : s.Inv) (hheld : (s.sessions c).held = some jobId)
    {workerId : String} (hpending : s.sessions d = .claimPending read workerId now)
    (hid : read.id = jobId) :
    s.db.hasAttempt read.id (read.attemptCount + 1) = true := by
  rw [← Bool.not_eq_false, h.free_iff hpending, hid]
  exact h.stale_of_held hheld hpending hid

/-- `cancel_job` goes on to its commit from a pending row only. -/
theorem cancelPending_of_act (hs : s.act settings jsonb now action = some s')
    (h : s'.sessions c = .cancelPending read t) :
    s.sessions c = .cancelPending read t ∨ read.status.isPending = true := by
  rcases entered_of_act hs c with heq | hentered
  · exact .inl (heq.symm.trans h)
  · rw [h] at hentered
    obtain ⟨d, jobId, rfl⟩ := hentered
    simp only [State.act] at hs
    repeat' split at hs
    all_goals cases hs
    all_goals rcases session_of_setSession h with ⟨-, heq⟩ | hbefore
    all_goals first | exact .inl hbefore | cases heq
    rename_i hpending
    exact .inr (by simpa using hpending)

/-! ## Without its call -/

/-- What has become of the job that `c` was attempting at `s₀`, without a step of `c`. -/
structure Abandoned (s₀ s : State) (c : CallId) (jobId : UUID) (row₀ : Job) : Prop where
  session : s.sessions c = s₀.sessions c
  row : s.db.jobs.get? jobId = some row₀ ∨ ∃ d read t, s₀.sessions d = .cancelPending read t ∧
    read.id = jobId ∧ s.db.jobs.get? jobId = some (Job.cancelAssignments t row₀)
  cancels : ∀ d read t, s.sessions d = .cancelPending read t → read.id = jobId →
    s₀.sessions d = .cancelPending read t
  attempts : s.attemptsOf jobId = s₀.attemptsOf jobId
  starts : s.starts jobId = s₀.starts jobId

theorem Abandoned.step (h : Abandoned s₀ s c jobId row₀) (hinv : s.Inv)
    (hattempting : (s₀.sessions c).attempting = some jobId)
    (hs : s.act settings jsonb now action = some s') (hother : action.call ≠ some c) :
    Abandoned s₀ s' c jobId row₀ := by
  have he := act_effect hinv.toKnown hs
  have hsession := he.other hother
  have hheld : (s.sessions c).held = some jobId := by
    rw [h.session]
    exact Session.held_of_attempting hattempting
  obtain ⟨row, hrow⟩ := hinv.held_stored c jobId hheld
  have hcancels : ∀ d read t, s'.sessions d = .cancelPending read t → read.id = jobId →
      s₀.sessions d = .cancelPending read t := by
    intro d read t hpending hid
    rcases he.read (c := d) (by rw [hpending]; rfl) with ⟨-, heq⟩ | ⟨hstored, -, -⟩
    · exact h.cancels d read t (heq ▸ hpending) hid
    · rcases cancelPending_of_act hs hpending with hbefore | hopen
      · exact h.cancels d read t hbefore hid
      · rw [hinv.not_pending_of_held hheld (hid ▸ hstored)] at hopen
        cases hopen
  have hstarts : s'.starts jobId = s₀.starts jobId := by
    rw [← h.starts]
    cases he.tick hinv jobId with
    | same hversion hnumbers hstarts => exact hstarts
    | claim d hview hversion hnumbers hstarts => exact hstarts
    | start d job before moves =>
      have heq : d = c := hinv.holder_unique (by rw [before]; rfl) hheld
      subst heq
      rw [moves, Function.update_self, before] at hsession
      cases hsession
  generalize hcall : action.call = call at he hother
  have hsame : s'.db.jobs.get? jobId = s.db.jobs.get? jobId →
      s'.attemptsOf jobId = s.attemptsOf jobId → Abandoned s₀ s' c jobId row₀ := by
    intro hrows hattempts
    exact ⟨hsession.trans h.session, hrows ▸ h.row, hcancels, hattempts.trans h.attempts, hstarts⟩
  cases he with
  | idle tables => exact hsame (by rw [tables.1]) (attemptsOf_congr tables.2 jobId)
  | quiet d session tables => exact hsame (by rw [tables.1]) (attemptsOf_congr tables.2 jobId)
  | reads d session read tables => exact hsame (by rw [tables.1]) (attemptsOf_congr tables.2 jobId)
  | start d job tables => exact hsame (by rw [tables.1]) (attemptsOf_congr tables.2 jobId)
  | insert d created payload session jobs attempts fresh =>
    refine hsame ?_ (attemptsOf_congr attempts jobId)
    rw [jobs, Dict.get?_insert_of_ne]
    rintro rfl
    rw [fresh] at hrow
    cases hrow
  | claim d read workerId now' before fits free jobs attempts =>
    have hne : jobId ≠ read.id := by
      rintro rfl
      rw [hinv.not_claimed_of_held hheld before rfl] at free
      cases free
    refine hsame (by rw [jobs, Dict.get?_modify_of_ne _ _ hne]) ?_
    rw [attemptsOf_claim attempts, if_neg (Ne.symm hne), List.append_nil]
  | succeed d job read result stored now' before jobs attempts =>
    have hne : jobId ≠ read.id := by
      rintro rfl
      obtain ⟨hjob, -⟩ := hinv.read_current d read job.id (by rw [before]; rfl) (by rw [before]; rfl)
      exact hother (congrArg some (hinv.holder_unique (by rw [before, hjob]; rfl) hheld))
    exact hsame (by rw [jobs, Dict.get?_modify_of_ne _ _ hne]) (attemptsOf_finish_ne attempts hne)
  | fail d job succeeded read error now' before fits jobs attempts =>
    have hne : jobId ≠ read.id := by
      rintro rfl
      obtain ⟨hjob, -⟩ := hinv.read_current d read job.id (by rw [before]; rfl) (by rw [before]; rfl)
      exact hother (congrArg some (hinv.holder_unique (by rw [before, hjob]; rfl) hheld))
    exact hsame (by rw [jobs, Dict.get?_modify_of_ne _ _ hne]) (attemptsOf_finish_ne attempts hne)
  | cancel d read now' before jobs attempts =>
    by_cases hid : read.id = jobId
    · have hbefore := h.cancels d read now' before hid
      refine ⟨hsession.trans h.session, .inr ⟨d, read, now', hbefore, hid, ?_⟩, hcancels,
        (attemptsOf_congr attempts jobId).trans h.attempts, hstarts⟩
      -- A second cancellation overwrites all that the first one wrote.
      rcases h.row with hrow₀ | ⟨_, _, _, -, -, hrow₀⟩
      · exact get?_of_update (hid ▸ jobs) hrow₀
      · have hrow' := get?_of_update (hid ▸ jobs) hrow₀
        exact hrow'
    · exact hsame (by rw [jobs, Dict.get?_modify_of_ne _ _ (Ne.symm hid)])
        (attemptsOf_congr attempts jobId)

/-- The attempt that a call is making is the last one, and unfinished. -/
theorem unfinished_of_attempting (hreach : (Sql.sessions settings jsonb).Reachable Any s)
    (hattempting : (s.sessions c).attempting = some jobId)
    (hrow : s.db.jobs.get? jobId = some row) :
    ∃ earlier last, s.attemptsOf jobId = earlier ++ [last] ∧
      last.attemptNumber = row.attemptCount ∧ last.status = .running ∧ last.finishedAt = none := by
  have haudit := audit_of_reachable hreach
  have hversion := version_of_stored hrow
  have hnumbers := (inv_of_reachable hreach).attempts jobId
  have hclaimed := heldClaimed_of_reachable hreach c jobId (Session.held_of_attempting hattempting)
  have hrunning := haudit.attempting c jobId hattempting
  rw [hversion] at hnumbers hclaimed hrunning
  exact (haudit.rows jobId row hrow).unfinished hnumbers hclaimed hrunning

/-- **Nothing recovers an abandoned job.** From a state in which a call is in the middle of an
    attempt, without another step of that call, the row of the job never changes, except for the
    commit of a `cancel_job` that was pending then: the job is never claimed again, no handler is
    started for it, and its last attempt stays as it is, running and unfinished. -/
theorem abandoned_job_stays (hreach : (Sql.sessions settings jsonb).Reachable Any s₀)
    (hattempting : (s₀.sessions c).attempting = some jobId)
    (h : (Sql.sessions settings jsonb).Steps (fun _ label => label.action.call ≠ some c) s₀ s) :
    ∃ row₀, s₀.db.getJob? jobId = some row₀ ∧
      (row₀.status = .running ∨ row₀.status = .cancelled) ∧
      (s.db.getJob? jobId = some row₀ ∨ ∃ d read t, s₀.sessions d = .cancelPending read t ∧
        read.id = jobId ∧ s.db.getJob? jobId = some (Job.cancelAssignments t row₀)) ∧
      s.attemptsOf jobId = s₀.attemptsOf jobId ∧ s.starts jobId = s₀.starts jobId ∧
      ∃ earlier last, s.attemptsOf jobId = earlier ++ [last] ∧
        last.attemptNumber = row₀.attemptCount ∧ last.status = .running ∧
        last.finishedAt = none := by
  obtain ⟨row₀, hrow₀, hstatus⟩ := attemptingRuns_of_reachable hreach c jobId hattempting
  have habandoned : s.Inv ∧ Abandoned s₀ s c jobId row₀ := by
    refine h.invariant (I := fun s => s.Inv ∧ Abandoned s₀ s c jobId row₀) ?_ ?_
    · exact ⟨inv_of_reachable hreach, rfl, .inl hrow₀, fun _ _ _ h _ => h, rfl, rfl⟩
    · intro s label s' h hok hs
      exact ⟨h.1.step hs, h.2.step h.1 hattempting hs hok⟩
  refine ⟨row₀, hrow₀, hstatus, habandoned.2.row, habandoned.2.attempts, habandoned.2.starts, ?_⟩
  rw [habandoned.2.attempts]
  exact unfinished_of_attempting hreach hattempting hrow₀

/-- A worker that is killed while the handler runs, and a redelivery of the message. -/
theorem abandoned_job_stays_of_startedRun : ∃ s₀ s row,
    (Sql.sessions {} some).Steps (fun _ label => label.action.call ≠ some 1) s₀ s ∧
      s.sessions 2 = .returned none ∧ s.db.getJob? Sample.jobId = some row ∧
      row.status = .running ∧ s.attemptsOf Sample.jobId = s₀.attemptsOf Sample.jobId ∧
      ∃ earlier last, s.attemptsOf Sample.jobId = earlier ++ [last] ∧ last.finishedAt = none := by
  have hrun : ∃ s₀ s row job, System.replay (State.step {} some) State.initial startedRun = some s₀ ∧
      s₀.sessions 1 = .running job ∧ job.id = Sample.jobId ∧
      System.replay (State.step {} some) s₀
        [⟨1000000000, .process 2 Sample.jobId "worker-2"⟩, ⟨1000000000, .claimRead 2⟩] = some s ∧
      s.sessions 2 = .returned none ∧ s.db.getJob? Sample.jobId = some row ∧ row.status = .running :=
    ⟨_, _, _, _, rfl, rfl, rfl, rfl, rfl, rfl, rfl⟩
  obtain ⟨s₀, s, row, job, hs₀, hrunning, hid, hs, hreturned, hrow, hstatus⟩ := hrun
  have hreach : (Sql.sessions {} some).Reachable Any s₀ :=
    ⟨State.initial, rfl, System.Steps.of_replay hs₀ fun _ _ _ => trivial⟩
  have hsteps : (Sql.sessions {} some).Steps (fun _ label => label.action.call ≠ some 1) s₀ s := by
    refine System.Steps.of_replay hs fun label hmem _ => ?_
    simp only [List.mem_cons, List.not_mem_nil, or_false] at hmem
    rcases hmem with rfl | rfl <;> simp [Action.call]
  have hattempting : (s₀.sessions 1).attempting = some Sample.jobId := by
    rw [hrunning, ← hid]
    rfl
  obtain ⟨-, -, -, -, hattempts, -, earlier, last, hlast, -, -, hunfinished⟩ :=
    abandoned_job_stays hreach hattempting hsteps
  exact ⟨s₀, s, row, hsteps, hreturned, hrow, hstatus, hattempts, earlier, last, hlast, hunfinished⟩

end State

end Sql

end JobPipeline
