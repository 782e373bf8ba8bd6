import JobPipeline.Sql.Leases

/-!
# No double execution, and what a lost claim does

The lease of a job gives the first law: one handler at a time, attempts numbered without a gap,
and no more of them than retries allow. The price is paid by the loser of a race: it meets the
unique constraint inside `commit`, which nothing in `claim_job` or around it in `process_job`
catches.
-/

set_option autoImplicit false

namespace JobPipeline

namespace Sql

namespace State

open Transition

variable {settings : Settings} {jsonb : Jsonb} {s s' : State} {c d : CallId} {jobId : UUID}
  {call : Option CallId}

/-! ## Handlers started -/

theorem Inv.holder_unique (h : s.Inv) (hc : (s.sessions c).held = some jobId)
    (hd : (s.sessions d).held = some jobId) : c = d := by
  obtain ⟨row, hrow⟩ := h.held_stored c jobId hc
  exact (h.exclusive jobId row hrow).unique c d hc hd

/-- A handler is started after its claim, once. -/
structure Started (s : State) : Prop where
  starts_le : ∀ jobId, s.starts jobId ≤ s.version jobId
  unstarted : ∀ c jobId, s.sessions c = .claimed jobId → s.starts jobId < s.version jobId

theorem Started.step (h : s.Started) (hinv : s.Inv) (he : Effect s s' call) : s'.Started := by
  constructor
  · intro jobId
    have hle := h.starts_le jobId
    cases he.tick hinv jobId with
    | same hversion _ hstarts => rwa [hversion, hstarts]
    | claim d _ hversion _ hstarts =>
      rw [hversion, hstarts]
      exact Nat.le_succ_of_le hle
    | start d job before _ hversion _ hstarts =>
      rw [hversion, hstarts]
      exact h.unstarted d jobId before
  · intro c jobId hclaimed
    cases he.tick hinv jobId with
    | same hversion _ hstarts hbefore =>
      rw [hversion, hstarts]
      exact h.unstarted c jobId (hbefore c hclaimed)
    | claim d _ hversion _ hstarts =>
      rw [hversion, hstarts]
      exact Nat.lt_succ_of_le (h.starts_le jobId)
    | start d job before moves hversion _ hstarts =>
      rcases session_cases moves c with ⟨-, heq⟩ | ⟨hne, heq⟩
      · rw [heq] at hclaimed
        cases hclaimed
      · -- Two calls would have claimed the job together.
        rw [heq] at hclaimed
        exact absurd (hinv.holder_unique (by rw [hclaimed]; rfl) (by rw [before]; rfl)) hne

theorem started_of_reachable (h : (Sql.sessions settings jsonb).Reachable Any s) : s.Started := by
  apply h.invariant_of_reachable (I := Started)
  · intro s hs
    have hs : s = State.initial := hs
    subst hs
    constructor
    · intro jobId
      exact Nat.zero_le _
    · intro c jobId hclaimed
      cases hclaimed
  · intro s label s' hreach hstarted _ hs
    have hinv := inv_of_reachable hreach
    exact hstarted.step hinv (act_effect hinv.toKnown hs)

/-- A row that was inserted is still there. -/
def CreatedStored (s : State) : Prop :=
  ∀ c created, .inserted c created ∈ s.history →
    ∃ row, s.db.jobs.get? created.id = some row ∧ row.maxRetries = created.maxRetries

theorem createdStored_of_reachable (h : (Sql.sessions settings jsonb).Reachable Any s) :
    s.CreatedStored := by
  apply h.invariant_of_reachable (I := CreatedStored)
  · intro s hs
    have hs : s = State.initial := hs
    subst hs
    intro c created hmem
    cases hmem
  · intro s label s' hreach hcreated _ hs
    have he := act_effect (inv_of_reachable hreach).toKnown hs
    intro c created hmem
    rcases he.created hmem with hmem | ⟨payload, hstored, -⟩
    · obtain ⟨row, hrow, hretries⟩ := hcreated c created hmem
      obtain ⟨row', hrow', hkeeps⟩ := he.persist hrow
      exact ⟨row', hrow', hkeeps.maxRetries.trans hretries⟩
    · exact ⟨_, hstored, rfl⟩

/-- **No double execution**: of a job that was created, at most one call is running the handler,
    the attempts are numbered from 1 to `attempt_count`, there are at most `max_retries + 1`, and
    so often at most the handler was started. -/
theorem executions_bounded (h : (Sql.sessions settings jsonb).Reachable Any s) {created : Job}
    (hcreated : .inserted c created ∈ s.history) :
    ∃ row, s.db.jobs.get? created.id = some row ∧ row.maxRetries = created.maxRetries ∧
      (∀ c d job job', s.sessions c = .running job → s.sessions d = .running job' →
        job.id = created.id → job'.id = created.id → c = d) ∧
      s.attemptNumbers created.id = List.range' 1 row.attemptCount ∧
      row.attemptCount ≤ created.maxRetries + 1 ∧ s.starts created.id ≤ created.maxRetries + 1 := by
  have hinv := inv_of_reachable h
  obtain ⟨row, hrow, hretries⟩ := createdStored_of_reachable h c created hcreated
  have hversion := version_of_stored hrow
  have hle : row.attemptCount ≤ created.maxRetries + 1 := by
    have := (hinv.exclusive created.id row hrow).version_le
    rwa [hretries, show (s.lease created.id).version = s.version created.id from rfl,
      hversion] at this
  refine ⟨row, hrow, hretries, ?_, ?_, hle, ?_⟩
  · intro c d job job' hc hd hjob hjob'
    have hheld : (s.sessions c).held = some created.id := by
      rw [hc, ← hjob]
      rfl
    have hheld' : (s.sessions d).held = some created.id := by
      rw [hd, ← hjob']
      rfl
    exact hinv.holder_unique hheld hheld'
  · rw [← hversion]
    exact hinv.attempts created.id
  · have := (started_of_reachable h).starts_le created.id
    rw [hversion] at this
    exact this.trans hle

/-- A job and a worker in the middle of its first attempt. -/
def startedRun : List Label :=
  [⟨0, .submit 0 Sample.request Sample.jobId⟩, ⟨0, .insertCommit 0⟩,
    ⟨0, .process 1 Sample.jobId "worker-1"⟩, ⟨0, .claimRead 1⟩, ⟨0, .claimCommit 1⟩,
    ⟨0, .claimRefresh 1⟩]

theorem executions_bounded_of_startedRun : ∃ s job row,
    (Sql.sessions {} some).Reachable Any s ∧ s.sessions 1 = .running job ∧
      s.db.jobs.get? Sample.jobId = some row ∧ row.attemptCount = 1 ∧
      s.attemptNumbers Sample.jobId = List.range' 1 row.attemptCount := by
  have hrun : ∃ s job row created,
      System.replay (State.step {} some) State.initial startedRun = some s ∧
      s.sessions 1 = .running job ∧ s.db.jobs.get? Sample.jobId = some row ∧ row.attemptCount = 1 ∧
      s.history[2]? = some (.inserted 0 created) ∧ created.id = Sample.jobId :=
    ⟨_, _, _, _, rfl, rfl, rfl, rfl, rfl, rfl⟩
  obtain ⟨s, job, row, created, hs, hjob, hrow, hcount, hcreated, hid⟩ := hrun
  have hreach : (Sql.sessions {} some).Reachable Any s :=
    ⟨State.initial, rfl, System.Steps.of_replay hs fun _ _ _ => trivial⟩
  obtain ⟨row', hrow', -, -, hnumbers, -, -⟩ :=
    executions_bounded hreach (List.mem_of_getElem? hcreated)
  rw [hid, hrow] at hrow'
  cases hrow'
  exact ⟨s, job, row, hreach, hjob, hrow, hcount, hid ▸ hnumbers⟩

/-! ## Lost claims -/

/-- What the commit of `claim_job` raises, and nothing else does. -/
def FromClaim (exc : Exc) : Prop :=
  exc = .integrityError "uq_job_attempts_job_attempt" ∨ exc = .dataError "locked_by"

/-- Every `claim_job` that was called has returned or can still return: none has raised, and one
    whose claim is committed finds its row. -/
structure ClaimsSkip (s : State) : Prop where
  unraised : ∀ c exc, s.sessions c = .raised exc → ¬ FromClaim exc
  refreshed : ∀ c jobId, s.sessions c = .claimed jobId → ∃ row, s.refresh jobId = .ok row

/-- No fault but a conflict: what is written of the worker fits its columns. -/
def ClaimFits (s : State) (label : Label) : Prop :=
  ∀ c read workerId now, label.action = .claimCommit c →
    s.sessions c = .claimPending read workerId now → fitsString 100 workerId = true

/-- A `claim_job` about to commit finds the `attempt_count` that it read: no other claim of the job
    was committed in between. -/
def ClaimCurrent (s : State) (label : Label) : Prop :=
  ∀ c read workerId now, label.action = .claimCommit c →
    s.sessions c = .claimPending read workerId now →
      ∃ row, s.db.getJob? read.id = some row ∧ row.attemptCount = read.attemptCount

/-- The call whose `claim_job` takes the step. -/
def claimer : Action → Option CallId
  | .process c .. | .claimRead c | .claimCommit c | .claimRefresh c => some c
  | _ => none

/-- `claim_job` writes in the commit it wins, and nowhere else. -/
theorem sameTables_of_lost {label : Label} (h : s.step settings jsonb label = some s')
    (hclaimer : claimer label.action = some c) (hlost : ∀ jobId, s'.sessions c ≠ .claimed jobId) :
    SameTables s s' := by
  obtain ⟨now, action⟩ := label
  simp only [State.step] at h
  cases action with
  | process c jobId workerId =>
    simp only [act] at h
    split at h
    · split at h <;> (cases h; exact ⟨rfl, rfl⟩)
    · cases h
  | claimRead c =>
    simp only [act] at h
    split at h
    · cases h
      unfold claimRead
      split
      · exact ⟨rfl, rfl⟩
      · split <;> exact ⟨rfl, rfl⟩
    · cases h
  | claimCommit c =>
    cases hclaimer
    simp only [act] at h
    split at h
    · rename_i read workerId now' hcall
      cases h
      unfold claimCommit at hlost ⊢
      split
      · exact ⟨rfl, rfl⟩
      · rename_i db hcommit
        exact absurd (by simp [hcommit, setSession]) (hlost read.id)
    · cases h
  | claimRefresh c =>
    simp only [act] at h
    split at h
    · cases h
      unfold claimRefresh
      split
      · exact ⟨rfl, rfl⟩
      · dsimp only
        split <;> exact ⟨rfl, rfl⟩
    · cases h
  | _ => cases hclaimer

/-- A call that has read a claimable row can only commit. -/
theorem act_of_claimPending {label : Label} {read : Job} {workerId : String} {now : Int}
    (h : s.step settings jsonb label = some s') (hcall : label.action.call = some c)
    (hpending : s.sessions c = .claimPending read workerId now) :
    label.action = .claimCommit c := by
  obtain ⟨t, action⟩ := label
  cases action <;> cases hcall <;>
    first | rfl | exact absurd h (by simp [State.step, act, hpending])

theorem Raises.of_fromClaim {exc : Exc} (h : Raises s c exc) (hfrom : FromClaim exc) :
    ∃ read workerId now, s.sessions c = .claimPending read workerId now ∧
      s.db.commitClaim read workerId now = .error exc := by
  cases h with
  | plain plain =>
    rcases hfrom with rfl | rfl
    · exact absurd plain id
    · exact absurd rfl plain
  | claim read workerId now before error => exact ⟨read, workerId, now, before, error⟩
  | insert row before jobs | reselect row before jobs =>
    rcases hfrom with rfl | rfl <;> rcases jobs with hjobs | hjobs <;> exact absurd hjobs (by simp)
  | drain _ _ _ _ constraint => rcases hfrom with rfl | rfl <;> exact absurd constraint (by simp)

/-- The commit of a claim fails for a stale read, if for nothing else. -/
theorem Inv.commitClaim_error_iff (h : s.Inv) {read : Job} {workerId : String} {now : Int}
    (hcall : s.sessions c = .claimPending read workerId now)
    (hfits : fitsString 100 workerId = true) :
    (∃ exc, s.db.commitClaim read workerId now = .error exc) ↔
      read.attemptCount ≠ s.version read.id := by
  unfold Database.commitClaim
  rw [if_neg (by simpa using hfits), ne_eq, ← not_congr (h.free_iff hcall), Bool.not_eq_false]
  split
  · rename_i htaken
    exact iff_of_true ⟨_, rfl⟩ htaken
  · rename_i hfree
    refine iff_of_false ?_ hfree
    intro herror
    obtain ⟨exc, herror⟩ := herror
    cases herror

/-- With no fault but a conflict, a step leaves every `claim_job` without an error exactly when
    the claim it commits, if it does, is a current one. -/
theorem ClaimsSkip.step_iff {label : Label} (h : s.ClaimsSkip) (hinv : s.Inv)
    (hs : s.step settings jsonb label = some s') (hfits : ClaimFits s label) :
    s'.ClaimsSkip ↔ ClaimCurrent s label := by
  have hinv' := hinv.step hs
  have he := act_effect hinv.toKnown hs
  constructor
  · intro hskip c read workerId now haction hpending
    obtain ⟨row, hrow, -⟩ := hinv.read_stored c read (by rw [hpending]; rfl)
    refine ⟨row, hrow, ?_⟩
    rw [← version_of_stored hrow]
    by_contra hstale
    obtain ⟨exc, herror⟩ := (hinv.commitClaim_error_iff hpending
      (hfits c read workerId now haction hpending)).mpr (Ne.symm hstale)
    -- The commit of a stale claim raises, which the law forbids.
    have hfrom : FromClaim exc := by
      unfold Database.commitClaim at herror
      split at herror
      · cases herror
        exact Or.inr rfl
      split at herror
      · cases herror
        exact Or.inl rfl
      · cases herror
    refine hskip.unraised c exc ?_ hfrom
    obtain ⟨t, action⟩ := label
    subst haction
    simp only [State.step, act, hpending, claimCommit, herror] at hs
    cases hs
    simp [setSession]
  · intro hcurrent
    constructor
    · intro c exc hraised hfrom
      -- Another `claim_job` raised before; a new error is that of this commit.
      rcases he.raised hraised with hbefore | ⟨hcall, hraises⟩
      · exact h.unraised c exc hbefore hfrom
      · obtain ⟨read, workerId, now, hpending, herror⟩ := hraises.of_fromClaim hfrom
        have haction := act_of_claimPending hs hcall hpending
        obtain ⟨row, hrow, hcount⟩ := hcurrent c read workerId now haction hpending
        refine (hinv.commitClaim_error_iff hpending
          (hfits c read workerId now haction hpending)).mp ⟨exc, herror⟩ ?_
        rw [← hcount, version_of_stored hrow]
    · intro c jobId hclaimed
      obtain ⟨row, hrow, -⟩ := hinv'.refresh (c := c) (j := jobId) (by rw [hclaimed]; rfl)
      exact ⟨row, hrow⟩

theorem claimsSkip_initial : State.initial.ClaimsSkip := by
  constructor
  · intro c exc hraised
    cases hraised
  · intro c jobId hclaimed
    cases hclaimed

/-- **A lost claim is a skip, as long as no commit of a claim meets a later claim**: no
    `claim_job` raises, the next step keeps it so exactly if it does not meet one either, and a
    step of a `claim_job` that does not win leaves jobs and attempts as they are. -/
theorem claims_skip (h : (Sql.sessions settings jsonb).Reachable
      (fun s label => ClaimFits s label ∧ ClaimCurrent s label) s) :
    s.ClaimsSkip ∧
      ∀ label s', s.step settings jsonb label = some s' →
        (ClaimFits s label → (s'.ClaimsSkip ↔ ClaimCurrent s label)) ∧
        ∀ c, claimer label.action = some c → (∀ jobId, s'.sessions c ≠ .claimed jobId) →
          s'.db.jobs = s.db.jobs ∧ s'.db.jobAttempts = s.db.jobAttempts := by
  have hskip : s.ClaimsSkip := by
    apply h.invariant_of_reachable (I := ClaimsSkip)
    · intro s hs
      have hs : s = State.initial := hs
      subst hs
      exact claimsSkip_initial
    · intro s label s' hreach hskip hok hs
      exact (hskip.step_iff (inv_of_reachable hreach.any) hs hok.1).mpr hok.2
  refine ⟨hskip, ?_⟩
  intro label s' hs
  refine ⟨hskip.step_iff (inv_of_reachable h.any) hs, ?_⟩
  intro c hclaimer hlost
  exact sameTables_of_lost hs hclaimer hlost

/-- Two deliveries of one message, both read before either commits. -/
def racingReads : List Label :=
  [⟨0, .submit 0 Sample.request Sample.jobId⟩, ⟨0, .insertCommit 0⟩,
    ⟨0, .process 1 Sample.jobId "worker-1"⟩, ⟨0, .process 2 Sample.jobId "worker-2"⟩,
    ⟨0, .claimRead 1⟩, ⟨0, .claimRead 2⟩]

/-- The first commit of the race wins. -/
theorem claims_skip_of_first : ∃ s : State, s.sessions 1 = .claimed Sample.jobId ∧ s.ClaimsSkip := by
  have hrun : ∃ s s' read, System.replay (State.step {} some) State.initial racingReads = some s ∧
      State.step {} some s ⟨0, .claimCommit 1⟩ = some s' ∧
      s.sessions 1 = .claimPending read "worker-1" 0 ∧ s.db.getJob? read.id = some read ∧
      s'.sessions 1 = .claimed Sample.jobId := ⟨_, _, _, rfl, rfl, rfl, rfl, rfl⟩
  obtain ⟨s, s', read, hs, hs', hpending, hstored, hclaimed⟩ := hrun
  have hreach : (Sql.sessions {} some).Reachable
      (fun s label => ClaimFits s label ∧ ClaimCurrent s label) s := by
    refine ⟨State.initial, rfl, System.Steps.of_replay hs ?_⟩
    intro label hlabel s
    simp only [racingReads, List.mem_cons, List.not_mem_nil, or_false] at hlabel
    constructor <;> intro c read workerId now haction <;>
      rcases hlabel with rfl | rfl | rfl | rfl | rfl | rfl <;> cases haction
  refine ⟨s', hclaimed, (claims_skip (hreach.tail ⟨?_, ?_⟩ hs')).1⟩
  · intro c read' workerId now haction hpending'
    cases haction
    rw [hpending] at hpending'
    cases hpending'
    decide
  · intro c read' workerId now haction hpending'
    cases haction
    rw [hpending] at hpending'
    cases hpending'
    exact ⟨read, hstored, rfl⟩

/-- **A lost claim that raises**: the second commit of the race meets the first one's attempt. -/
theorem lost_claim_raises : ∃ s row, (Sql.sessions {} some).Reachable Any s ∧
    s.sessions 1 = .claimed Sample.jobId ∧
      s.sessions 2 = .raised (.integrityError "uq_job_attempts_job_attempt") ∧
      s.db.jobs.get? Sample.jobId = some row ∧ row.lockedBy = some "worker-1" := by
  have hrun : ∃ s row, System.replay (State.step {} some) State.initial
        (racingReads ++ [⟨0, .claimCommit 1⟩, ⟨0, .claimCommit 2⟩]) = some s ∧
      s.sessions 1 = .claimed Sample.jobId ∧
      s.sessions 2 = .raised (.integrityError "uq_job_attempts_job_attempt") ∧
      s.db.jobs.get? Sample.jobId = some row ∧ row.lockedBy = some "worker-1" :=
    ⟨_, _, rfl, rfl, rfl, rfl, rfl⟩
  obtain ⟨s, row, hs, hclaimed, hraised, hrow, hlocked⟩ := hrun
  exact ⟨s, row, ⟨State.initial, rfl, System.Steps.of_replay hs fun _ _ _ => trivial⟩, hclaimed,
    hraised, hrow, hlocked⟩

end State

end Sql

end JobPipeline
