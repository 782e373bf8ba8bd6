import JobPipeline.Sql.Leases

/-!
# When `process_job` raises

`process_job` has an `except Exception`, but not around `claim_job`, and what stands in the
`except` block is not inside a `try` of its own. `process_step` says of every step of a call, from
what the step finds, whether the call raises in it or goes on.

That the rows a call needs are there, with a handler that the registry knows, is an invariant of
the sessions (`Served`), so no step has to ask for it.
-/

set_option autoImplicit false

namespace JobPipeline

namespace Sql

open Transition (Any)

namespace Session

/-- In a `process_job`, between `get_drain` and its end. -/
def Processing : Session → Prop
  | .claiming _ _ => True
  | .claimPending _ _ _ => True
  | .claimed _ => True
  | .running _ => True
  | .handled _ _ => True
  | .succeedPending _ _ _ _ => True
  | .succeeded _ => True
  | .marked _ _ => True
  | .nextPending _ _ _ => True
  | .excepted _ _ _ _ => True
  | .failPending _ _ _ _ _ => True
  | .failed _ => True
  | .deadLettering _ => True
  | _ => False

/-- The handler of a row that is inserted, or is going to be. -/
def inserts : Session → Option String
  | .inserting row => some row.handler
  | .marked _ job => some job.handler
  | .nextPending _ _ row => some row.handler
  | _ => none

theorem inserts_of_pendingRow {session : Session} {row : Job} (h : session.pendingRow = some row) :
    session.inserts = some row.handler := by
  unfold pendingRow at h
  split at h <;> cases h <;> rfl

end Session

namespace State

variable {settings : Settings} {jsonb : Jsonb} {s s' : State} {c : CallId} {call : Option CallId}
  {now : Int} {action : Action}

/-! ## What the rows are good for -/

/-- Every row names a handler of the registry, and `mark_failed_attempt` finds its row again. -/
structure Served (s : State) : Prop where
  rows : ∀ jobId row, s.db.jobs.get? jobId = some row → Supported row.handler
  inserts : ∀ c name, (s.sessions c).inserts = some name → Supported name
  failed : ∀ c jobId, s.sessions c = .failed jobId → ∃ row, s.db.jobs.get? jobId = some row

/-- No `UPDATE` touches the handler. -/
theorem Effect.supported (he : Effect s s' call) (h : s.Served) :
    ∀ jobId row, s'.db.jobs.get? jobId = some row → Supported row.handler := by
  intro jobId row' hrow
  have hsame : s'.db.jobs = s.db.jobs → Supported row'.handler := by
    intro hjobs
    rw [hjobs] at hrow
    exact h.rows jobId row' hrow
  have hupdate : ∀ (id : UUID) (assign : Job → Job), (∀ row, (assign row).handler = row.handler) →
      s'.db.jobs = s.db.jobs.modify id assign → Supported row'.handler := by
    intro id assign hkeeps hjobs
    by_cases hid : jobId = id
    · subst hid
      rw [hjobs, Dict.get?_modify_self] at hrow
      obtain ⟨row, hstored, rfl⟩ := Option.map_eq_some_iff.mp hrow
      rw [hkeeps]
      exact h.rows jobId row hstored
    · rw [hjobs, Dict.get?_modify_of_ne _ _ hid] at hrow
      exact h.rows jobId row' hrow
  cases he with
  | idle tables => exact hsame tables.1
  | quiet _ _ tables => exact hsame tables.1
  | reads _ _ _ tables => exact hsame tables.1
  | start _ _ tables => exact hsame tables.1
  | insert c row payload session jobs attempts fresh new moves read held pending history raised
      drawn unkeyed before =>
    by_cases hid : jobId = row.id
    · rw [hid, jobs, Dict.get?_insert_self] at hrow
      cases hrow
      exact h.inserts c row.handler (Session.inserts_of_pendingRow before)
    · rw [jobs, Dict.get?_insert_of_ne _ _ hid] at hrow
      exact h.rows jobId row' hrow
  | claim c row workerId now before fits free jobs =>
    exact hupdate row.id (row.claimAssignments workerId now) (fun _ => rfl) jobs
  | succeed c job row result stored now before jobs =>
    exact hupdate row.id (Job.succeedAssignments stored now) (fun _ => rfl) jobs
  | fail c job succeeded row error now before fits jobs =>
    exact hupdate row.id (row.failAssignments error (backoffSeconds job.attemptCount) now)
      (fun _ => rfl) jobs
  | cancel c row now before jobs => exact hupdate row.id (Job.cancelAssignments now) (fun _ => rfl) jobs

/-- A step is judged by the session it leads to. -/
theorem Served.moves (h : s.Served) (he : Effect s s' call) {session : Session}
    (hmoves : s'.sessions = Function.update s.sessions c session)
    (hinserts : ∀ name, session.inserts = some name → Supported name)
    (hfailed : ∀ jobId, session = .failed jobId → ∃ row, s.db.jobs.get? jobId = some row) :
    s'.Served := by
  refine ⟨he.supported h, ?_, ?_⟩
  · intro d name hname
    rw [hmoves, Function.update_apply] at hname
    split at hname
    · exact hinserts name hname
    · exact h.inserts d name hname
  · intro d jobId hsession
    rw [hmoves, Function.update_apply] at hsession
    have hstored : ∃ row, s.db.jobs.get? jobId = some row := by
      split at hsession
      · exact hfailed jobId hsession
      · exact h.failed d jobId hsession
    obtain ⟨row, hrow⟩ := hstored
    obtain ⟨row', hrow', -⟩ := he.persist hrow
    exact ⟨row', hrow'⟩

/-- … and most sessions neither insert a row nor look for a failed one. -/
theorem Served.quiet (h : s.Served) (he : Effect s s' call) {session : Session}
    (hmoves : s'.sessions = Function.update s.sessions c session) (hinserts : session.inserts = none)
    (hfailed : ∀ jobId, session ≠ .failed jobId) : s'.Served := by
  refine h.moves he hmoves ?_ fun jobId hsession => absurd hsession (hfailed jobId)
  intro name hname
  rw [hinserts] at hname
  cases hname

theorem Served.submit (h : s.Served) {c : CallId} {request : JobCreate} {jobId : UUID}
    (he : Effect s s' call) (hs : s.act settings jsonb now (.submit c request jobId) = some s') :
    s'.Served := by
  simp only [State.act] at hs
  split at hs
  · split at hs
    · cases hs
    · have hs := Option.some.inj hs
      unfold submitJob at hs
      split at hs
      · subst hs
        exact h.quiet he rfl rfl (by simp)
      · rename_i handler hhandler
        split at hs
        · subst hs
          exact h.quiet he rfl rfl (by simp)
        · split at hs
          · subst hs
            exact h.quiet he rfl rfl (by simp)
          · subst hs
            refine h.moves he rfl ?_ (by simp)
            intro name hname
            cases hname
            exact ⟨handler, hhandler⟩
  · cases hs

theorem Served.next (h : s.Served) {c : CallId} {after : Int} {nextJobId : UUID}
    (he : Effect s s' call)
    (hs : s.act settings jsonb now (.next c after nextJobId) = some s') : s'.Served := by
  simp only [State.act] at hs
  split at hs
  · rename_i job succeeded hmarked
    split at hs
    · cases hs
    · have hs := Option.some.inj hs
      unfold State.next at hs
      split at hs
      · subst hs
        exact h.quiet he rfl rfl (by simp)
      · split at hs
        · subst hs
          exact h.quiet he rfl rfl (by simp)
        · subst hs
          refine h.moves he rfl ?_ (by simp)
          intro name hname
          cases hname
          exact h.inserts c succeeded.handler (by rw [hmarked]; rfl)
  · cases hs

/-- **Every step keeps the rows good.** -/
theorem Served.act (h : s.Served) (hinv : s.Inv) (hs : s.act settings jsonb now action = some s') :
    s'.Served := by
  have he := act_effect hinv.toKnown hs
  cases action with
  | submit c request jobId => exact h.submit he hs
  | next c after nextJobId => exact h.next he hs
  | succeedRefresh c =>
    simp only [State.act] at hs
    split at hs
    · split at hs
      · cases hs
        exact h.quiet he rfl rfl (by simp)
      · rename_i job _ _ row hrow
        cases hs
        refine h.moves he rfl ?_ (by simp)
        intro name hname
        cases hname
        unfold refresh at hrow
        split at hrow
        · rename_i row' hstored
          cases hrow
          exact h.rows job.id row hstored
        · cases hrow
    · cases hs
  | failCommit c =>
    simp only [State.act] at hs
    split at hs
    · rename_i job _ read error t hpending
      split at hs
      · cases hs
        exact h.quiet he rfl rfl (by simp)
      · cases hs
        refine h.moves he rfl (by simp [Session.inserts]) ?_
        intro jobId hsession
        cases hsession
        obtain ⟨row, hrow, -⟩ := hinv.read_stored c read (by rw [hpending]; rfl)
        exact ⟨row, hrow⟩
    · cases hs
  | setAvailable available =>
    cases hs
    exact ⟨h.rows, h.inserts, h.failed⟩
  | insertCommit c | reselect c | claimRead c | claimCommit c | claimRefresh c | insertRefresh c
  | publish c | process c | finish c | succeedRead c | succeedCommit c | nextCommit c | failRead c
  | failRefresh c | publishDeadLetter c | cancelRead c | cancelCommit c | cancelRefresh c
  | drainRead c | drainCommit c =>
    simp only [State.act, insertCommit, reselect, claimRead, claimCommit, claimRefresh] at hs
    repeat' split at hs
    all_goals cases hs
    all_goals exact h.quiet he rfl rfl (by simp)

theorem served_of_reachable (h : (Sql.sessions settings jsonb).Reachable Any s) : s.Served := by
  apply h.invariant_of_reachable (I := Served)
  · intro s hs
    have hs : s = State.initial := hs
    subst hs
    refine ⟨?_, ?_, ?_⟩
    · intro jobId row hrow
      cases hrow
    · intro c name hname
      cases hname
    · intro c jobId hsession
      cases hsession
  · intro s label s' hreach hserved _ hs
    exact hserved.act (inv_of_reachable hreach) hs

/-! ## What the broker has nothing to do with -/

theorem Inv.setProducer (h : s.Inv) (producer : FakeJobProducer) :
    Inv { s with producer := producer } where
  toKnown := ⟨h.keyed, h.held_stored, h.new⟩
  exclusive := h.exclusive
  attempts := h.attempts
  read_stored := h.read_stored
  read_current := h.read_current

theorem Served.setProducer (h : s.Served) (producer : FakeJobProducer) :
    Served { s with producer := producer } :=
  ⟨h.rows, h.inserts, h.failed⟩

/-! ## The steps of a `process_job` -/

/-- What a step of a `process_job` must find so as not to raise. -/
def Clear (s : State) : Action → Prop
  /- The commit of `claim_job`: the worker's name fits its column, and the attempt is not there,
     which it is when another call has claimed the job since this one read it. -/
  | .claimCommit c => ∀ read workerId now, s.sessions c = .claimPending read workerId now →
      fitsString 100 workerId = true ∧ s.db.hasAttempt read.id (read.attemptCount + 1) = false
  /- The `except` block: the session is usable. -/
  | .failRead c => ∀ job exc succeeded flushFailed,
      s.sessions c = .excepted job exc succeeded flushFailed → flushFailed = false
  | .failCommit c => ∀ job succeeded read error now,
      s.sessions c = .failPending job succeeded read error now → fitsText error = true
  | .publishDeadLetter _ => s.producer.available = true
  | _ => True

/-- How a `process_job` comes out of a step. -/
inductive Fate (s s' : State) (c : CallId) (action : Action) : Prop where
  | goesOn (clear : s.Clear action) (processing : (s'.sessions c).Processing)
  | returns (clear : s.Clear action) (job : Option JobRecord)
      (returned : s'.sessions c = .returned job)
  | raises (blocked : ¬ s.Clear action) (exc : Exc) (raised : s'.sessions c = .raised exc)

/-- A session other than that of the call stays as it is. -/
theorem Effect.other (he : Effect s s' call) (hother : call ≠ some c) :
    s'.sessions c = s.sessions c := by
  have hmoved : ∀ (d : CallId) (session : Session), call = some d → Moves s s' d session →
      s'.sessions c = s.sessions c := by
    intro d session hcall hmoves
    rcases session_cases hmoves c with ⟨hcd, -⟩ | ⟨-, heq⟩
    · exact absurd (hcd ▸ hcall) hother
    · exact heq
  cases he with
  | idle tables sessions => rw [sessions]
  | quiet d session tables moves => exact hmoved d session rfl moves
  | reads d session row tables moves => exact hmoved d session rfl moves
  | start d job tables moves => exact hmoved d _ rfl moves
  | insert d row payload session jobs attempts fresh new moves => exact hmoved d session rfl moves
  | claim d row workerId now before fits free jobs attempts moves => exact hmoved d _ rfl moves
  | succeed d job row result stored now before jobs attempts moves => exact hmoved d _ rfl moves
  | fail d job succeeded row error now before fits jobs attempts moves => exact hmoved d _ rfl moves
  | cancel d row now before jobs attempts moves => exact hmoved d _ rfl moves

theorem Fate.of_setSession {s₁ : State} {session : Session} (clear : s.Clear action)
    (h : session.Processing ∨ ∃ job, session = .returned job) :
    Fate s (s₁.setSession c session) c action := by
  rcases h with h | ⟨job, rfl⟩
  · exact .goesOn clear (by rwa [sessions_setSession])
  · exact .returns clear job (sessions_setSession ..)

theorem Fate.of_raised {s₁ : State} {exc : Exc} (blocked : ¬ s.Clear action) :
    Fate s (s₁.setSession c (.raised exc)) c action :=
  .raises blocked exc (sessions_setSession ..)

theorem commitClaim_error {db : Database} {read : Job} {workerId : String} {exc : Exc}
    (h : db.commitClaim read workerId now = .error exc) :
    ¬ (fitsString 100 workerId = true ∧ db.hasAttempt read.id (read.attemptCount + 1) = false) := by
  unfold Database.commitClaim at h
  split at h
  · rename_i hfits
    intro hclear
    exact hfits hclear.1
  split at h
  · rename_i htaken
    intro hclear
    rw [hclear.2] at htaken
    cases htaken
  · cases h

theorem commitClaim_fits {db db' : Database} {read : Job} {workerId : String}
    (h : db.commitClaim read workerId now = .ok db') :
    fitsString 100 workerId = true ∧ db.hasAttempt read.id (read.attemptCount + 1) = false := by
  unfold Database.commitClaim at h
  split at h
  · cases h
  rename_i hfits
  split at h
  · cases h
  rename_i hfree
  exact ⟨by simpa using hfits, by simpa using hfree⟩

theorem claimCommit_fate {read : Job} {workerId : String} {t : Int}
    (hcall : s.sessions c = .claimPending read workerId t) :
    Fate s (s.claimCommit c read workerId t) c (.claimCommit c) := by
  unfold claimCommit
  split
  · rename_i exc herror
    apply Fate.of_raised
    intro hclear
    exact commitClaim_error herror (hclear read workerId t hcall)
  · rename_i db hcommit
    have hclear : s.Clear (.claimCommit c) := by
      intro read' workerId' t' hcall'
      rw [hcall] at hcall'
      cases hcall'
      exact commitClaim_fits hcommit
    exact .of_setSession hclear (Or.inl trivial)

/-- The row is there, and the registry knows its handler. -/
theorem claimRefresh_fate (hinv : s.Inv) (hserved : s.Served) {jobId : UUID}
    (hcall : s.sessions c = .claimed jobId) :
    Fate s (s.claimRefresh c jobId) c (.claimRefresh c) := by
  obtain ⟨row, hrefresh, hrow, -⟩ := hinv.refresh (c := c) (j := jobId) (by rw [hcall]; rfl)
  obtain ⟨handler, hhandler⟩ := hserved.rows jobId row hrow
  have hfound : getHandler (recordFromModel row).handler = .ok handler := hhandler
  unfold claimRefresh
  simp only [hrefresh, hfound]
  exact .of_setSession trivial (Or.inl trivial)

theorem failRead_fate (hinv : s.Inv) {job : JobRecord} {exc : Exc}
    {succeeded : Option JobRecord} {flushFailed : Bool}
    (hcall : s.sessions c = .excepted job exc succeeded flushFailed)
    (hs : s.act settings jsonb now (.failRead c) = some s') : Fate s s' c (.failRead c) := by
  have hclear : s.Clear (.failRead c) ↔ flushFailed = false := by
    constructor
    · intro h
      exact h job exc succeeded flushFailed hcall
    · intro h job' exc' succeeded' flushFailed' hcall'
      rw [hcall] at hcall'
      cases hcall'
      exact h
  obtain ⟨row, hrow⟩ := hinv.held_stored c job.id (by rw [hcall]; rfl)
  simp only [act, hcall] at hs
  cases flushFailed with
  | true =>
    cases hs
    exact .of_raised (by simp [hclear])
  | false =>
    simp only [Database.getJob?, hrow] at hs
    cases hs
    exact .of_setSession (hclear.mpr rfl) (Or.inl trivial)

theorem failCommit_fate {job : JobRecord} {succeeded : Option JobRecord} {read : Job}
    {error : String} {t : Int} (hcall : s.sessions c = .failPending job succeeded read error t)
    (hs : s.act settings jsonb now (.failCommit c) = some s') : Fate s s' c (.failCommit c) := by
  have hclear : s.Clear (.failCommit c) ↔ fitsText error = true := by
    constructor
    · intro h
      exact h job succeeded read error t hcall
    · intro h job' succeeded' read' error' t' hcall'
      rw [hcall] at hcall'
      cases hcall'
      exact h
  simp only [act, hcall, Database.commitFailed] at hs
  cases hfits : fitsText error with
  | false =>
    simp only [hfits] at hs
    cases hs
    exact .of_raised (by simp [hclear, hfits])
  | true =>
    simp only [hfits] at hs
    cases hs
    exact .of_setSession (hclear.mpr hfits) (Or.inl trivial)

theorem failRefresh_fate (hserved : s.Served) {jobId : UUID} (hcall : s.sessions c = .failed jobId)
    (hs : s.act settings jsonb now (.failRefresh c) = some s') : Fate s s' c (.failRefresh c) := by
  obtain ⟨row, hrow⟩ := hserved.failed c jobId hcall
  simp only [act, hcall, refresh, Database.getJob?, hrow, Option.some.injEq] at hs
  subst hs
  have hclear : s.Clear (.failRefresh c) := trivial
  apply Fate.of_setSession hclear
  split
  · exact Or.inl trivial
  · exact Or.inr ⟨_, rfl⟩

theorem publishDeadLetter_fate {updated : JobRecord} (hcall : s.sessions c = .deadLettering updated)
    (hs : s.act settings jsonb now (.publishDeadLetter c) = some s') :
    Fate s s' c (.publishDeadLetter c) := by
  simp only [act, hcall, FakeJobProducer.publishDeadLetter] at hs
  cases havailable : s.producer.available with
  | false =>
    simp only [havailable] at hs
    cases hs
    exact .of_raised (by simp [Clear, havailable])
  | true =>
    simp only [havailable] at hs
    cases hs
    exact .of_setSession havailable (Or.inr ⟨_, rfl⟩)

/-- **When `process_job` raises**: in a step that does not find what it needs, and in no other. -/
theorem process_step (hinv : s.Inv) (hserved : s.Served) (hprocessing : (s.sessions c).Processing)
    (hcall : action.call = some c) (hs : s.act settings jsonb now action = some s') :
    Fate s s' c action := by
  cases action with
  | setAvailable => cases hcall
  | submit d | process d | cancelRead d | insertCommit d | reselect d | insertRefresh d | publish d
  | cancelCommit d | cancelRefresh d | drainRead d | drainCommit d =>
    -- No step of a call of another method starts from here.
    cases hcall
    simp only [act] at hs
    split at hs
    · rename_i hsession
      rw [hsession] at hprocessing
      exact hprocessing.elim
    · cases hs
  | claimRead d =>
    cases hcall
    simp only [act] at hs
    split at hs
    · cases hs
      unfold claimRead
      split
      · exact .of_setSession trivial (Or.inr ⟨_, rfl⟩)
      · split
        · exact .of_setSession trivial (Or.inr ⟨_, rfl⟩)
        · exact .of_setSession trivial (Or.inl trivial)
    · cases hs
  | claimCommit d =>
    cases hcall
    simp only [act] at hs
    split at hs
    · rename_i hsession
      cases hs
      exact claimCommit_fate hsession
    · cases hs
  | claimRefresh d =>
    cases hcall
    simp only [act] at hs
    split at hs
    · rename_i hsession
      cases hs
      exact claimRefresh_fate hinv hserved hsession
    · cases hs
  | next d after nextJobId =>
    cases hcall
    simp only [act] at hs
    split at hs
    · split at hs
      · cases hs
      · cases hs
        unfold State.next
        split
        · exact .of_setSession trivial (Or.inr ⟨_, rfl⟩)
        · split <;> exact .of_setSession trivial (Or.inl trivial)
    · cases hs
  | nextCommit d =>
    cases hcall
    simp only [act] at hs
    split at hs
    · split at hs
      · cases hs
        exact .of_setSession trivial (Or.inl trivial)
      · cases hs
        exact .of_setSession trivial (Or.inr ⟨_, rfl⟩)
    · cases hs
  | failRead d =>
    cases hcall
    cases hsession : s.sessions c with
    | excepted => exact failRead_fate hinv hsession hs
    | _ => simp [act, hsession] at hs
  | failCommit d =>
    cases hcall
    cases hsession : s.sessions c with
    | failPending => exact failCommit_fate hsession hs
    | _ => simp [act, hsession] at hs
  | failRefresh d =>
    cases hcall
    cases hsession : s.sessions c with
    | failed => exact failRefresh_fate hserved hsession hs
    | _ => simp [act, hsession] at hs
  | publishDeadLetter d =>
    cases hcall
    cases hsession : s.sessions c with
    | deadLettering => exact publishDeadLetter_fate hsession hs
    | _ => simp [act, hsession] at hs
  | finish d | succeedRead d | succeedCommit d | succeedRefresh d =>
    -- What raises here is caught.
    cases hcall
    simp only [act] at hs
    split at hs
    · split at hs
      all_goals cases hs
      all_goals exact .of_setSession trivial (Or.inl trivial)
    · cases hs

end State

end Sql

end JobPipeline
