import JobPipeline.Sql.Claims

/-!
# Cancellations against claims

A cancellation is not a claim: it inserts no attempt, so nothing makes its read count, and its
`UPDATE` overwrites whatever the row has become. The other way round a claim meets no trace of a
cancellation, because only other claims take attempt numbers. `CancelsHold` is what callers of
`cancel_job` are told; `Undisputed` names the three commits that can break it.
-/

set_option autoImplicit false

namespace JobPipeline

namespace Sql

namespace State

open Transition

variable {settings : Settings} {jsonb : Jsonb} {s s' : State} {c d : CallId} {jobId : UUID}
  {call : Option CallId} {label : Label}

/-- A job whose cancellation is committed is cancelled, and a job whose attempt is running in a
    call is running. -/
structure CancelsHold (s : State) : Prop where
  cancelled : ∀ c jobId, .cancelled c jobId ∈ s.history →
    ∃ row, s.db.getJob? jobId = some row ∧ row.status = .cancelled
  attempting : ∀ c jobId, (s.sessions c).attempting = some jobId →
    ∃ row, s.db.getJob? jobId = some row ∧ row.status = .running

/-- What a commit finds in the row, when it is not one of the following: a claim that goes through
    on a cancelled job, a cancellation of a running job with its call in the middle of the attempt,
    and a failure that is marked after a success and a cancellation. -/
structure Undisputed (s : State) (label : Label) : Prop where
  claim : ∀ c read workerId now, label.action = .claimCommit c →
    s.sessions c = .claimPending read workerId now → fitsString 100 workerId = true →
    s.db.hasAttempt read.id (read.attemptCount + 1) = false →
    ∀ row, s.db.getJob? read.id = some row → row.status ≠ .cancelled
  cancel : ∀ c read now, label.action = .cancelCommit c → s.sessions c = .cancelPending read now →
    ∀ row, s.db.getJob? read.id = some row → row.status = .running →
    ∀ d, (s.sessions d).attempting ≠ some read.id
  fail : ∀ c job succeeded read error now, label.action = .failCommit c →
    s.sessions c = .failPending job (some succeeded) read error now → fitsText error = true →
    ∀ row, s.db.getJob? read.id = some row → row.status ≠ .cancelled

/-! ## What a step does to a status -/

inductive StatusStep (s s' : State) (jobId : UUID) (row row' : Job) : Option CallId → Prop where
  | same {call : Option CallId} (status : row'.status = row.status) :
      StatusStep s s' jobId row row' call
  | claim (c : CallId) (read : Job) (workerId : String) (now : Int)
      (before : s.sessions c = .claimPending read workerId now) (id : read.id = jobId)
      (fits : fitsString 100 workerId = true)
      (free : s.db.hasAttempt read.id (read.attemptCount + 1) = false)
      (status : row'.status = .running) : StatusStep s s' jobId row row' (some c)
  | succeed (c : CallId) (held : (s.sessions c).held = some jobId)
      (attempting : (s.sessions c).attempting = some jobId)
      (after : (s'.sessions c).attempting = none) (status : row'.status = .succeeded) :
      StatusStep s s' jobId row row' (some c)
  | fail (c : CallId) (job : JobRecord) (succeeded : Option JobRecord) (read : Job) (error : String)
      (now : Int) (before : s.sessions c = .failPending job succeeded read error now)
      (id : read.id = jobId) (held : job.id = jobId) (fits : fitsText error = true)
      (after : (s'.sessions c).attempting = none)
      (status : row'.status = .failed ∨ row'.status = .deadLettered) :
      StatusStep s s' jobId row row' (some c)
  | cancel (c : CallId) (read : Job) (now : Int) (before : s.sessions c = .cancelPending read now)
      (id : read.id = jobId) (status : row'.status = .cancelled)
      (history : s'.history = .cancelled c jobId :: s.history) :
      StatusStep s s' jobId row row' (some c)

theorem Effect.status (he : Effect s s' call) (h : s.Inv) {row : Job}
    (hrow : s.db.jobs.get? jobId = some row) :
    ∃ row', s'.db.jobs.get? jobId = some row' ∧ StatusStep s s' jobId row row' call := by
  have hupdate : ∀ {id : UUID} {assign : Job → Job}, s'.db.jobs = s.db.jobs.modify id assign →
      id ≠ jobId → s'.db.jobs.get? jobId = some row := by
    intro id assign hjobs hne
    rw [hjobs, Dict.get?_modify_of_ne _ _ (Ne.symm hne), hrow]
  cases he with
  | idle tables => exact ⟨row, tables.1 ▸ hrow, .same rfl⟩
  | quiet c session tables => exact ⟨row, tables.1 ▸ hrow, .same rfl⟩
  | reads c session read tables => exact ⟨row, tables.1 ▸ hrow, .same rfl⟩
  | start c job tables => exact ⟨row, tables.1 ▸ hrow, .same rfl⟩
  | insert c created payload session jobs attempts fresh =>
    refine ⟨row, ?_, .same rfl⟩
    rw [jobs, Dict.get?_insert_of_ne _ _ (by
      intro hid
      rw [← hid, hrow] at fresh
      cases fresh), hrow]
  | claim c read workerId now before fits free jobs =>
    by_cases hid : read.id = jobId
    · exact ⟨_, get?_of_update (hid ▸ jobs) hrow, .claim c read workerId now before hid fits free rfl⟩
    · exact ⟨row, hupdate jobs hid, .same rfl⟩
  | succeed c job read result stored now before jobs attempts moves =>
    by_cases hid : read.id = jobId
    · obtain ⟨hjob, -⟩ := h.read_current c read job.id (by rw [before]; rfl) (by rw [before]; rfl)
      have heq : s'.sessions c = .succeeded job := by
        rw [show s'.sessions = Function.update s.sessions c _ from moves, Function.update_self]
      refine ⟨_, get?_of_update (hid ▸ jobs) hrow, .succeed c ?_ ?_ (by rw [heq]; rfl) rfl⟩
      · rw [before, ← hid, hjob]
        rfl
      · rw [before, ← hid, hjob]
        rfl
    · exact ⟨row, hupdate jobs hid, .same rfl⟩
  | fail c job succeeded read error now before fits jobs attempts moves =>
    by_cases hid : read.id = jobId
    · obtain ⟨hjob, -⟩ := h.read_current c read job.id (by rw [before]; rfl) (by rw [before]; rfl)
      have heq : s'.sessions c = .failed read.id := by
        rw [show s'.sessions = Function.update s.sessions c _ from moves, Function.update_self]
      refine ⟨_, get?_of_update (hid ▸ jobs) hrow, .fail c job succeeded read error now before hid
        (hjob.symm.trans hid) fits (by rw [heq]; rfl) ?_⟩
      -- What the read said of `max_retries` decides.
      cases hx : read.exhausted with
      | false => exact Or.inl (by simp [Job.failAssignments, hx])
      | true => exact Or.inr (by simp [Job.failAssignments, hx])
    · exact ⟨row, hupdate jobs hid, .same rfl⟩
  | cancel c read now before jobs attempts moves history =>
    by_cases hid : read.id = jobId
    · exact ⟨_, get?_of_update (hid ▸ jobs) hrow, .cancel c read now before hid rfl (hid ▸ history)⟩
    · exact ⟨row, hupdate jobs hid, .same rfl⟩

/-- A cancellation that is new has just been committed. -/
theorem Effect.cancelled (he : Effect s s' call) (hinv : s.Inv)
    (h : .cancelled c jobId ∈ s'.history) :
    .cancelled c jobId ∈ s.history ∨
      ∃ row, s'.db.jobs.get? jobId = some row ∧ row.status = .cancelled := by
  cases he with
  | idle tables sessions history => exact Or.inl (history ▸ h)
  | quiet d session tables moves read held attempting unstarted pending raised talk =>
    obtain ⟨events, heq, hquiet⟩ := talk.events
    rw [heq, List.mem_append] at h
    rcases h with h | h
    · exact absurd (hquiet _ h) id
    · exact Or.inl h
  | reads d session row tables moves read stored claimable owner held attempting history =>
    exact Or.inl (history ▸ h)
  | start d job tables moves before history => exact Or.inl (by simpa [history] using h)
  | insert d row payload session jobs attempts fresh new moves read held pending history =>
    exact Or.inl (by simpa [history] using h)
  | claim d row workerId now before fits free jobs attempts moves history =>
    exact Or.inl (by simpa [history] using h)
  | succeed d job row result stored now before jobs attempts moves history =>
    exact Or.inl (history ▸ h)
  | fail d job succeeded row error now before fits jobs attempts moves history =>
    exact Or.inl (history ▸ h)
  | cancel d row now before jobs attempts moves history =>
    rw [history, List.mem_cons] at h
    rcases h with h | h
    · cases h
      obtain ⟨stored, hstored, -⟩ := hinv.read_stored c row (by rw [before]; rfl)
      exact Or.inr ⟨_, get?_of_update jobs hstored, rfl⟩
    · exact Or.inl h

/-- A job that a call is attempting after the step, it was attempting before or has just claimed. -/
theorem Effect.attempting (he : Effect s s' call) (hinv : s.Inv)
    (h : (s'.sessions c).attempting = some jobId) :
    (s.sessions c).attempting = some jobId ∨
      ∃ row, s'.db.jobs.get? jobId = some row ∧ row.status = .running := by
  have hmoved : ∀ (d : CallId) (session : Session), Moves s s' d session →
      (session.attempting = none ∨ session.attempting = (s.sessions d).attempting) →
      (s.sessions c).attempting = some jobId := by
    intro d session hmoves hsession
    rcases session_cases hmoves c with ⟨hcd, heq⟩ | ⟨-, heq⟩
    · subst hcd
      rw [heq] at h
      rcases hsession with hnone | hsame
      · rw [hnone] at h
        cases h
      · exact hsame ▸ h
    · exact heq ▸ h
  cases he with
  | idle tables sessions => exact Or.inl (sessions ▸ h)
  | quiet d session tables moves read held attempting =>
    exact Or.inl (hmoved d session moves attempting)
  | reads d session row tables moves read stored claimable owner held attempting =>
    exact Or.inl (hmoved d session moves (Or.inr attempting))
  | start d job tables moves before =>
    exact Or.inl (hmoved d _ moves (Or.inr (by rw [before]; rfl)))
  | insert d row payload session jobs attempts fresh new moves read held =>
    exact Or.inl (hmoved d session moves (Or.inl (Session.attempting_of_unheld held)))
  | claim d row workerId now before fits free jobs attempts moves =>
    rcases session_cases moves c with ⟨-, heq⟩ | ⟨-, heq⟩
    · rw [heq] at h
      cases h
      obtain ⟨stored, hstored, -⟩ := hinv.read_stored d row (by rw [before]; rfl)
      exact Or.inr ⟨_, get?_of_update jobs hstored, rfl⟩
    · exact Or.inl (heq ▸ h)
  | succeed d job row result stored now before jobs attempts moves =>
    exact Or.inl (hmoved d _ moves (Or.inl rfl))
  | fail d job succeeded row error now before fits jobs attempts moves =>
    exact Or.inl (hmoved d _ moves (Or.inl rfl))
  | cancel d row now before jobs attempts moves => exact Or.inl (hmoved d _ moves (Or.inl rfl))

/-! ## The law and its condition -/

theorem act_of_cancelPending {read : Job} {now : Int}
    (h : s.step settings jsonb label = some s') (hcall : label.action.call = some c)
    (hpending : s.sessions c = .cancelPending read now) : label.action = .cancelCommit c := by
  obtain ⟨t, action⟩ := label
  cases action <;> cases hcall <;>
    first | rfl | exact absurd h (by simp [State.step, act, hpending])

theorem act_of_failPending {job : JobRecord} {succeeded : Option JobRecord} {read : Job}
    {error : String} {now : Int} (h : s.step settings jsonb label = some s')
    (hcall : label.action.call = some c)
    (hpending : s.sessions c = .failPending job succeeded read error now) :
    label.action = .failCommit c := by
  obtain ⟨t, action⟩ := label
  cases action <;> cases hcall <;>
    first | rfl | exact absurd h (by simp [State.step, act, hpending])

/-- The commit of a claim that goes through. -/
theorem jobs_of_claimCommit {read : Job} {workerId : String} {t now : Int}
    (hpending : s.sessions c = .claimPending read workerId now)
    (hfits : fitsString 100 workerId = true)
    (hfree : s.db.hasAttempt read.id (read.attemptCount + 1) = false)
    (hs : s.step settings jsonb ⟨t, .claimCommit c⟩ = some s') :
    s'.db.jobs = s.db.jobs.modify read.id (read.claimAssignments workerId now) := by
  simp only [State.step, act, hpending, claimCommit, Database.commitClaim, hfits, hfree] at hs
  cases hs
  rfl

/-- The commit of a failure that goes through. -/
theorem jobs_of_failCommit {job : JobRecord} {succeeded : Option JobRecord} {read : Job}
    {error : String} {t now : Int}
    (hpending : s.sessions c = .failPending job succeeded read error now)
    (hfits : fitsText error = true) (hs : s.step settings jsonb ⟨t, .failCommit c⟩ = some s') :
    s'.db.jobs = s.db.jobs.modify read.id
      (read.failAssignments error (backoffSeconds job.attemptCount) now) := by
  simp only [State.step, act, hpending, Database.commitFailed, hfits] at hs
  cases hs
  rfl

/-- **An undisputed step keeps the law.** -/
theorem CancelsHold.step (h : s.CancelsHold) (hinv : s.Inv)
    (hs : s.step settings jsonb label = some s') (hok : Undisputed s label) : s'.CancelsHold := by
  have he := act_effect hinv.toKnown hs
  generalize hcall : label.action.call = call at he
  constructor
  · intro c jobId hmem
    rcases he.cancelled hinv hmem with hmem | hnew
    · obtain ⟨row, hrow, hstatus⟩ := h.cancelled c jobId hmem
      obtain ⟨row', hrow', hstep⟩ := he.status hinv hrow
      refine ⟨row', hrow', ?_⟩
      -- A job that is being attempted is running, and this one is cancelled.
      have hidle : ∀ d, (s.sessions d).attempting ≠ some jobId := by
        intro d hd
        obtain ⟨running, hrunning, hstatus'⟩ := h.attempting d jobId hd
        rw [hrow] at hrunning
        cases hrunning
        rw [hstatus] at hstatus'
        cases hstatus'
      cases hstep with
      | same heq => rw [heq, hstatus]
      | claim d read workerId now before hid fits free =>
        exact absurd hstatus (hok.claim d read workerId now
          (act_of_claimPending hs hcall before) before fits free row (hid ▸ hrow))
      | succeed d held attempting => exact absurd attempting (hidle d)
      | fail d job succeeded read error now before hid held fits =>
        cases succeeded with
        | none => exact absurd (by rw [before, ← held]; rfl) (hidle d)
        | some succeeded =>
          exact absurd hstatus (hok.fail d job succeeded read error now
            (act_of_failPending hs hcall before) before fits row (hid ▸ hrow))
      | cancel d read now before hid heq => exact heq
    · exact hnew
  · intro c jobId hattempting
    rcases he.attempting hinv hattempting with hbefore | hnew
    · obtain ⟨row, hrow, hstatus⟩ := h.attempting c jobId hbefore
      obtain ⟨row', hrow', hstep⟩ := he.status hinv hrow
      refine ⟨row', hrow', ?_⟩
      -- A mark would be by the holder, which is the call that is attempting it.
      have hheld := Session.held_of_attempting hbefore
      cases hstep with
      | same heq => rw [heq, hstatus]
      | claim d read workerId now before hid fits free heq => exact heq
      | succeed d held attempting after =>
        rw [hinv.holder_unique held hheld, hattempting] at after
        cases after
      | fail d job succeeded read error now before hid held fits after =>
        have heq : d = c := hinv.holder_unique (by rw [before, ← held]; rfl) hheld
        rw [heq, hattempting] at after
        cases after
      | cancel d read now before hid =>
        exact absurd (hid ▸ hbefore) (hok.cancel d read now (act_of_cancelPending hs hcall before)
          before row (hid ▸ hrow) hstatus c)
    · exact hnew

/-- A cancelled row was cancelled. -/
def CancelledKnown (s : State) : Prop :=
  ∀ jobId row, s.db.jobs.get? jobId = some row → row.status = .cancelled →
    ∃ c, .cancelled c jobId ∈ s.history

theorem CancelledKnown.step (h : s.CancelledKnown) (hinv : s.Inv) (he : Effect s s' call) :
    s'.CancelledKnown := by
  intro jobId row' hrow' hstatus
  rcases he.stored hrow' with ⟨row, hrow, -⟩ | ⟨-, hnew, -⟩
  · obtain ⟨row'', hrow'', hstep⟩ := he.status hinv hrow
    rw [hrow'] at hrow''
    cases hrow''
    cases hstep with
    | same heq =>
      obtain ⟨c, hmem⟩ := h jobId row hrow (heq ▸ hstatus)
      exact ⟨c, he.history_mem hmem⟩
    | claim _ _ _ _ _ _ _ _ heq => exact absurd (heq.symm.trans hstatus) (by simp)
    | succeed _ _ _ _ heq => exact absurd (heq.symm.trans hstatus) (by simp)
    | fail _ _ _ _ _ _ _ _ _ _ _ heq =>
      rcases heq with heq | heq <;> exact absurd (heq.symm.trans hstatus) (by simp)
    | cancel c _ _ _ _ _ history => exact ⟨c, by rw [history]; exact List.mem_cons_self⟩
  · exact absurd (hnew.1.symm.trans hstatus) (by simp)

theorem cancelledKnown_of_reachable (h : (Sql.sessions settings jsonb).Reachable Any s) :
    s.CancelledKnown := by
  apply h.invariant_of_reachable (I := CancelledKnown)
  · intro s hs
    have hs : s = State.initial := hs
    subst hs
    intro jobId row hrow
    exact absurd hrow (by simp [State.initial, Database.empty])
  · intro s label s' hreach hknown _ hs
    have hinv := inv_of_reachable hreach
    exact hknown.step hinv (act_effect hinv.toKnown hs)

/-- **A step that keeps the law is undisputed.** -/
theorem CancelsHold.undisputed (hinv : s.Inv) (hknown : s.CancelledKnown)
    (hs : s.step settings jsonb label = some s') (h' : s'.CancelsHold) : Undisputed s label := by
  have he := act_effect hinv.toKnown hs
  -- Whoever was cancelled is cancelled still, whatever the step wrote.
  have hstays : ∀ {jobId : UUID} {row row' : Job}, s.db.jobs.get? jobId = some row →
      row.status = .cancelled → s'.db.jobs.get? jobId = some row' → row'.status = .cancelled := by
    intro jobId row row' hrow hstatus hrow'
    obtain ⟨c, hmem⟩ := hknown jobId row hrow hstatus
    obtain ⟨row'', hrow'', hstatus''⟩ := h'.cancelled c jobId (he.history_mem hmem)
    have heq : some row' = some row'' := hrow'.symm.trans hrow''
    cases heq
    exact hstatus''
  obtain ⟨t, action⟩ := label
  constructor
  · intro c read workerId now haction hpending hfits hfree row hrow hstatus
    subst haction
    have hjobs := jobs_of_claimCommit hpending hfits hfree hs
    have := hstays hrow hstatus (get?_of_update hjobs hrow)
    cases this
  · intro c read now haction hpending row hrow hstatus d hd
    subst haction
    have hs' : s' = ((s.commit (s.db.commitCancelled read now)).note (.cancelled c read.id)).setSession
        c (.cancelling read.id) := by
      simp only [State.step, act, hpending] at hs
      exact (Option.some.inj hs).symm
    have hjobs : s'.db.jobs = s.db.jobs.modify read.id (Job.cancelAssignments now) := by
      rw [hs']
      rfl
    have hne : d ≠ c := by
      intro heq
      rw [heq, hpending] at hd
      cases hd
    have hd' : (s'.sessions d).attempting = some read.id := by
      rw [hs']
      simpa [setSession, hne, note, commit] using hd
    obtain ⟨row', hrow', hstatus'⟩ := h'.attempting d read.id hd'
    have heq : some row' = some (Job.cancelAssignments now row) :=
      hrow'.symm.trans (get?_of_update hjobs hrow)
    cases heq
    cases hstatus'
  · intro c job succeeded read error now haction hpending hfits row hrow hstatus
    subst haction
    have hjobs := jobs_of_failCommit hpending hfits hs
    have := hstays hrow hstatus (get?_of_update hjobs hrow)
    cases hx : read.exhausted <;> simp [Job.failAssignments, hx] at this

theorem cancelsHold_of_reachable (h : (Sql.sessions settings jsonb).Reachable Undisputed s) :
    s.CancelsHold := by
  apply h.invariant_of_reachable (I := CancelsHold)
  · intro s hs
    have hs : s = State.initial := hs
    subst hs
    constructor
    · intro c jobId hmem
      cases hmem
    · intro c jobId hattempting
      cases hattempting
  · intro s label s' hreach hhold hok hs
    exact hhold.step (inv_of_reachable hreach.any) hs hok

/-- **Cancel and claim exclude each other as long as no disputed commit happens**: a job whose
    cancellation is committed is cancelled and nobody is attempting it, a job that is being
    attempted is running, and the next step keeps it so exactly if it is undisputed. -/
theorem cancel_excludes_claim (h : (Sql.sessions settings jsonb).Reachable Undisputed s) :
    (∀ c jobId, .cancelled c jobId ∈ s.history →
        (∃ row, s.db.getJob? jobId = some row ∧ row.status = .cancelled) ∧
        ∀ d, (s.sessions d).attempting ≠ some jobId) ∧
      (∀ c jobId, (s.sessions c).attempting = some jobId →
        ∃ row, s.db.getJob? jobId = some row ∧ row.status = .running) ∧
      ∀ label s', s.step settings jsonb label = some s' → (s'.CancelsHold ↔ Undisputed s label) := by
  have hhold := cancelsHold_of_reachable h
  have hinv := inv_of_reachable h.any
  refine ⟨?_, hhold.attempting, ?_⟩
  · intro c jobId hmem
    obtain ⟨row, hrow, hstatus⟩ := hhold.cancelled c jobId hmem
    refine ⟨⟨row, hrow, hstatus⟩, ?_⟩
    intro d hd
    obtain ⟨row', hrow', hstatus'⟩ := hhold.attempting d jobId hd
    rw [hrow] at hrow'
    cases hrow'
    rw [hstatus] at hstatus'
    cases hstatus'
  · intro label s' hs
    constructor
    · exact CancelsHold.undisputed hinv (cancelledKnown_of_reachable h.any) hs
    · exact hhold.step hinv hs

/-- A new job, a worker and a client that have both read it. -/
def cancelRace : List Label :=
  [⟨0, .submit 0 Sample.request Sample.jobId⟩, ⟨0, .insertCommit 0⟩,
    ⟨0, .process 1 Sample.jobId "worker-1"⟩, ⟨0, .claimRead 1⟩, ⟨0, .cancelRead 2 Sample.jobId⟩]

/-- The client commits first. -/
theorem cancel_excludes_claim_of_first : ∃ s row, (Sql.sessions {} some).Reachable Undisputed s ∧
    s.sessions 2 = .cancelling Sample.jobId ∧ s.db.getJob? Sample.jobId = some row ∧
      row.status = .cancelled := by
  have hrun : ∃ s s' read, System.replay (State.step {} some) State.initial cancelRace = some s ∧
      State.step {} some s ⟨0, .cancelCommit 2⟩ = some s' ∧
      s.sessions 2 = .cancelPending read 0 ∧ s.db.getJob? read.id = some read ∧
      read.status = .queued ∧ s'.sessions 2 = .cancelling Sample.jobId ∧
      s'.history[0]? = some (.cancelled 2 Sample.jobId) :=
    ⟨_, _, _, rfl, rfl, rfl, rfl, rfl, rfl, rfl⟩
  obtain ⟨s, s', read, hs, hs', hpending, hstored, hstatus, hafter, hmem⟩ := hrun
  have hreach : (Sql.sessions {} some).Reachable Undisputed s := by
    refine ⟨State.initial, rfl, System.Steps.of_replay hs ?_⟩
    intro label hlabel s
    simp only [cancelRace, List.mem_cons, List.not_mem_nil, or_false] at hlabel
    constructor <;> intros <;> rcases hlabel with rfl | rfl | rfl | rfl | rfl <;> contradiction
  have hok : Undisputed s ⟨0, .cancelCommit 2⟩ := by
    constructor
    · intro c read workerId now haction
      cases haction
    · intro c read' now haction hpending' row hrow hrunning
      cases haction
      rw [hpending] at hpending'
      cases hpending'
      rw [hstored] at hrow
      cases hrow
      rw [hstatus] at hrunning
      cases hrunning
    · intro c job succeeded read error now haction
      cases haction
  have hreach' := hreach.tail hok hs'
  obtain ⟨⟨row, hrow, hcancelled⟩, -⟩ :=
    (cancel_excludes_claim hreach').1 2 Sample.jobId (List.mem_of_getElem? hmem)
  exact ⟨s', row, hreach', hafter, hrow, hcancelled⟩

/-- **A cancelled job that runs, and a running job that is cancelled**: after both have read the
    job, either order of the two commits lets both succeed. -/
theorem cancel_and_claim_succeed :
    (∃ s job job' row, (Sql.sessions {} some).Reachable Any s ∧
      s.sessions 2 = .cancelled job ∧ job.status = .cancelled ∧
      s.history[0]? = some (.started 1 Sample.jobId) ∧ s.sessions 1 = .running job' ∧
      s.db.getJob? Sample.jobId = some row ∧ row.status = .running) ∧
    ∃ s job job' row, (Sql.sessions {} some).Reachable Any s ∧
      s.sessions 1 = .running job' ∧ job'.status = .running ∧ s.sessions 2 = .cancelled job ∧
      job.status = .cancelled ∧ s.db.getJob? Sample.jobId = some row ∧ row.status = .cancelled := by
  have hfirst : ∃ s job job' row, System.replay (State.step {} some) State.initial
        (cancelRace ++ [⟨0, .cancelCommit 2⟩, ⟨0, .cancelRefresh 2⟩, ⟨0, .claimCommit 1⟩,
          ⟨0, .claimRefresh 1⟩]) = some s ∧
      s.sessions 2 = .cancelled job ∧ job.status = .cancelled ∧
      s.history[0]? = some (.started 1 Sample.jobId) ∧ s.sessions 1 = .running job' ∧
      s.db.getJob? Sample.jobId = some row ∧ row.status = .running :=
    ⟨_, _, _, _, rfl, rfl, rfl, rfl, rfl, rfl, rfl⟩
  have hsecond : ∃ s job job' row, System.replay (State.step {} some) State.initial
        (cancelRace ++ [⟨0, .claimCommit 1⟩, ⟨0, .claimRefresh 1⟩, ⟨0, .cancelCommit 2⟩,
          ⟨0, .cancelRefresh 2⟩]) = some s ∧
      s.sessions 1 = .running job' ∧ job'.status = .running ∧ s.sessions 2 = .cancelled job ∧
      job.status = .cancelled ∧ s.db.getJob? Sample.jobId = some row ∧ row.status = .cancelled :=
    ⟨_, _, _, _, rfl, rfl, rfl, rfl, rfl, rfl, rfl⟩
  obtain ⟨s, job, job', row, hs, hrest⟩ := hfirst
  obtain ⟨t, job₂, job₂', row₂, ht, hrest₂⟩ := hsecond
  exact ⟨⟨s, job, job', row, ⟨State.initial, rfl, System.Steps.of_replay hs fun _ _ _ => trivial⟩,
      hrest⟩, ⟨t, job₂, job₂', row₂,
      ⟨State.initial, rfl, System.Steps.of_replay ht fun _ _ _ => trivial⟩, hrest₂⟩⟩

end State

end Sql

end JobPipeline
