import JobPipeline.Sql.Claims

/-!
# Draining

`claim_job` reads the drain flag before it reads the job, and neither `set_drain` nor the flag takes
part in its commit. So turning drain on does not stop the calls that have passed the flag: each of
them may still claim its job, once, and start its handler. No other call claims or starts anything
until drain is turned off, however the sessions interleave.

`set_drain` itself loads the setting and commits later. The first row is inserted by one call, and a
second one that has loaded none raises; and a call that has loaded the flag as it wants it leaves the
flag alone, though another call may have turned it in between.
-/

set_option autoImplicit false

namespace JobPipeline

namespace Sql

/-- The job of a `claim_job` that has passed the drain flag and has not committed. -/
def Session.claims : Session → Option UUID
  | .claiming jobId _ => some jobId
  | .claimPending read _ _ => some read.id
  | _ => none

/-- The call of a committed claim. -/
def Event.claimant : Event → Option CallId
  | .claimed c _ => some c
  | _ => none

theorem Event.claimant_of_quiet {e : Event} (h : e.Quiet) : e.claimant = none := by
  cases e with
  | requested | answered | published => rfl
  | inserted | claimed | started | cancelled => cases h

namespace State

open Transition

variable {settings : Settings} {jsonb : Jsonb} {s₀ s s' : State} {c : CallId} {jobId : UUID}
  {now : Int} {action : Action}

/-! ## The flag -/

theorem opsSettings_insertJob {db db' : Database} {row : Job} (h : db.insertJob jsonb row = .ok db') :
    db'.opsSettings = db.opsSettings := by
  obtain ⟨-, -, payload, rfl⟩ := insertJob_ok h
  rfl

theorem opsSettings_commitClaim {db db' : Database} {read : Job} {workerId : String}
    (h : db.commitClaim read workerId now = .ok db') : db'.opsSettings = db.opsSettings := by
  unfold Database.commitClaim at h
  repeat' split at h
  all_goals cases h
  rfl

theorem opsSettings_commitSucceeded {db db' : Database} {read : Job} {result : JsonObject}
    (h : db.commitSucceeded jsonb read result now = .ok db') : db'.opsSettings = db.opsSettings := by
  unfold Database.commitSucceeded at h
  split at h <;> cases h
  rfl

theorem opsSettings_commitFailed {db db' : Database} {read : Job} {error : String} {backoff : Int}
    (h : db.commitFailed read error backoff now = .ok db') : db'.opsSettings = db.opsSettings := by
  unfold Database.commitFailed at h
  split at h <;> cases h
  rfl

/-- Once there is a setting, only a call that has loaded one commits, and it assigns the setting as it
    is now. -/
theorem drainSetting_commitDrain {db db' : Database} {loaded : Option OpsSetting} {enabled : Bool}
    {row : OpsSetting} (hrow : db.drainSetting? = some row)
    (h : db.commitDrain loaded enabled now = .ok db') :
    ∃ read, loaded = some read ∧
      db'.drainSetting? = some (read.drainAssignments enabled now row) := by
  unfold Database.drainSetting? at hrow
  unfold Database.commitDrain at h
  split at h
  · simp only [Dict.contains, hrow, Option.isSome_some, if_true] at h
    cases h
  · rename_i read
    cases h
    exact ⟨read, rfl, by simp only [Database.drainSetting?, Dict.get?_modify_self, hrow,
      Option.map_some]⟩

/-- The commit of `set_drain(enabled)` sets the flag, but for a call that has loaded the flag as it
    wants it: that one leaves the flag as it is now, whoever has turned it since. -/
theorem getDrain_commitDrain {db db' : Database} {loaded : Option OpsSetting} {enabled : Bool}
    {row : OpsSetting} (hrow : db.drainSetting? = some row)
    (h : db.commitDrain loaded enabled now = .ok db') :
    ∃ read, loaded = some read ∧
      db'.getDrain = if read.holds enabled then db.getDrain else enabled := by
  obtain ⟨read, rfl, hassigned⟩ := drainSetting_commitDrain hrow h
  refine ⟨read, rfl, ?_⟩
  cases hholds : read.holds enabled with
  | true =>
    simp only [Database.getDrain, hassigned, hrow, OpsSetting.drainAssignments, hholds, if_true]
  | false =>
    simp only [Database.getDrain, hassigned, OpsSetting.drainAssignments, hholds]
    cases enabled <;> rfl

theorem drainSetting_of_getDrain {db : Database} (h : db.getDrain = true) :
    ∃ row, db.drainSetting? = some row := by
  unfold Database.getDrain at h
  split at h
  · cases h
  · exact ⟨_, ‹_›⟩

/-- Only `set_drain` writes the flag. -/
theorem opsSettings_of_act (hs : s.act settings jsonb now action = some s')
    (hok : ∀ c, action ≠ .drainCommit c) : s'.db.opsSettings = s.db.opsSettings := by
  cases action with
  | drainCommit c => exact absurd rfl (hok c)
  | submit c request jobId =>
    simp only [State.act, submitJob] at hs
    repeat' split at hs
    all_goals cases hs
    all_goals rfl
  | next c after nextJobId =>
    simp only [State.act, State.next] at hs
    repeat' split at hs
    all_goals cases hs
    all_goals rfl
  | insertCommit c =>
    simp only [State.act, insertCommit] at hs
    repeat' split at hs
    all_goals cases hs
    · rename_i hinsert
      exact opsSettings_insertJob hinsert
    all_goals rfl
  | nextCommit c =>
    simp only [State.act] at hs
    repeat' split at hs
    all_goals cases hs
    · rfl
    · rename_i hinsert
      exact opsSettings_insertJob hinsert
  | claimCommit c =>
    simp only [State.act, claimCommit] at hs
    repeat' split at hs
    all_goals cases hs
    · rfl
    · rename_i hcommit
      exact opsSettings_commitClaim hcommit
  | succeedCommit c =>
    simp only [State.act] at hs
    repeat' split at hs
    all_goals cases hs
    · rfl
    · rename_i hcommit
      exact opsSettings_commitSucceeded hcommit
  | failCommit c =>
    simp only [State.act] at hs
    repeat' split at hs
    all_goals cases hs
    · rfl
    · rename_i hcommit
      exact opsSettings_commitFailed hcommit
  -- These read, or assign to `jobs`.
  | reselect c | claimRead c | claimRefresh c | insertRefresh c | publish c | process c | finish c
  | succeedRead c | succeedRefresh c | failRead c | failRefresh c | publishDeadLetter c
  | cancelRead c | cancelCommit c | cancelRefresh c | drainRead c | setAvailable =>
    simp only [State.act, reselect, claimRead, claimRefresh] at hs
    repeat' split at hs
    all_goals cases hs
    all_goals rfl

/-- The setting is never deleted. -/
theorem drainSetting_of_act (hs : s.act settings jsonb now action = some s') {row : OpsSetting}
    (hrow : s.db.drainSetting? = some row) : ∃ row', s'.db.drainSetting? = some row' := by
  by_cases hcommits : ∃ c, action = .drainCommit c
  · obtain ⟨c, rfl⟩ := hcommits
    simp only [State.act] at hs
    split at hs
    · split at hs
      · cases hs
        exact ⟨row, hrow⟩
      · rename_i db hcommit
        cases hs
        obtain ⟨read, -, hassigned⟩ := drainSetting_commitDrain hrow hcommit
        exact ⟨_, hassigned⟩
    · cases hs
  · have hsame := opsSettings_of_act hs fun c heq => hcommits ⟨c, heq⟩
    exact ⟨row, by rw [Database.drainSetting?, hsame]; exact hrow⟩

/-- A `set_drain` that is about to commit has looked the setting up. -/
theorem drainPending_of_act (hs : s.act settings jsonb now action = some s')
    {loaded : Option OpsSetting} {enabled : Bool} {t : Int}
    (h : s'.sessions c = .drainPending loaded enabled t) :
    s.sessions c = .drainPending loaded enabled t ∨
      loaded = s.db.drainSetting? ∧ s'.db = s.db := by
  rcases entered_of_act hs c with heq | hentered
  · exact .inl (heq.symm.trans h)
  · rw [h] at hentered
    obtain ⟨d, wanted, rfl⟩ := hentered
    simp only [State.act] at hs
    split at hs
    · cases hs
      rcases session_of_setSession h with ⟨rfl, heq⟩ | hbefore
      · cases heq
        exact .inr ⟨rfl, rfl⟩
      · exact .inl hbefore
    · cases hs

/-- The step does not commit a `set_drain(False)`. -/
def KeepsDrain (s : State) (label : Label) : Prop :=
  ∀ c loaded now, label.action = .drainCommit c → s.sessions c ≠ .drainPending loaded false now

/-- Then drain stays on. -/
theorem getDrain_of_act (hs : s.act settings jsonb now action = some s')
    (hdrain : s.db.getDrain = true) (hkeeps : KeepsDrain s ⟨now, action⟩) :
    s'.db.getDrain = true := by
  by_cases hcommits : ∃ c, action = .drainCommit c
  · obtain ⟨c, rfl⟩ := hcommits
    simp only [State.act] at hs
    split at hs
    · rename_i loaded enabled t hcall
      split at hs
      · cases hs
        exact hdrain
      · rename_i db hcommit
        cases hs
        obtain ⟨row, hrow⟩ := drainSetting_of_getDrain hdrain
        obtain ⟨read, -, hgetDrain⟩ := getDrain_commitDrain hrow hcommit
        have henabled : enabled = true := by
          cases enabled with
          | true => rfl
          | false => exact absurd hcall (hkeeps c loaded t rfl)
        -- What an `UPDATE` leaves out of the row is on already.
        show db.getDrain = true
        rw [hgetDrain, hdrain, henabled, ite_self]
    · cases hs
  · have hsame := opsSettings_of_act hs fun c heq => hcommits ⟨c, heq⟩
    rw [← hdrain]
    simp only [Database.getDrain, Database.drainSetting?, hsame]

/-- While drain is on, no call comes to claim a job that it was not claiming. -/
theorem claims_of_act (hknown : s.Known) (hs : s.act settings jsonb now action = some s')
    (hdrain : s.db.getDrain = true) (h : (s'.sessions c).claims = some jobId) :
    (s.sessions c).claims = some jobId := by
  have hmoves : ∀ {d : CallId} {session : Session},
      s'.sessions = Function.update s.sessions d session →
      (session.claims = none ∨ session.claims = (s.sessions d).claims) →
      (s.sessions c).claims = some jobId := by
    intro d session hmoves hsession
    rcases session_cases (c := d) hmoves c with ⟨rfl, heq⟩ | ⟨-, heq⟩
    · rw [heq] at h
      rcases hsession with hnone | hsame
      · rw [hnone] at h
        cases h
      · rwa [hsame] at h
    · rwa [heq] at h
  cases action with
  | process d jobId' workerId =>
    simp only [State.act, hdrain, if_true] at hs
    split at hs
    · cases hs
      exact hmoves (d := d) rfl (.inl rfl)
    · cases hs
  -- The flag was looked up one step earlier, so the call was on its way to claim.
  | claimRead d =>
    simp only [State.act, claimRead] at hs
    split at hs
    · rename_i jobId' workerId hcall
      repeat' split at hs
      all_goals cases hs
      · exact hmoves (d := d) rfl (.inl rfl)
      · exact hmoves (d := d) rfl (.inl rfl)
      · rename_i row hrow _
        have hid : row.id = jobId' := hknown.keyed jobId' row hrow
        exact hmoves (d := d) rfl (.inr (by rw [hcall, ← hid]; rfl))
    · cases hs
  | setAvailable available =>
    cases hs
    exact h
  | submit d request jobId' =>
    simp only [State.act, submitJob] at hs
    repeat' split at hs
    all_goals cases hs
    all_goals exact hmoves (d := d) rfl (.inl rfl)
  | next d after nextJobId =>
    simp only [State.act, State.next] at hs
    repeat' split at hs
    all_goals cases hs
    all_goals exact hmoves (d := d) rfl (.inl rfl)
  | insertCommit d | reselect d | claimCommit d | claimRefresh d | insertRefresh d | publish d
  | finish d | succeedRead d | succeedCommit d | succeedRefresh d | nextCommit d | failRead d
  | failCommit d | failRefresh d | publishDeadLetter d | cancelRead d | cancelCommit d
  | cancelRefresh d | drainRead d | drainCommit d =>
    simp only [State.act, insertCommit, reselect, claimCommit, claimRefresh] at hs
    repeat' split at hs
    all_goals cases hs
    all_goals exact hmoves (d := d) rfl (.inl rfl)

/-! ## After drain is turned on -/

/-- What has happened since drain was turned on at `s₀`. -/
structure Drains (s₀ s : State) (events : List Event) : Prop where
  drain : s.db.getDrain = true
  history : s.history = events ++ s₀.history
  claims : ∀ c jobId, (s.sessions c).claims = some jobId →
    (s₀.sessions c).claims = some jobId ∧ c ∉ events.filterMap Event.claimant
  claimed : ∀ c jobId, s.sessions c = .claimed jobId →
    s₀.sessions c = .claimed jobId ∨ (s₀.sessions c).claims = some jobId
  claimed_events : ∀ c jobId, .claimed c jobId ∈ events → (s₀.sessions c).claims = some jobId
  started_events : ∀ c jobId, .started c jobId ∈ events →
    s₀.sessions c = .claimed jobId ∨ (s₀.sessions c).claims = some jobId
  once : (events.filterMap Event.claimant).Nodup

/-- A step that claims nothing and starts nothing. -/
theorem Drains.quiet {events new : List Event} (h : Drains s₀ s events) (hinv : s.Inv)
    (hs : s.act settings jsonb now action = some s') (hdrain : s'.db.getDrain = true)
    (hhistory : s'.history = new ++ s.history) (hclaimant : ∀ e ∈ new, e.claimant = none)
    (hstart : ∀ c jobId, .started c jobId ∉ new)
    (hclaimed : ∀ c jobId, s'.sessions c = .claimed jobId → s.sessions c = .claimed jobId) :
    Drains s₀ s' (new ++ events) := by
  have hnone : new.filterMap Event.claimant = [] := by
    rw [List.filterMap_eq_nil_iff]
    exact hclaimant
  constructor
  · exact hdrain
  · rw [hhistory, h.history, List.append_assoc]
  · intro c jobId hclaims
    rw [List.filterMap_append, hnone, List.nil_append]
    exact h.claims c jobId (claims_of_act hinv.toKnown hs h.drain hclaims)
  · intro c jobId hsession
    exact h.claimed c jobId (hclaimed c jobId hsession)
  · intro c jobId hmem
    rcases List.mem_append.mp hmem with hmem | hmem
    · exact absurd (hclaimant _ hmem) (by simp [Event.claimant])
    · exact h.claimed_events c jobId hmem
  · intro c jobId hmem
    rcases List.mem_append.mp hmem with hmem | hmem
    · exact absurd hmem (hstart c jobId)
    · exact h.started_events c jobId hmem
  · rw [List.filterMap_append, hnone, List.nil_append]
    exact h.once

/-- The claim of a call that had passed the flag. -/
theorem Drains.claim {events : List Event} (h : Drains s₀ s events) (hinv : s.Inv)
    (hs : s.act settings jsonb now action = some s') (hdrain : s'.db.getDrain = true)
    (hclaims : (s.sessions c).claims = some jobId) (hmoves : Moves s s' c (.claimed jobId))
    (hhistory : s'.history = .claimed c jobId :: s.history) :
    Drains s₀ s' (.claimed c jobId :: events) := by
  obtain ⟨hbefore, hnot⟩ := h.claims c jobId hclaims
  constructor
  · exact hdrain
  · rw [hhistory, h.history, List.cons_append]
  · intro d jobId' hclaims'
    obtain ⟨hbefore', hnot'⟩ := h.claims d jobId' (claims_of_act hinv.toKnown hs h.drain hclaims')
    refine ⟨hbefore', ?_⟩
    -- The call itself is past its commit and claims no more.
    have hne : d ≠ c := by
      rintro rfl
      rw [show s'.sessions d = .claimed jobId by rw [hmoves, Function.update_self]] at hclaims'
      cases hclaims'
    simpa [Event.claimant, hne] using hnot'
  · intro d jobId' hsession
    rcases session_cases hmoves d with ⟨rfl, heq⟩ | ⟨-, heq⟩
    · rw [heq] at hsession
      cases hsession
      exact .inr hbefore
    · exact h.claimed d jobId' (heq ▸ hsession)
  · intro d jobId' hmem
    rcases List.mem_cons.mp hmem with heq | hmem
    · cases heq
      exact hbefore
    · exact h.claimed_events d jobId' hmem
  · intro d jobId' hmem
    rcases List.mem_cons.mp hmem with heq | hmem
    · cases heq
    · exact h.started_events d jobId' hmem
  · simp only [List.filterMap_cons, Event.claimant, List.nodup_cons]
    exact ⟨hnot, h.once⟩

/-- The start of a handler whose claim is committed. -/
theorem Drains.start {events : List Event} (h : Drains s₀ s events) (hinv : s.Inv)
    (hs : s.act settings jsonb now action = some s') (hdrain : s'.db.getDrain = true)
    {job : JobRecord} (hcall : s.sessions c = .claimed job.id) (hmoves : Moves s s' c (.running job))
    (hhistory : s'.history = .started c job.id :: s.history) :
    Drains s₀ s' (.started c job.id :: events) := by
  constructor
  · exact hdrain
  · rw [hhistory, h.history, List.cons_append]
  · intro d jobId' hclaims
    simpa [Event.claimant] using h.claims d jobId' (claims_of_act hinv.toKnown hs h.drain hclaims)
  · intro d jobId' hsession
    rcases session_cases hmoves d with ⟨rfl, heq⟩ | ⟨-, heq⟩
    · rw [heq] at hsession
      cases hsession
    · exact h.claimed d jobId' (heq ▸ hsession)
  · intro d jobId' hmem
    rcases List.mem_cons.mp hmem with heq | hmem
    · cases heq
    · exact h.claimed_events d jobId' hmem
  · intro d jobId' hmem
    rcases List.mem_cons.mp hmem with heq | hmem
    · cases heq
      exact h.claimed c job.id hcall
    · exact h.started_events d jobId' hmem
  · simpa [List.filterMap_cons, Event.claimant] using h.once

/-- **A step with drain on.** -/
theorem Drains.step {events : List Event} (h : Drains s₀ s events) (hinv : s.Inv)
    (hs : s.act settings jsonb now action = some s') (hkeeps : KeepsDrain s ⟨now, action⟩) :
    ∃ events', Drains s₀ s' events' := by
  have he := act_effect hinv.toKnown hs
  generalize hcall : action.call = call at he
  have hdrain := getDrain_of_act hs h.drain hkeeps
  have hunclaimed : ∀ {d : CallId} {session : Session}, Moves s s' d session →
      (∀ jobId, session ≠ .claimed jobId) →
      ∀ c jobId, s'.sessions c = .claimed jobId → s.sessions c = .claimed jobId := by
    intro d session hmoves hne c jobId hclaimed
    rcases session_cases hmoves c with ⟨-, heq⟩ | ⟨-, heq⟩
    · exact absurd (heq.symm.trans hclaimed) (hne jobId)
    · exact heq ▸ hclaimed
  have hsilent : s'.history = s.history → (∀ c jobId, s'.sessions c = .claimed jobId →
      s.sessions c = .claimed jobId) → ∃ events', Drains s₀ s' events' := by
    intro hhistory hclaimed
    exact ⟨[] ++ events, h.quiet hinv hs hdrain hhistory (by simp) (by simp) hclaimed⟩
  cases he with
  | idle tables sessions history => exact hsilent history fun c jobId hc => sessions ▸ hc
  | quiet d session tables moves read held attempting unstarted pending raised talk =>
    obtain ⟨new, hhistory, hquiet⟩ := talk.events
    refine ⟨new ++ events, h.quiet hinv hs hdrain hhistory
      (fun e he => Event.claimant_of_quiet (hquiet e he)) ?_ (hunclaimed moves unstarted)⟩
    intro c jobId hmem
    exact hquiet _ hmem
  | reads d session row tables moves read stored claimable owner held attempting history =>
    refine hsilent history (hunclaimed moves ?_)
    rintro jobId rfl
    cases read
  | start d job tables moves before history =>
    exact ⟨_, h.start hinv hs hdrain before moves history⟩
  | insert d row payload session jobs attempts fresh new moves read held pending history =>
    have hhistory : s'.history = [.inserted d row] ++ s.history := history
    refine ⟨_, h.quiet hinv hs hdrain hhistory (by simp [Event.claimant]) (by simp)
      (hunclaimed moves ?_)⟩
    rintro jobId rfl
    cases held
  | claim d row workerId now' before fits free jobs attempts moves history =>
    exact ⟨_, h.claim hinv hs hdrain (by rw [before]; rfl) moves history⟩
  | succeed d job row result stored now' before jobs attempts moves history =>
    exact hsilent history (hunclaimed moves (by simp))
  | fail d job succeeded row error now' before fits jobs attempts moves history =>
    exact hsilent history (hunclaimed moves (by simp))
  | cancel d row now' before jobs attempts moves history =>
    have hhistory : s'.history = [.cancelled d row.id] ++ s.history := history
    exact ⟨_, h.quiet hinv hs hdrain hhistory (by simp [Event.claimant]) (by simp)
      (hunclaimed moves (by simp))⟩

/-- **What drain stops**: once it is on, and as long as no `set_drain(False)` commits, it stays on,
    claims are committed only by the calls that were then between the flag and their commit, at most
    one by each, and handlers are started only by these and by the calls whose claim was committed
    already. -/
theorem drain_stops_claims (hreach : (Sql.sessions settings jsonb).Reachable Any s₀)
    (hdrain : s₀.db.getDrain = true)
    (h : (Sql.sessions settings jsonb).Steps KeepsDrain s₀ s) :
    s.db.getDrain = true ∧ ∃ events, s.history = events ++ s₀.history ∧
      (events.filterMap Event.claimant).Nodup ∧
      (∀ c jobId, .claimed c jobId ∈ events → (s₀.sessions c).claims = some jobId) ∧
      ∀ c jobId, .started c jobId ∈ events →
        s₀.sessions c = .claimed jobId ∨ (s₀.sessions c).claims = some jobId := by
  have hdrains : s.Inv ∧ ∃ events, Drains s₀ s events := by
    refine h.invariant (I := fun s => s.Inv ∧ ∃ events, Drains s₀ s events) ?_ ?_
    · refine ⟨inv_of_reachable hreach, [], hdrain, rfl, ?_, ?_, by simp, by simp, by simp⟩
      · intro c jobId hclaims
        exact ⟨hclaims, by simp⟩
      · intro c jobId hsession
        exact .inl hsession
    · intro s label s' h hok hs
      obtain ⟨hinv, events, hdrains⟩ := h
      exact ⟨hinv.step hs, hdrains.step hinv hs hok⟩
  obtain ⟨-, events, hdrains⟩ := hdrains
  exact ⟨hdrains.drain, events, hdrains.history, hdrains.once, hdrains.claimed_events,
    hdrains.started_events⟩

/-- Two calls turn drain on between the flag and the commit of one delivery, and before another. -/
def drainedRun : List Label :=
  [⟨0, .submit 0 Sample.request Sample.jobId⟩, ⟨0, .insertCommit 0⟩,
    ⟨0, .process 1 Sample.jobId "worker-1"⟩, ⟨0, .drainRead 3 true⟩, ⟨0, .drainRead 4 true⟩,
    ⟨0, .drainCommit 3⟩, ⟨0, .drainCommit 4⟩]

theorem drain_stops_claims_of_drainedRun : ∃ s₀ s events,
    (Sql.sessions {} some).Steps KeepsDrain s₀ s ∧
      s₀.sessions 4 = .raised (.integrityError "ops_settings_pkey") ∧
      s.sessions 1 = .claimed Sample.jobId ∧ s.sessions 2 = .returned none ∧
      s.sessions 5 = .drained ∧ s.db.getDrain = true ∧ s.history = events ++ s₀.history ∧
      ∀ c jobId, .claimed c jobId ∈ events → (s₀.sessions c).claims = some jobId := by
  have hrun : ∃ s₀ s s' read, System.replay (State.step {} some) State.initial drainedRun = some s₀ ∧
      s₀.sessions 4 = .raised (.integrityError "ops_settings_pkey") ∧ s₀.db.getDrain = true ∧
      System.replay (State.step {} some) s₀
        [⟨0, .claimRead 1⟩, ⟨0, .process 2 Sample.jobId "worker-2"⟩, ⟨0, .claimCommit 1⟩,
          ⟨0, .drainRead 5 true⟩] = some s ∧
      s.sessions 5 = .drainPending (some read) true 0 ∧
      State.step {} some s ⟨0, .drainCommit 5⟩ = some s' ∧ s'.sessions 1 = .claimed Sample.jobId ∧
      s'.sessions 2 = .returned none ∧ s'.sessions 5 = .drained :=
    ⟨_, _, _, _, rfl, rfl, rfl, rfl, rfl, rfl, rfl, rfl, rfl⟩
  obtain ⟨s₀, s, s', read, hs₀, hlost, hdrain, hs, hpending, hs', hclaimed, hreturned, hdrained⟩ :=
    hrun
  have hreach : (Sql.sessions {} some).Reachable Any s₀ :=
    ⟨State.initial, rfl, System.Steps.of_replay hs₀ fun _ _ _ => trivial⟩
  have hclaims : (Sql.sessions {} some).Steps KeepsDrain s₀ s := by
    refine System.Steps.of_replay hs fun label hmem _ => ?_
    simp only [List.mem_cons, List.not_mem_nil, or_false] at hmem
    rcases hmem with rfl | rfl | rfl | rfl <;> simp [KeepsDrain]
  have hsteps : (Sql.sessions {} some).Steps KeepsDrain s₀ s' := by
    refine hclaims.tail ?_ hs'
    intro c loaded now haction hpending'
    cases haction
    rw [hpending] at hpending'
    cases hpending'
  obtain ⟨hstays, events, hhistory, -, honly, -⟩ := drain_stops_claims hreach hdrain hsteps
  exact ⟨s₀, s', events, hsteps, hlost, hclaimed, hreturned, hdrained, hstays, hhistory, honly⟩

end State

end Sql

end JobPipeline
