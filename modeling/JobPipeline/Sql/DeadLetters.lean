import JobPipeline.Sql.StatusChanges
import JobPipeline.Sql.Successors

/-!
# Dead letters over PostgreSQL

`process_job` publishes a dead letter after the commit of `mark_failed_attempt`, for the row as it
reads it again. In between another call may have made the job's later attempts, so a call can
publish the dead letter of an attempt that was not its own, and a job can have several. They are all
the same message, there are not more than attempts, and a dead-lettered job has none only while the
call that is to publish it has not, or if it could not.
-/

set_option autoImplicit false

namespace JobPipeline

namespace Sql

namespace Session

/-- The `process_job` is through. -/
def ended : Session → Bool
  | .returned _ => true
  | .raised _ => true
  | _ => false

/-- What `publish_dead_letter` raises while Kafka is down. -/
def unpublished (jobId : UUID) : Exc :=
  .service (dependencyUnavailableError "Kafka dead-letter publish failed"
    [("job_id", .str jobId.str)])

/-- The call is going to publish a dead letter of the job, or has failed to. -/
def Owes (jobId : UUID) : Session → Prop
  | .failed id => id = jobId
  | .deadLettering updated => updated.id = jobId
  | .raised exc => exc = unpublished jobId
  | _ => False

end Session

/-- The claim of the job by a call that `through` picks. -/
def Event.isClaim (jobId : UUID) (through : CallId → Bool) : Event → Bool
  | .claimed c id => decide (id = jobId) && through c
  | _ => false

theorem Event.isClaim_of_quiet {e : Event} (h : e.Quiet) (jobId : UUID) (through : CallId → Bool) :
    e.isClaim jobId through = false := by
  cases e with
  | requested | answered | published => rfl
  | inserted | claimed | started | cancelled => cases h

theorem Event.isClaim_mono {e : Event} {jobId : UUID} {p q : CallId → Bool}
    (hmono : ∀ c, p c = true → q c = true) (h : e.isClaim jobId p = true) :
    e.isClaim jobId q = true := by
  cases e with
  | claimed c id =>
    obtain ⟨hid, hc⟩ := Bool.and_eq_true_iff.mp h
    exact Bool.and_eq_true_iff.mpr ⟨hid, hmono c hc⟩
  | _ => cases h

namespace State

open Transition

variable {settings : Settings} {jsonb : Jsonb} {s s' : State} {c d : CallId} {jobId : UUID}
  {now : Int} {action : Action} {call : Option CallId} {row : Job}

/-! ## Claims -/

/-- How often the job was claimed. -/
def claims (s : State) (jobId : UUID) : Nat :=
  s.history.countP (Event.isClaim jobId fun _ => true)

theorem Effect.claims (he : Effect s s' call) (hinv : s.Inv) (jobId : UUID) :
    s'.claims jobId = s.claims jobId ∨
      s'.claims jobId = s.claims jobId + 1 ∧ s'.version jobId = s.version jobId + 1 := by
  have hsilent : s'.history = s.history → s'.claims jobId = s.claims jobId := by
    intro hhistory
    rw [State.claims, hhistory, State.claims]
  have hnoted : ∀ {e : Event}, s'.history = e :: s.history →
      e.isClaim jobId (fun _ => true) = false → s'.claims jobId = s.claims jobId := by
    intro e hhistory hclaim
    rw [State.claims, hhistory, List.countP_cons_of_neg (by simp [hclaim]), State.claims]
  cases he with
  | idle tables sessions history => exact .inl (hsilent history)
  | quiet c session tables moves read held attempting unstarted pending raised talk =>
    obtain ⟨events, hhistory, hquiet⟩ := talk.events
    refine .inl ?_
    rw [State.claims, hhistory, List.countP_append, List.countP_eq_zero.mpr, Nat.zero_add, State.claims]
    intro e hmem
    rw [Event.isClaim_of_quiet (hquiet e hmem)]
    simp
  | reads c session row tables moves read stored claimable owner held attempting history =>
    exact .inl (hsilent history)
  | start c job tables moves before history => exact .inl (hnoted history rfl)
  | insert c row payload session jobs attempts fresh new moves read held pending history =>
    exact .inl (hnoted history rfl)
  | claim c row workerId now before fits free jobs attempts moves history =>
    by_cases hid : row.id = jobId
    · subst hid
      obtain ⟨stored, hstored, -⟩ := hinv.read_stored c row (by rw [before]; rfl)
      -- The number was free, so the version goes up by this claim.
      have hcurrent := (hinv.free_iff before).mp free
      refine .inr ⟨?_, ?_⟩
      · rw [State.claims, history, List.countP_cons_of_pos (by simp [Event.isClaim]), State.claims]
      · rw [version_of_stored (get?_of_update jobs hstored), ← hcurrent]
        rfl
    · exact .inl (hnoted history (by simp [Event.isClaim, hid]))
  | succeed c job row result stored now before jobs attempts moves history =>
    exact .inl (hsilent history)
  | fail c job succeeded row error now before fits jobs attempts moves history =>
    exact .inl (hsilent history)
  | cancel c row now before jobs attempts moves history => exact .inl (hnoted history rfl)

/-- A job is not claimed more often than its row counts. -/
theorem claims_le_version (h : (Sql.sessions settings jsonb).Reachable Any s) :
    ∀ jobId, s.claims jobId ≤ s.version jobId := by
  apply h.invariant_of_reachable (I := fun s => ∀ jobId, s.claims jobId ≤ s.version jobId)
  · intro s hs jobId
    have hs : s = State.initial := hs
    subst hs
    exact Nat.zero_le _
  · intro s label s' hreach hle _ hs jobId
    have hinv := inv_of_reachable hreach
    have he := act_effect hinv.toKnown hs
    have hbefore := hle jobId
    rcases he.claims hinv jobId with heq | ⟨heq, hversion⟩
    · rw [heq]
      cases he.tick hinv jobId with
      | same hversion => rwa [hversion]
      | claim d _ hversion =>
        rw [hversion]
        exact Nat.le_succ_of_le hbefore
      | start d job _ _ hversion => rwa [hversion]
    · rw [heq, hversion]
      exact Nat.succ_le_succ hbefore

theorem Effect.history_sublist (he : Effect s s' call) : s.history.Sublist s'.history := by
  cases he with
  | idle tables sessions history => rw [history]
  | quiet c session tables moves read held attempting unstarted pending raised talk =>
    obtain ⟨events, heq, -⟩ := talk.events
    rw [heq]
    exact List.sublist_append_right _ _
  | reads c session row tables moves read stored claimable owner held attempting history =>
    rw [history]
  | start c job tables moves before history =>
    rw [history]
    exact List.sublist_cons_self _ _
  | insert c row payload session jobs attempts fresh new moves read held pending history =>
    rw [history]
    exact List.sublist_cons_self _ _
  | claim c row workerId now before fits free jobs attempts moves history =>
    rw [history]
    exact List.sublist_cons_self _ _
  | succeed c job row result stored now before jobs attempts moves history => rw [history]
  | fail c job succeeded row error now before fits jobs attempts moves history => rw [history]
  | cancel c row now before jobs attempts moves history =>
    rw [history]
    exact List.sublist_cons_self _ _

/-- How many of the claims of the job are of calls that are through. -/
def through (s : State) (jobId : UUID) : Nat :=
  s.history.countP (Event.isClaim jobId fun c => (s.sessions c).ended)

theorem through_le_claims (s : State) (jobId : UUID) : s.through jobId ≤ s.claims jobId :=
  List.countP_mono_left fun _ _ hclaim => Event.isClaim_mono (fun _ _ => rfl) hclaim

/-- A call that is through takes no step. -/
theorem ended_of_act (hinv : s.Inv) (hs : s.act settings jsonb now action = some s')
    (h : (s.sessions c).ended = true) : s'.sessions c = s.sessions c := by
  by_cases hcall : action.call = some c
  · unfold Session.ended at h
    split at h
    · rename_i hsession
      cases action <;> cases hcall <;> simp [act, hsession] at hs
    · rename_i hsession
      cases action <;> cases hcall <;> simp [act, hsession] at hs
    · cases h
  · exact (act_effect hinv.toKnown hs).other hcall

theorem through_mono (hinv : s.Inv) (hs : s.act settings jsonb now action = some s')
    (jobId : UUID) : s.through jobId ≤ s'.through jobId := by
  have he := act_effect hinv.toKnown hs
  have hended : ∀ c, (s.sessions c).ended = true → (s'.sessions c).ended = true := by
    intro c hc
    rwa [ended_of_act hinv hs hc]
  calc s.through jobId ≤ s.history.countP (Event.isClaim jobId fun c => (s'.sessions c).ended) :=
        List.countP_mono_left fun _ _ hclaim => Event.isClaim_mono hended hclaim
    _ ≤ s'.through jobId := he.history_sublist.countP_le

/-- A call that has claimed the job comes to its end. -/
theorem through_lt (hinv : s.Inv) (hs : s.act settings jsonb now action = some s')
    (hclaimed : .claimed c jobId ∈ s.history) (hbefore : (s.sessions c).ended = false)
    (hafter : (s'.sessions c).ended = true) : s.through jobId < s'.through jobId := by
  have he := act_effect hinv.toKnown hs
  have hmono : ∀ e : Event, e.isClaim jobId (fun c => (s.sessions c).ended) = true →
      e.isClaim jobId (fun c => (s'.sessions c).ended) = true := by
    intro e
    apply Event.isClaim_mono
    intro d hd
    rwa [ended_of_act hinv hs hd]
  refine lt_of_lt_of_le ?_ he.history_sublist.countP_le
  obtain ⟨later, earlier, heq⟩ := List.append_of_mem hclaimed
  rw [through, heq, List.countP_append, List.countP_append,
    List.countP_cons_of_neg (by simp [Event.isClaim, hbefore]),
    List.countP_cons_of_pos (by simp [Event.isClaim, hafter])]
  have hlater := List.countP_mono_left (l := later) fun e _ => hmono e
  have hearlier := List.countP_mono_left (l := earlier) fun e _ => hmono e
  omega

/-! ## Dead-lettered jobs -/

/-- A job that has no attempt left and that nobody holds. -/
structure Buried (s : State) (jobId : UUID) : Prop where
  row : ∃ row, s.db.jobs.get? jobId = some row ∧ row.exhausted = true ∧
    (row.status = .deadLettered ∨ row.status = .cancelled)
  unheld : ∀ c, (s.sessions c).held ≠ some jobId

/-- **A job that is buried stays so**, at the same number of attempts. -/
theorem Buried.step (h : s.Buried jobId) (hinv : s.Inv) (he : Effect s s' call) :
    s'.Buried jobId ∧ s'.version jobId = s.version jobId := by
  obtain ⟨row, hrow, hexhausted, hstatus⟩ := h.row
  rw [Job.exhausted, decide_eq_true_eq] at hexhausted
  have hstale : ∀ c, (s.lease jobId).view c ≠ some (s.version jobId) := by
    intro c hview
    have hbound := (hinv.exclusive jobId row hrow).view_bound c _ hview
    rw [version_of_stored hrow] at hbound
    omega
  obtain ⟨hversion, hunheld, row', hrow', hstatus'⟩ := he.unclaimed hinv hrow h.unheld hstale
  refine ⟨⟨⟨row', hrow', ?_, ?_⟩, hunheld⟩, hversion⟩
  · obtain ⟨kept, hkept, hkeeps⟩ := he.persist hrow
    rw [hrow'] at hkept
    cases hkept
    rw [version_of_stored hrow, version_of_stored hrow'] at hversion
    rw [Job.exhausted, decide_eq_true_eq, hversion, hkeeps.maxRetries]
    exact hexhausted
  · rcases hstatus' with heq | heq
    · rwa [heq]
    · exact .inr heq

/-- A dead-lettered job is buried. -/
def DeadBuried (s : State) : Prop := ∀ jobId row, s.db.jobs.get? jobId = some row →
  row.status = .deadLettered → s.Buried jobId

/-- The commit of `mark_failed_attempt` goes through, or leaves the tables as they are. -/
theorem failCommit_of_act (hs : s.act settings jsonb now action = some s')
    (hcall : action.call = some c) {job : JobRecord} {succeeded : Option JobRecord} {read : Job}
    {error : String} {t : Int} (h : s.sessions c = .failPending job succeeded read error t) :
    s'.sessions c = .failed read.id ∨ s'.db = s.db := by
  have hcommit : action = .failCommit c := by
    cases action <;> cases hcall <;> first | rfl | exact absurd hs (by simp [act, h])
  subst hcommit
  simp only [act, h] at hs
  split at hs
  · cases hs
    exact .inr rfl
  · cases hs
    exact .inl (sessions_setSession ..)

/-- A row comes to be dead-lettered by the call that holds the job. -/
theorem dead_of_act (hinv : s.Inv) (hs : s.act settings jsonb now action = some s')
    (hrow : s'.db.jobs.get? jobId = some row) (hdead : row.status = .deadLettered) :
    (∃ row₀, s.db.jobs.get? jobId = some row₀ ∧ row₀.status = .deadLettered) ∨
      ∃ c, action.call = some c ∧ (s.sessions c).held = some jobId ∧
        s'.sessions c = .failed jobId := by
  have he := act_effect hinv.toKnown hs
  cases hrow₀ : s.db.jobs.get? jobId with
  | none =>
    rcases he.stored hrow with ⟨row₀, hstored, -⟩ | ⟨-, hnew, -⟩
    · rw [hrow₀] at hstored
      cases hstored
    · rw [hnew.1] at hdead
      cases hdead
  | some row₀ =>
    obtain ⟨stored, hstored, hstep⟩ := he.status hinv hrow₀
    rw [hrow] at hstored
    cases hstored
    generalize hcall : action.call = call at he hstep
    cases hstep with
    | same heq => exact .inl ⟨row₀, rfl, heq.symm.trans hdead⟩
    | claim c read workerId now before hid fits free heq =>
      rw [heq] at hdead
      cases hdead
    | succeed c held attempting after heq =>
      rw [heq] at hdead
      cases hdead
    | cancel c read now before hid heq =>
      rw [heq] at hdead
      cases hdead
    | fail c job succeeded read error now before hid held =>
      -- The commit may have failed on the error text, and then nothing has changed.
      rcases failCommit_of_act hs hcall before with hfailed | hdb
      · exact .inr ⟨c, rfl, by rw [before, ← held]; rfl, by rw [hfailed, hid]⟩
      · refine .inl ⟨row, ?_, hdead⟩
        rw [← hrow₀, ← hdb]
        exact hrow

theorem DeadBuried.act (h : s.DeadBuried) (hinv : s.Inv) (hexhausted : s'.DeadExhausted)
    (hs : s.act settings jsonb now action = some s') : s'.DeadBuried := by
  have he := act_effect hinv.toKnown hs
  intro jobId row' hrow' hdead
  rcases dead_of_act hinv hs hrow' hdead with ⟨row, hrow, hbefore⟩ | ⟨c, hcall, hheld, hfailed⟩
  · exact ((h jobId row hrow hbefore).step hinv he).1
  · refine ⟨⟨row', hrow', hexhausted jobId row' hrow' hdead, .inl hdead⟩, ?_⟩
    -- The call held the job alone, and has let go of it.
    intro d hheld'
    by_cases hdc : d = c
    · rw [hdc, hfailed] at hheld'
      cases hheld'
    · rw [he.other fun heq => hdc (Option.some.inj (heq.symm.trans hcall))] at hheld'
      exact hdc (hinv.holder_unique hheld' hheld)

theorem deadBuried_of_reachable (h : (Sql.sessions settings jsonb).Reachable Any s) :
    s.DeadBuried := by
  apply h.invariant_of_reachable (I := DeadBuried)
  · intro s hs
    have hs : s = State.initial := hs
    subst hs
    intro jobId row hrow
    cases hrow
  · intro s label s' hreach hburied _ hs
    exact hburied.act (inv_of_reachable hreach) (deadExhausted_of_reachable (hreach.tail trivial hs))
      hs

/-! ## Dead letters -/

/-- A call whose commit of `mark_failed_attempt` is done held the job before. -/
theorem failed_of_act (hinv : s.Inv) (hs : s.act settings jsonb now action = some s')
    (h : s'.sessions c = .failed jobId) :
    s.sessions c = .failed jobId ∨ (s.sessions c).held = some jobId := by
  rcases entered_of_act hs c with heq | hentered
  · exact .inl (heq.symm.trans h)
  · rw [h] at hentered
    obtain ⟨d, rfl⟩ := hentered
    simp only [act] at hs
    split at hs
    · rename_i job succeeded read error t hcall
      split at hs
      · cases hs
        rcases session_of_setSession h with ⟨-, heq⟩ | hbefore
        · cases heq
        · exact .inl hbefore
      · cases hs
        rcases session_of_setSession h with ⟨hcd, heq⟩ | hbefore
        · cases heq
          obtain ⟨hid, -⟩ := hinv.read_current d read job.id (by rw [hcall]; rfl) (by rw [hcall]; rfl)
          refine .inr ?_
          rw [hcd, hcall, hid]
          rfl
        · exact .inl hbefore
    · cases hs

/-- A call that owes a dead letter of a dead-lettered job publishes it, or owes it still. -/
theorem owes_of_act (hinv : s.Inv) (hs : s.act settings jsonb now action = some s')
    (howes : (s.sessions c).Owes jobId) (hrow : s'.db.jobs.get? jobId = some row)
    (hdead : row.status = .deadLettered) :
    (s'.sessions c).Owes jobId ∨ ∃ message ∈ s'.producer.deadLetters, message.jobId = jobId := by
  by_cases hcall : action.call = some c
  · cases hsession : s.sessions c with
    | failed id =>
      rw [hsession] at howes
      have hid : id = jobId := howes
      subst hid
      -- At this point the call has one step to take.
      have haction : action = .failRefresh c := by
        cases action <;> cases hcall <;> first | rfl | exact absurd hs (by simp [act, hsession])
      subst haction
      simp only [act, hsession] at hs
      split at hs
      · rename_i exc hrefresh
        cases hs
        have hstored : s.db.jobs.get? id = some row := hrow
        simp [refresh, Database.getJob?, hstored] at hrefresh
      · rename_i stored hrefresh
        cases hs
        have hstored := stored_of_refresh hrefresh
        have heq : stored = row := Option.some.inj (hstored.symm.trans hrow)
        subst heq
        refine .inl ?_
        have hstatus : (recordFromModel stored).status = .deadLettered := hdead
        rw [sessions_setSession, if_pos hstatus]
        exact hinv.keyed id stored hstored
    | deadLettering updated =>
      rw [hsession] at howes
      have hid : updated.id = jobId := howes
      subst hid
      have haction : action = .publishDeadLetter c := by
        cases action <;> cases hcall <;> first | rfl | exact absurd hs (by simp [act, hsession])
      subst haction
      simp only [act, hsession] at hs
      split at hs
      · rename_i exc hpublish
        cases hs
        refine .inl ?_
        rw [sessions_setSession]
        exact FakeJobProducer.publishDeadLetter_error hpublish
      · rename_i producer hpublish
        cases hs
        refine .inr ⟨updated.deadLetterMessage, ?_, rfl⟩
        rw [FakeJobProducer.publishDeadLetter_ok hpublish]
        exact List.mem_append_right _ (List.mem_singleton_self _)
    | raised exc =>
      -- A call that has raised takes no step.
      refine absurd hs ?_
      cases action <;> cases hcall <;> simp [act, hsession]
    | _ =>
      rw [hsession] at howes
      exact howes.elim
  · rw [(act_effect hinv.toKnown hs).other hcall]
    exact .inl howes

/-- The dead letters of the job that were published. -/
def letters (s : State) (jobId : UUID) : Nat :=
  s.producer.deadLetters.countP fun message => message.jobId = jobId

structure Accounted (s : State) : Prop where
  failed : ∀ c jobId, s.sessions c = .failed jobId → .claimed c jobId ∈ s.history
  owed : ∀ c updated, s.sessions c = .deadLettering updated → .claimed c updated.id ∈ s.history ∧
    s.Buried updated.id ∧ updated.attemptCount = s.version updated.id
  sent : ∀ message ∈ s.producer.deadLetters, s.Buried message.jobId ∧
    message.attempt = s.version message.jobId
  counted : ∀ jobId, s.letters jobId ≤ s.through jobId
  accounted : ∀ jobId row, s.db.jobs.get? jobId = some row → row.status = .deadLettered →
    (∃ message ∈ s.producer.deadLetters, message.jobId = jobId) ∨
      ∃ c, .claimed c jobId ∈ s.history ∧ (s.sessions c).Owes jobId

theorem Accounted.act (h : s.Accounted) (hinv : s.Inv) (hburied : s.DeadBuried)
    (hchained : s.Chained) (hs : s.act settings jsonb now action = some s') : s'.Accounted := by
  have he := act_effect hinv.toKnown hs
  constructor
  · intro c jobId hfailed
    apply he.history_mem
    rcases failed_of_act hinv hs hfailed with hbefore | hheld
    · exact h.failed c jobId hbefore
    · exact hchained.held c jobId hheld
  · intro c updated hsession
    rcases deadLettering_of_act hs hsession with hbefore | ⟨jobId, row, hfailed, hrow, hdead, rfl⟩
    · obtain ⟨hclaimed, hover, hcount⟩ := h.owed c updated hbefore
      obtain ⟨hover', hversion⟩ := hover.step hinv he
      exact ⟨he.history_mem hclaimed, hover', by rw [hversion, hcount]⟩
    · have hid : row.id = jobId := hinv.keyed jobId row hrow
      obtain ⟨hover, hversion⟩ := (hburied jobId row hrow hdead).step hinv he
      subst hid
      exact ⟨he.history_mem (h.failed c row.id hfailed), hover,
        (version_of_stored hrow ▸ hversion).symm⟩
  · intro message hmem
    have hold : message ∈ s.producer.deadLetters →
        s'.Buried message.jobId ∧ message.attempt = s'.version message.jobId := by
      intro hmem
      obtain ⟨hover, hattempt⟩ := h.sent message hmem
      obtain ⟨hover', hversion⟩ := hover.step hinv he
      exact ⟨hover', by rw [hversion, hattempt]⟩
    cases logStep_of_act hs with
    | same published deadLetters => exact hold (deadLetters ▸ hmem)
    | publish c job before published deadLetters => exact hold (deadLetters ▸ hmem)
    | deadLetter c updated before after published deadLetters =>
      rw [deadLetters, List.mem_append, List.mem_singleton] at hmem
      rcases hmem with hmem | rfl
      · exact hold hmem
      · obtain ⟨-, hover, hcount⟩ := h.owed c updated before
        obtain ⟨hover', hversion⟩ := hover.step hinv he
        exact ⟨hover', by rw [JobRecord.deadLetterMessage, hversion, hcount]⟩
  · intro jobId
    have hbound := h.counted jobId
    have hmono := through_mono hinv hs jobId
    cases logStep_of_act hs with
    | same published deadLetters =>
      rw [letters, deadLetters]
      exact hbound.trans hmono
    | publish c job before published deadLetters =>
      rw [letters, deadLetters]
      exact hbound.trans hmono
    | deadLetter c updated before after published deadLetters =>
      rw [letters, deadLetters, List.countP_append]
      by_cases hid : updated.id = jobId
      · subst hid
        -- The letter is counted against the claim of the call that is through with it.
        obtain ⟨hclaimed, -⟩ := h.owed c updated before
        have hlt := through_lt hinv hs hclaimed (by rw [before]; rfl) (by rw [after]; rfl)
        rw [List.countP_singleton]
        split
        · exact (Nat.succ_le_succ hbound).trans hlt
        · exact hbound.trans hmono
      · rw [List.countP_singleton, if_neg (by simp [JobRecord.deadLetterMessage, hid])]
        exact hbound.trans hmono
  · intro jobId row' hrow' hdead
    rcases dead_of_act hinv hs hrow' hdead with ⟨row, hrow, hbefore⟩ | ⟨c, -, hheld, hfailed⟩
    · rcases h.accounted jobId row hrow hbefore with ⟨message, hmem, hid⟩ | ⟨c, hclaimed, howes⟩
      · -- Letters are never taken back.
        exact .inl ⟨message, (logStep_of_act hs).deadLetters_mem hmem, hid⟩
      · rcases owes_of_act hinv hs howes hrow' hdead with howes | hmessage
        · exact .inr ⟨c, he.history_mem hclaimed, howes⟩
        · exact .inl hmessage
    · refine .inr ⟨c, he.history_mem (hchained.held c jobId hheld), ?_⟩
      rw [hfailed]
      rfl

theorem accounted_of_reachable (h : (Sql.sessions settings jsonb).Reachable Any s) :
    s.Accounted := by
  apply h.invariant_of_reachable (I := Accounted)
  · intro s hs
    have hs : s = State.initial := hs
    subst hs
    constructor
    · intro c jobId hsession
      cases hsession
    · intro c updated hsession
      cases hsession
    · intro message hmem
      cases hmem
    · intro jobId
      exact Nat.zero_le _
    · intro jobId row hrow
      cases hrow
  · intro s label s' hreach haccounted _ hs
    exact haccounted.act (inv_of_reachable hreach) (deadBuried_of_reachable hreach)
      (chained_of_reachable hreach) hs

/-- **Dead letters are accounted for**, with PostgreSQL too. In every reachable state and for every
    job, the dead letters of the job are all the same message, of its last attempt, which was one
    too many to retry; there are not more of them than attempts; and if the job is dead-lettered and
    there is none, a call that claimed it is about to read the row again or to publish, or has
    failed to publish. -/
theorem dead_letters_accounted (h : (Sql.sessions settings jsonb).Reachable Any s)
    (hrow : s.db.getJob? jobId = some row) :
    (∀ message ∈ s.producer.deadLetters, message.jobId = jobId →
      message = ⟨jobId, row.handler, row.attemptCount⟩ ∧ row.exhausted = true ∧
        (row.status = .deadLettered ∨ row.status = .cancelled)) ∧
      s.letters jobId ≤ row.attemptCount ∧
      (row.status = .deadLettered →
        ⟨jobId, row.handler, row.attemptCount⟩ ∈ s.producer.deadLetters ∨
          ∃ c, .claimed c jobId ∈ s.history ∧ (s.sessions c).Owes jobId) := by
  have haccounted := accounted_of_reachable h
  have hversion := version_of_stored hrow
  have hsame : ∀ message ∈ s.producer.deadLetters, message.jobId = jobId →
      message = ⟨jobId, row.handler, row.attemptCount⟩ := by
    intro message hmem hid
    obtain ⟨-, hattempt⟩ := haccounted.sent message hmem
    obtain ⟨updated, ⟨stored, hstored, hfixed⟩, rfl⟩ :=
      (lasting_of_reachable h).deadLetters message hmem
    have hid : updated.id = jobId := hid
    subst hid
    have heq : stored = row := Option.some.inj (hstored.symm.trans hrow)
    subst heq
    have hhandler : stored.handler = updated.handler := congrArg FixedColumns.handler hfixed
    have hcount : updated.attemptCount = stored.attemptCount := hattempt.trans hversion
    rw [JobRecord.deadLetterMessage, hhandler, hcount]
  refine ⟨?_, ?_, ?_⟩
  · intro message hmem hid
    obtain ⟨hover, -⟩ := haccounted.sent message hmem
    obtain ⟨row', hrow', hexhausted, hstatus⟩ := hover.row
    have heq : row' = row := Option.some.inj ((hid ▸ hrow').symm.trans hrow)
    exact ⟨hsame message hmem hid, heq ▸ hexhausted, heq ▸ hstatus⟩
  · calc s.letters jobId ≤ s.through jobId := haccounted.counted jobId
      _ ≤ s.claims jobId := s.through_le_claims jobId
      _ ≤ s.version jobId := claims_le_version h jobId
      _ = row.attemptCount := hversion
  · intro hdead
    rcases haccounted.accounted jobId row hrow hdead with ⟨message, hmem, hid⟩ | howes
    · exact .inl (hsame message hmem hid ▸ hmem)
    · exact .inr howes

/-- The first attempt's call is overtaken by the second attempt before it reads the row again, and
    so the one dead letter is published twice. -/
def overtakenRun : List Label :=
  [⟨0, .submit 0 Sample.request.retriedOnce Sample.jobId⟩,
    ⟨0, .insertCommit 0⟩, ⟨0, .process 1 Sample.jobId "worker-1"⟩, ⟨0, .claimRead 1⟩,
    ⟨0, .claimCommit 1⟩, ⟨0, .claimRefresh 1⟩,
    ⟨0, .finish 1 (.raised (.transient "handler failed"))⟩, ⟨0, .failRead 1⟩, ⟨0, .failCommit 1⟩,
    ⟨seconds 1, .process 2 Sample.jobId "worker-2"⟩, ⟨seconds 1, .claimRead 2⟩,
    ⟨seconds 1, .claimCommit 2⟩, ⟨seconds 1, .claimRefresh 2⟩,
    ⟨seconds 1, .finish 2 (.raised (.transient "handler failed"))⟩, ⟨seconds 1, .failRead 2⟩,
    ⟨seconds 1, .failCommit 2⟩, ⟨seconds 1, .failRefresh 1⟩, ⟨seconds 1, .publishDeadLetter 1⟩,
    ⟨seconds 1, .failRefresh 2⟩, ⟨seconds 1, .publishDeadLetter 2⟩]

theorem dead_letters_accounted_of_overtakenRun : ∃ s row,
    (Sql.sessions {} some).Reachable Any s ∧ s.db.getJob? Sample.jobId = some row ∧
      s.letters Sample.jobId = 2 ∧ s.letters Sample.jobId ≤ row.attemptCount ∧
      ∀ message ∈ s.producer.deadLetters, message.jobId = Sample.jobId →
        message = ⟨Sample.jobId, row.handler, row.attemptCount⟩ := by
  have hrun : ∃ s row, System.replay (State.step {} some) State.initial overtakenRun = some s ∧
      s.db.getJob? Sample.jobId = some row ∧ s.letters Sample.jobId = 2 :=
    ⟨_, _, rfl, rfl, rfl⟩
  obtain ⟨s, row, hs, hrow, hletters⟩ := hrun
  have hreach : (Sql.sessions {} some).Reachable Any s :=
    ⟨State.initial, rfl, System.Steps.of_replay hs fun _ _ _ => trivial⟩
  obtain ⟨hsame, hle, -⟩ := dead_letters_accounted hreach hrow
  exact ⟨s, row, hreach, hrow, hletters, hle, fun message hmem hid => (hsame message hmem hid).1⟩

end State

end Sql

end JobPipeline
