import JobPipeline.Sql.Submissions

/-!
# What has been acknowledged stays

No statement deletes a row of `jobs`, and no `UPDATE` assigns the columns that came with the
request. So a job that `create_job` has answered, as new or as a replay, is in the table from then
on with those columns as they were answered, whatever the other sessions do; a message is published
for such a job only; and every row is one that a call inserted.
-/

set_option autoImplicit false

namespace JobPipeline

/-- The columns of `jobs` that no `UPDATE` assigns. -/
structure FixedColumns where
  id : UUID
  handler : String
  payload : JsonObject
  priority : Nat
  maxRetries : Nat
  timeoutSeconds : Nat
  runAt : Option Int
  recurringCron : Option String
  kafkaMessageKey : Option String
  idempotencyKey : Option String
  createdAt : Int

def JobRecord.fixed (job : JobRecord) : FixedColumns where
  id := job.id
  handler := job.handler
  payload := job.payload
  priority := job.priority
  maxRetries := job.maxRetries
  timeoutSeconds := job.timeoutSeconds
  runAt := job.runAt
  recurringCron := job.recurringCron
  kafkaMessageKey := job.kafkaMessageKey
  idempotencyKey := job.idempotencyKey
  createdAt := job.createdAt

def Job.fixed (row : Job) : FixedColumns := (recordFromModel row).fixed

namespace Sql

namespace State

open Transition

variable {settings : Settings} {jsonb : Jsonb} {s s' : State} {c d : CallId} {jobId : UUID}
  {now : Int} {action : Action} {call : Option CallId} {row : Job}

/-- **A stored row stays**, and keeps these columns. -/
theorem Effect.fixed (he : Effect s s' call) (hrow : s.db.jobs.get? jobId = some row) :
    ∃ row', s'.db.jobs.get? jobId = some row' ∧ row'.fixed = row.fixed := by
  have hsame : s'.db.jobs = s.db.jobs →
      ∃ row', s'.db.jobs.get? jobId = some row' ∧ row'.fixed = row.fixed := by
    intro hjobs
    exact ⟨row, by rw [hjobs, hrow], rfl⟩
  have hupdate : ∀ {id : UUID} {assign : Job → Job}, s'.db.jobs = s.db.jobs.modify id assign →
      (∀ row, (assign row).fixed = row.fixed) →
      ∃ row', s'.db.jobs.get? jobId = some row' ∧ row'.fixed = row.fixed := by
    intro id assign hjobs hfixed
    by_cases hid : jobId = id
    · subst hid
      exact ⟨assign row, get?_of_update hjobs hrow, hfixed row⟩
    · exact ⟨row, by rw [hjobs, Dict.get?_modify_of_ne _ _ hid, hrow], rfl⟩
  cases he with
  | idle tables => exact hsame tables.1
  | quiet _ _ tables => exact hsame tables.1
  | reads _ _ _ tables => exact hsame tables.1
  | start _ _ tables => exact hsame tables.1
  | insert c created payload session jobs attempts fresh =>
    have hne : jobId ≠ created.id := by
      rintro rfl
      rw [fresh] at hrow
      cases hrow
    exact ⟨row, by rw [jobs, Dict.get?_insert_of_ne _ _ hne, hrow], rfl⟩
  | claim c read workerId t before fits free jobs => exact hupdate jobs fun _ => rfl
  | succeed c job read result stored t before jobs => exact hupdate jobs fun _ => rfl
  | fail c job succeeded read error t before fits jobs => exact hupdate jobs fun _ => rfl
  | cancel c read t before jobs => exact hupdate jobs fun _ => rfl

/-- `INSERT` stores the payload as the column gives it back. -/
theorem insertJob_payload {db db' : Database} (h : db.insertJob jsonb row = .ok db') :
    ∃ payload, jsonb row.payload = some payload ∧
      db'.jobs.get? row.id = some { row with payload := payload } := by
  unfold Database.insertJob at h
  split at h
  · cases h
  split at h
  · cases h
  split at h
  · cases h
  split at h
  · cases h
  split at h
  · cases h
  rename_i payload hpayload
  split at h
  · cases h
  split at h
  · cases h
  · cases h
    exact ⟨payload, hpayload, Dict.get?_insert_self ..⟩

/-- The row of an insert that is new is stored. -/
theorem inserted_of_act (hs : s.act settings jsonb now action = some s')
    (h : .inserted c row ∈ s'.history) :
    .inserted c row ∈ s.history ∨ ∃ payload, jsonb row.payload = some payload ∧
      s'.db.jobs.get? row.id = some { row with payload := payload } := by
  cases action with
  | insertCommit d =>
    simp only [State.act, insertCommit] at hs
    repeat' split at hs
    all_goals cases hs
    · rename_i db hinsert
      rcases List.mem_cons.mp h with heq | hmem
      · cases heq
        exact .inr (insertJob_payload hinsert)
      · exact .inl hmem
    all_goals exact .inl h
  | nextCommit d =>
    simp only [State.act] at hs
    repeat' split at hs
    all_goals cases hs
    · exact .inl h
    · rename_i db hinsert
      rcases List.mem_cons.mp h with heq | hmem
      · cases heq
        exact .inr (insertJob_payload hinsert)
      · exact .inl hmem
  | submit d | reselect d | insertRefresh d | publish d | claimCommit d | claimRefresh d
  | cancelCommit d =>
    simp only [State.act, submitJob, reselect, claimCommit, claimRefresh] at hs
    repeat' split at hs
    all_goals cases hs
    all_goals exact .inl (by simpa [note, setSession, commit] using h)
  | next d | process d | claimRead d | finish d | succeedRead d | succeedCommit d | succeedRefresh d
  | failRead d | failCommit d | failRefresh d | publishDeadLetter d | cancelRead d | cancelRefresh d
  | drainRead d | drainCommit d | setAvailable =>
    simp only [State.act, State.next, claimRead] at hs
    repeat' split at hs
    all_goals cases hs
    all_goals exact .inl h

/-- What a call was told is stored. -/
theorem Talk.answered {session : Session} (ht : Talk s s' c session) (hknown : s.Known)
    {job : JobRecord} {replay : Bool} (h : .answered d job replay ∈ s'.history) :
    .answered d job replay ∈ s.history ∨
      ∃ row, s.db.jobs.get? job.id = some row ∧ job = recordFromModel row := by
  have hfound : ∀ {key : Option String} {existing : Job},
      (key.filter (· ≠ "") >>= s.db.findByKey) = some existing →
      s.db.jobs.get? existing.id = some existing := by
    intro key existing hfound
    obtain ⟨key, -, hkey⟩ := Option.bind_eq_some_iff.mp hfound
    obtain ⟨id, hrow, -⟩ := Database.findByKey_some hkey
    rwa [hknown.keyed id existing hrow]
  cases ht with
  | silent _ _ _ _ _ history => exact .inl (history ▸ h)
  | draw _ _ _ _ _ _ _ history => exact .inl (history ▸ h)
  | refuse _ _ _ _ _ _ history => exact .inl (by simpa [history] using h)
  | replay request jobId existing before found fresh drawn history =>
    simp only [history, List.mem_cons, reduceCtorEq, false_or] at h
    rcases h with h | h
    · cases h
      exact .inr ⟨existing, hfound found, rfl⟩
    · exact .inl h
  | ask _ _ _ _ _ _ history => exact .inl (by simpa [history] using h)
  | conflict _ _ _ _ _ history => exact .inl (history ▸ h)
  | abort _ _ _ _ history => exact .inl (history ▸ h)
  | lost _ _ _ _ _ history => exact .inl (history ▸ h)
  | reread row existing before found drawn history =>
    rw [history, List.mem_cons] at h
    rcases h with h | h
    · cases h
      exact .inr ⟨existing, hfound found, rfl⟩
    · exact .inl h
  | answer jobId row before stored drawn history =>
    rw [history, List.mem_cons] at h
    rcases h with h | h
    · cases h
      exact .inr ⟨row, by rwa [← hknown.keyed jobId row stored] at stored, rfl⟩
    · exact .inl h
  | publish _ _ _ _ history => exact .inl (by simpa [history] using h)

/-- What a step adds to the logs of the producer. -/
inductive LogStep (s s' : State) : Prop where
  | same (published : s'.producer.published = s.producer.published)
      (deadLetters : s'.producer.deadLetters = s.producer.deadLetters) : LogStep s s'
  | publish (c : CallId) (job : JobRecord) (before : s.sessions c = .publishing job)
      (published : s'.producer.published = s.producer.published ++ [job.message])
      (deadLetters : s'.producer.deadLetters = s.producer.deadLetters) : LogStep s s'
  | deadLetter (c : CallId) (updated : JobRecord) (before : s.sessions c = .deadLettering updated)
      (after : s'.sessions c = .returned (some updated))
      (published : s'.producer.published = s.producer.published)
      (deadLetters : s'.producer.deadLetters = s.producer.deadLetters ++ [updated.deadLetterMessage]) :
      LogStep s s'

theorem logStep_of_act (hs : s.act settings jsonb now action = some s') : LogStep s s' := by
  cases action with
  | publish c =>
    simp only [State.act] at hs
    split at hs
    · rename_i job hcall
      split at hs
      · cases hs
        exact .same rfl rfl
      · rename_i producer hpublish
        cases hs
        rw [FakeJobProducer.publishJob_ok hpublish]
        exact .publish c job hcall rfl rfl
    · cases hs
  | publishDeadLetter c =>
    simp only [State.act] at hs
    split at hs
    · rename_i updated hcall
      split at hs
      · cases hs
        exact .same rfl rfl
      · rename_i producer hpublish
        cases hs
        rw [FakeJobProducer.publishDeadLetter_ok hpublish]
        exact .deadLetter c updated hcall (sessions_setSession ..) rfl rfl
    · cases hs
  | submit d | insertCommit d | reselect d | insertRefresh d | claimCommit d | claimRefresh d
  | cancelCommit d | next d | process d | claimRead d | finish d | succeedRead d | succeedCommit d
  | succeedRefresh d | nextCommit d | failRead d | failCommit d | failRefresh d | cancelRead d
  | cancelRefresh d | drainRead d | drainCommit d | setAvailable =>
    simp only [State.act, submitJob, insertCommit, reselect, claimCommit, claimRefresh, State.next,
      claimRead] at hs
    repeat' split at hs
    all_goals cases hs
    all_goals exact .same rfl rfl

theorem LogStep.deadLetters_mem (h : LogStep s s') {message : DeadLetterMessage}
    (hmem : message ∈ s.producer.deadLetters) : message ∈ s'.producer.deadLetters := by
  cases h with
  | same published deadLetters => exact deadLetters ▸ hmem
  | publish c job before published deadLetters => exact deadLetters ▸ hmem
  | deadLetter c updated before after published deadLetters =>
    rw [deadLetters]
    exact List.mem_append_left _ hmem

theorem stored_of_refresh (h : s.refresh jobId = .ok row) : s.db.jobs.get? jobId = some row := by
  unfold refresh Database.getJob? at h
  split at h
  · rename_i hrow
    cases h
    exact hrow
  · cases h

/-- `process_job` publishes a dead letter for the row it has just read again. -/
theorem deadLettering_of_act (hs : s.act settings jsonb now action = some s') {updated : JobRecord}
    (h : s'.sessions c = .deadLettering updated) :
    s.sessions c = .deadLettering updated ∨
      ∃ jobId row, s.sessions c = .failed jobId ∧ s.db.jobs.get? jobId = some row ∧
        row.status = .deadLettered ∧ updated = recordFromModel row := by
  rcases entered_of_act hs c with heq | hentered
  · exact .inl (heq.symm.trans h)
  · rw [h] at hentered
    obtain ⟨d, rfl⟩ := hentered
    simp only [State.act] at hs
    split at hs
    · rename_i jobId hcall
      split at hs
      · cases hs
        rcases session_of_setSession h with ⟨-, heq⟩ | hbefore
        · cases heq
        · exact .inl hbefore
      · rename_i row hrefresh
        cases hs
        rcases session_of_setSession h with ⟨hcd, heq⟩ | hbefore
        · split at heq
          · rename_i hdead
            cases heq
            exact .inr ⟨jobId, row, hcd ▸ hcall, stored_of_refresh hrefresh, hdead, rfl⟩
          · cases heq
        · exact .inl hbefore
    · cases hs

/-! ## What stays -/

/-- The job of a record is stored, with the columns of the record that stay. -/
def Stored (s : State) (job : JobRecord) : Prop :=
  ∃ row, s.db.jobs.get? job.id = some row ∧ row.fixed = job.fixed

theorem Stored.step {job : JobRecord} (h : s.Stored job) (he : Effect s s' call) : s'.Stored job := by
  obtain ⟨row, hrow, hfixed⟩ := h
  obtain ⟨row', hrow', hfixed'⟩ := he.fixed hrow
  exact ⟨row', hrow', hfixed'.trans hfixed⟩

theorem Known.stored (h : s.Known) (hrow : s.db.jobs.get? jobId = some row) :
    s.Stored (recordFromModel row) :=
  ⟨row, by rwa [← h.keyed jobId row hrow] at hrow, rfl⟩

structure Lasting (jsonb : Jsonb) (s : State) : Prop where
  inserted : ∀ c row, .inserted c row ∈ s.history → ∃ payload, jsonb row.payload = some payload ∧
    s.Stored (recordFromModel { row with payload := payload })
  answered : ∀ c job replay, .answered c job replay ∈ s.history → s.Stored job
  deadLettering : ∀ c updated, s.sessions c = .deadLettering updated → s.Stored updated
  messages : ∀ message ∈ s.producer.published, ∃ job, s.Stored job ∧ message = job.message
  deadLetters : ∀ message ∈ s.producer.deadLetters,
    ∃ updated, s.Stored updated ∧ message = updated.deadLetterMessage

theorem Lasting.step (h : Lasting jsonb s) (hinv : s.Inv) (hreg : s.Registry)
    (hs : s.act settings jsonb now action = some s') : Lasting jsonb s' := by
  have he := act_effect hinv.toKnown hs
  constructor
  · intro c row hmem
    rcases inserted_of_act hs hmem with hmem | ⟨payload, hpayload, hrow⟩
    · obtain ⟨payload, hpayload, hstored⟩ := h.inserted c row hmem
      exact ⟨payload, hpayload, hstored.step he⟩
    · exact ⟨payload, hpayload, _, hrow, rfl⟩
  · intro c job replay hmem
    rcases he.said (.inr ⟨c, job, replay, rfl⟩) hmem with hmem' | ⟨d, session, talk⟩
    · exact (h.answered c job replay hmem').step he
    · rcases talk.answered hinv.toKnown hmem with hmem' | ⟨row, hrow, rfl⟩
      · exact (h.answered c job replay hmem').step he
      · exact (hinv.toKnown.stored hrow).step he
  · intro c updated hsession
    rcases deadLettering_of_act hs hsession with hbefore | ⟨jobId, row, -, hrow, -, rfl⟩
    · exact (h.deadLettering c updated hbefore).step he
    · exact (hinv.toKnown.stored hrow).step he
  · intro message hmem
    have hold : message ∈ s.producer.published → ∃ job, s'.Stored job ∧ message = job.message := by
      intro hmem
      obtain ⟨job, hstored, heq⟩ := h.messages message hmem
      exact ⟨job, hstored.step he, heq⟩
    cases logStep_of_act hs with
    | same published => exact hold (published ▸ hmem)
    | deadLetter c updated before after published => exact hold (published ▸ hmem)
    | publish c job before published =>
      rw [published, List.mem_append, List.mem_singleton] at hmem
      rcases hmem with hmem | rfl
      · exact hold hmem
      · have hstory := hreg.story c
        rw [before] at hstory
        obtain ⟨row, -, htalks⟩ := hstory.of_publishing
        have hanswered : .answered c job false ∈ s.talks c := by
          rw [htalks]
          exact List.mem_cons_self
        exact ⟨job, (h.answered c job false ((mem_talks rfl).mp hanswered)).step he, rfl⟩
  · intro message hmem
    have hold : message ∈ s.producer.deadLetters →
        ∃ updated, s'.Stored updated ∧ message = updated.deadLetterMessage := by
      intro hmem
      obtain ⟨updated, hstored, heq⟩ := h.deadLetters message hmem
      exact ⟨updated, hstored.step he, heq⟩
    cases logStep_of_act hs with
    | same published deadLetters => exact hold (deadLetters ▸ hmem)
    | publish c job before published deadLetters => exact hold (deadLetters ▸ hmem)
    | deadLetter c updated before after published deadLetters =>
      rw [deadLetters, List.mem_append, List.mem_singleton] at hmem
      rcases hmem with hmem | rfl
      · exact hold hmem
      · exact ⟨updated, (h.deadLettering c updated before).step he, rfl⟩

theorem lasting_of_reachable (h : (Sql.sessions settings jsonb).Reachable Any s) :
    Lasting jsonb s := by
  apply h.invariant_of_reachable (I := Lasting jsonb)
  · intro s hs
    have hs : s = State.initial := hs
    subst hs
    constructor
    · intro c row hmem
      cases hmem
    · intro c job replay hmem
      cases hmem
    · intro c updated hsession
      cases hsession
    · intro message hmem
      cases hmem
    · intro message hmem
      cases hmem
  · intro s label s' hreach hlasting _ hs
    exact hlasting.step (inv_of_reachable hreach) (registry_of_reachable hreach) hs

/-- **What has been acknowledged stays.** In every reachable state, a row that was ever inserted and
    a record that `create_job` ever answered is stored with the columns it had then, the payload as
    the column gives it back; each message and each dead letter that was ever published names such
    a job, its handler and its priority; and each stored row was inserted by one call. -/
theorem acknowledged_stays (h : (Sql.sessions settings jsonb).Reachable Any s) :
    (∀ c row, .inserted c row ∈ s.history → ∃ payload stored, jsonb row.payload = some payload ∧
      s.db.getJob? row.id = some stored ∧ stored.fixed = { row with payload := payload }.fixed) ∧
    (∀ c job replay, .answered c job replay ∈ s.history →
      ∃ stored, s.db.getJob? job.id = some stored ∧ stored.fixed = job.fixed) ∧
    (∀ message ∈ s.producer.published, ∃ stored, s.db.getJob? message.jobId = some stored ∧
      stored.handler = message.handler ∧ stored.priority = message.priority) ∧
    (∀ message ∈ s.producer.deadLetters, ∃ stored, s.db.getJob? message.jobId = some stored ∧
      stored.handler = message.handler) ∧
    ∀ jobId stored, s.db.getJob? jobId = some stored →
      ∃ c row, .inserted c row ∈ s.history ∧ row.id = jobId ∧
        ∀ d row', .inserted d row' ∈ s.history → row'.id = jobId → d = c ∧ row' = row := by
  have hlasting := lasting_of_reachable h
  have hreg := registry_of_reachable h
  refine ⟨?_, hlasting.answered, ?_, ?_, ?_⟩
  · intro c row hmem
    obtain ⟨payload, hpayload, stored, hstored, hfixed⟩ := hlasting.inserted c row hmem
    exact ⟨payload, stored, hpayload, hstored, hfixed⟩
  · intro message hmem
    obtain ⟨job, ⟨stored, hstored, hfixed⟩, rfl⟩ := hlasting.messages message hmem
    exact ⟨stored, hstored, congrArg FixedColumns.handler hfixed,
      congrArg FixedColumns.priority hfixed⟩
  · intro message hmem
    obtain ⟨updated, ⟨stored, hstored, hfixed⟩, rfl⟩ := hlasting.deadLetters message hmem
    exact ⟨stored, hstored, congrArg FixedColumns.handler hfixed⟩
  · intro jobId stored hstored
    obtain ⟨c, row, hmem, hid, -⟩ := hreg.creator jobId stored hstored
    refine ⟨c, row, hmem, hid, fun d row' hmem' hid' => ?_⟩
    exact hreg.created_once d c row' row hmem' hmem (hid'.trans hid.symm)

/-- Two calls that submit one key at once; the message of the winner. -/
theorem acknowledged_stays_of_submitRace : ∃ s message stored,
    (Sql.sessions {} some).Reachable Any s ∧ s.producer.published = [message] ∧
      s.db.getJob? message.jobId = some stored ∧ stored.handler = message.handler ∧
      stored.priority = message.priority := by
  have hrun : ∃ s message, System.replay (State.step {} some) State.initial submitRace = some s ∧
      s.producer.published = [message] := ⟨_, _, rfl, rfl⟩
  obtain ⟨s, message, hs, hpublished⟩ := hrun
  have hreach : (Sql.sessions {} some).Reachable Any s :=
    ⟨State.initial, rfl, System.Steps.of_replay hs fun _ _ _ => trivial⟩
  obtain ⟨-, -, hmessages, -, -⟩ := acknowledged_stays hreach
  obtain ⟨stored, hstored, hhandler, hpriority⟩ := hmessages message (by simp [hpublished])
  exact ⟨s, message, stored, hreach, hpublished, hstored, hhandler, hpriority⟩

end State

end Sql

end JobPipeline
