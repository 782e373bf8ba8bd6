import JobPipeline.Sql.Serial

/-!
# Interleaved sessions and the memory repository

`Sql.Simulation` compares the two repositories on the same calls, one after another, and `Sql.Serial`
makes interleaved sessions into calls one after another. Together: whatever uncontested sessions do
with PostgreSQL at once, the memory repository does when it is given their method calls in the order
of their commits, if no attempt is marked failed after it was marked succeeded, and PostgreSQL gives
back what the run has stored.
-/

set_option autoImplicit false

namespace JobPipeline

namespace Sql

/-- The object that a call is about to store in a `JSONB` column. -/
def Session.writes : Session → Option JsonObject
  | .inserting row => some row.payload
  | .nextPending _ _ next => some next.payload
  | .succeedPending _ _ result _ => some result
  | _ => none

namespace State

open Transition

variable {settings : Settings} {jsonb : Jsonb} {s s' : State} {label : Label}
  {r : InMemoryJobRepository} {db db' : Database} {row : Job} {jobId : UUID}

/-- What `JSONB` gives back is equal to what was stored. -/
def GivesBack (jsonb : Jsonb) (object : JsonObject) : Prop :=
  ∀ stored, jsonb object = some stored → canonicalFields stored = canonicalFields object

/-- Uncontested, and what the memory repository does not do alike does not matter: a failed attempt is
    marked on a job that is running, what is written can be read back, and a successor runs when the
    cron expression says so at its creation, too. -/
structure Orderly (jsonb : Jsonb) (s : State) (label : Label) : Prop extends Uncontested s label where
  fail : ∀ c job succeeded read error now, label.action = .failCommit c →
    s.sessions c = .failPending job succeeded read error now →
    ∀ row, s.db.getJob? read.id = some row → row.status = .running
  object : ∀ c object, label.action.call = some c → (s.sessions c).writes = some object →
    GivesBack jsonb object
  runAt : ∀ c row, label.action = .insertCommit c → s.sessions c = .inserting row →
    ∀ runAt ∈ row.runAt, isDatetime runAt = true
  next : ∀ c job succeeded next, label.action = .nextCommit c →
    s.sessions c = .nextPending job succeeded next →
    ∀ cron ∈ succeeded.recurringCron, nextCronRun cron next.createdAt = .ok next.nextRunAt

/-- A row that was inserted fits its columns. -/
theorem insertJob_fits (h : db.insertJob jsonb row = .ok db') :
    fitsString 100 row.handler = true ∧ (∀ cron ∈ row.recurringCron, fitsString 100 cron = true) ∧
      (∀ key ∈ row.idempotencyKey, fitsString 200 key = true) ∧
      [row.priority, row.maxRetries, row.timeoutSeconds].all fitsInteger = true := by
  unfold Database.insertJob at h
  split at h
  · cases h
  split at h
  · cases h
  split at h
  · cases h
  split at h
  · cases h
  rename_i hhandler hcron hkey hintegers
  refine ⟨by simpa using hhandler, ?_, ?_, not_not.mp hintegers⟩
  · intro cron hmem
    rw [Option.mem_def] at hmem
    simpa [hmem] using hcron
  · intro key hmem
    rw [Option.mem_def] at hmem
    simpa [hmem] using hkey

/-- An identifier that PostgreSQL has not stored is new to the memory repository, too. -/
theorem fresh_of_insertJob (hmirrors : Mirrors r db) (h : db.insertJob jsonb row = .ok db') :
    r.jobs.get? row.id = none := by
  rcases hmirrors.lookup row.id with ⟨hnone, -⟩ | ⟨job, stored, -, hstored, -⟩
  · exact hnone
  · rw [(insertJob_ok h).1] at hstored
    cases hstored

/-- **A commit of an orderly step is a call that both repositories understand.** -/
theorem comparable_of_commits (hreach : (Sql.sessions settings jsonb).Reachable Any s)
    (hok : Orderly jsonb s label) (hmirrors : Mirrors r s.db) {call : MethodCall}
    (hcommits : Commits jsonb s label call) :
    Comparable jsonb r s.db call := by
  have hinv := inv_of_reachable hreach
  cases hcommits with
  | @createJob c t request jobId now db before commit =>
    obtain ⟨payload, hpayload, -⟩ := insertJob_payload commit
    obtain ⟨hhandler, -, hkey, -⟩ := insertJob_fits commit
    have hsame := hok.object c request.payload rfl (by rw [before]; rfl) payload hpayload
    refine ⟨fresh_of_insertJob hmirrors commit, (fitsString_iff.mp hhandler).2, ?_,
      ⟨payload, hpayload, hsame⟩, hok.runAt c _ rfl before⟩
    intro key hmem
    exact (fitsString_iff.mp (hkey key hmem)).2
  | claimJob read workerId now drawn before commit => exact (commitClaim_fits commit).1
  | @markSucceeded c t job read result now drawn db before commit =>
    unfold Database.commitSucceeded at commit
    split at commit
    · cases commit
    · rename_i stored hstored
      exact ⟨stored, hstored, hok.object c result rfl (by rw [before]; rfl) stored hstored⟩
  | @createNextRecurringJob c t job succeeded cron nextJobId nextRunAt after now db before recurs run
      commit =>
    obtain ⟨payload, hpayload, -⟩ := insertJob_payload commit
    obtain ⟨hhandler, hcron, -, hintegers⟩ := insertJob_fits commit
    have hsame := hok.object c succeeded.payload rfl (by rw [before]; rfl) payload hpayload
    refine ⟨fresh_of_insertJob hmirrors commit, hhandler, hcron, hintegers,
      ⟨payload, hpayload, hsame⟩, ?_⟩
    intro cron' hmem
    have hcreated := hok.next c job succeeded _ rfl before cron' hmem
    rw [Option.mem_def, recurs] at hmem
    cases hmem
    exact run.trans hcreated.symm
  | markFailedAttempt job succeeded read error now drawn before commit =>
    obtain ⟨hid, -⟩ := hinv.read_current _ read job.id (by rw [before]; rfl) (by rw [before]; rfl)
    refine ⟨?_, ?_⟩
    · intro stored hmem
      rw [Option.mem_def] at hmem
      rcases hmirrors.lookup job.id with ⟨hnone, -⟩ | ⟨stored', row, hstored, hrow, hview⟩
      · rw [hnone] at hmem
        cases hmem
      · rw [hstored] at hmem
        cases hmem
        have hrunning := hok.fail _ job succeeded read error now rfl before row (hid ▸ hrow)
        exact (congrArg JobRecord.status hview).trans hrunning
    · unfold Database.commitFailed at commit
      split at commit
      · cases commit
      · rename_i hfits
        simpa using hfits
  | cancelJob | setDrain => trivial

/-- The calls of an orderly run are calls that both repositories understand. -/
theorem allowed_of_commitOrder {calls : List MethodCall}
    (h : CommitOrder (Sql.sessions settings jsonb) (Orderly jsonb) (Commits jsonb) s calls) :
    Lockstep.Allowed InMemoryJobRepository.perform (SqlAlchemyJobRepository.perform jsonb)
      (Comparable jsonb) .empty .empty calls := by
  induction h with
  | init => trivial
  | silent _ _ _ _ ih => exact ih
  | commit before guard step committed ih =>
    have hmirrors := (mirrors_kept.run _ Mirrors.empty ih).2
    have hdb := serial.store_eq (before.mono fun _ _ hok => hok.toUncontested)
    refine Lockstep.allowed_concat.mpr ⟨ih, ?_⟩
    rw [hdb] at hmirrors ⊢
    exact comparable_of_commits before.reachable.any guard hmirrors committed

/-- **Interleaved sessions refine the memory repository**: it comes to equal jobs when it is given
    the method calls of an orderly run in the order of their commits, and it answers each of them
    as the SQL repository does. -/
theorem sessions_refine_memory
    (h : (Sql.sessions settings jsonb).Reachable (Orderly jsonb) s) :
    ∃ calls, CommitOrder (Sql.sessions settings jsonb) (Orderly jsonb) (Commits jsonb) s calls ∧
      SameRecords (Lockstep.run InMemoryJobRepository.perform .empty calls).2 s.db ∧
      List.Forall₂ Agrees (Lockstep.run InMemoryJobRepository.perform .empty calls).1
        (Lockstep.run (SqlAlchemyJobRepository.perform jsonb) .empty calls).1 ∧
      s.Told (Returned jsonb calls) := by
  have hcalls : ∃ calls, CommitOrder _ _ (Commits jsonb) s calls := exists_commitOrder h
  obtain ⟨calls, hcalls⟩ := hcalls
  have hserial := hcalls.mono fun _ _ hok => hok.toUncontested
  obtain ⟨hanswers, hrecords⟩ := memory_simulates_sql jsonb calls (allowed_of_commitOrder hcalls)
  rw [serial.store_eq hserial] at hrecords
  exact ⟨calls, hcalls, hrecords, hanswers, told_of_commitOrder hserial⟩

theorem sessions_refine_memory_of_racingReads :
    ∃ (s : State) (read : Job) (calls : List MethodCall), s.sessions 1 = .claimed Sample.jobId ∧
      s.sessions 2 = .claimPending read "worker-2" 0 ∧
      s.db.getDrain = true ∧
      SameRecords (Lockstep.run InMemoryJobRepository.perform .empty calls).2 s.db := by
  obtain ⟨s, read, hreach, hclaimed, hpending, hdrain⟩ := @reachable_racingClaim (Orderly some) (by
    intro s label hok himmediate
    refine ⟨hok, ?_, ?_, ?_, ?_⟩
    · intro c _ _ _ _ _ haction
      exact absurd haction (himmediate.1 c).1
    · intro c object _ _ stored hstored
      cases hstored
      rfl
    · intro c row haction hinserting runAt hmem
      rw [himmediate.2 c row haction hinserting] at hmem
      cases hmem
    · intro c _ _ _ haction
      exact absurd haction (himmediate.1 c).2)
  obtain ⟨calls, -, hrecords, -⟩ := sessions_refine_memory hreach
  exact ⟨s, read, calls, hclaimed, hpending, hdrain, hrecords⟩

end State

end Sql

end JobPipeline
