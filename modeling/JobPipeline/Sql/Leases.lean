import JobPipeline.Lib.VersionedLease
import JobPipeline.Sql.Effects

/-!
# Claims as leases

`claim_job` reads a row, tests it, and commits later without testing again. What makes the test
count is the attempt it inserts: its number is one more than the attempt count that was read, and
numbers of one job are unique. So a claim goes through exactly when no other claim of the job
committed since the read, which is the rule of a `VersionedLease` whose version is the attempt
count. `State.lease` is that lease for one job, and every effect of a step moves it by steps of
a lease or not at all.
-/

set_option autoImplicit false

namespace JobPipeline

namespace Sql

/-- What no `UPDATE` touches, of the columns the laws speak of. -/
structure Keeps (row row' : Job) : Prop where
  id : row'.id = row.id
  maxRetries : row'.maxRetries = row.maxRetries
  idempotencyKey : row'.idempotencyKey = row.idempotencyKey

theorem Keeps.refl (row : Job) : Keeps row row := ⟨rfl, rfl, rfl⟩

/-- The attempt count of the row a claim has read, if the row is the job's. -/
def Session.viewOf (session : Session) (jobId : UUID) : Option Nat :=
  match session.view with
  | some row => if row.id = jobId then some row.attemptCount else none
  | none => none

theorem Session.read_of_view {session : Session} {row : Job} (h : session.view = some row) :
    session.read = some row := by
  unfold Session.view at h
  split at h
  · exact h
  · cases h

theorem Session.viewOf_of_unread {session : Session} (h : session.read = none) (jobId : UUID) :
    session.viewOf jobId = none := by
  unfold Session.viewOf
  split
  · rename_i row hview
    rw [Session.read_of_view hview] at h
    cases h
  · rfl

def Event.isStart (jobId : UUID) : Event → Bool
  | .started _ id => id = jobId
  | _ => false

theorem Event.isStart_of_quiet {e : Event} (h : e.Quiet) (jobId : UUID) :
    e.isStart jobId = false := by
  cases e with
  | requested | answered | published => rfl
  | inserted | claimed | started | cancelled => cases h

namespace State

variable {s s' : State} {c : CallId} {jobId : UUID} {call : Option CallId}

/-- The numbers of the job's attempts, in the order of insertion. -/
def attemptNumbers (s : State) (jobId : UUID) : List Nat :=
  (s.db.jobAttempts.filter fun attempt => attempt.jobId = jobId).map JobAttempt.attemptNumber

def version (s : State) (jobId : UUID) : Nat :=
  ((s.db.jobs.get? jobId).map Job.attemptCount).getD 0

def claimable (s : State) (jobId : UUID) : Bool :=
  ((s.db.jobs.get? jobId).map fun row => row.status.isPending).getD true

/-- How often the handler of the job was started. -/
def starts (s : State) (jobId : UUID) : Nat := s.history.countP (Event.isStart jobId)

/-- The lease of a job; one that is not stored yet has never been claimed. -/
def lease (s : State) (jobId : UUID) : VersionedLease CallId where
  version := s.version jobId
  isOpen := s.claimable jobId
  view c := (s.sessions c).viewOf jobId
  holds c := (s.sessions c).held = some jobId

/-- The invariant of the sessions and the tables. -/
structure Inv (s : State) : Prop extends Known s where
  exclusive : ∀ jobId row, s.db.jobs.get? jobId = some row →
    (s.lease jobId).Exclusive row.maxRetries
  attempts : ∀ jobId, s.attemptNumbers jobId = List.range' 1 (s.version jobId)
  read_stored : ∀ c read, (s.sessions c).read = some read →
    ∃ row, s.db.jobs.get? read.id = some row ∧ row.maxRetries = read.maxRetries
  /-- What the holder of a job has read of it is still so. -/
  read_current : ∀ c read jobId, (s.sessions c).read = some read →
    (s.sessions c).held = some jobId → read.id = jobId ∧ read.attemptCount = s.version jobId

theorem version_of_stored {row : Job} (h : s.db.jobs.get? jobId = some row) :
    s.version jobId = row.attemptCount := by
  simp [version, h]

theorem claimable_of_stored {row : Job} (h : s.db.jobs.get? jobId = some row) :
    s.claimable jobId = row.status.isPending := by
  simp [claimable, h]

/-! ## Claims and attempt numbers -/

theorem hasAttempt_iff {n : Nat} : s.db.hasAttempt jobId n = true ↔ n ∈ s.attemptNumbers jobId := by
  simp only [Database.hasAttempt, attemptNumbers, List.any_eq_true, Bool.and_eq_true,
    decide_eq_true_eq, List.mem_map, List.mem_filter]
  constructor
  · intro h
    obtain ⟨attempt, hmem, hjob, hnumber⟩ := h
    exact ⟨attempt, ⟨hmem, hjob⟩, hnumber⟩
  · intro h
    obtain ⟨attempt, ⟨hmem, hjob⟩, hnumber⟩ := h
    exact ⟨attempt, hmem, hjob, hnumber⟩

theorem attemptNumbers_finish (db : Database) (jobId id : UUID) (n : Nat) (status : AttemptStatus)
    (error : Option String) (now : Int) :
    ((db.finishAttempt id n status error now).jobAttempts.filter fun a => a.jobId = jobId).map
        JobAttempt.attemptNumber =
      (db.jobAttempts.filter fun a => a.jobId = jobId).map JobAttempt.attemptNumber := by
  simp only [Database.finishAttempt]
  induction db.jobAttempts with
  | nil => rfl
  | cons attempt rest ih =>
    rw [List.map_cons]
    have hjob : (if attempt.jobId = id ∧ attempt.attemptNumber = n then
        { attempt with status := status, error := error, finishedAt := some now }
        else attempt).jobId = attempt.jobId := by split <;> rfl
    have hnumber : (if attempt.jobId = id ∧ attempt.attemptNumber = n then
        { attempt with status := status, error := error, finishedAt := some now }
        else attempt).attemptNumber = attempt.attemptNumber := by split <;> rfl
    by_cases h : attempt.jobId = jobId
    · rw [List.filter_cons_of_pos (by simpa [hjob] using h), List.filter_cons_of_pos (by simpa using h),
        List.map_cons, List.map_cons, hnumber, ih]
    · rw [List.filter_cons_of_neg (by simpa [hjob] using h), List.filter_cons_of_neg (by simpa using h),
        ih]

/-- **A claim's attempt number is free exactly when its read is current.** -/
theorem Inv.free_iff (h : s.Inv) {read : Job} {workerId : String} {now : Int}
    (hcall : s.sessions c = .claimPending read workerId now) :
    s.db.hasAttempt read.id (read.attemptCount + 1) = false ↔
      read.attemptCount = s.version read.id := by
  obtain ⟨row, hrow, -⟩ := h.read_stored c read (by rw [hcall]; rfl)
  have hle := (h.exclusive read.id row hrow).view_le c read.attemptCount (by
    simp [lease, hcall, Session.viewOf, Session.view])
  change read.attemptCount ≤ s.version read.id at hle
  have hmem : read.attemptCount + 1 ∈ s.attemptNumbers read.id ↔
      read.attemptCount < s.version read.id := by
    rw [h.attempts, List.mem_range'_1]
    omega
  rw [← Bool.not_eq_true, hasAttempt_iff, hmem]
  omega

/-! ## How a step moves a lease -/

variable {session : Session}

theorem version_congr (h : s'.db.jobs = s.db.jobs) (jobId : UUID) :
    s'.version jobId = s.version jobId := by
  simp only [version, h]

theorem claimable_congr (h : s'.db.jobs = s.db.jobs) (jobId : UUID) :
    s'.claimable jobId = s.claimable jobId := by
  simp only [claimable, h]

theorem lease_of_moves (hmoves : Moves s s' c session) (jobId : UUID) :
    s'.lease jobId =
      { version := s'.version jobId
        isOpen := s'.claimable jobId
        view := Function.update (s.lease jobId).view c (session.viewOf jobId)
        holds := Function.update (s.lease jobId).holds c (session.held = some jobId) } := by
  have hmoves : s'.sessions = Function.update s.sessions c session := hmoves
  have hview : (s'.lease jobId).view =
      Function.update (s.lease jobId).view c (session.viewOf jobId) := by
    funext c'
    by_cases hc : c' = c
    · subst hc
      simp [lease, hmoves]
    · simp [lease, hmoves, hc]
  have hholds : (s'.lease jobId).holds =
      Function.update (s.lease jobId).holds c (session.held = some jobId) := by
    funext c'
    by_cases hc : c' = c
    · subst hc
      simp [lease, hmoves]
    · simp [lease, hmoves, hc]
  rw [← hview, ← hholds]
  rfl

/-- A session moves on, and the row of the job is open exactly if it was. -/
theorem exclusive_of_moves {bound : Nat} (h : (s.lease jobId).Exclusive bound)
    (hmoves : Moves s s' c session) (hversion : s'.version jobId = s.version jobId)
    (hopen : s'.claimable jobId = s.claimable jobId)
    (hview : session.viewOf jobId = none ∨ session.viewOf jobId = (s.sessions c).viewOf jobId)
    (hheld : session.held ≠ some jobId ∨ session.held = (s.sessions c).held) :
    (s'.lease jobId).Exclusive bound := by
  rw [lease_of_moves hmoves, hversion, hopen]
  apply h.withdraw c hview
  rcases hheld with hne | heq
  · exact Or.inl hne
  · exact Or.inr (by rw [heq]; rfl)

/-- A session moves on, and the row of the job is closed. -/
theorem exclusive_of_closes {bound : Nat} (h : (s.lease jobId).Exclusive bound)
    (hmoves : Moves s s' c session) (hversion : s'.version jobId = s.version jobId)
    (hopen : s'.claimable jobId = false) (hview : session.viewOf jobId = none)
    (hheld : session.held ≠ some jobId ∨ session.held = (s.sessions c).held) :
    (s'.lease jobId).Exclusive bound := by
  rw [lease_of_moves hmoves, hversion, hopen]
  refine (h.step .close).withdraw c (Or.inl hview) ?_
  rcases hheld with hne | heq
  · exact Or.inl hne
  · exact Or.inr (by rw [heq]; rfl)

/-- An `UPDATE` that leaves `attempt_count` alone. -/
theorem version_of_update {id : UUID} {assign : Job → Job}
    (hjobs : s'.db.jobs = s.db.jobs.modify id assign)
    (hcount : ∀ row, (assign row).attemptCount = row.attemptCount) (jobId : UUID) :
    s'.version jobId = s.version jobId := by
  simp only [version, hjobs, Dict.get?_modify]
  split
  · rw [Option.map_map]
    congr 2
    funext row
    exact hcount row
  · rfl

theorem claimable_of_update_ne {id : UUID} {assign : Job → Job}
    (hjobs : s'.db.jobs = s.db.jobs.modify id assign) (hne : jobId ≠ id) :
    s'.claimable jobId = s.claimable jobId := by
  simp only [claimable, hjobs, Dict.get?_modify_of_ne _ _ hne]

theorem get?_of_update {id : UUID} {assign : Job → Job} {row : Job}
    (hjobs : s'.db.jobs = s.db.jobs.modify id assign) (hrow : s.db.jobs.get? id = some row) :
    s'.db.jobs.get? id = some (assign row) := by
  rw [hjobs, Dict.get?_modify_self, hrow]
  rfl

theorem claimable_of_update {id : UUID} {assign : Job → Job} {row : Job}
    (hjobs : s'.db.jobs = s.db.jobs.modify id assign) (hrow : s.db.jobs.get? id = some row) :
    s'.claimable id = (assign row).status.isPending :=
  claimable_of_stored (get?_of_update hjobs hrow)

/-- A new row is where the lease of a job that is not stored already was. -/
theorem version_of_insert {row : Job} {payload : JsonObject}
    (hjobs : s'.db.jobs = s.db.jobs.insert row.id { row with payload := payload })
    (hfresh : s.db.jobs.get? row.id = none) (hnew : New row) (jobId : UUID) :
    s'.version jobId = s.version jobId ∧ s'.claimable jobId = s.claimable jobId := by
  simp only [version, claimable, hjobs, Dict.get?_insert]
  split
  · rename_i heq
    rw [heq, hfresh]
    simp [hnew.1, hnew.2, JobStatus.isPending]
  · exact ⟨rfl, rfl⟩

/-- Nobody has looked at a job that is not stored. -/
theorem Inv.lease_of_fresh (h : s.Inv) (hfresh : s.db.jobs.get? jobId = none) :
    s.lease jobId = .initial := by
  have hview : ∀ c, (s.sessions c).viewOf jobId = none := by
    intro c
    unfold Session.viewOf
    split
    · rename_i read hview
      obtain ⟨row, hrow, -⟩ := h.read_stored c read (Session.read_of_view hview)
      split
      · rename_i heq
        rw [heq, hfresh] at hrow
        cases hrow
      · rfl
    · rfl
  have hholds : ∀ c, ¬ (s.sessions c).held = some jobId := by
    intro c hheld
    obtain ⟨row, hrow⟩ := h.held_stored c jobId hheld
    rw [hfresh] at hrow
    cases hrow
  unfold lease VersionedLease.initial
  simp only [version, claimable, hfresh, hview, hholds]
  rfl

/-- `claim_job` reads the row as it is, which is a look at the lease. -/
theorem exclusive_of_reads {bound : Nat} {row : Job} (hl : (s.lease jobId).Exclusive bound)
    (tables : SameTables s s') (moves : Moves s s' c session) (read : session.read = some row)
    (stored : s.db.jobs.get? row.id = some row)
    (claimable : ∀ view, session.view = some view → row.status.isPending = true)
    (held : session.held = (s.sessions c).held) : (s'.lease jobId).Exclusive bound := by
  have hversion := version_congr tables.1 jobId
  have hopen := claimable_congr tables.1 jobId
  have hview : session.viewOf jobId = none ∨ session.viewOf jobId = some row.attemptCount ∧
      row.id = jobId ∧ row.status.isPending = true := by
    unfold Session.viewOf
    cases hv : session.view with
    | none => exact Or.inl rfl
    | some view =>
      have heq : view = row := by
        have := Session.read_of_view hv
        rw [read] at this
        exact (Option.some.inj this).symm
      subst heq
      by_cases hid : view.id = jobId
      · exact Or.inr ⟨by simp [hid], hid, claimable view hv⟩
      · exact Or.inl (by simp [hid])
  rcases hview with hnone | ⟨hsome, hid, hpending⟩
  · exact exclusive_of_moves hl moves hversion hopen (Or.inl hnone) (Or.inr held)
  · subst hid
    rw [lease_of_moves moves, hversion, hopen, hsome, held, ← version_of_stored stored]
    have hlook := hl.step (.look c ((claimable_of_stored stored).trans hpending))
    rwa [← Function.update_eq_self c (s.lease row.id).holds] at hlook

/-- The commit of a claim whose attempt has a new number acquires the lease. -/
theorem exclusive_of_claim {bound : Nat} {row stored : Job} {workerId : String} {now : Int}
    (h : s.Inv) (hl : (s.lease row.id).Exclusive bound)
    (before : s.sessions c = .claimPending row workerId now)
    (free : s.db.hasAttempt row.id (row.attemptCount + 1) = false)
    (hstored : s.db.jobs.get? row.id = some stored)
    (jobs : s'.db.jobs = s.db.jobs.modify row.id (row.claimAssignments workerId now))
    (moves : Moves s s' c (.claimed row.id)) : (s'.lease row.id).Exclusive bound := by
  have hcurrent := (h.free_iff before).mp free
  have hstored' := get?_of_update jobs hstored
  have hview : (s.lease row.id).view c = some (s.lease row.id).version := by
    simp [lease, before, Session.viewOf, Session.view, hcurrent]
  have hacquire := hl.step (.acquire c hview)
  rw [lease_of_moves moves, version_of_stored hstored', claimable_of_stored hstored']
  have hversion : (row.claimAssignments workerId now stored).attemptCount =
      (s.lease row.id).version + 1 := by
    change row.attemptCount + 1 = s.version row.id + 1
    rw [hcurrent]
  rw [hversion]
  simpa [Session.viewOf, Session.view, Session.held, Job.claimAssignments, JobStatus.isPending]
    using hacquire

/-- The holder lets go at the commit of a failure; it reopens the job if its own read was not
    exhausted. -/
theorem exclusive_of_fail {bound : Nat} {job : JobRecord} {succeeded : Option JobRecord}
    {row current : Job} {error : String} {now : Int} (h : s.Inv)
    (hl : (s.lease row.id).Exclusive bound)
    (before : s.sessions c = .failPending job succeeded row error now)
    (hcurrent : s.db.jobs.get? row.id = some current) (hretries : current.maxRetries = row.maxRetries)
    (hmax : current.maxRetries = bound)
    (jobs : s'.db.jobs = s.db.jobs.modify row.id
      (row.failAssignments error (backoffSeconds job.attemptCount) now))
    (moves : Moves s s' c (.failed row.id)) : (s'.lease row.id).Exclusive bound := by
  have hversion := version_of_update jobs (fun _ => rfl) row.id
  obtain ⟨hjob, hcount⟩ := h.read_current c row job.id (by rw [before]; rfl) (by rw [before]; rfl)
  have hholds : (s.lease row.id).holds c := by
    change (s.sessions c).held = some row.id
    rw [before, hjob]
    rfl
  have hopens : (row.failAssignments error (backoffSeconds job.attemptCount) now
      current).status.isPending = true → s.version row.id ≤ bound := by
    intro hpending
    have hexhausted : row.exhausted = false := by
      cases hx : row.exhausted with
      | false => rfl
      | true => simp [Job.failAssignments, hx, JobStatus.isPending] at hpending
    rw [← hjob] at hcount
    simp only [Job.exhausted, decide_eq_false_iff_not] at hexhausted
    omega
  rw [lease_of_moves moves, hversion, claimable_of_update jobs hcurrent]
  have hrelease := hl.step (.release c (row.failAssignments error
    (backoffSeconds job.attemptCount) now current).status.isPending hholds hopens)
  rw [← Function.update_eq_self c (s.lease row.id).view] at hrelease
  simpa [Session.viewOf, Session.view, Session.held, lease, before] using hrelease

/-- **Every step moves the lease of every job by steps of a lease.** -/
theorem Effect.exclusive (he : Effect s s' call) (h : s.Inv) {bound : Nat}
    (hl : (s.lease jobId).Exclusive bound)
    (hbound : ∀ row, s.db.jobs.get? jobId = some row → row.maxRetries = bound) :
    (s'.lease jobId).Exclusive bound := by
  cases he with
  | idle tables sessions history =>
    have heq : s'.lease jobId = s.lease jobId := by
      simp only [lease, sessions, version_congr tables.1, claimable_congr tables.1]
    rwa [heq]
  | quiet c session tables moves read held =>
    refine exclusive_of_moves hl moves (version_congr tables.1 jobId)
      (claimable_congr tables.1 jobId) (Or.inl (Session.viewOf_of_unread read jobId)) ?_
    rcases held with held | held
    · exact Or.inl (by simp [held])
    · exact Or.inr held
  | reads c session row tables moves read stored claimable owner held =>
    exact exclusive_of_reads hl tables moves read stored claimable held
  | start c job tables moves before =>
    refine exclusive_of_moves hl moves (version_congr tables.1 jobId)
      (claimable_congr tables.1 jobId) (Or.inl rfl) (Or.inr ?_)
    rw [before]
    rfl
  | insert c row payload session jobs attempts fresh new moves read held =>
    obtain ⟨hversion, hopen⟩ := version_of_insert jobs fresh new jobId
    exact exclusive_of_moves hl moves hversion hopen
      (Or.inl (Session.viewOf_of_unread read jobId)) (Or.inl (by simp [held]))
  | claim c row workerId now before fits free jobs attempts moves =>
    obtain ⟨stored, hstored, -⟩ := h.read_stored c row (by rw [before]; rfl)
    by_cases hid : jobId = row.id
    · subst hid
      exact exclusive_of_claim h hl before free hstored jobs moves
    · refine exclusive_of_moves hl moves ?_ (claimable_of_update_ne jobs hid) (Or.inl rfl)
        (Or.inl ?_)
      · simp only [version, jobs, Dict.get?_modify_of_ne _ _ hid]
      · exact fun heq => hid (Option.some.inj heq).symm
  | succeed c job row result stored now before jobs attempts moves =>
    obtain ⟨current, hcurrent, -⟩ := h.read_stored c row (by rw [before]; rfl)
    have hversion := version_of_update jobs (fun _ => rfl) jobId
    have hheld : (Session.succeeded job).held = (s.sessions c).held := by rw [before]; rfl
    by_cases hid : jobId = row.id
    · subst hid
      exact exclusive_of_closes hl moves hversion (claimable_of_update jobs hcurrent) rfl
        (Or.inr hheld)
    · exact exclusive_of_moves hl moves hversion (claimable_of_update_ne jobs hid) (Or.inl rfl)
        (Or.inr hheld)
  -- Whether the job may be claimed again depends on the bound, a column of its row.
  | fail c job succeeded row error now before fits jobs attempts moves =>
    obtain ⟨current, hcurrent, hretries⟩ := h.read_stored c row (by rw [before]; rfl)
    by_cases hid : jobId = row.id
    · subst hid
      exact exclusive_of_fail h hl before hcurrent hretries (hbound current hcurrent) jobs moves
    · exact exclusive_of_moves hl moves (version_of_update jobs (fun _ => rfl) jobId)
        (claimable_of_update_ne jobs hid) (Or.inl rfl) (Or.inl (by simp [Session.held]))
  -- A cancelled job is closed to later claims, whoever held it.
  | cancel c row now before jobs attempts moves =>
    obtain ⟨current, hcurrent, -⟩ := h.read_stored c row (by rw [before]; rfl)
    have hversion := version_of_update jobs (fun _ => rfl) jobId
    by_cases hid : jobId = row.id
    · subst hid
      exact exclusive_of_closes hl moves hversion (claimable_of_update jobs hcurrent) rfl
        (Or.inl (by simp [Session.held]))
    · exact exclusive_of_moves hl moves hversion (claimable_of_update_ne jobs hid) (Or.inl rfl)
        (Or.inl (by simp [Session.held]))

/-! ## The invariant -/

/-- A step updates the row of a job, or creates it. -/
theorem Effect.row (he : Effect s s' call) (jobId : UUID) :
    (∃ assign : Job → Job, (∀ row, Keeps row (assign row)) ∧
        s'.db.jobs.get? jobId = (s.db.jobs.get? jobId).map assign) ∨
      s.db.jobs.get? jobId = none ∧
        ∃ row, s'.db.jobs.get? jobId = some row ∧ New row ∧ row.id = jobId := by
  have hsame : s'.db.jobs = s.db.jobs →
      ∃ assign : Job → Job, (∀ row, Keeps row (assign row)) ∧
        s'.db.jobs.get? jobId = (s.db.jobs.get? jobId).map assign := by
    intro hjobs
    exact ⟨id, Keeps.refl, by rw [hjobs, Option.map_id, id]⟩
  have hupdate : ∀ (id : UUID) (assign : Job → Job), (∀ row, Keeps row (assign row)) →
      s'.db.jobs = s.db.jobs.modify id assign →
      ∃ assign : Job → Job, (∀ row, Keeps row (assign row)) ∧
        s'.db.jobs.get? jobId = (s.db.jobs.get? jobId).map assign := by
    intro id assign hkeeps hjobs
    by_cases hid : jobId = id
    · subst hid
      exact ⟨assign, hkeeps, by rw [hjobs, Dict.get?_modify_self]⟩
    · exact ⟨fun row => row, Keeps.refl, by rw [hjobs, Dict.get?_modify_of_ne _ _ hid]; simp⟩
  cases he with
  | idle tables => exact Or.inl (hsame tables.1)
  | quiet _ _ tables => exact Or.inl (hsame tables.1)
  | reads _ _ _ tables => exact Or.inl (hsame tables.1)
  | start _ _ tables => exact Or.inl (hsame tables.1)
  | insert c row payload session jobs attempts fresh new =>
    by_cases hid : jobId = row.id
    · subst hid
      exact Or.inr ⟨fresh, { row with payload := payload }, by rw [jobs, Dict.get?_insert_self],
        new, rfl⟩
    · exact Or.inl ⟨fun row => row, Keeps.refl, by rw [jobs, Dict.get?_insert_of_ne _ _ hid]; simp⟩
  | claim c row workerId now before fits free jobs =>
    exact Or.inl (hupdate row.id (row.claimAssignments workerId now) (fun _ => ⟨rfl, rfl, rfl⟩) jobs)
  | succeed c job row result stored now before jobs =>
    exact Or.inl (hupdate row.id (Job.succeedAssignments stored now) (fun _ => ⟨rfl, rfl, rfl⟩) jobs)
  | fail c job succeeded row error now before fits jobs =>
    exact Or.inl (hupdate row.id (row.failAssignments error (backoffSeconds job.attemptCount) now)
      (fun _ => ⟨rfl, rfl, rfl⟩) jobs)
  | cancel c row now before jobs =>
    exact Or.inl (hupdate row.id (Job.cancelAssignments now) (fun _ => ⟨rfl, rfl, rfl⟩) jobs)

theorem Effect.persist (he : Effect s s' call) {row : Job} (h : s.db.jobs.get? jobId = some row) :
    ∃ row', s'.db.jobs.get? jobId = some row' ∧ Keeps row row' := by
  rcases he.row jobId with ⟨assign, hkeeps, hrow⟩ | ⟨hnone, -⟩
  · exact ⟨assign row, by rw [hrow, h]; rfl, hkeeps row⟩
  · rw [h] at hnone
    cases hnone

theorem Effect.stored (he : Effect s s' call) {row' : Job} (h : s'.db.jobs.get? jobId = some row') :
    (∃ row, s.db.jobs.get? jobId = some row ∧ Keeps row row') ∨
      s.db.jobs.get? jobId = none ∧ New row' ∧ row'.id = jobId := by
  rcases he.row jobId with ⟨assign, hkeeps, hrow⟩ | ⟨hnone, row, hrow, hnew, hid⟩
  · rw [h] at hrow
    obtain ⟨row, hstored, rfl⟩ := Option.map_eq_some_iff.mp hrow.symm
    exact Or.inl ⟨row, hstored, hkeeps row⟩
  · rw [h] at hrow
    cases hrow
    exact Or.inr ⟨hnone, hnew, hid⟩

/-- The history only grows. -/
theorem Effect.history_mem (he : Effect s s' call) {e : Event} (h : e ∈ s.history) :
    e ∈ s'.history := by
  cases he with
  | idle tables sessions history => rwa [history]
  | quiet c session tables moves read held attempting unstarted pending raised talk =>
    obtain ⟨events, heq, -⟩ := talk.events
    rw [heq]
    exact List.mem_append_right _ h
  | reads c session row tables moves read stored claimable owner held attempting history =>
    rwa [history]
  | start c job tables moves before history =>
    rw [history]
    exact List.mem_cons_of_mem _ h
  | insert c row payload session jobs attempts fresh new moves read held pending history =>
    rw [history]
    exact List.mem_cons_of_mem _ h
  | claim c row workerId now before fits free jobs attempts moves history =>
    rw [history]
    exact List.mem_cons_of_mem _ h
  | succeed c job row result stored now before jobs attempts moves history => rwa [history]
  | fail c job succeeded row error now before fits jobs attempts moves history => rwa [history]
  | cancel c row now before jobs attempts moves history =>
    rw [history]
    exact List.mem_cons_of_mem _ h

/-- A row that is new has just been inserted. -/
theorem Effect.created (he : Effect s s' call) {created : Job}
    (h : .inserted c created ∈ s'.history) :
    .inserted c created ∈ s.history ∨
      ∃ payload, s'.db.jobs.get? created.id = some { created with payload := payload } ∧
        s.db.jobs.get? created.id = none ∧ s'.history = .inserted c created :: s.history := by
  cases he with
  | idle tables sessions history => exact Or.inl (history ▸ h)
  | quiet c session tables moves read held attempting unstarted pending raised talk =>
    obtain ⟨events, hhistory, hquiet⟩ := talk.events
    rw [hhistory, List.mem_append] at h
    rcases h with h | h
    · exact absurd (hquiet _ h) id
    · exact Or.inl h
  | reads c session row tables moves read stored claimable owner held attempting history =>
    exact Or.inl (history ▸ h)
  | insert c row payload session jobs attempts fresh new moves read held pending history =>
    have hmem := h
    rw [history, List.mem_cons] at hmem
    rcases hmem with hmem | hmem
    · cases hmem
      exact Or.inr ⟨payload, by rw [jobs, Dict.get?_insert_self], fresh, history⟩
    · exact Or.inl hmem
  | start c job tables moves before history => exact Or.inl (by simpa [history] using h)
  | claim c row workerId now before fits free jobs attempts moves history =>
    exact Or.inl (by simpa [history] using h)
  | succeed c job row result stored now before jobs attempts moves history =>
    exact Or.inl (history ▸ h)
  | fail c job succeeded row error now before fits jobs attempts moves history =>
    exact Or.inl (history ▸ h)
  | cancel c row now before jobs attempts moves history => exact Or.inl (by simpa [history] using h)

/-- A session after the step of one session. -/
theorem session_cases (hmoves : Moves s s' c session) (c' : CallId) :
    (c' = c ∧ s'.sessions c' = session) ∨ (c' ≠ c ∧ s'.sessions c' = s.sessions c') := by
  have hmoves : s'.sessions = Function.update s.sessions c session := hmoves
  by_cases hc : c' = c
  · subst hc
    exact Or.inl ⟨rfl, by rw [hmoves, Function.update_self]⟩
  · exact Or.inr ⟨hc, by rw [hmoves, Function.update_of_ne hc]⟩

/-- What a step means for the attempts of a job. -/
inductive Tick (s s' : State) (jobId : UUID) : Prop where
  | same (version : s'.version jobId = s.version jobId)
      (numbers : s'.attemptNumbers jobId = s.attemptNumbers jobId)
      (starts : s'.starts jobId = s.starts jobId)
      (claimed : ∀ c, s'.sessions c = .claimed jobId → s.sessions c = .claimed jobId)
  | claim (c : CallId) (view : (s.lease jobId).view c = some (s.version jobId))
      (version : s'.version jobId = s.version jobId + 1)
      (numbers : s'.attemptNumbers jobId = s.attemptNumbers jobId ++ [s.version jobId + 1])
      (starts : s'.starts jobId = s.starts jobId)
  | start (c : CallId) (job : JobRecord) (before : s.sessions c = .claimed jobId)
      (moves : Moves s s' c (.running job)) (version : s'.version jobId = s.version jobId)
      (numbers : s'.attemptNumbers jobId = s.attemptNumbers jobId)
      (starts : s'.starts jobId = s.starts jobId + 1)

theorem starts_of_append {events : List Event} (h : s'.history = events ++ s.history)
    (hevents : ∀ e ∈ events, e.isStart jobId = false) : s'.starts jobId = s.starts jobId := by
  rw [starts, h, List.countP_append, List.countP_eq_zero.mpr (by simpa using hevents), Nat.zero_add]
  rfl

/-- Attempts are counted by claims only, and each claim counts on. -/
theorem Effect.tick (he : Effect s s' call) (h : s.Inv) (jobId : UUID) : Tick s s' jobId := by
  have hunclaimed : ∀ {c : CallId} {session : Session}, Moves s s' c session →
      session ≠ .claimed jobId →
      ∀ c', s'.sessions c' = .claimed jobId → s.sessions c' = .claimed jobId := by
    intro c session hmoves hne c' hclaimed
    rcases session_cases hmoves c' with ⟨-, heq⟩ | ⟨-, heq⟩
    · exact absurd (heq.symm.trans hclaimed) hne
    · exact heq ▸ hclaimed
  have hnumbers : s'.db.jobAttempts = s.db.jobAttempts →
      s'.attemptNumbers jobId = s.attemptNumbers jobId := by
    intro hattempts
    simp only [attemptNumbers, hattempts]
  have hstarts : ∀ {e : Event}, s'.history = e :: s.history → e.isStart jobId = false →
      s'.starts jobId = s.starts jobId := by
    intro e hhistory hstart
    have happend : s'.history = [e] ++ s.history := hhistory
    exact starts_of_append happend (by simpa using hstart)
  have hsilent : s'.history = s.history → s'.starts jobId = s.starts jobId := by
    intro hhistory
    simp only [starts, hhistory]
  cases he with
  | idle tables sessions history =>
    exact .same (version_congr tables.1 jobId) (hnumbers tables.2) (hsilent history)
      (fun c hc => sessions ▸ hc)
  | quiet c session tables moves read held attempting unstarted pending raised talk =>
    obtain ⟨events, hhistory, hquiet⟩ := talk.events
    exact .same (version_congr tables.1 jobId) (hnumbers tables.2)
      (starts_of_append hhistory fun e he => Event.isStart_of_quiet (hquiet e he) jobId)
      (hunclaimed moves (unstarted jobId))
  | reads c session row tables moves read stored claimable owner held attempting history =>
    refine .same (version_congr tables.1 jobId) (hnumbers tables.2) (hsilent history)
      (hunclaimed moves ?_)
    intro hclaimed
    rw [hclaimed] at read
    cases read
  | start c job tables moves before history =>
    by_cases hid : job.id = jobId
    · subst hid
      refine .start c job before moves (version_congr tables.1 job.id) (hnumbers tables.2) ?_
      rw [starts, history, List.countP_cons_of_pos (by simp [Event.isStart])]
      rfl
    · exact .same (version_congr tables.1 jobId) (hnumbers tables.2)
        (hstarts history (by simpa [Event.isStart] using hid)) (hunclaimed moves (by simp))
  | insert c row payload session jobs attempts fresh new moves read held pending history =>
    refine .same (version_of_insert jobs fresh new jobId).1 (hnumbers attempts)
      (hstarts history rfl) (hunclaimed moves ?_)
    intro hclaimed
    rw [hclaimed] at held
    cases held
  | claim c row workerId now before fits free jobs attempts moves history =>
    obtain ⟨stored, hstored, -⟩ := h.read_stored c row (by rw [before]; rfl)
    -- The number was free, so the call had read the row as it is.
    have hcurrent := (h.free_iff before).mp free
    by_cases hid : jobId = row.id
    · subst hid
      refine .claim c ?_ ?_ ?_ (hstarts history rfl)
      · simp [lease, before, Session.viewOf, Session.view, hcurrent]
      · rw [version_of_stored (get?_of_update jobs hstored), ← hcurrent]
        rfl
      · simp [attemptNumbers, attempts, hcurrent]
    · refine .same ?_ ?_ (hstarts history rfl) (hunclaimed moves ?_)
      · simp only [version, jobs, Dict.get?_modify_of_ne _ _ hid]
      · simp [attemptNumbers, attempts, Ne.symm hid]
      · simpa using Ne.symm hid
  | succeed c job row result stored now before jobs attempts moves history =>
    refine .same (version_of_update jobs (fun _ => rfl) jobId) ?_ (hsilent history)
      (hunclaimed moves (by simp))
    simp only [attemptNumbers, attempts]
    exact attemptNumbers_finish ..
  | fail c job succeeded row error now before fits jobs attempts moves history =>
    refine .same (version_of_update jobs (fun _ => rfl) jobId) ?_ (hsilent history)
      (hunclaimed moves (by simp))
    simp only [attemptNumbers, attempts]
    exact attemptNumbers_finish ..
  | cancel c row now before jobs attempts moves history =>
    exact .same (version_of_update jobs (fun _ => rfl) jobId) (hnumbers attempts)
      (hstarts history rfl) (hunclaimed moves (by simp))

/-- A row that a call has read after the step, it had read before or reads now. -/
theorem Effect.read (he : Effect s s' call) {read : Job} (h : (s'.sessions c).read = some read) :
    ((s.sessions c).read = some read ∧ s'.sessions c = s.sessions c) ∨
      s.db.jobs.get? read.id = some read ∧ SameTables s s' ∧
        ∀ jobId, (s'.sessions c).held = some jobId → read.id = jobId := by
  have hmoved : ∀ (d : CallId) (session : Session), Moves s s' d session → session.read = none →
      (s.sessions c).read = some read ∧ s'.sessions c = s.sessions c := by
    intro d session hmoves hread
    rcases session_cases hmoves c with ⟨-, heq⟩ | ⟨-, heq⟩
    · rw [heq, hread] at h
      cases h
    · exact ⟨heq ▸ h, heq⟩
  cases he with
  | idle tables sessions =>
    rw [sessions] at h ⊢
    exact Or.inl ⟨h, rfl⟩
  | quiet d session tables moves unread => exact Or.inl (hmoved d session moves unread)
  | reads d session row tables moves reads stored claimable owner =>
    rcases session_cases moves c with ⟨-, heq⟩ | ⟨-, heq⟩
    · rw [heq, reads] at h
      cases h
      exact Or.inr ⟨stored, tables, fun jobId hheld => owner jobId (heq ▸ hheld)⟩
    · exact Or.inl ⟨heq ▸ h, heq⟩
  | start d job tables moves => exact Or.inl (hmoved d _ moves rfl)
  | insert d row payload session jobs attempts fresh new moves unread =>
    exact Or.inl (hmoved d session moves unread)
  | claim d row workerId now before fits free jobs attempts moves =>
    exact Or.inl (hmoved d _ moves rfl)
  | succeed d job row result stored now before jobs attempts moves =>
    exact Or.inl (hmoved d _ moves rfl)
  | fail d job succeeded row error now before fits jobs attempts moves =>
    exact Or.inl (hmoved d _ moves rfl)
  | cancel d row now before jobs attempts moves => exact Or.inl (hmoved d _ moves rfl)

/-- A job that a call holds after the step, it held before or has just claimed. -/
theorem Effect.held (he : Effect s s' call) (h : (s'.sessions c).held = some jobId) :
    (s.sessions c).held = some jobId ∨
      s'.sessions c = .claimed jobId ∧ ∃ row, (s.sessions c).read = some row ∧ row.id = jobId := by
  have hmoved : ∀ (d : CallId) (session : Session), Moves s s' d session →
      (session.held = none ∨ session.held = (s.sessions d).held) →
      (s.sessions c).held = some jobId := by
    intro d session hmoves hsession
    rcases session_cases hmoves c with ⟨rfl, heq⟩ | ⟨-, heq⟩
    · rw [heq] at h
      rcases hsession with hnone | hsame
      · rw [hnone] at h
        cases h
      · rwa [hsame] at h
    · rwa [heq] at h
  cases he with
  | idle tables sessions => exact Or.inl (by rwa [sessions] at h)
  | quiet d session tables moves unread held => exact Or.inl (hmoved d session moves held)
  | reads d session row tables moves reads stored claimable owner held =>
    exact Or.inl (hmoved d session moves (Or.inr held))
  | start d job tables moves before =>
    exact Or.inl (hmoved d _ moves (Or.inr (by rw [before]; rfl)))
  | insert d row payload session jobs attempts fresh new moves unread held =>
    exact Or.inl (hmoved d session moves (Or.inl held))
  | claim d row workerId now before fits free jobs attempts moves =>
    -- Only the commit of `claim_job` gives a job to a call.
    rcases session_cases moves c with ⟨rfl, heq⟩ | ⟨-, heq⟩
    · rw [heq] at h
      cases h
      exact Or.inr ⟨heq, row, by rw [before]; rfl, rfl⟩
    · exact Or.inl (heq ▸ h)
  | succeed d job row result stored now before jobs attempts moves =>
    exact Or.inl (hmoved d _ moves (Or.inr (by rw [before]; rfl)))
  | fail d job succeeded row error now before fits jobs attempts moves =>
    exact Or.inl (hmoved d _ moves (Or.inl rfl))
  | cancel d row now before jobs attempts moves => exact Or.inl (hmoved d _ moves (Or.inl rfl))

/-- A call that has raised after the step, had raised before or does so now. -/
theorem Effect.raised (he : Effect s s' call) {exc : Exc} (h : s'.sessions c = .raised exc) :
    s.sessions c = .raised exc ∨ call = some c ∧ Raises s c exc := by
  have hmoved : ∀ (d : CallId) (session : Session), Moves s s' d session →
      (∀ exc, session ≠ .raised exc) → s.sessions c = .raised exc := by
    intro d session hmoves hsession
    rcases session_cases hmoves c with ⟨-, heq⟩ | ⟨-, heq⟩
    · exact absurd (heq.symm.trans h) (hsession exc)
    · exact heq ▸ h
  cases he with
  | idle tables sessions => exact Or.inl (sessions ▸ h)
  | quiet d session tables moves read held attempting unstarted pending raised =>
    rcases session_cases moves c with ⟨hcd, heq⟩ | ⟨-, heq⟩
    · subst hcd
      exact Or.inr ⟨rfl, raised exc (heq ▸ h)⟩
    · exact Or.inl (heq ▸ h)
  | reads d session row tables moves reads =>
    refine Or.inl (hmoved d session moves ?_)
    intro exc hsession
    rw [hsession] at reads
    cases reads
  | start d job tables moves => exact Or.inl (hmoved d _ moves (by simp))
  | insert d row payload session jobs attempts fresh new moves unread held pending history raised =>
    exact Or.inl (hmoved d session moves raised)
  | claim d row workerId now before fits free jobs attempts moves =>
    exact Or.inl (hmoved d _ moves (by simp))
  | succeed d job row result stored now before jobs attempts moves =>
    exact Or.inl (hmoved d _ moves (by simp))
  | fail d job succeeded row error now before fits jobs attempts moves =>
    exact Or.inl (hmoved d _ moves (by simp))
  | cancel d row now before jobs attempts moves => exact Or.inl (hmoved d _ moves (by simp))

theorem Effect.pending (he : Effect s s' call) (hnew : ∀ c row, (s.sessions c).pendingRow = some row →
    New row) : ∀ c row, (s'.sessions c).pendingRow = some row → New row := by
  intro c row h
  have hmoved : ∀ (d : CallId) (session : Session), Moves s s' d session →
      (∀ row, session.pendingRow = some row → New row) → New row := by
    intro d session hmoves hsession
    rcases session_cases hmoves c with ⟨-, heq⟩ | ⟨-, heq⟩
    · exact hsession row (heq ▸ h)
    · exact hnew c row (heq ▸ h)
  cases he with
  | idle tables sessions => exact hnew c row (by rwa [sessions] at h)
  | quiet d session tables moves unread held attempting unstarted pending =>
    exact hmoved d session moves pending
  | reads d session read tables moves reads stored claimable owner held =>
    apply hmoved d session moves
    intro row hrow
    unfold Session.read at reads
    split at reads <;> first | cases hrow | cases reads
  | start d job tables moves before => exact hmoved d _ moves (by simp [Session.pendingRow])
  | insert d row payload session jobs attempts fresh new moves unread held pending =>
    exact hmoved d session moves (by simp [pending])
  | claim d row workerId now before fits free jobs attempts moves =>
    exact hmoved d _ moves (by simp [Session.pendingRow])
  | succeed d job row result stored now before jobs attempts moves =>
    exact hmoved d _ moves (by simp [Session.pendingRow])
  | fail d job succeeded row error now before fits jobs attempts moves =>
    exact hmoved d _ moves (by simp [Session.pendingRow])
  | cancel d row now before jobs attempts moves =>
    exact hmoved d _ moves (by simp [Session.pendingRow])

/-- **Every step keeps the invariant.** -/
theorem Inv.step {settings : Settings} {jsonb : Jsonb} {label : Label} (h : s.Inv)
    (hs : s.step settings jsonb label = some s') : s'.Inv := by
  have he := act_effect h.toKnown hs
  constructor
  · constructor
    · intro id row' hrow'
      rcases he.stored hrow' with ⟨row, hrow, hkeeps⟩ | ⟨-, -, hid⟩
      · exact hkeeps.id.trans (h.keyed id row hrow)
      · exact hid
    · intro c jobId hheld
      have hrow : ∃ row, s.db.jobs.get? jobId = some row := by
        rcases he.held hheld with hheld | ⟨-, read, hread, rfl⟩
        · exact h.held_stored c jobId hheld
        · obtain ⟨row, hrow, -⟩ := h.read_stored c read hread
          exact ⟨row, hrow⟩
      obtain ⟨row, hrow⟩ := hrow
      obtain ⟨row', hrow', -⟩ := he.persist hrow
      exact ⟨row', hrow'⟩
    · exact he.pending h.new
  · intro jobId row' hrow'
    rcases he.stored hrow' with ⟨row, hrow, hkeeps⟩ | ⟨hfresh, -, -⟩
    · rw [hkeeps.maxRetries]
      apply he.exclusive h (h.exclusive jobId row hrow)
      intro row₂ hrow₂
      rw [hrow] at hrow₂
      cases hrow₂
      rfl
    · refine he.exclusive h ?_ (by simp [hfresh])
      rw [h.lease_of_fresh hfresh]
      exact VersionedLease.exclusive_initial
  · intro jobId
    cases he.tick h jobId with
    | same hversion hnumbers => rw [hversion, hnumbers, h.attempts]
    | claim c _ hversion hnumbers =>
      rw [hversion, hnumbers, h.attempts, List.range'_concat, Nat.one_mul, Nat.add_comm 1]
    | start c job _ _ hversion hnumbers => rw [hversion, hnumbers, h.attempts]
  · intro c read hread
    have hrow : ∃ row, s.db.jobs.get? read.id = some row ∧ row.maxRetries = read.maxRetries := by
      rcases he.read hread with ⟨hread, -⟩ | ⟨hstored, -⟩
      · exact h.read_stored c read hread
      · exact ⟨read, hstored, rfl⟩
    obtain ⟨row, hrow, hretries⟩ := hrow
    obtain ⟨row', hrow', hkeeps⟩ := he.persist hrow
    exact ⟨row', hrow', hkeeps.maxRetries.trans hretries⟩
  · intro c read jobId hread hheld
    rcases he.read hread with ⟨hread, heq⟩ | ⟨hstored, htables, howner⟩
    · rw [heq] at hheld
      obtain ⟨hid, hcount⟩ := h.read_current c read jobId hread hheld
      refine ⟨hid, ?_⟩
      cases he.tick h jobId with
      | same hversion => rw [hversion, hcount]
      | claim d hview =>
        -- A claim has no holder beside it.
        obtain ⟨row, hrow⟩ := h.held_stored c jobId hheld
        exact absurd hheld ((h.exclusive jobId row hrow).current_free d hview c)
      | start d job _ _ hversion => rw [hversion, hcount]
    · have hid := howner jobId hheld
      refine ⟨hid, ?_⟩
      rw [version_congr htables.1, ← hid, version_of_stored hstored]

theorem inv_initial : State.initial.Inv := by
  constructor
  · constructor
    · intro id row hrow
      exact absurd hrow (by simp [State.initial, Database.empty])
    · intro c jobId hheld
      exact absurd hheld (by simp [State.initial, Session.held])
    · intro c row hrow
      exact absurd hrow (by simp [State.initial, Session.pendingRow])
  · intro jobId row hrow
    exact absurd hrow (by simp [State.initial, Database.empty])
  · intro jobId
    simp [attemptNumbers, State.version, State.initial, Database.empty]
  · intro c read hread
    exact absurd hread (by simp [State.initial, Session.read])
  · intro c read jobId hread
    exact absurd hread (by simp [State.initial, Session.read])

variable {settings : Settings} {jsonb : Jsonb}

theorem inv_of_reachable (h : (Sql.sessions settings jsonb).Reachable Transition.Any s) : s.Inv := by
  apply h.invariant (I := State.Inv)
  · intro s hs
    have hs : s = State.initial := hs
    subst hs
    exact inv_initial
  · intro s label s' hinv _ hs
    exact hinv.step hs

end State

end Sql

end JobPipeline
