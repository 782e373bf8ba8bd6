import JobPipeline.Lib.Lockstep
import JobPipeline.Sql.Mirror

/-!
# The memory repository simulates the SQL one

One lemma for each method: called with the same arguments on stores that mirror each other, the
two implementations return equal values or raise the same class of error, and the stores mirror
each other again. A whole sequence of calls then stays in lockstep.
-/

set_option autoImplicit false

namespace JobPipeline

variable {jsonb : Jsonb} {r : InMemoryJobRepository} {db : Database} {jobId : UUID}
  {job : JobRecord} {row : Job}

/-- Two outcomes that agree, and leave stores that mirror each other. -/
def Matches (a : Except Exc Reply × InMemoryJobRepository) (b : Except Exc Reply × Database) :
    Prop :=
  Agrees a.1 b.1 ∧ Mirrors a.2 b.2

namespace Mirrors

open SqlAlchemyJobRepository

/-! ## Methods that rewrite one job -/

/-- What `refresh` reads after an `UPDATE`. -/
theorem refresh_update {db' : Database} {assign : Job → Job}
    (hrow : db.jobs.get? jobId = some row) (hjobs : db'.jobs = (db.update jobId assign).jobs) :
    refresh db' jobId = .ok (recordFromModel (assign row)) := by
  have hget : db'.jobs.get? jobId = some (assign row) := by
    rw [hjobs, Database.update, Dict.get?_modify_self, hrow]
    rfl
  simp [refresh, Database.getJob?, hget]

/-- A claim of a pending job commits: its worker fits the column and its number is free. -/
theorem claimCommit (h : Mirrors r db) (hrow : db.jobs.get? jobId = some row)
    (hview : job.canonical = row.view) (hpending : row.status.isPending = true)
    {workerId : String} (now : Int) (hfits : fitsString 100 workerId = true) :
    ∃ db', db.commitClaim row workerId now = .ok db' ∧
      db'.jobs = (db.update jobId (row.claimAssignments workerId now)).jobs ∧
      Mirrors { r with jobs := r.jobs.insert jobId (job.claim workerId now) } db' := by
  have hid : row.id = jobId := h.keyed hrow
  subst hid
  have hclaimed : (job.claim workerId now).canonical =
      (row.claimAssignments workerId now row).view := by
    show job.canonical.claim workerId now = row.view.claim workerId now
    rw [hview]
  have hunprocessed : row.processedAt = none :=
    h.unprocessed hrow (JobStatus.not_terminal_of_pending hpending)
  have hupdate := h.update hrow hclaimed rfl rfl (Nat.le_succ _) fun _ => hunprocessed
  refine ⟨{ db.update row.id (row.claimAssignments workerId now) with
      jobAttempts := db.jobAttempts ++
        [⟨row.id, row.attemptCount + 1, .running, now, none, none, some workerId⟩] }, ?_, rfl, ?_⟩
  · simp [Database.commitClaim, hfits, h.hasAttempt hrow, Database.update]
  · apply hupdate.withAttempts
    intro attempt hmem
    rcases List.mem_append.mp hmem with hmem | hmem
    · exact hupdate.numbered attempt hmem
    · -- The new attempt has the number the row has just counted.
      cases List.mem_singleton.mp hmem
      refine ⟨row.claimAssignments workerId now row, ?_, le_refl _⟩
      rw [Database.update, Dict.get?_modify_self, hrow]
      rfl

theorem claimJob (h : Mirrors r db) (jobId : UUID) {workerId : String} (now : Int)
    (hfits : fitsString 100 workerId = true) :
    Matches (settle r .maybe (.ok (r.claimJob jobId workerId now)))
      (settle db .maybe (claimJob db jobId workerId now)) := by
  unfold InMemoryJobRepository.claimJob SqlAlchemyJobRepository.claimJob
  cases hdrain : db.getDrain with
  | true =>
    rw [if_pos (h.drain.trans hdrain)]
    exact ⟨Option.Rel.none, h⟩
  | false =>
    rw [if_neg (by simp [h.drain, hdrain])]
    rcases h.lookup jobId with ⟨hjob, hrow⟩ | ⟨job, row, hjob, hrow, hview⟩
    · simp only [hjob, Database.getJob?, hrow]
      exact ⟨Option.Rel.none, h⟩
    · have hstatus : job.status = row.status := congrArg JobRecord.status hview
      have hnext : job.nextRunAt = row.nextRunAt := congrArg JobRecord.nextRunAt hview
      simp only [hjob, Database.getJob?, hrow, hstatus, hnext]
      by_cases hclaim : ¬ row.status.isPending = true ∨ now < row.nextRunAt
      · simp only [hclaim, if_true]
        exact ⟨Option.Rel.none, h⟩
      · have hpending : row.status.isPending = true := not_not.mp fun hp => hclaim (Or.inl hp)
        obtain ⟨db', hcommit, hjobs, hmirrors⟩ := h.claimCommit hrow hview hpending now hfits
        have hclaimed : (job.claim workerId now).canonical =
            (row.claimAssignments workerId now row).view := by
          show job.canonical.claim workerId now = row.view.claim workerId now
          rw [hview]
        simp only [hclaim, if_false, hcommit, refresh_update hrow hjobs]
        exact ⟨Option.Rel.some hclaimed, hmirrors⟩

/-- A stored job is found by both, an unknown one by neither. -/
theorem found (h : Mirrors r db) (jobId : UUID) :
    (r.getJob jobId = .error (.service (notFoundError "Job not found")) ∧
        getModel db jobId = .error (.service (notFoundError "Job not found"))) ∨
      ∃ job row, r.jobs.get? jobId = some job ∧ db.jobs.get? jobId = some row ∧
        r.getJob jobId = .ok job ∧ getModel db jobId = .ok row ∧ job.canonical = row.view := by
  rcases h.lookup jobId with ⟨hjob, hrow⟩ | ⟨job, row, hjob, hrow, hview⟩
  · exact Or.inl ⟨by simp [InMemoryJobRepository.getJob, hjob],
      by simp [getModel, Database.getJob?, hrow]⟩
  · exact Or.inr ⟨job, row, hjob, hrow, by simp [InMemoryJobRepository.getJob, hjob],
      by simp [getModel, Database.getJob?, hrow], hview⟩

theorem getJob (h : Mirrors r db) (jobId : UUID) :
    Matches ((r.getJob jobId).map .job, r) ((getJob db jobId).map .job, db) := by
  unfold SqlAlchemyJobRepository.getJob
  rcases h.found jobId with ⟨hjob, hrow⟩ | ⟨job, row, -, -, hjob, hrow, hview⟩
  · rw [hjob, hrow]
    exact ⟨rfl, h⟩
  · rw [hjob, hrow]
    exact ⟨hview, h⟩

theorem markSucceeded (h : Mirrors r db) (jobId : UUID) {result : JsonObject} (now : Int)
    (hstores : Stores jsonb result) :
    Matches (settle r .job (r.markSucceeded jobId result now))
      (settle db .job (markSucceeded jsonb db jobId result now)) := by
  obtain ⟨stored, hstored, hsame⟩ := hstores
  unfold InMemoryJobRepository.markSucceeded SqlAlchemyJobRepository.markSucceeded
  rcases h.found jobId with ⟨hjob, hrow⟩ | ⟨job, row, -, hget, hjob, hrow, hview⟩
  · rw [hjob, hrow]
    exact ⟨rfl, h⟩
  · have hid : row.id = jobId := h.keyed hget
    have hsucceeded : (job.succeed result now).canonical =
        (Job.succeedAssignments stored now row).view := by
      show job.canonical.succeed (canonicalFields result) now =
        row.view.succeed (canonicalFields stored) now
      rw [hview, hsame]
    have hupdate := h.update hget hsucceeded rfl rfl (le_refl _) fun hopen => absurd hopen (by
      simp [Job.succeedAssignments, JobStatus.isTerminal])
    have hrefresh : refresh ((db.update jobId (Job.succeedAssignments stored now)).finishAttempt
        jobId row.attemptCount .succeeded none now) jobId = .ok _ := refresh_update hget rfl
    rw [hjob, hrow]
    simp only [Database.commitSucceeded, hstored, hid, hrefresh]
    exact ⟨hsucceeded, hupdate.finishAttempt _ _ _ _⟩

theorem markFailedAttempt (h : Mirrors r db) (jobId : UUID) {error : String}
    (backoffSeconds now : Int) (hrunning : ∀ job ∈ r.jobs.get? jobId, job.status = .running)
    (hfits : fitsText error = true) :
    Matches (settle r .job (r.markFailedAttempt jobId error backoffSeconds now))
      (settle db .job (markFailedAttempt db jobId error backoffSeconds now)) := by
  unfold InMemoryJobRepository.markFailedAttempt SqlAlchemyJobRepository.markFailedAttempt
  rcases h.found jobId with ⟨hjob, hrow⟩ | ⟨job, row, hstored, hget, hjob, hrow, hview⟩
  · rw [hjob, hrow]
    exact ⟨rfl, h⟩
  · have hid : row.id = jobId := h.keyed hget
    have hstatus : row.status = .running :=
      (congrArg JobRecord.status hview).symm.trans (hrunning job hstored)
    -- The memory repository clears `processed_at`, the other leaves it as it is.
    have hunprocessed : row.processedAt = none :=
      h.unprocessed hget (by simp [hstatus, JobStatus.isTerminal])
    have hfailed : (job.fail error backoffSeconds now).canonical =
        (row.failAssignments error backoffSeconds now row).view := by
      show job.canonical.fail error backoffSeconds now = _
      rw [hview]
      simp only [Job.failAssignments, hunprocessed]
      rfl
    have hupdate := h.update hget hfailed rfl rfl (le_refl _) fun hopen => by
      cases hexhausted : row.exhausted with
      | true => simp [Job.failAssignments, hexhausted, JobStatus.isTerminal] at hopen
      | false => simp [Job.failAssignments, hexhausted, hunprocessed]
    have hrefresh :
        refresh ((db.update jobId (row.failAssignments error backoffSeconds now)).finishAttempt
          jobId row.attemptCount .failed (some error) now) jobId = .ok _ := refresh_update hget rfl
    rw [hjob, hrow]
    simp only [Database.commitFailed, hfits, hid, not_true, if_false, hrefresh]
    exact ⟨hfailed, hupdate.finishAttempt _ _ _ _⟩

theorem cancelJob (h : Mirrors r db) (jobId : UUID) (now : Int) :
    Matches (settle r .job (r.cancelJob jobId now)) (settle db .job (cancelJob db jobId now)) := by
  unfold InMemoryJobRepository.cancelJob SqlAlchemyJobRepository.cancelJob
  rcases h.found jobId with ⟨hjob, hrow⟩ | ⟨job, row, -, hget, hjob, hrow, hview⟩
  · rw [hjob, hrow]
    exact ⟨rfl, h⟩
  · have hid : row.id = jobId := h.keyed hget
    have hstatus : job.status = row.status := congrArg JobRecord.status hview
    have hcancelled : (job.cancel now).canonical = (Job.cancelAssignments now row).view := by
      show job.canonical.cancel now = row.view.cancel now
      rw [hview]
    have hupdate := h.update hget hcancelled rfl rfl (le_refl _) fun hopen => absurd hopen (by
      simp [Job.cancelAssignments, JobStatus.isTerminal])
    rw [hjob, hrow]
    simp only [hstatus, Database.commitCancelled, hid]
    by_cases hpending : row.status.isPending = true
    · simp only [hpending, not_true, if_false]
      rw [refresh_update hget rfl]
      exact ⟨hcancelled, hupdate⟩
    · rw [if_pos hpending, if_pos hpending]
      exact ⟨rfl, h⟩

/-! ## Methods that add a job -/

/-- An `INSERT` of what fits its columns and violates no constraint commits, and mirrors the
    assignment to the dictionary. -/
theorem insertCommit (h : Mirrors r db) (row : Job) {payload : JsonObject}
    (hfresh : r.jobs.get? row.id = none) (hhandler : fitsString 100 row.handler = true)
    (hcron : ∀ cron ∈ row.recurringCron, fitsString 100 cron = true)
    (hkey : ∀ key ∈ row.idempotencyKey, fitsString 200 key = true)
    (hintegers : [row.priority, row.maxRetries, row.timeoutSeconds].all fitsInteger = true)
    (hnew : ∀ key ∈ row.idempotencyKey, key ≠ "" ∧ r.idempotency.get? key = none ∧
      db.findByKey key = none)
    (hstored : jsonb row.payload = some payload) (hprocessed : row.processedAt = none)
    (hview : job.canonical = Job.view { row with payload := payload }) :
    ∃ db', db.insertJob jsonb row = .ok db' ∧
      refresh db' row.id = .ok (recordFromModel { row with payload := payload }) ∧
      Mirrors ((r.store job).remember row.idempotencyKey row.id) db' := by
  have hfreshRow : db.jobs.get? (Job.id { row with payload := payload }) = none := by
    rcases h.lookup row.id with ⟨-, hrow⟩ | ⟨job, row', hjob, -, -⟩
    · exact hrow
    · exact absurd (hfresh.symm.trans hjob) (by simp)
  have hcron' : row.recurringCron.all (fitsString 100) = true := by
    cases hc : row.recurringCron with
    | none => rfl
    | some cron => exact hcron cron hc
  have hkey' : row.idempotencyKey.all (fitsString 200) = true ∧
      (row.idempotencyKey.bind db.findByKey).isSome = false := by
    cases hk : row.idempotencyKey with
    | none => exact ⟨rfl, rfl⟩
    | some key => exact ⟨hkey key hk, by simp [(hnew key hk).2.2]⟩
  refine ⟨{ db with jobs := db.jobs.insert row.id { row with payload := payload } }, ?_, ?_, ?_⟩
  · have hcontains : db.jobs.contains row.id = false := Dict.contains_eq_false_iff.mpr hfreshRow
    simp only [Database.insertJob, hhandler, hcron', hkey'.1, hkey'.2, hintegers, hstored, hcontains,
      not_true_eq_false, if_false, Bool.false_eq_true]
  · simp [refresh, Database.getJob?]
  · exact h.insert hfreshRow hview hprocessed fun key hmem =>
      ⟨(hnew key hmem).1, (hnew key hmem).2.1⟩

/-- Both repositories know the key of a request, or neither does. -/
theorem replay (h : Mirrors r db) (request : JobCreate) :
    (r.replayOf request.idempotencyKey = none ∧ existing db request = none ∧
        ∀ key ∈ request.idempotencyKey, key ≠ "" ∧ r.idempotency.get? key = none ∧
          db.findByKey key = none) ∨
      ∃ job row, r.replayOf request.idempotencyKey = some (.ok job) ∧
        existing db request = some row ∧ job.canonical = row.view := by
  have hnonempty := request.key_ne_empty
  unfold existing
  cases hkey : request.idempotencyKey with
  | none => exact Or.inl ⟨rfl, rfl, by simp⟩
  | some key =>
    have hne : key ≠ "" := fun heq => hnonempty (by rw [hkey, heq])
    have hfilter : Option.filter (fun k => k ≠ "") (some key) = some key := by
      simp [Option.filter, hne]
    rw [hfilter]
    rcases h.findByKey key with ⟨hnone, hfind⟩ | ⟨jobId, job, row, hknown, hjob, hfind, hview⟩
    · exact Or.inl ⟨by simp [InMemoryJobRepository.replayOf, hnone], hfind,
        by simp [hne, hnone, hfind]⟩
    · exact Or.inr ⟨job, row, by simp [InMemoryJobRepository.replayOf, hne, hknown, hjob],
        hfind, hview⟩

theorem createJob (h : Mirrors r db) (request : JobCreate) (now : Int)
    (hfresh : r.jobs.get? jobId = none) (hhandler : fitsText request.handler = true)
    (hkey : ∀ key ∈ request.idempotencyKey, fitsText key = true)
    (hstores : Stores jsonb request.payload) :
    Matches (settle r (fun (job, replay) => .created job replay) (r.createJob request now jobId))
      (settle db (fun (job, replay) => .created job replay)
        (createJob jsonb db request now jobId)) := by
  obtain ⟨stored, hstored, hsame⟩ := hstores
  unfold InMemoryJobRepository.createJob SqlAlchemyJobRepository.createJob
  rcases h.replay request with ⟨hreplay, hexisting, hnew⟩ | ⟨job, row, hreplay, hexisting, hview⟩
  · have hview : (JobRecord.submitted request jobId now).canonical =
        Job.view { Job.submittedRow request jobId now with payload := stored } := by
      simp [JobRecord.submitted, JobRecord.canonical, Job.submittedRow, Job.view, recordFromModel,
        hsame]
    obtain ⟨db', hinsert, hrefresh, hmirrors⟩ :=
      h.insertCommit (Job.submittedRow request jobId now) hfresh (request.handler_fits hhandler)
        (fun cron => request.cron_fits) (fun key hmem => request.key_fits hmem (hkey key hmem))
        request.integers_fit hnew hstored rfl hview
    have hrefresh' : refresh db' jobId = .ok _ := hrefresh
    rw [hreplay, hexisting]
    simp only [hinsert, hrefresh']
    exact ⟨⟨hview, rfl⟩, hmirrors⟩
  · rw [hreplay, hexisting]
    exact ⟨⟨hview, rfl⟩, h⟩

theorem createNextRecurringJob (h : Mirrors r db) (job : JobRecord) (after now : Int)
    (hfresh : r.jobs.get? jobId = none) (hhandler : fitsString 100 job.handler = true)
    (hcron : ∀ cron ∈ job.recurringCron, fitsString 100 cron = true)
    (hintegers : [job.priority, job.maxRetries, job.timeoutSeconds].all fitsInteger = true)
    (hstores : Stores jsonb job.payload)
    (hstill : ∀ cron ∈ job.recurringCron, nextCronRun cron after = nextCronRun cron now) :
    Matches (settle r .maybe (r.createNextRecurringJob job now jobId))
      (settle db .maybe (createNextRecurringJob jsonb db job after now jobId)) := by
  obtain ⟨stored, hstored, hsame⟩ := hstores
  unfold InMemoryJobRepository.createNextRecurringJob SqlAlchemyJobRepository.createNextRecurringJob
  cases hjobCron : job.recurringCron with
  | none => exact ⟨Option.Rel.none, h⟩
  | some cron =>
    by_cases hempty : cron = ""
    · simp only [hempty, if_true]
      exact ⟨Option.Rel.none, h⟩
    simp only [hempty, if_false, hstill cron hjobCron]
    cases hrun : nextCronRun cron now with
    | error e => exact ⟨rfl, h⟩
    | ok nextRunAt =>
      have hview : (job.successor jobId nextRunAt now).canonical =
          Job.view { Job.successorRow job jobId nextRunAt now with payload := stored } := by
        simp [JobRecord.successor, JobRecord.canonical, Job.successorRow, Job.view,
          recordFromModel, hsame]
      obtain ⟨db', hinsert, hrefresh, hmirrors⟩ :=
        h.insertCommit (Job.successorRow job jobId nextRunAt now) hfresh hhandler hcron
          (by simp [Job.successorRow]) hintegers (by simp [Job.successorRow]) hstored rfl hview
      have hrefresh' : refresh db' jobId = .ok _ := hrefresh
      simp only [hinsert, hrefresh']
      exact ⟨Option.Rel.some hview, hmirrors⟩

/-! ## Queries -/

theorem forall₂_same {as bs : List JobRecord}
    (h : as.map JobRecord.canonical = bs.map JobRecord.canonical) :
    List.Forall₂ JobRecord.Same as bs := by
  rw [← List.forall₂_eq_eq_eq, List.forall₂_map_left_iff, List.forall₂_map_right_iff] at h
  exact h

/-- The rows PostgreSQL visits are the records of the dictionary, in some order. -/
theorem rows_perm (h : Mirrors r db) {rows : List Job} (hrows : rows.Perm db.jobs.values) :
    (r.jobs.values.map JobRecord.canonical).Perm (rows.map Job.view) := by
  rw [h.values]
  exact (hrows.map Job.view).symm

theorem nodup_createdAt (h : (r.jobs.values.map JobRecord.createdAt).Nodup) :
    ((r.jobs.values.map JobRecord.canonical).map JobRecord.createdAt).Nodup := by
  rw [List.map_map]
  exact h

/-- `ORDER BY created_at DESC`. -/
def newestFirst (a b : JobRecord) : Prop := b.createdAt ≤ a.createdAt

instance : DecidableRel newestFirst :=
  fun a b => inferInstanceAs (Decidable (b.createdAt ≤ a.createdAt))

instance : Std.Total newestFirst := ⟨fun a b => le_total b.createdAt a.createdAt⟩

instance : IsTrans JobRecord newestFirst := ⟨fun _ _ _ hab hbc => le_trans hbc hab⟩

theorem map_listJobs (r : InMemoryJobRepository) (status : Option JobStatus)
    (handler : Option String) (limit offset : Nat) :
    (r.listJobs status handler limit offset).map JobRecord.canonical =
      ((((r.jobs.values.map JobRecord.canonical).insertionSort newestFirst).filter
        (InMemoryJobRepository.passesFilters status handler)).drop offset).take limit := by
  have hsort : (r.jobs.values.insertionSort newestFirst).map JobRecord.canonical =
      (r.jobs.values.map JobRecord.canonical).insertionSort newestFirst :=
    List.map_insertionSort _ _ _ _ fun _ _ _ _ => Iff.rfl
  rw [← hsort, List.filter_map, ← List.map_drop, ← List.map_take]
  rfl

theorem map_listJobs_rows (rows : List Job) (status : Option JobStatus)
    (handler : Option String) (limit offset : Nat) :
    (SqlAlchemyJobRepository.listJobs rows status handler limit offset).map JobRecord.canonical =
      ((((rows.map Job.view).filter
        (InMemoryJobRepository.passesFilters status handler)).insertionSort
          newestFirst).drop offset).take limit := by
  have hsort : ((rows.filter (matchesFilters status handler)).insertionSort
      fun a b => b.createdAt ≤ a.createdAt).map Job.view =
      ((rows.filter (matchesFilters status handler)).map Job.view).insertionSort newestFirst :=
    List.map_insertionSort _ _ _ _ fun _ _ _ _ => Iff.rfl
  rw [List.filter_map]
  show _ = ((((rows.filter (matchesFilters status handler)).map Job.view).insertionSort
    newestFirst).drop offset).take limit
  rw [← hsort, ← List.map_drop, ← List.map_take, SqlAlchemyJobRepository.listJobs, List.map_map]
  rfl

theorem listJobs (h : Mirrors r db) {rows : List Job} (status : Option JobStatus)
    (handler : Option String) (limit offset : Nat) (hrows : rows.Perm db.jobs.values)
    (hdistinct : (r.jobs.values.map JobRecord.createdAt).Nodup) :
    Matches (.ok (.jobs (r.listJobs status handler limit offset)), r)
      (.ok (.jobs (listJobs rows status handler limit offset)), db) := by
  have hsep : Sorting.Separates newestFirst (r.jobs.values.map JobRecord.canonical) := by
    apply Sorting.separates_of_nodup JobRecord.createdAt
    · exact fun a b hab hba => le_antisymm hba hab
    · exact nodup_createdAt hdistinct
  refine ⟨forall₂_same ?_, h⟩
  rw [map_listJobs, map_listJobs_rows,
    Sorting.filter_insertionSort_of_perm _ hsep (h.rows_perm hrows)]

theorem map_dueJobs (r : InMemoryJobRepository) (limit : Nat) (now : Int) :
    (r.dueJobs limit now).map JobRecord.canonical =
      (((r.jobs.values.map JobRecord.canonical).filter
        (InMemoryJobRepository.isDue now)).insertionSort
          InMemoryJobRepository.duePrecedes).take limit := by
  have hsort : ((r.jobs.values.filter (InMemoryJobRepository.isDue now)).insertionSort
      InMemoryJobRepository.duePrecedes).map JobRecord.canonical =
      ((r.jobs.values.filter (InMemoryJobRepository.isDue now)).map
        JobRecord.canonical).insertionSort InMemoryJobRepository.duePrecedes :=
    List.map_insertionSort _ _ _ _ fun _ _ _ _ => Iff.rfl
  rw [List.filter_map]
  show _ = (((r.jobs.values.filter (InMemoryJobRepository.isDue now)).map
    JobRecord.canonical).insertionSort InMemoryJobRepository.duePrecedes).take limit
  rw [← hsort, ← List.map_take]
  rfl

theorem map_dueJobs_rows (rows : List Job) (limit : Nat) (now : Int) :
    (SqlAlchemyJobRepository.dueJobs rows limit now).map JobRecord.canonical =
      (((rows.map Job.view).filter (InMemoryJobRepository.isDue now)).insertionSort
        InMemoryJobRepository.duePrecedes).take limit := by
  have hsort : ((rows.filter (isDue now)).insertionSort duePrecedes).map Job.view =
      ((rows.filter (isDue now)).map Job.view).insertionSort InMemoryJobRepository.duePrecedes :=
    List.map_insertionSort _ _ _ _ fun _ _ _ _ => Iff.rfl
  rw [List.filter_map]
  show _ = (((rows.filter (isDue now)).map Job.view).insertionSort
    InMemoryJobRepository.duePrecedes).take limit
  rw [← hsort, ← List.map_take, SqlAlchemyJobRepository.dueJobs, List.map_map]
  rfl

theorem dueJobs (h : Mirrors r db) {rows : List Job} (limit : Nat) (now : Int)
    (hrows : rows.Perm db.jobs.values)
    (hdistinct : (r.jobs.values.map JobRecord.createdAt).Nodup) :
    Matches (.ok (.jobs (r.dueJobs limit now)), r) (.ok (.jobs (dueJobs rows limit now)), db) := by
  have hsep : Sorting.Separates InMemoryJobRepository.duePrecedes
      ((r.jobs.values.map JobRecord.canonical).filter (InMemoryJobRepository.isDue now)) := by
    refine Sorting.Separates.sublist ?_ fun a ha => List.mem_of_mem_filter ha
    apply Sorting.separates_of_nodup JobRecord.createdAt
    · intro a b hab hba
      unfold InMemoryJobRepository.duePrecedes at hab hba
      omega
    · exact nodup_createdAt hdistinct
  refine ⟨forall₂_same ?_, h⟩
  rw [map_dueJobs, map_dueJobs_rows,
    Sorting.insertionSort_eq_of_perm hsep ((h.rows_perm hrows).filter _)]

/-! ### `queue_depth` -/

theorem groupByPriority_eq (rows : List Job) :
    groupByPriority rows = (rows.map Job.priority).dedup.map fun priority =>
      (priority, (rows.map Job.priority).count priority) := by
  unfold groupByPriority
  refine List.map_congr_left fun priority _ => ?_
  rw [List.count_eq_countP, List.countP_map]
  rfl

/-- Both count the same groups: one sorts them, the other returns them as they come. -/
theorem byPriority_perm {jobs : List JobRecord} {rows : List Job}
    (h : (jobs.map JobRecord.priority).Perm (rows.map Job.priority)) :
    (InMemoryJobRepository.countPriorities jobs).entries.Perm (groupByPriority rows) := by
  rw [groupByPriority_eq]
  refine (InMemoryJobRepository.countPriorities_perm jobs).trans ?_
  simp only [h.count_eq]
  exact h.dedup.map _

theorem queueDepth (h : Mirrors r db) {rows : List Job} (now : Int)
    (hrows : rows.Perm db.jobs.values) :
    Matches (.ok (.depth (r.queueDepth now)), r) (.ok (.depth (queueDepth rows now)), db) := by
  have hperm := h.rows_perm hrows
  -- A count of records that reads neither objects is a count of rows.
  have hcount : ∀ p : JobRecord → Bool, (∀ job, p job.canonical = p job) →
      r.jobs.values.countP p = rows.countP fun row => p row.view := by
    intro p hp
    have hmap := hperm.countP_eq p
    rw [List.countP_map, List.countP_map] at hmap
    have hcanonical : p ∘ JobRecord.canonical = p := funext hp
    rwa [hcanonical] at hmap
  refine ⟨⟨?_, ?_, ?_, ?_, ?_⟩, h⟩
  · show (r.jobs.values.filter fun job => job.status.isPending).length = _
    rw [← List.countP_eq_length_filter]
    exact hcount (fun job => job.status.isPending) fun _ => rfl
  · show (r.jobs.values.filter fun job => job.status.isPending).countP _ = _
    rw [List.countP_filter]
    refine Eq.trans (List.countP_congr fun job _ => ?_)
      (hcount (InMemoryJobRepository.isDue now) fun _ => rfl)
    simp [InMemoryJobRepository.isDue, and_comm]
  · exact hcount (fun job => job.status = .running) fun _ => rfl
  · exact hcount (fun job => job.status = .deadLettered) fun _ => rfl
  · refine (List.perm_insertionSort _ _).trans (byPriority_perm ?_)
    have hpending := (hperm.filter fun job => job.status.isPending).map JobRecord.priority
    rw [List.filter_map, List.filter_map, List.map_map, List.map_map] at hpending
    exact hpending

theorem setDrain (h : Mirrors r db) (enabled : Bool) (now : Int) :
    Mirrors (r.setDrain enabled) (db.withDrain enabled now) :=
  ⟨h.jobs, h.keyed, h.idempotency, (Database.getDrain_withDrain db enabled now).symm, h.numbered,
    h.unprocessed⟩

end Mirrors

/-! ## Sequences of calls -/

/-- Every comparable call keeps the stores mirrored, and is answered alike. -/
theorem mirrors_kept : Lockstep.Keeps InMemoryJobRepository.perform
    (SqlAlchemyJobRepository.perform jsonb) Mirrors Agrees (Comparable jsonb) := by
  intro r db call h hcomparable
  obtain ⟨operation, now, drawn, rows⟩ := call
  cases operation with
  | createJob request =>
    obtain ⟨hfresh, hhandler, hkey, hstores, -⟩ := hcomparable
    exact h.createJob request now hfresh hhandler hkey hstores
  | getJob jobId => exact h.getJob jobId
  | listJobs status handler limit offset =>
    obtain ⟨hrows, hdistinct, hhandler, hlimit, hoffset⟩ := hcomparable
    simp only [SqlAlchemyJobRepository.perform,
      SqlAlchemyJobRepository.queryListJobs_of_fits hhandler hlimit hoffset]
    exact h.listJobs status handler limit offset hrows hdistinct
  | dueJobs limit =>
    obtain ⟨hrows, hdistinct, hlimit⟩ := hcomparable
    simp only [SqlAlchemyJobRepository.perform, SqlAlchemyJobRepository.queryDueJobs_of_fits hlimit]
    exact h.dueJobs limit now hrows hdistinct
  | queueDepth => exact h.queueDepth now hcomparable
  | claimJob jobId workerId => exact h.claimJob jobId now hcomparable
  | markSucceeded jobId result => exact h.markSucceeded jobId now hcomparable
  | createNextRecurringJob job after =>
    obtain ⟨hfresh, hhandler, hcron, hintegers, hstores, hstill⟩ := hcomparable
    exact h.createNextRecurringJob job after now hfresh hhandler hcron hintegers hstores hstill
  | markFailedAttempt jobId error backoff =>
    exact h.markFailedAttempt jobId backoff now hcomparable.1 hcomparable.2
  | cancelJob jobId => exact h.cancelJob jobId now
  | setDrain enabled =>
    simp only [SqlAlchemyJobRepository.perform, SqlAlchemyJobRepository.setDrain_ok]
    exact ⟨trivial, h.setDrain enabled now⟩
  | getDrain => exact ⟨h.drain, h⟩

/-- **The memory repository simulates the SQL one.** Whatever comparable calls are made on the two
    repositories, initially empty, every call is answered alike, and after them every job has
    equal records in both. -/
theorem memory_simulates_sql (jsonb : Jsonb) (calls : List MethodCall)
    (h : Lockstep.Allowed InMemoryJobRepository.perform (SqlAlchemyJobRepository.perform jsonb)
      (Comparable jsonb) .empty .empty calls) :
    List.Forall₂ Agrees (Lockstep.run InMemoryJobRepository.perform .empty calls).1
        (Lockstep.run (SqlAlchemyJobRepository.perform jsonb) .empty calls).1 ∧
      SameRecords (Lockstep.run InMemoryJobRepository.perform .empty calls).2
        (Lockstep.run (SqlAlchemyJobRepository.perform jsonb) .empty calls).2 := by
  obtain ⟨hreplies, hmirrors⟩ := mirrors_kept.run calls Mirrors.empty h
  exact ⟨hreplies, hmirrors.sameRecords⟩

/-- A job is submitted, listed, claimed and succeeds. -/
def Sample.successCalls : List MethodCall :=
  [⟨.createJob request, 0, Sample.jobId, []⟩,
   ⟨.listJobs none none 10 0, 0, Sample.jobId, [Job.submittedRow request Sample.jobId 0]⟩,
   ⟨.claimJob Sample.jobId "worker-local", 1, Sample.jobId, []⟩,
   ⟨.markSucceeded Sample.jobId [("message", .str "done"), ("id", .num "7")], 2, Sample.jobId, []⟩,
   ⟨.getJob Sample.jobId, 3, Sample.jobId, []⟩]

/-- A `JSONB` that gives the keys back in order. -/
def Sample.sortingJsonb : Jsonb := fun object => some (canonicalFields object)

theorem memory_simulates_sql_of_success :
    List.Forall₂ Agrees
      (Lockstep.run InMemoryJobRepository.perform .empty Sample.successCalls).1
      (Lockstep.run (SqlAlchemyJobRepository.perform Sample.sortingJsonb) .empty
        Sample.successCalls).1 :=
  (memory_simulates_sql Sample.sortingJsonb Sample.successCalls
    ⟨⟨rfl, by decide, by simp [Sample.request], ⟨[], rfl, rfl⟩, by simp [Sample.request, ensureAware]⟩,
      ⟨List.Perm.refl _, by decide, by simp, by decide, by decide⟩,
      (by decide : fitsString 100 "worker-local" = true),
      ⟨_, rfl, rfl⟩, trivial, trivial⟩).1

/-- An accepted request whose handler has a NUL. -/
def Sample.nulRequest : JobCreate :=
  { request with
    handler := "echo\x00"
    handler_accepted := ⟨"echo\x00", by decide, by decide, by decide⟩ }

/-- What does not fit a column is stored in memory only: a worker name of more than 100 characters
    in `locked_by`, and a NUL in any text. An offset that is no `bigint` is answered in memory only. -/
theorem memory_not_simulates_sql :
    (∃ calls : List MethodCall, calls =
        [⟨.createJob Sample.request, 0, Sample.jobId, []⟩,
         ⟨.claimJob Sample.jobId (String.ofList (List.replicate 101 'w')), 1, Sample.jobId, []⟩] ∧
      ¬ List.Forall₂ Agrees (Lockstep.run InMemoryJobRepository.perform .empty calls).1
        (Lockstep.run (SqlAlchemyJobRepository.perform some) .empty calls).1) ∧
    (∃ calls : List MethodCall, calls = [⟨.createJob Sample.nulRequest, 0, Sample.jobId, []⟩] ∧
      ¬ List.Forall₂ Agrees (Lockstep.run InMemoryJobRepository.perform .empty calls).1
        (Lockstep.run (SqlAlchemyJobRepository.perform some) .empty calls).1) ∧
    ∃ calls : List MethodCall, calls = [⟨.listJobs none none 10 (2 ^ 63), 0, Sample.jobId, []⟩] ∧
      ¬ List.Forall₂ Agrees (Lockstep.run InMemoryJobRepository.perform .empty calls).1
        (Lockstep.run (SqlAlchemyJobRepository.perform some) .empty calls).1 := by
  refine ⟨⟨_, rfl, fun h => ?_⟩, ⟨_, rfl, fun h => ?_⟩, ⟨_, rfl, fun h => ?_⟩⟩
  · obtain ⟨-, hclaim⟩ := List.forall₂_cons.mp h
    exact (List.forall₂_cons.mp hclaim).1
  · exact (List.forall₂_cons.mp h).1
  · exact (List.forall₂_cons.mp h).1

end JobPipeline
