import Mathlib.Algebra.Order.BigOperators.Group.List
import Mathlib.Algebra.BigOperators.Group.List.Basic
import JobPipeline.Jobs.Metrics
import JobPipeline.Sql.Simulation
import JobPipeline.Sql.Sequential

/-!
# Metrics from PostgreSQL

`metrics` of the SQL repository, and the retries it reports. A claim adds one to the attempt count
of its job, so the retries so far are what the counts of the jobs exceed one by, job by job. The
query adds up `attempt_count - 1` over all jobs and clamps the sum: a job that never ran counts
minus one, and takes a retry of another job away.
-/

set_option autoImplicit false

namespace JobPipeline

namespace SqlAlchemyJobRepository

/-- `select count(*) ... where status = ...`. -/
def countStatus (db : Database) (status : JobStatus) : Nat :=
  db.jobs.values.countP fun job => job.status = status

/-- The jobs whose latencies `metrics` looks at: those that have a `processed_at`. -/
def terminalJobs (db : Database) : List JobRecord :=
  (db.jobs.values.filter fun job => job.processedAt.isSome).map recordFromModel

def metrics (db : Database) : JobMetrics where
  jobSuccessCount := countStatus db .succeeded
  jobFailureCount := countStatus db .failed
  retryCount := max (db.jobs.values.map fun job => (job.attemptCount : Int) - 1).sum 0
  deadLetterCount := countStatus db .deadLettered
  jobLatencyP50Seconds := (latencyPercentiles (terminalJobs db)).1
  jobLatencyP95Seconds := (latencyPercentiles (terminalJobs db)).2
  workerUtilization := JobPipeline.workerUtilization (countStatus db .running) (countStatus db .queued)

end SqlAlchemyJobRepository

/-! ## A clamped sum and a sum of clamps -/

section Clamping

variable (counts : List Nat)

/-- Every count of zero takes one away. -/
theorem sum_pred_eq : (counts.map fun n : Nat => (n : Int) - 1).sum =
    (counts.map fun n : Nat => max ((n : Int) - 1) 0).sum - counts.count 0 := by
  induction counts with
  | nil => rfl
  | cons n rest ih =>
    simp only [List.map_cons, List.sum_cons, ih]
    cases n with
    | zero =>
      rw [List.count_cons_self]
      push_cast
      omega
    | succ n =>
      rw [List.count_cons_of_ne (by simp)]
      push_cast
      omega

theorem sum_clamped_nonneg : 0 ≤ (counts.map fun n : Nat => max ((n : Int) - 1) 0).sum := by
  apply List.sum_nonneg
  intro x hx
  obtain ⟨n, -, rfl⟩ := List.mem_map.mp hx
  exact le_max_right _ _

theorem sum_clamped_eq_zero_iff :
    (counts.map fun n : Nat => max ((n : Int) - 1) 0).sum = 0 ↔ ∀ n ∈ counts, n ≤ 1 := by
  induction counts with
  | nil => simp
  | cons n rest ih =>
    have hrest := sum_clamped_nonneg rest
    simp only [List.map_cons, List.sum_cons, List.forall_mem_cons, ← ih]
    omega

/-- **The two agree** when no count is zero, or none is above one. -/
theorem clamped_sum_eq_iff : max (counts.map fun n : Nat => (n : Int) - 1).sum 0 =
      (counts.map fun n : Nat => max ((n : Int) - 1) 0).sum ↔
    (∀ n ∈ counts, 1 ≤ n) ∨ ∀ n ∈ counts, n ≤ 1 := by
  have hzero : (∀ n ∈ counts, 1 ≤ n) ↔ counts.count 0 = 0 := by
    rw [List.count_eq_zero]
    constructor
    · intro h hmem
      exact absurd (h 0 hmem) (by omega)
    · intro h n hn
      exact Nat.one_le_iff_ne_zero.mpr fun heq => h (heq ▸ hn)
  have hnonneg := sum_clamped_nonneg counts
  rw [sum_pred_eq, hzero, ← sum_clamped_eq_zero_iff]
  omega

theorem clamped_sum_le : max (counts.map fun n : Nat => (n : Int) - 1).sum 0 ≤
    (counts.map fun n : Nat => max ((n : Int) - 1) 0).sum := by
  have hnonneg := sum_clamped_nonneg counts
  rw [sum_pred_eq]
  omega

end Clamping

/-! ## Counting claims -/

/-- The job that the call claimed. -/
def claimOf (call : MethodCall) (reply : Except Exc Reply) : Option UUID :=
  match call.operation, reply with
  | .claimJob jobId _, .ok (.maybe (some _)) => some jobId
  | _, _ => none

/-- The jobs that the calls claimed, latest first. -/
def claimsOf (calls : List MethodCall) (replies : List (Except Exc Reply)) : List UUID :=
  ((calls.zip replies).filterMap fun (call, reply) => claimOf call reply).reverse

theorem claimsOf_cons (call : MethodCall) (calls : List MethodCall) (reply : Except Exc Reply)
    (replies : List (Except Exc Reply)) : claimsOf (call :: calls) (reply :: replies) =
      claimsOf calls replies ++ (claimOf call reply).toList := by
  unfold claimsOf
  rw [List.zip_cons_cons, List.filterMap_cons]
  cases hclaim : claimOf call reply <;> simp [hclaim]

theorem claimsOf_append {calls : List MethodCall} {replies : List (Except Exc Reply)}
    (calls' : List MethodCall) (h : replies.length = calls.length)
    (replies' : List (Except Exc Reply)) :
    claimsOf (calls ++ calls') (replies ++ replies') =
      claimsOf calls' replies' ++ claimsOf calls replies := by
  unfold claimsOf
  rw [List.zip_append h.symm, List.filterMap_append, List.reverse_append]

/-- How many entries, listed latest first, are not the first of their kind. -/
def repeats : List UUID → Nat
  | [] => 0
  | jobId :: earlier => (if jobId ∈ earlier then 1 else 0) + repeats earlier

/-- Counted job by job. -/
theorem sum_repeats {keys : List UUID} (hnodup : keys.Nodup) {claimed : List UUID}
    (hmem : ∀ jobId ∈ claimed, jobId ∈ keys) :
    (keys.map fun jobId => max ((claimed.count jobId : Int) - 1) 0).sum = repeats claimed := by
  induction claimed with
  | nil => simp [repeats]
  | cons claim earlier ih =>
    have hstep : ∀ jobId, max (((claim :: earlier).count jobId : Int) - 1) 0 =
        max ((earlier.count jobId : Int) - 1) 0 +
          if jobId = claim then (if claim ∈ earlier then 1 else 0) else 0 := by
      intro jobId
      by_cases heq : jobId = claim
      · subst heq
        rw [List.count_cons_self, if_pos rfl]
        by_cases hearlier : jobId ∈ earlier
        · have hpos := List.count_pos_iff.mpr hearlier
          rw [if_pos hearlier]
          push_cast
          omega
        · rw [if_neg hearlier, List.count_eq_zero.mpr hearlier]
          rfl
      · rw [List.count_cons_of_ne (Ne.symm heq), if_neg heq, add_zero]
    have hsingle : (keys.map fun jobId => if jobId = claim then (if claim ∈ earlier then (1 : Int)
        else 0) else 0).sum = if claim ∈ earlier then 1 else 0 := by
      rw [List.sum_map_eq_nsmul_single claim _ (fun jobId hne _ => if_neg hne), if_pos rfl,
        List.count_eq_one_of_mem hnodup (hmem claim List.mem_cons_self), one_nsmul]
    simp only [hstep, List.sum_map_add, hsingle,
      ih fun jobId h => hmem jobId (List.mem_cons_of_mem _ h), repeats]
    push_cast
    rw [add_comm]

/-! ## What a call does to the counts -/

namespace Database

variable {db db' : Database} {jobId : UUID} {row : Job} {claim : Option UUID}

/-- `attempt_count` of a job; an unknown one has made no attempt. -/
def attempts (db : Database) (jobId : UUID) : Nat :=
  match db.jobs.get? jobId with
  | some row => row.attemptCount
  | none => 0

/-- The tables after a call that made this claim, if any. -/
structure Tallies (db db' : Database) (claim : Option UUID) : Prop where
  keyed : db'.Keyed
  attempts : ∀ jobId, db'.attempts jobId = db.attempts jobId + if claim = some jobId then 1 else 0
  stored : ∀ jobId, db.jobs.contains jobId = true → db'.jobs.contains jobId = true
  claimed : ∀ jobId ∈ claim, db.jobs.contains jobId = true

theorem Tallies.same (h : db.Keyed) (hjobs : db'.jobs = db.jobs) : Tallies db db' none := by
  refine ⟨?_, fun jobId => ?_, fun jobId hstored => hjobs ▸ hstored, by simp⟩
  · unfold Keyed
    rw [hjobs]
    exact h
  · simp [Database.attempts, hjobs]

theorem Keyed.insert (h : db.Keyed) (hjobs : db'.jobs = db.jobs.insert jobId row)
    (hid : row.id = jobId) : db'.Keyed := by
  intro id x hx
  rw [hjobs, Dict.get?_insert] at hx
  split at hx
  · rename_i heq
    cases hx
    exact hid.trans heq.symm
  · exact h id x hx

/-- A row is rewritten, under its identifier, and claimed or not. -/
theorem Tallies.rewrite (h : db.Keyed) (hrow : db.jobs.get? jobId = some row) (row' : Job)
    (hjobs : db'.jobs = db.jobs.insert jobId row') (hid : row'.id = row.id)
    (hclaim : ∀ id ∈ claim, id = jobId)
    (hcount : row'.attemptCount = row.attemptCount + if claim = some jobId then 1 else 0) :
    Tallies db db' claim := by
  have hstored : db.jobs.contains jobId = true := by simp [Dict.contains, hrow]
  constructor
  · exact h.insert hjobs (hid.trans (h jobId row hrow))
  · intro id
    unfold Database.attempts
    rw [hjobs, Dict.get?_insert]
    by_cases heq : id = jobId
    · subst heq
      rw [if_pos rfl, hrow]
      exact hcount
    · have hne : claim ≠ some id := fun hsome => heq (hclaim id hsome)
      rw [if_neg heq, if_neg hne, add_zero]
  · intro id hcontains
    exact hjobs ▸ Dict.contains_insert_of_contains _ _ hcontains
  · intro id hmem
    exact hclaim id hmem ▸ hstored

theorem Tallies.update (h : db.Keyed) (hrow : db.jobs.get? jobId = some row) (assign : Job → Job)
    (hjobs : db'.jobs = db.jobs.modify jobId assign) (hid : (assign row).id = row.id)
    (hcount : (assign row).attemptCount = row.attemptCount) : Tallies db db' none :=
  .rewrite h hrow _ (hjobs.trans (Dict.modify_eq_insert assign hrow)) hid (by simp) hcount

/-- A new row has made no attempt. -/
theorem Tallies.insert (h : db.Keyed) (row : Job) (hfresh : db.jobs.get? row.id = none)
    (hjobs : db'.jobs = db.jobs.insert row.id row) (hcount : row.attemptCount = 0) :
    Tallies db db' none := by
  constructor
  · exact h.insert hjobs rfl
  · intro id
    unfold Database.attempts
    rw [hjobs, Dict.get?_insert]
    by_cases heq : id = row.id
    · subst heq
      rw [if_pos rfl, hfresh]
      exact hcount
    · rw [if_neg heq]
      rfl
  · intro id hcontains
    exact hjobs ▸ Dict.contains_insert_of_contains _ _ hcontains
  · simp

end Database

namespace SqlAlchemyJobRepository

open Database

variable {jsonb : Jsonb} {db : Database}

/-- A method that makes no claim, when it commits or when it raises. -/
theorem settle_tallies {α : Type} (h : db.Keyed) (reply : α → Reply)
    {result : Except Exc (α × Database)}
    (hcommit : ∀ a db', result = .ok (a, db') → Tallies db db' none) :
    Tallies db (settle db reply result).2 none := by
  cases result with
  | error e => exact .same h rfl
  | ok committed => exact hcommit committed.1 committed.2 rfl

/-- `refresh` returns the tables it reads. -/
theorem refresh_ok {α : Type} {db' db'' : Database} {jobId : UUID} {answer : JobRecord → α} {a : α}
    (h : ((refresh db' jobId).map fun job => (answer job, db')) = .ok (a, db'')) : db'' = db' := by
  cases hrefresh : refresh db' jobId with
  | error e =>
    rw [hrefresh] at h
    cases h
  | ok job =>
    rw [hrefresh] at h
    cases h
    rfl

theorem insertJob_tallies (h : db.Keyed) {row : Job} {db' : Database}
    (hinsert : db.insertJob jsonb row = .ok db') (hcount : row.attemptCount = 0) :
    Tallies db db' none := by
  obtain ⟨hfresh, -, payload, rfl⟩ := Sql.State.insertJob_ok hinsert
  exact .insert h { row with payload := payload } hfresh rfl hcount

theorem createJob_tallies (h : db.Keyed) (request : JobCreate) (now : Int) (jobId : UUID)
    {a : JobRecord × Bool} {db' : Database}
    (hcreate : createJob jsonb db request now jobId = .ok (a, db')) : Tallies db db' none := by
  unfold createJob at hcreate
  split at hcreate
  · cases hcreate
    exact .same h rfl
  · split at hcreate
    · rename_i db₁ hinsert
      rw [refresh_ok hcreate]
      exact insertJob_tallies h hinsert rfl
    · split at hcreate
      · cases hcreate
        exact .same h rfl
      · cases hcreate
    · cases hcreate

theorem createNextRecurringJob_tallies (h : db.Keyed) (job : JobRecord) (after now : Int)
    (jobId : UUID) {a : Option JobRecord} {db' : Database}
    (hnext : createNextRecurringJob jsonb db job after now jobId = .ok (a, db')) :
    Tallies db db' none := by
  unfold createNextRecurringJob at hnext
  split at hnext
  · cases hnext
    exact .same h rfl
  · split at hnext
    · cases hnext
      exact .same h rfl
    · split at hnext
      · cases hnext
      · split at hnext
        · cases hnext
        · rename_i db₁ hinsert
          rw [refresh_ok hnext]
          exact insertJob_tallies h hinsert rfl

theorem getModel_ok {jobId : UUID} {row : Job} (h : getModel db jobId = .ok row) :
    db.jobs.get? jobId = some row := by
  unfold getModel getJob? at h
  split at h
  · rename_i hrow
    cases h
    exact hrow
  · cases h

theorem markSucceeded_tallies (h : db.Keyed) (jobId : UUID) (result : JsonObject) (now : Int)
    {a : JobRecord} {db' : Database}
    (hmark : markSucceeded jsonb db jobId result now = .ok (a, db')) :
    Tallies db db' none := by
  unfold markSucceeded at hmark
  split at hmark
  · cases hmark
  · rename_i row hrow
    have hrow := getModel_ok hrow
    split at hmark
    · cases hmark
    · rename_i db₁ hcommit
      rw [refresh_ok hmark]
      unfold commitSucceeded at hcommit
      split at hcommit
      · cases hcommit
      · cases hcommit
        exact .update h hrow (Job.succeedAssignments _ now)
          (by rw [← h jobId row hrow]; rfl) rfl rfl

theorem markFailedAttempt_tallies (h : db.Keyed) (jobId : UUID) (error : String) (backoff now : Int)
    {a : JobRecord} {db' : Database}
    (hmark : markFailedAttempt db jobId error backoff now = .ok (a, db')) :
    Tallies db db' none := by
  unfold markFailedAttempt at hmark
  split at hmark
  · cases hmark
  · rename_i row hrow
    have hrow := getModel_ok hrow
    split at hmark
    · cases hmark
    · rename_i db₁ hcommit
      rw [refresh_ok hmark]
      unfold commitFailed at hcommit
      split at hcommit
      · cases hcommit
      · cases hcommit
        exact .update h hrow (row.failAssignments error backoff now)
          (by rw [← h jobId row hrow]; rfl) rfl rfl

theorem cancelJob_tallies (h : db.Keyed) (jobId : UUID) (now : Int) {a : JobRecord}
    {db' : Database} (hcancel : cancelJob db jobId now = .ok (a, db')) : Tallies db db' none := by
  unfold cancelJob at hcancel
  split at hcancel
  · cases hcancel
  · rename_i row hrow
    have hrow := getModel_ok hrow
    split at hcancel
    · cases hcancel
    · rw [refresh_ok hcancel]
      exact .update h hrow (Job.cancelAssignments now)
        (by rw [← h jobId row hrow]; rfl) rfl rfl

/-- `claim_job` claims nothing, raises, or takes the job one attempt further. -/
theorem claimJob_cases (h : db.Keyed) (jobId : UUID) (workerId : String) (now : Int) :
    claimJob db jobId workerId now = .ok (none, db) ∨
      (∃ e, claimJob db jobId workerId now = .error e) ∨
      ∃ job db', claimJob db jobId workerId now = .ok (some job, db') ∧
        Tallies db db' (some jobId) := by
  unfold claimJob
  split
  · exact Or.inl rfl
  · split
    · exact Or.inl rfl
    · rename_i row hrow
      have hid : row.id = jobId := h jobId row hrow
      split
      · exact Or.inl rfl
      · split
        · rename_i e _
          exact Or.inr (Or.inl ⟨e, rfl⟩)
        · rename_i db' hcommit
          have htallies : Tallies db db' (some jobId) := by
            unfold commitClaim at hcommit
            split at hcommit
            · cases hcommit
            · split at hcommit
              · cases hcommit
              · cases hcommit
                have hrow' : db.jobs.get? row.id = some row := hid.symm ▸ hrow
                refine .rewrite h hrow (row.claimAssignments workerId now row)
                  ?_ rfl (fun id hmem => (Option.some.inj hmem).symm) (by rw [if_pos rfl]; rfl)
                rw [← hid]
                exact Dict.modify_eq_insert _ hrow'
          cases hrefresh : refresh db' jobId with
          | error e => exact Or.inr (Or.inl ⟨e, rfl⟩)
          | ok job => exact Or.inr (Or.inr ⟨job, db', rfl, htallies⟩)

/-- **Every call counts as the claim it made.** -/
theorem perform_tallies (jsonb : Jsonb) (h : db.Keyed) (call : MethodCall) :
    Tallies db (perform jsonb db call).2 (claimOf call (perform jsonb db call).1) := by
  obtain ⟨operation, now, drawn, rows⟩ := call
  cases operation with
  | createJob request =>
    exact settle_tallies h _ fun _ _ => createJob_tallies h request now drawn
  | claimJob jobId workerId =>
    show Tallies db (settle db .maybe (claimJob db jobId workerId now)).2
      (claimOf _ (settle db .maybe (claimJob db jobId workerId now)).1)
    rcases claimJob_cases h jobId workerId now with hnone | ⟨e, herror⟩ | ⟨job, db', hclaim, htallies⟩
    · rw [hnone]
      exact .same h rfl
    · rw [herror]
      exact .same h rfl
    · rw [hclaim]
      exact htallies
  | markSucceeded jobId result =>
    exact settle_tallies h _ fun _ _ => markSucceeded_tallies h jobId result now
  | createNextRecurringJob job after =>
    exact settle_tallies h _ fun _ _ => createNextRecurringJob_tallies h job after now drawn
  | markFailedAttempt jobId error backoff =>
    exact settle_tallies h _ fun _ _ => markFailedAttempt_tallies h jobId error backoff now
  | cancelJob jobId => exact settle_tallies h _ fun _ _ => cancelJob_tallies h jobId now
  | setDrain enabled =>
    simp only [perform, setDrain_ok]
    exact .same h rfl
  | getJob | listJobs | dueJobs | queueDepth | getDrain => exact .same h rfl

end SqlAlchemyJobRepository

/-! ## Retries along a run -/

namespace Database

variable {db db' : Database} {claimed : List UUID} {claim : Option UUID}

/-- The tables after these claims, listed latest first. -/
structure Counted (db : Database) (claimed : List UUID) : Prop where
  keyed : db.Keyed
  attempts : ∀ jobId, db.attempts jobId = claimed.count jobId
  stored : ∀ jobId ∈ claimed, db.jobs.contains jobId = true

theorem counted_empty : empty.Counted [] := by
  constructor
  · intro id row hrow
    simp [empty] at hrow
  · intro id
    rfl
  · simp

theorem Counted.step (h : db.Counted claimed) (ht : Tallies db db' claim) :
    db'.Counted (claim.toList ++ claimed) := by
  refine ⟨ht.keyed, fun jobId => ?_, fun jobId hmem => ?_⟩
  · rw [ht.attempts, h.attempts, List.count_append, Nat.add_comm]
    cases claim with
    | none => simp
    | some id =>
      simp [List.count_singleton]
  · rcases List.mem_append.mp hmem with hclaim | hold
    · exact ht.stored jobId (ht.claimed jobId (Option.mem_toList.mp hclaim))
    · exact ht.stored jobId (h.stored jobId hold)

/-- The counts of the rows exceed one by what the claims repeat. -/
theorem Counted.sum_clamped (h : db.Counted claimed) :
    (db.jobs.values.map fun job => max ((job.attemptCount : Int) - 1) 0).sum = repeats claimed := by
  have hkeys : ∀ jobId ∈ claimed, jobId ∈ db.jobs.keys := by
    intro jobId hmem
    obtain ⟨row, hrow⟩ := Option.isSome_iff_exists.mp (h.stored jobId hmem)
    exact List.mem_map_of_mem (f := Prod.fst) (Dict.mem_entries_iff.mpr hrow)
  rw [← sum_repeats db.jobs.nodupKeys hkeys, Dict.values, List.map_map, List.map_map]
  congr 1
  refine List.map_congr_left fun entry hmem => ?_
  obtain ⟨jobId, row⟩ := entry
  have hcount := h.attempts jobId
  rw [Database.attempts, Dict.mem_entries_iff.mp hmem] at hcount
  simp only [Function.comp_apply, ← hcount]

end Database

namespace SqlAlchemyJobRepository

open Database

variable {jsonb : Jsonb} {db : Database} {claimed : List UUID}

/-- The tables after the calls. -/
def tablesAfter (jsonb : Jsonb) (calls : List MethodCall) : Database :=
  (Lockstep.run (perform jsonb) .empty calls).2

/-- The successful `claim_job` calls that were not the first claim of their job. -/
def retriesIn (jsonb : Jsonb) (calls : List MethodCall) : Nat :=
  repeats (claimsOf calls (Lockstep.run (perform jsonb) .empty calls).1)

theorem run_counted (jsonb : Jsonb) (calls : List MethodCall) (h : db.Counted claimed) :
    (Lockstep.run (perform jsonb) db calls).2.Counted
      (claimsOf calls (Lockstep.run (perform jsonb) db calls).1 ++ claimed) := by
  induction calls generalizing db claimed with
  | nil => exact h
  | cons call rest ih =>
    have hrest := ih (h.step (perform_tallies jsonb h.keyed call))
    have hclaims : claimsOf (call :: rest) (Lockstep.run (perform jsonb) db (call :: rest)).1 =
        claimsOf rest (Lockstep.run (perform jsonb) (perform jsonb db call).2 rest).1 ++
          (claimOf call (perform jsonb db call).1).toList := claimsOf_cons ..
    rw [hclaims, List.append_assoc]
    exact hrest

theorem counted_tablesAfter (jsonb : Jsonb) (calls : List MethodCall) :
    (tablesAfter jsonb calls).Counted
      (claimsOf calls (Lockstep.run (perform jsonb) .empty calls).1) := by
  have hrun := run_counted jsonb calls counted_empty
  rwa [List.append_nil] at hrun

/-- The sum over jobs of `max(attempt_count - 1, 0)` is the number of retries. -/
theorem sum_clamped_tablesAfter (jsonb : Jsonb) (calls : List MethodCall) :
    ((tablesAfter jsonb calls).jobs.values.map fun job => max ((job.attemptCount : Int) - 1) 0).sum =
      retriesIn jsonb calls :=
  (counted_tablesAfter jsonb calls).sum_clamped

/-- No clamp makes a difference: every job has been claimed, or none has been claimed twice. -/
def Unclamped (db : Database) : Prop :=
  (∀ row ∈ db.jobs.values, 1 ≤ row.attemptCount) ∨ ∀ row ∈ db.jobs.values, row.attemptCount ≤ 1

theorem retryCount_eq (db : Database) : (metrics db).retryCount =
    max ((db.jobs.values.map Job.attemptCount).map fun n : Nat => (n : Int) - 1).sum 0 := by
  rw [List.map_map]
  rfl

theorem retryCount_eq_retriesIn_iff (jsonb : Jsonb) (calls : List MethodCall) :
    (metrics (tablesAfter jsonb calls)).retryCount = retriesIn jsonb calls ↔
      Unclamped (tablesAfter jsonb calls) := by
  have hiff := clamped_sum_eq_iff ((tablesAfter jsonb calls).jobs.values.map Job.attemptCount)
  rw [← sum_clamped_tablesAfter, retryCount_eq]
  simp only [List.map_map, List.forall_mem_map, Function.comp_def] at hiff ⊢
  exact hiff

theorem retryCount_le (jsonb : Jsonb) (calls : List MethodCall) :
    (metrics (tablesAfter jsonb calls)).retryCount ≤ retriesIn jsonb calls := by
  have hle := clamped_sum_le ((tablesAfter jsonb calls).jobs.values.map Job.attemptCount)
  rw [← sum_clamped_tablesAfter, retryCount_eq]
  simp only [List.map_map, Function.comp_def] at hle ⊢
  exact hle

/-- One more call adds the claim it makes. -/
theorem retriesIn_append (jsonb : Jsonb) (before : List MethodCall) (call : MethodCall) :
    retriesIn jsonb (before ++ [call]) = repeats
      ((claimOf call (perform jsonb (tablesAfter jsonb before) call).1).toList ++
        claimsOf before (Lockstep.run (perform jsonb) .empty before).1) := by
  unfold retriesIn
  rw [Lockstep.run_append, claimsOf_append _ (Lockstep.length_run _ _ _)]
  show repeats (claimsOf [call] [_] ++ _) = _
  rw [claimsOf_cons]
  rfl

theorem retriesIn_le_append (jsonb : Jsonb) (before : List MethodCall) (call : MethodCall) :
    retriesIn jsonb before ≤ retriesIn jsonb (before ++ [call]) := by
  rw [retriesIn_append]
  cases claimOf call (perform jsonb (tablesAfter jsonb before) call).1 with
  | none => exact le_refl _
  | some jobId => exact Nat.le_add_left _ _

/-- The records of the memory repository have the counts of the rows. -/
theorem memory_retryCount {r : InMemoryJobRepository} (h : Mirrors r db) : r.metrics.retryCount =
    (db.jobs.values.map fun job => max ((job.attemptCount : Int) - 1) 0).sum := by
  have hcounts := congrArg (List.map JobRecord.attemptCount) h.values
  rw [List.map_map, List.map_map] at hcounts
  have hclamped := congrArg (List.map fun n : Nat => max ((n : Int) - 1) 0) hcounts
  rw [List.map_map, List.map_map] at hclamped
  exact congrArg List.sum hclamped

/-- What `metrics` is to say of the retries, after each of the calls. -/
structure ReportsRetries (jsonb : Jsonb) (calls : List MethodCall) : Prop where
  exact : ∀ before, before <+: calls →
    (metrics (tablesAfter jsonb before)).retryCount = retriesIn jsonb before
  memory : ∀ before, before <+: calls →
    Lockstep.Allowed InMemoryJobRepository.perform (perform jsonb) (Comparable jsonb) .empty .empty
      before →
    (metrics (tablesAfter jsonb before)).retryCount =
      (Lockstep.run InMemoryJobRepository.perform .empty before).2.metrics.retryCount
  /-- Submitting or cancelling a job loses no retry. -/
  kept : ∀ before call, before ++ [call] <+: calls →
    (∃ request, call.operation = .createJob request) ∨ (∃ jobId, call.operation = .cancelJob jobId) →
    (metrics (tablesAfter jsonb before)).retryCount ≤
      (metrics (tablesAfter jsonb (before ++ [call]))).retryCount

/-- **The reported retries are the retries** as long as the clamp makes no difference. -/
theorem reportsRetries_iff (jsonb : Jsonb) (calls : List MethodCall) :
    ReportsRetries jsonb calls ↔
      ∀ before, before <+: calls → Unclamped (tablesAfter jsonb before) := by
  constructor
  · intro h before hbefore
    exact (retryCount_eq_retriesIn_iff jsonb before).mp (h.exact before hbefore)
  · intro h
    have hexact : ∀ before, before <+: calls →
        (metrics (tablesAfter jsonb before)).retryCount = retriesIn jsonb before :=
      fun before hbefore => (retryCount_eq_retriesIn_iff jsonb before).mpr (h before hbefore)
    refine ⟨hexact, fun before hbefore hallowed => ?_, fun before call hcall _ => ?_⟩
    · have hmirrors := (mirrors_kept.run before Mirrors.empty hallowed).2
      rw [hexact before hbefore, ← sum_clamped_tablesAfter]
      exact (memory_retryCount hmirrors).symm
    · rw [hexact _ hcall]
      have hgrows := retriesIn_le_append jsonb before call
      exact (retryCount_le jsonb before).trans (by exact_mod_cast hgrows)

/-- A job that is claimed twice, and a job that is not claimed. -/
def Sample.retriedCalls : List MethodCall :=
  [⟨.createJob Sample.request, 0, Sample.jobId, []⟩,
   ⟨.claimJob Sample.jobId "worker-local", 0, Sample.jobId, []⟩,
   ⟨.markFailedAttempt Sample.jobId "boom" 1, 0, Sample.jobId, []⟩,
   ⟨.claimJob Sample.jobId "worker-local", seconds 1, Sample.jobId, []⟩,
   ⟨.createJob Sample.request, seconds 1, Sample.nextJobId, []⟩]

/-- **A submission hides a retry**: one was reported, and after the last call none is. -/
theorem not_reportsRetries : retriesIn some Sample.retriedCalls = 1 ∧
    (metrics (tablesAfter some (Sample.retriedCalls.take 4))).retryCount = 1 ∧
    (metrics (tablesAfter some Sample.retriedCalls)).retryCount = 0 ∧
    ¬ ReportsRetries some Sample.retriedCalls := by
  have hretries : retriesIn some Sample.retriedCalls = 1 := rfl
  have hreported : (metrics (tablesAfter some Sample.retriedCalls)).retryCount = 0 := rfl
  refine ⟨hretries, rfl, hreported, fun h => ?_⟩
  have hexact := h.exact _ (List.prefix_refl _)
  rw [hretries, hreported] at hexact
  cases hexact

end SqlAlchemyJobRepository

end JobPipeline
