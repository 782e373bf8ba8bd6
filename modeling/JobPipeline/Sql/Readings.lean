import Mathlib.Algebra.Order.Group.MinMax
import JobPipeline.Sql.Leases
import JobPipeline.Sql.Metrics

/-!
# Reports read while others commit

`queue_depth` and `metrics` count with one `select` after another, and at `READ COMMITTED` each sees
the tables as they are when it runs. So what they report is not one state of the table: a job that
is claimed in between is counted as queued and as running. But a commit changes one row, so each
number is off by no more than the number of commits that were made meanwhile.
-/

set_option autoImplicit false

namespace JobPipeline

namespace SqlAlchemyJobRepository

/-- `queue_depth` from the tables that its statements saw, latest first. -/
def queueDepthOver (now : Int) : List Database → Option QueueDepth
  | [groups, dead, running, due, queued] =>
    some { queued := queued.jobs.values.countP fun job => job.status.isPending
           due := due.jobs.values.countP (isDue now)
           running := countStatus running .running
           deadLettered := countStatus dead .deadLettered
           byPriority := groupByPriority (groups.jobs.values.filter fun job => job.status.isPending) }
  | _ => none

/-- `metrics` from the tables that its statements saw, latest first. -/
def metricsOver : List Database → Option JobMetrics
  | [queued, running, terminal, retries, dead, failed, success] =>
    some { jobSuccessCount := countStatus success .succeeded
           jobFailureCount := countStatus failed .failed
           retryCount := max (retries.jobs.values.map fun job => (job.attemptCount : Int) - 1).sum 0
           deadLetterCount := countStatus dead .deadLettered
           jobLatencyP50Seconds := (latencyPercentiles (terminalJobs terminal)).1
           jobLatencyP95Seconds := (latencyPercentiles (terminalJobs terminal)).2
           workerUtilization :=
             JobPipeline.workerUtilization (countStatus running .running) (countStatus queued .queued) }
  | _ => none

/-- With nothing in between, they are `queue_depth` and `metrics` of the tables. -/
example (db : Database) (now : Int) :
    queueDepthOver now (List.replicate 5 db) = some (queueDepth db.jobs.values now) ∧
      metricsOver (List.replicate 7 db) = some (metrics db) := ⟨rfl, rfl⟩

end SqlAlchemyJobRepository

/-- The jobs waiting at a priority, as `by_priority` has them. -/
def QueueDepth.waiting (depth : QueueDepth) (priority : Nat) : Nat :=
  (depth.byPriority.lookup priority).getD 0

theorem lookup_map_self (f : Nat → Nat) (keys : List Nat) (k : Nat) :
    (keys.map fun x => (x, f x)).lookup k = if k ∈ keys then some (f k) else none := by
  induction keys with
  | nil => rfl
  | cons x rest ih =>
    rw [List.map_cons, Dict.lookup_cons_eq, ih]
    by_cases hk : k = x
    · simp [hk]
    · simp [hk]

theorem lookup_groupByPriority (rows : List Job) (priority : Nat) :
    ((SqlAlchemyJobRepository.groupByPriority rows).lookup priority).getD 0 =
      rows.countP fun job => job.priority = priority := by
  rw [SqlAlchemyJobRepository.groupByPriority, lookup_map_self]
  split
  · rfl
  · rename_i hnone
    refine (List.countP_eq_zero.mpr ?_).symm
    intro job hmem hpriority
    exact hnone (List.mem_dedup.mpr (List.mem_map.mpr ⟨job, hmem, by simpa using hpriority⟩))

/-- The numbers of two answers differ by at most `n`. -/
structure QueueDepth.Near (n : Nat) (depth depth' : QueueDepth) : Prop where
  queued : |(depth.queued : Int) - depth'.queued| ≤ n
  due : |(depth.due : Int) - depth'.due| ≤ n
  running : |(depth.running : Int) - depth'.running| ≤ n
  deadLettered : |(depth.deadLettered : Int) - depth'.deadLettered| ≤ n
  byPriority : ∀ priority, |(depth.waiting priority : Int) - depth'.waiting priority| ≤ n

structure JobMetrics.Near (n : Nat) (metrics metrics' : JobMetrics) : Prop where
  success : |(metrics.jobSuccessCount : Int) - metrics'.jobSuccessCount| ≤ n
  failure : |(metrics.jobFailureCount : Int) - metrics'.jobFailureCount| ≤ n
  retry : |metrics.retryCount - metrics'.retryCount| ≤ n
  deadLetter : |(metrics.deadLetterCount : Int) - metrics'.deadLetterCount| ≤ n

theorem workerUtilization_mem (running queued : Nat) :
    0 ≤ workerUtilization running queued ∧ workerUtilization running queued ≤ 1 := by
  unfold workerUtilization
  dsimp only
  split
  · exact ⟨le_refl 0, zero_le_one⟩
  · constructor
    · exact div_nonneg (Nat.cast_nonneg _) (Nat.cast_nonneg _)
    · apply div_le_one_of_le₀ _ (Nat.cast_nonneg _)
      exact_mod_cast Nat.le_add_right running queued

/-! ## One row at a time -/

/-- The rows of `jobs` before and after at most one `INSERT` or `UPDATE` of one of them. -/
inductive RowsStep (rows rows' : List Job) : Prop where
  | same (rows_eq : rows' = rows)
  | update (row row' : Job) (rest : List Job) (before : rows.Perm (row :: rest))
      (after : rows'.Perm (row' :: rest))
      (count : row.attemptCount ≤ row'.attemptCount ∧ row'.attemptCount ≤ row.attemptCount + 1)
  | insert (row : Job) (after : rows'.Perm (row :: rows)) (new : row.attemptCount = 0)

/-- A number that one row does not change by more than one. -/
def Steady (number : List Job → Int) : Prop :=
  ∀ rows rows', RowsStep rows rows' → |number rows' - number rows| ≤ 1

theorem steady_countP (p : Job → Bool) : Steady fun rows => rows.countP p := by
  intro rows rows' h
  show |((rows'.countP p : Nat) : Int) - (rows.countP p : Nat)| ≤ 1
  rw [abs_le]
  cases h with
  | same rows_eq =>
    subst rows_eq
    omega
  | update row row' rest before after count =>
    rw [before.countP_eq, after.countP_eq, List.countP_cons, List.countP_cons]
    split <;> split <;> omega
  | insert row after new =>
    rw [after.countP_eq, List.countP_cons]
    split <;> omega

theorem steady_retries : Steady fun rows => (rows.map fun job => (job.attemptCount : Int) - 1).sum := by
  intro rows rows' h
  show |(rows'.map fun job => (job.attemptCount : Int) - 1).sum -
    (rows.map fun job => (job.attemptCount : Int) - 1).sum| ≤ 1
  rw [abs_le]
  cases h with
  | same rows_eq =>
    subst rows_eq
    omega
  | update row row' rest before after count =>
    rw [(before.map _).sum_eq, (after.map _).sum_eq, List.map_cons, List.map_cons, List.sum_cons,
      List.sum_cons]
    omega
  | insert row after new =>
    rw [(after.map _).sum_eq, List.map_cons, List.sum_cons, new]
    omega

namespace Sql

/-- Any number of sessions, and a call that reads. -/
structure Watch where
  state : State
  /-- The tables that the statements of the call saw, latest first. -/
  seen : List Database
  /-- The commits since its first statement. -/
  commits : Nat

inductive WatchStep where
  /-- A step of a session. -/
  | session (label : Label)
  /-- The next statement of the call that reads. -/
  | look

/-- The steps that commit to `jobs`, if anything. -/
def Action.commits : Action → Bool
  | .insertCommit _ | .nextCommit _ => true
  | .claimCommit _ | .succeedCommit _ | .failCommit _ | .cancelCommit _ => true
  | _ => false

namespace Watch

def step (settings : Settings) (jsonb : Jsonb) (w : Watch) : WatchStep → Option Watch
  | .session label =>
    (w.state.step settings jsonb label).map fun state =>
      { w with state := state
               commits := w.commits + if label.action.commits then 1 else 0 }
  | .look =>
    some { w with seen := w.state.db :: w.seen
                  commits := if w.seen = [] then 0 else w.commits }

end Watch

namespace State

open Transition

variable {settings : Settings} {jsonb : Jsonb} {s s' : State} {now : Int} {action : Action}
  {call : Option CallId}

theorem rowsStep_of_update {id : UUID} {assign : Job → Job} {row : Job}
    (hrow : s.db.jobs.get? id = some row) (hjobs : s'.db.jobs = s.db.jobs.modify id assign)
    (hcount : row.attemptCount ≤ (assign row).attemptCount ∧
      (assign row).attemptCount ≤ row.attemptCount + 1) :
    RowsStep s.db.jobs.values s'.db.jobs.values := by
  obtain ⟨rest, hbefore, hafter⟩ := Dict.values_split hrow
  rw [hjobs, Dict.modify_eq_insert assign hrow]
  exact .update row (assign row) rest hbefore (hafter (assign row)) hcount

/-- A step writes one row at most. -/
theorem Effect.rowsStep (he : Effect s s' call) (hinv : s.Inv) :
    RowsStep s.db.jobs.values s'.db.jobs.values := by
  cases he with
  | idle tables => exact .same (by rw [tables.1])
  | quiet _ _ tables => exact .same (by rw [tables.1])
  | reads _ _ _ tables => exact .same (by rw [tables.1])
  | start _ _ tables => exact .same (by rw [tables.1])
  | insert c row payload session jobs attempts fresh new =>
    rw [jobs]
    exact .insert { row with payload := payload } (Dict.values_insert_fresh _ fresh) new.2
  | claim c read workerId now before fits free jobs =>
    obtain ⟨row, hrow, -⟩ := hinv.read_stored c read (by rw [before]; rfl)
    have hcurrent := (hinv.free_iff before).mp free
    rw [version_of_stored hrow] at hcurrent
    refine rowsStep_of_update hrow jobs ?_
    simp only [Job.claimAssignments]
    omega
  | succeed c job read result stored now before jobs =>
    obtain ⟨row, hrow, -⟩ := hinv.read_stored c read (by rw [before]; rfl)
    exact rowsStep_of_update hrow jobs ⟨le_refl _, Nat.le_succ _⟩
  | fail c job succeeded read error now before fits jobs =>
    obtain ⟨row, hrow, -⟩ := hinv.read_stored c read (by rw [before]; rfl)
    exact rowsStep_of_update hrow jobs ⟨le_refl _, Nat.le_succ _⟩
  | cancel c read now before jobs =>
    obtain ⟨row, hrow, -⟩ := hinv.read_stored c read (by rw [before]; rfl)
    exact rowsStep_of_update hrow jobs ⟨le_refl _, Nat.le_succ _⟩

/-- The other steps write none. -/
theorem jobs_of_uncommitted (hs : s.act settings jsonb now action = some s')
    (h : action.commits = false) : s'.db.jobs = s.db.jobs := by
  cases action with
  | insertCommit | nextCommit | claimCommit | succeedCommit | failCommit | cancelCommit => cases h
  | setAvailable =>
    cases hs
    rfl
  | drainCommit c =>
    simp only [act] at hs
    repeat' split at hs
    all_goals cases hs
    · rfl
    · rename_i hcommit
      obtain ⟨opsSettings, rfl⟩ := commitDrain_ok hcommit
      rfl
  | submit c | reselect c | insertRefresh c | publish c | process c | claimRead c | claimRefresh c
  | finish c | succeedRead c | succeedRefresh c | next c | failRead c | failRefresh c
  | publishDeadLetter c | cancelRead c | cancelRefresh c | drainRead c =>
    simp only [act, submitJob, reselect, claimRead, claimRefresh, State.next] at hs
    repeat' split at hs
    all_goals cases hs
    all_goals rfl

theorem steady_act {number : List Job → Int} (h : Steady number) (hinv : s.Inv)
    (hs : s.act settings jsonb now action = some s') :
    |number s'.db.jobs.values - number s.db.jobs.values| ≤ if action.commits then 1 else 0 := by
  split
  · exact h _ _ ((act_effect hinv.toKnown hs).rowsStep hinv)
  · rename_i hcommits
    rw [jobs_of_uncommitted hs (by simpa using hcommits), sub_self, abs_zero]

end State

/-- The runs of any number of sessions and of a call that reads. -/
def readings (settings : Settings) (jsonb : Jsonb) : Transition.System Watch WatchStep :=
  .ofFunction (· = ⟨State.initial, [], 0⟩) (Watch.step settings jsonb)

namespace Watch

open Transition

variable {settings : Settings} {jsonb : Jsonb} {w w' : Watch} {label : WatchStep}

/-- What the call has seen is off by the commits since then. -/
structure Near (settings : Settings) (jsonb : Jsonb) (w : Watch) : Prop where
  reachable : (Sql.sessions settings jsonb).Reachable Any w.state
  near : ∀ db ∈ w.seen, ∀ number, Steady number →
    |number db.jobs.values - number w.state.db.jobs.values| ≤ w.commits

theorem Near.step (h : Near settings jsonb w) (hs : w.step settings jsonb label = some w') :
    Near settings jsonb w' := by
  cases label with
  | session label =>
    obtain ⟨state, hstate, rfl⟩ := Option.map_eq_some_iff.mp hs
    refine ⟨h.reachable.tail trivial hstate, ?_⟩
    intro db hmem number hsteady
    have hbefore := h.near db hmem number hsteady
    have hstep := State.steady_act hsteady (State.inv_of_reachable h.reachable) hstate
    rw [abs_sub_comm] at hstep
    calc |number db.jobs.values - number state.db.jobs.values|
        ≤ |number db.jobs.values - number w.state.db.jobs.values| +
            |number w.state.db.jobs.values - number state.db.jobs.values| := abs_sub_le _ _ _
      _ ≤ w.commits + if label.action.commits then 1 else 0 := add_le_add hbefore hstep
      _ = ((w.commits + if label.action.commits then 1 else 0 : Nat) : Int) := by push_cast; rfl
  | look =>
    cases hs
    refine ⟨h.reachable, ?_⟩
    intro db hmem number hsteady
    rcases List.mem_cons.mp hmem with rfl | hmem
    · rw [sub_self, abs_zero]
      exact Int.natCast_nonneg _
    · rw [if_neg (List.ne_nil_of_mem hmem)]
      exact h.near db hmem number hsteady

theorem near_of_reachable (h : (readings settings jsonb).Reachable Any w) :
    Near settings jsonb w := by
  apply h.invariant
  · intro w hw
    have hw : w = ⟨State.initial, [], 0⟩ := hw
    subst hw
    refine ⟨.init rfl, ?_⟩
    intro db hmem
    cases hmem
  · intro w label w' hnear _ hs
    exact hnear.step hs

/-- A job is claimed between the statements of `queue_depth`, which counts it twice. -/
def countedTwice : List WatchStep :=
  [⟨0, .submit 0 Sample.request Sample.jobId⟩, ⟨0, .insertCommit 0⟩].map .session ++
    [.look, .look] ++
    [⟨0, .process 1 Sample.jobId "worker-1"⟩, ⟨0, .claimRead 1⟩, ⟨0, .claimCommit 1⟩].map .session ++
    [.look, .look, .look]

end Watch

end Sql

end JobPipeline
