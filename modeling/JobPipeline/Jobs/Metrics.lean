import Mathlib.Algebra.Order.Floor.Ring
import Mathlib.Data.Rat.Floor
import JobPipeline.Jobs.InMemory

/-!
# Metrics

`metrics()` of both repositories counts jobs by status, adds up retries, and sorts the latencies
of the jobs that have a completion time. The numbers that are floats in the code are rationals
here: seconds are exact, and so is a percentile's place in the list before it is rounded.
-/

set_option autoImplicit false

namespace JobPipeline

structure JobMetrics where
  jobSuccessCount : Nat
  jobFailureCount : Nat
  retryCount : Int
  deadLetterCount : Nat
  jobLatencyP50Seconds : ℚ
  jobLatencyP95Seconds : ℚ
  workerUtilization : ℚ

/-- `round`: to the nearest integer, and half-way to the even one. -/
def roundHalfEven (x : ℚ) : Int :=
  let floor := ⌊x⌋
  if x - floor < 1 / 2 then floor
  else if 1 / 2 < x - floor then floor + 1
  else if floor % 2 = 0 then floor else floor + 1

/-- `_percentile`; only called with at least one value. -/
def percentile (values : List ℚ) (percentile : ℚ) : ℚ :=
  let index := max (min (roundHalfEven ((values.length - 1 : Int) * percentile))
    (values.length - 1)) 0
  values.getD index.toNat 0

/-- `(job.processed_at - job.created_at).total_seconds()`, of a job that has both. -/
def JobRecord.latency? (job : JobRecord) : Option ℚ :=
  job.processedAt.map fun processedAt => ((processedAt - job.createdAt : Int) : ℚ) / 1000000

/-- The sorted latencies that `_latency_percentiles` looks at. -/
def latencies (jobs : List JobRecord) : List ℚ :=
  (jobs.filterMap JobRecord.latency?).insertionSort (· ≤ ·)

/-- `_latency_percentiles`. -/
def latencyPercentiles (jobs : List JobRecord) : ℚ × ℚ :=
  match latencies jobs with
  | [] => (0, 0)
  | values => (percentile values (1 / 2), percentile values (19 / 20))

/-- `_worker_utilization`. -/
def workerUtilization (running queued : Nat) : ℚ :=
  let totalActive := running + queued
  if totalActive = 0 then 0 else running / totalActive

namespace InMemoryJobRepository

/-- The jobs in a status. -/
def countStatus (r : InMemoryJobRepository) (status : JobStatus) : Nat :=
  r.jobs.values.countP fun job => job.status = status

def metrics (r : InMemoryJobRepository) : JobMetrics where
  jobSuccessCount := r.countStatus .succeeded
  jobFailureCount := r.countStatus .failed
  retryCount := (r.jobs.values.map fun job => max ((job.attemptCount : Int) - 1) 0).sum
  deadLetterCount := r.countStatus .deadLettered
  jobLatencyP50Seconds := (latencyPercentiles r.jobs.values).1
  jobLatencyP95Seconds := (latencyPercentiles r.jobs.values).2
  workerUtilization := JobPipeline.workerUtilization (r.countStatus .running) (r.countStatus .queued)

end InMemoryJobRepository

end JobPipeline
