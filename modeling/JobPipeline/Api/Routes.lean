import JobPipeline.Api.Listing
import JobPipeline.Service.Submitting
import JobPipeline.Sql.Metrics

/-!
# The routes (`main.py`)

A request is one call of a `JobService` method, and that is at most one call of a repository method
and one publish. The routes are written over the repository protocol and run over both its
implementations. A request comes in here as FastAPI hands it to the route: one that its validation
refuses is answered 422 without the route. Bodies are the response models, before they are printed.

Times in a body are instants. Printed, a `run_at` has the offset of its request over the memory
repository and that of the database's session over PostgreSQL.
-/

set_option autoImplicit false

namespace JobPipeline

/-! ## Responses -/

structure JobCreateResponse where
  id : UUID
  status : JobStatus
  idempotentReplay : Bool
deriving DecidableEq

structure JobResponse where
  id : UUID
  handler : String
  status : JobStatus
  priority : Nat
  attemptCount : Nat
  maxRetries : Nat
  timeoutSeconds : Nat
  runAt : Option Int
  recurringCron : Option String
  nextRunAt : Int
  lastError : Option String
  result : Option JsonObject
  idempotencyKey : Option String
  createdAt : Int
  updatedAt : Int
  processedAt : Option Int

/-- `JobResponse.model_validate(job)`: the attributes of the same names. -/
def JobResponse.modelValidate (job : JobRecord) : JobResponse where
  id := job.id
  handler := job.handler
  status := job.status
  priority := job.priority
  attemptCount := job.attemptCount
  maxRetries := job.maxRetries
  timeoutSeconds := job.timeoutSeconds
  runAt := job.runAt
  recurringCron := job.recurringCron
  nextRunAt := job.nextRunAt
  lastError := job.lastError
  result := job.result
  idempotencyKey := job.idempotencyKey
  createdAt := job.createdAt
  updatedAt := job.updatedAt
  processedAt := job.processedAt

structure QueueDepthResponse where
  queued : Nat
  due : Nat
  running : Nat
  deadLettered : Nat
  byPriority : List (Nat × Nat)

structure MetricsResponse where
  jobSuccessCount : Nat
  jobFailureCount : Nat
  jobSuccessRate : ℚ
  jobFailureRate : ℚ
  retryCount : Int
  deadLetterCount : Nat
  jobLatencyP50Seconds : ℚ
  jobLatencyP95Seconds : ℚ
  workerUtilization : ℚ

structure CancelResponse where
  id : UUID
  status : JobStatus
deriving DecidableEq

structure DrainResponse where
  drainEnabled : Bool
deriving DecidableEq

structure ErrorBody where
  code : String
  message : String
  requestId : String
  details : JsonObject

inductive Body where
  | healthz
  | readyz
  | created (response : JobCreateResponse)
  | job (response : JobResponse)
  | jobs (response : JobListResponse)
  | depth (response : QueueDepthResponse)
  | metrics (response : MetricsResponse)
  | cancelled (response : CancelResponse)
  | drain (response : DrainResponse)
  | error (error : ErrorBody)

structure Response where
  statusCode : Nat
  body : Body

def errorResponse (requestId code message : String) (statusCode : Nat) (details : JsonObject) :
    Response :=
  ⟨statusCode, .error ⟨code, message, requestId, details⟩⟩

/-- `handle_service_error`, and `handle_unexpected_error` for whatever else is raised. -/
def handleError (requestId : String) : Exc → Response
  | .service e => errorResponse requestId e.code e.message e.statusCode e.details
  | _ => errorResponse requestId "internal_server_error" "Unexpected server error" 500 []

/-- The response of a route that returns a body, or raises. -/
def respond (requestId : String) : Except Exc Body → Response
  | .ok body => ⟨200, body⟩
  | .error e => handleError requestId e

/-! ## The service -/

/-- `success_failure_rates`. -/
def successFailureRates (metrics : JobMetrics) : ℚ × ℚ :=
  let total := metrics.jobSuccessCount + metrics.jobFailureCount + metrics.deadLetterCount
  if total = 0 then (0, 0)
  else (metrics.jobSuccessCount / total,
    ((metrics.jobFailureCount + metrics.deadLetterCount : Nat) : ℚ) / total)

/-- The methods of `JobRepository` that requests call, of a repository in some state: what each
    returns or raises, and the state that those leave that may change it. -/
structure JobRepository (σ : Type) where
  createJob : JobCreate → Except Exc (JobRecord × Bool) × σ
  getJob : UUID → Except Exc JobRecord
  listJobs : Option JobStatus → Option String → Nat → Nat → Except Exc (List JobRecord)
  queueDepth : Except Exc QueueDepth
  metrics : Except Exc JobMetrics
  cancelJob : UUID → Except Exc JobRecord × σ
  setDrain : Bool → Except Exc Unit × σ
  getDrain : Except Exc Bool

/-- A method that returns a value and the next state, or raises and changes nothing. -/
def outcome {σ α : Type} (s : σ) : Except Exc (α × σ) → Except Exc α × σ
  | .ok (a, s') => (.ok a, s')
  | .error e => (.error e, s)

/-- What a method reads from outside: the clock, the identifier that `uuid4` draws, and the rows of
    `jobs` in the order in which PostgreSQL visits them. -/
structure Reads where
  now : Int
  drawn : UUID
  rows : List Job

def InMemoryJobRepository.protocol (reads : Reads) (r : InMemoryJobRepository) :
    JobRepository InMemoryJobRepository where
  createJob request := outcome r (r.createJob request reads.now reads.drawn)
  getJob := r.getJob
  listJobs status handler limit offset := .ok (r.listJobs status handler limit offset)
  queueDepth := .ok (r.queueDepth reads.now)
  metrics := .ok r.metrics
  cancelJob jobId := outcome r (r.cancelJob jobId reads.now)
  setDrain enabled := (.ok (), r.setDrain enabled)
  getDrain := .ok r.getDrain

/-- `datetime` has the `run_at` in UTC, which is the one time of a row that a request chooses. -/
def JobRecord.readable (job : JobRecord) : Bool := job.runAt.all isDatetime

namespace SqlAlchemyJobRepository

/-- psycopg cannot read the rows otherwise. -/
def readBack (jobs : List JobRecord) : Except Exc Unit :=
  if jobs.all JobRecord.readable then .ok () else .error (.dataError "run_at")

/-- The methods, with every row they load read by psycopg. A new row is read after its commit. -/
def connected (jsonb : Jsonb) (reads : Reads) (db : Database) : JobRepository Database where
  createJob request :=
    match createJob jsonb db request reads.now reads.drawn with
    | .ok ((job, replay), db') => ((readBack [job]).map fun _ => (job, replay), db')
    | .error e => (.error e, db)
  getJob jobId :=
    match getJob db jobId with
    | .ok job => (readBack [job]).map fun _ => job
    | .error e => .error e
  listJobs status handler limit offset :=
    match queryListJobs reads.rows status handler limit offset with
    | .ok jobs => (readBack jobs).map fun _ => jobs
    | .error e => .error e
  queueDepth := .ok (queueDepth reads.rows reads.now)
  metrics := (readBack (terminalJobs db)).map fun _ => metrics db
  cancelJob jobId :=
    match getJob db jobId with
    | .ok job =>
      match readBack [job] with
      | .ok _ => outcome db (cancelJob db jobId reads.now)
      | .error e => (.error e, db)
    | .error e => (.error e, db)
  setDrain enabled := outcome db (setDrain db enabled reads.now)
  getDrain := .ok db.getDrain

/-- The database cannot be reached: the first statement of every method raises. -/
def disconnected (db : Database) : JobRepository Database :=
  let exc := .other "OperationalError" "connection failed"
  { createJob := fun _ => (.error exc, db)
    getJob := fun _ => .error exc
    listJobs := fun _ _ _ _ => .error exc
    queueDepth := .error exc
    metrics := .error exc
    cancelJob := fun _ => (.error exc, db)
    setDrain := fun _ => (.error exc, db)
    getDrain := .error exc }

def protocol (jsonb : Jsonb) (reads : Reads) (databaseReady : Bool) (db : Database) :
    JobRepository Database :=
  if databaseReady then connected jsonb reads db else disconnected db

end SqlAlchemyJobRepository

/-- The application: its repository, in the state it is in, and its producer. -/
structure App (σ : Type) where
  repository : σ
  producer : FakeJobProducer

variable {σ : Type}

/-- `JobService.submit_job`. -/
def App.submitJob (settings : Settings) (app : App σ) (repository : JobRepository σ)
    (request : JobCreate) : Except Exc (JobRecord × Bool) × App σ :=
  match getHandler request.handler with
  | .error e => (.error e, app)
  | .ok _ =>
    match validatePayloadSize settings request.payload with
    | .error e => (.error e, app)
    | .ok _ =>
      match repository.createJob request with
      | (.error e, state) => (.error e, { app with repository := state })
      | (.ok (job, true), state) => (.ok (job, true), { app with repository := state })
      | (.ok (job, false), state) =>
        match app.producer.publishJob job.message with
        | .error e => (.error e, { app with repository := state })
        | .ok producer => (.ok (job, false), ⟨state, producer⟩)

/-! ## The routes -/

/-- `limit: int = Query(default=50, ge=1)` and `offset: int = Query(default=0, ge=0)`. -/
structure PageQuery where
  limit : Nat := 50
  offset : Nat := 0
  limit_pos : 1 ≤ limit

inductive Request where
  | healthz
  | readyz
  | createJob (request : JobCreate)
  | getJob (jobId : UUID)
  | listJobs (status : Option JobStatus) (handler : Option String) (page : PageQuery)
  | queueDepth
  | metrics
  | cancelJob (jobId : UUID)
  | setDrain (enabled : Bool)
  | getDrain

/-- A request with what the application finds in its surroundings. -/
structure HttpRequest where
  /-- The header named by `request_id_header`. -/
  header : Option String
  /-- What `uuid4` draws for a request without one. -/
  drawnId : UUID
  databaseReady : Bool
  /-- `get_job_producer()` has its `KafkaProducer` or gets one now. -/
  producerBuilt : Bool
  request : Request

def HttpRequest.requestId (http : HttpRequest) : String := http.header.getD http.drawnId.str

/-- `get_job_service`, of a request that is served over PostgreSQL. -/
def getJobService (jsonb : Jsonb) (reads : Reads) (http : HttpRequest) (db : Database) :
    Except Exc (JobRepository Database) :=
  if http.producerBuilt then
    .ok (SqlAlchemyJobRepository.protocol jsonb reads http.databaseReady db)
  else .error (.other "NoBrokersAvailable" "NoBrokersAvailable")

/-- `GET /readyz`. -/
def routeReadyz (databaseOk producerBuilt : Bool) (producer : FakeJobProducer) : Except Exc Body :=
  let kafkaOk := producerBuilt && producer.available
  if ¬ databaseOk ∨ ¬ kafkaOk then
    .error (.service (dependencyUnavailableError "Dependency unavailable"
      [("database", .bool databaseOk), ("kafka", .bool kafkaOk)]))
  else .ok .readyz

/-- `POST /jobs`. -/
def routeCreateJob (settings : Settings) (requestId : String) (app : App σ)
    (repository : JobRepository σ) (request : JobCreate) : Response × App σ :=
  match app.submitJob settings repository request with
  | (.error e, app) => (handleError requestId e, app)
  | (.ok (job, replay), app) =>
    (⟨if replay then 200 else 201, .created ⟨job.id, job.status, replay⟩⟩, app)

/-- `GET /jobs/{job_id}`. -/
def routeGetJob (repository : JobRepository σ) (jobId : UUID) : Except Exc Body :=
  (repository.getJob jobId).map fun job => .job (.modelValidate job)

/-- `GET /jobs`. -/
def JobRepository.routeListJobs (settings : Settings) (repository : JobRepository σ)
    (status : Option JobStatus) (handler : Option String) (page : PageQuery) : Except Exc Body :=
  let limit := min page.limit settings.maxPageSize
  match checkHandlerFilter handler with
  | .error e => .error e
  | .ok _ =>
    (repository.listJobs status handler limit page.offset).map fun jobs =>
      .jobs { items := jobs.map .ofRecord, limit := limit, offset := page.offset }

/-- `GET /queue/depth`. -/
def routeQueueDepth (repository : JobRepository σ) : Except Exc Body :=
  repository.queueDepth.map fun depth => .depth
    { queued := depth.queued
      due := depth.due
      running := depth.running
      deadLettered := depth.deadLettered
      byPriority := depth.byPriority }

/-- The `MetricsResponse` of `GET /metrics`. -/
def MetricsResponse.ofMetrics (metrics : JobMetrics) : MetricsResponse :=
  let rates := successFailureRates metrics
  { jobSuccessCount := metrics.jobSuccessCount
    jobFailureCount := metrics.jobFailureCount + metrics.deadLetterCount
    jobSuccessRate := rates.1
    jobFailureRate := rates.2
    retryCount := metrics.retryCount
    deadLetterCount := metrics.deadLetterCount
    jobLatencyP50Seconds := metrics.jobLatencyP50Seconds
    jobLatencyP95Seconds := metrics.jobLatencyP95Seconds
    workerUtilization := metrics.workerUtilization }

/-- `GET /metrics`. -/
def routeMetrics (repository : JobRepository σ) : Except Exc Body :=
  repository.metrics.map fun metrics => .metrics (.ofMetrics metrics)

/-- `POST /jobs/{job_id}/cancel`. -/
def routeCancelJob (requestId : String) (app : App σ) (repository : JobRepository σ)
    (jobId : UUID) : Response × App σ :=
  let (result, state) := repository.cancelJob jobId
  (respond requestId (result.map fun job => .cancelled ⟨job.id, job.status⟩),
    { app with repository := state })

/-- `POST /ops/drain`. -/
def routeSetDrain (requestId : String) (app : App σ) (repository : JobRepository σ)
    (enabled : Bool) : Response × App σ :=
  let (result, state) := repository.setDrain enabled
  (respond requestId (result.map fun _ => .drain ⟨enabled⟩), { app with repository := state })

/-- `GET /ops/drain`. -/
def routeGetDrain (repository : JobRepository σ) : Except Exc Body :=
  repository.getDrain.map fun enabled => .drain ⟨enabled⟩

/-- `Depends(get_job_service)`: the route runs if there is a service. -/
def withService (requestId : String) (app : App σ) (service : Except Exc (JobRepository σ))
    (route : JobRepository σ → Response × App σ) : Response × App σ :=
  match service with
  | .ok repository => route repository
  | .error e => (handleError requestId e, app)

/-- The response to a request, and the application after it. -/
def serve (settings : Settings) (app : App σ) (service : Except Exc (JobRepository σ))
    (http : HttpRequest) : Response × App σ :=
  let id := http.requestId
  match http.request with
  | .healthz => (respond id (.ok .healthz), app)
  | .readyz => (respond id (routeReadyz http.databaseReady http.producerBuilt app.producer), app)
  | .createJob request => withService id app service (routeCreateJob settings id app · request)
  | .getJob jobId => withService id app service fun repository =>
    (respond id (routeGetJob repository jobId), app)
  | .listJobs status handler page => withService id app service fun repository =>
    (respond id (repository.routeListJobs settings status handler page), app)
  | .queueDepth => withService id app service fun repository =>
    (respond id (routeQueueDepth repository), app)
  | .metrics => withService id app service fun repository =>
    (respond id (routeMetrics repository), app)
  | .cancelJob jobId => withService id app service (routeCancelJob id app · jobId)
  | .setDrain enabled => withService id app service (routeSetDrain id app · enabled)
  | .getDrain => withService id app service fun repository =>
    (respond id (routeGetDrain repository), app)

/-- Where the query raises nothing, `GET /jobs` is the route that a client pages through. -/
theorem routeListJobs_of_ok {repository : JobRepository σ} {list : ListJobs}
    (hlist : ∀ status handler limit offset,
      repository.listJobs status handler limit offset = .ok (list status handler limit offset))
    (settings : Settings) (status : Option JobStatus) (handler : Option String) (page : PageQuery) :
    repository.routeListJobs settings status handler page =
      (routeListJobs settings list status handler page.limit page.offset).map .jobs := by
  unfold JobRepository.routeListJobs routeListJobs serviceListJobs
  cases checkHandlerFilter handler with
  | error e => rfl
  | ok u =>
    simp only [hlist]
    rfl

/-- Over `InMemoryJobRepository` the service is the one modelled before. -/
theorem submitJob_inMemory (settings : Settings) (service : JobService) (reads : Reads)
    (request : JobCreate) :
    App.submitJob settings ⟨service.repository, service.producer⟩
        (InMemoryJobRepository.protocol reads service.repository) request =
      ((service.submitJob settings request reads.now reads.drawn).1,
        ⟨(service.submitJob settings request reads.now reads.drawn).2.repository,
          (service.submitJob settings request reads.now reads.drawn).2.producer⟩) := by
  unfold App.submitJob JobService.submitJob
  simp only [InMemoryJobRepository.protocol]
  cases hcreate : service.repository.createJob request reads.now reads.drawn with
  | error e =>
    simp only [outcome]
    repeat' split
    all_goals simp_all
  | ok answer =>
    obtain ⟨⟨job, replay⟩, r'⟩ := answer
    cases replay <;> simp only [outcome]
    all_goals repeat' split
    all_goals simp_all

/-! ## Unexpected errors -/

/-- An error that has a status of its own. -/
def Expected (e : Exc) : Prop := ∃ error, e = .service error ∧ error.statusCode ≠ 500

section Errors

variable {settings : Settings} {requestId : String} {e : Exc} {request : JobCreate} {jobId : UUID}
  {now : Int} {jsonb : Jsonb} {db : Database} {reads : Reads} {app : App Database}

theorem handleError_eq_500 : (handleError requestId e).statusCode = 500 ↔ ¬ Expected e := by
  unfold Expected
  cases e with
  | service error => simp [handleError, errorResponse]
  | _ => simp [handleError, errorResponse]

theorem respond_eq_500 {result : Except Exc Body} :
    (respond requestId result).statusCode = 500 ↔ ∃ e, result = .error e ∧ ¬ Expected e := by
  cases result with
  | ok body => simp [respond]
  | error e => simp [respond, handleError_eq_500]

theorem getHandler_expected {name : String} (h : getHandler name = .error e) : Expected e := by
  unfold getHandler at h
  split at h
  · cases h
  · cases h
    exact ⟨_, rfl, by simp [badRequestError]⟩

theorem validatePayloadSize_expected {payload : JsonObject}
    (h : validatePayloadSize settings payload = .error e) : Expected e := by
  unfold validatePayloadSize at h
  split at h
  · cases h
    exact ⟨_, rfl, by simp [badRequestError]⟩
  · cases h

theorem publishJob_unavailable {producer : FakeJobProducer} {message : JobMessage}
    (h : producer.publishJob message = .error e) :
    ∃ error, e = .service error ∧ error.statusCode = 503 := by
  unfold FakeJobProducer.publishJob at h
  split at h
  · cases h
    exact ⟨_, rfl, rfl⟩
  · cases h

theorem checkHandlerFilter_expected {handler : Option String}
    (h : checkHandlerFilter handler = .error e) : Expected e := by
  unfold checkHandlerFilter at h
  split at h
  · cases h
  · split at h
    · cases h
    · unfold ensureSupportedHandler at h
      split at h
      · cases h
      · rename_i hhandler
        cases h
        exact getHandler_expected hhandler

/-- The registry knows no name that does not fit its column. -/
theorem Supported.fits {name : String} (h : Supported name) : fitsString 100 name = true := by
  obtain ⟨handler, hhandler⟩ := h
  unfold getHandler at hhandler
  split at hhandler
  · rename_i found hfound
    obtain ⟨before, after, heq, -⟩ := List.lookup_eq_some_iff.mp hfound
    have hmem : name ∈ handlers.map Prod.fst := by
      rw [heq]
      simp
    have hfits : ∀ name ∈ handlers.map Prod.fst, fitsString 100 name = true := by decide
    exact hfits name hmem
  · cases hhandler

theorem AcceptsFilter.fits {handler : Option String} (h : AcceptsFilter handler) :
    ∀ name ∈ handler, fitsText name = true := by
  intro name hmem
  rcases h name hmem with rfl | hsupported
  · decide
  · exact (fitsString_iff.mp hsupported.fits).2

/-- The columns of `jobs` can hold the request. -/
def Storable (jsonb : Jsonb) (request : JobCreate) : Prop :=
  (∀ key ∈ request.idempotencyKey, fitsText key = true) ∧ (jsonb request.payload).isSome = true

/-- The tables after the `INSERT` of a new job; `payload` is what was stored of its payload. -/
def Database.submitted (db : Database) (request : JobCreate) (jobId : UUID) (now : Int)
    (payload : JsonObject) : Database :=
  { db with
    jobs := db.jobs.insert jobId { Job.submittedRow request jobId now with payload := payload } }

/-- The `INSERT` of a new job fails on a column or not at all. -/
theorem insertJob_submitted (jsonb : Jsonb) (now : Int) (hsupported : Supported request.handler)
    (hfresh : db.jobs.get? jobId = none)
    (hnew : SqlAlchemyJobRepository.existing db request = none) :
    (Storable jsonb request ∧ ∃ payload, db.insertJob jsonb (.submittedRow request jobId now) =
        .ok (db.submitted request jobId now payload)) ∨
      ¬ Storable jsonb request ∧ ∃ column,
        db.insertJob jsonb (.submittedRow request jobId now) = .error (.dataError column) := by
  have hhandler : fitsString 100 (Job.submittedRow request jobId now).handler = true :=
    hsupported.fits
  have hcron : (Job.submittedRow request jobId now).recurringCron.all (fitsString 100) = true := by
    show request.recurringCron.all (fitsString 100) = true
    cases hcron : request.recurringCron with
    | none => rfl
    | some cron => exact request.cron_fits hcron
  have hintegers : [(Job.submittedRow request jobId now).priority,
      (Job.submittedRow request jobId now).maxRetries,
      (Job.submittedRow request jobId now).timeoutSeconds].all fitsInteger = true :=
    request.integers_fit
  have hpk : db.jobs.contains (Job.submittedRow request jobId now).id = false :=
    Dict.contains_eq_false_iff.mpr hfresh
  have hunique : ((Job.submittedRow request jobId now).idempotencyKey.bind db.findByKey).isSome =
      false := by
    show (request.idempotencyKey.bind db.findByKey).isSome = false
    cases hkey : request.idempotencyKey with
    | none => rfl
    | some key =>
      have hne : key ≠ "" := fun heq => request.key_ne_empty (by rw [hkey, heq])
      have hnone : db.findByKey key = none := by
        simpa [SqlAlchemyJobRepository.existing, hkey, Option.filter, hne] using hnew
      simp [hnone]
  have hkeyFits : (Job.submittedRow request jobId now).idempotencyKey.all (fitsString 200) = true ↔
      ∀ key ∈ request.idempotencyKey, fitsText key = true := by
    show request.idempotencyKey.all (fitsString 200) = true ↔ _
    cases hkey : request.idempotencyKey with
    | none => simp
    | some key =>
      have hlength := (request.key_accepted key hkey).2
      simp [fitsString_iff, hlength]
  unfold Storable
  rw [← hkeyFits]
  cases hfits : (Job.submittedRow request jobId now).idempotencyKey.all (fitsString 200) with
  | false =>
    exact .inr ⟨by simp, "idempotency_key", by simp [Database.insertJob, hhandler, hcron, hfits]⟩
  | true =>
    cases hpayload : jsonb request.payload with
    | none =>
      have hcolumn : jsonb (Job.submittedRow request jobId now).payload = none := hpayload
      exact .inr ⟨by simp, "payload", by
        simp only [Database.insertJob, hhandler, hcron, hfits, hintegers, hcolumn, not_true_eq_false,
          if_false]⟩
    | some payload =>
      have hcolumn : jsonb (Job.submittedRow request jobId now).payload = some payload := hpayload
      refine .inl ⟨⟨rfl, rfl⟩, payload, ?_⟩
      simp only [Database.insertJob, hhandler, hcron, hfits, hintegers, hcolumn, hpk, hunique,
        not_true_eq_false, if_false, Bool.false_eq_true]
      rfl

/-- `create_job` answers a known key, inserts a new job, or raises when it cannot. -/
theorem createJob_cases (jsonb : Jsonb) (now : Int) (hsupported : Supported request.handler)
    (hfresh : db.jobs.get? jobId = none) :
    (∃ row, SqlAlchemyJobRepository.existing db request = some row ∧
        SqlAlchemyJobRepository.createJob jsonb db request now jobId =
          .ok ((recordFromModel row, true), db)) ∨
      SqlAlchemyJobRepository.existing db request = none ∧ Storable jsonb request ∧
        (∃ payload, SqlAlchemyJobRepository.createJob jsonb db request now jobId =
          .ok ((recordFromModel { Job.submittedRow request jobId now with payload := payload }, false),
            db.submitted request jobId now payload)) ∨
      SqlAlchemyJobRepository.existing db request = none ∧ ¬ Storable jsonb request ∧
        ∃ column, SqlAlchemyJobRepository.createJob jsonb db request now jobId =
          .error (.dataError column) := by
  unfold SqlAlchemyJobRepository.createJob
  cases hexisting : SqlAlchemyJobRepository.existing db request with
  | some row => exact .inl ⟨row, rfl, rfl⟩
  | none =>
    rcases insertJob_submitted jsonb now hsupported hfresh hexisting with
      ⟨hstorable, payload, hinsert⟩ | ⟨hstorable, column, hinsert⟩
    · have hrefresh : SqlAlchemyJobRepository.refresh (db.submitted request jobId now payload)
          jobId = .ok (recordFromModel
            { Job.submittedRow request jobId now with payload := payload }) := by
        simp [SqlAlchemyJobRepository.refresh, Database.getJob?, Database.submitted]
      rw [hinsert]
      refine .inr (.inl ⟨rfl, hstorable, payload, ?_⟩)
      simp only [hrefresh]
      rfl
    · rw [hinsert]
      exact .inr (.inr ⟨rfl, hstorable, column, rfl⟩)

/-- The `run_at` of the request can be read back. -/
def RunAtReadable (request : JobCreate) : Prop :=
  ∀ runAt ∈ ensureAware request.runAt, isDatetime runAt = true

theorem readable_submitted {payload : JsonObject} :
    (recordFromModel { Job.submittedRow request jobId now with payload := payload }).readable = true ↔
      RunAtReadable request := by
  show (ensureAware request.runAt).all isDatetime = true ↔ _
  unfold RunAtReadable
  cases ensureAware request.runAt <;> simp

theorem readBack_singleton (job : JobRecord) :
    SqlAlchemyJobRepository.readBack [job] =
      if job.readable then .ok () else .error (.dataError "run_at") := by
  simp [SqlAlchemyJobRepository.readBack]

/-- What `POST /jobs` comes to while the database answers. -/
inductive Submission (settings : Settings) (jsonb : Jsonb) (reads : Reads) (requestId : String)
    (app : App Database) (request : JobCreate) : Response × App Database → Prop where
  | refused (e : Exc) (checks : ¬ JobService.Accepts settings request) (expected : Expected e) :
      Submission settings jsonb reads requestId app request (handleError requestId e, app)
  | replayed (row : Job) (checks : JobService.Accepts settings request)
      (known : SqlAlchemyJobRepository.existing app.repository request = some row)
      (readable : (recordFromModel row).readable = true) :
      Submission settings jsonb reads requestId app request
        (⟨200, .created ⟨row.id, row.status, true⟩⟩, app)
  | unreadable (row : Job) (e : Exc) (checks : JobService.Accepts settings request)
      (known : SqlAlchemyJobRepository.existing app.repository request = some row)
      (readable : (recordFromModel row).readable = false) (unexpected : ¬ Expected e) :
      Submission settings jsonb reads requestId app request (handleError requestId e, app)
  | unstorable (e : Exc) (checks : JobService.Accepts settings request)
      (new : SqlAlchemyJobRepository.existing app.repository request = none)
      (storable : ¬ Storable jsonb request) (unexpected : ¬ Expected e) :
      Submission settings jsonb reads requestId app request (handleError requestId e, app)
  /-- The row is committed, and its `refresh` raises. -/
  | unread (e : Exc) (payload : JsonObject) (checks : JobService.Accepts settings request)
      (new : SqlAlchemyJobRepository.existing app.repository request = none)
      (storable : Storable jsonb request) (readable : ¬ RunAtReadable request)
      (unexpected : ¬ Expected e) :
      Submission settings jsonb reads requestId app request
        (handleError requestId e, { app with
          repository := app.repository.submitted request reads.drawn reads.now payload })
  | unpublished (e : ServiceError) (payload : JsonObject)
      (checks : JobService.Accepts settings request)
      (new : SqlAlchemyJobRepository.existing app.repository request = none)
      (storable : Storable jsonb request) (readable : RunAtReadable request)
      (status : e.statusCode = 503) :
      Submission settings jsonb reads requestId app request
        (handleError requestId (.service e), { app with
          repository := app.repository.submitted request reads.drawn reads.now payload })
  | created (payload : JsonObject) (producer : FakeJobProducer)
      (checks : JobService.Accepts settings request)
      (new : SqlAlchemyJobRepository.existing app.repository request = none)
      (storable : Storable jsonb request) (readable : RunAtReadable request) :
      Submission settings jsonb reads requestId app request
        (⟨201, .created ⟨reads.drawn, .queued, false⟩⟩,
          ⟨app.repository.submitted request reads.drawn reads.now payload, producer⟩)

theorem unexpected_dataError (column : String) : ¬ Expected (.dataError column) := by
  simp [Expected]

/-- **A submission comes to one of these.** -/
theorem routeCreateJob_submission (hfresh : app.repository.jobs.get? reads.drawn = none) :
    Submission settings jsonb reads requestId app request
      (routeCreateJob settings requestId app
        (SqlAlchemyJobRepository.connected jsonb reads app.repository) request) := by
  unfold routeCreateJob App.submitJob
  cases hhandler : getHandler request.handler with
  | error e =>
    refine .refused e (fun h => ?_) (getHandler_expected hhandler)
    obtain ⟨⟨handler, heq⟩, -⟩ := h
    simp [hhandler] at heq
  | ok handler =>
    cases hpayload : validatePayloadSize settings request.payload with
    | error e =>
      exact .refused e (fun h => absurd h.2 (by simp [hpayload]))
        (validatePayloadSize_expected hpayload)
    | ok u =>
      have hchecks : JobService.Accepts settings request := ⟨⟨handler, hhandler⟩, hpayload⟩
      simp only [SqlAlchemyJobRepository.connected]
      rcases createJob_cases jsonb reads.now ⟨handler, hhandler⟩ hfresh with
        ⟨row, hknown, hcreate⟩ | ⟨hnew, hstorable, payload, hcreate⟩ |
        ⟨hnew, hstorable, column, hcreate⟩
      · rw [hcreate]
        simp only [readBack_singleton]
        cases hreadable : (recordFromModel row).readable with
        | true => exact .replayed row hchecks hknown hreadable
        | false =>
          exact .unreadable row _ hchecks hknown hreadable (unexpected_dataError "run_at")
      · rw [hcreate]
        simp only [readBack_singleton]
        by_cases hreadable : RunAtReadable request
        · simp only [readable_submitted.mpr hreadable, if_true, Except.map]
          cases hpublish : app.producer.publishJob (recordFromModel
              { Job.submittedRow request reads.drawn reads.now with payload := payload }).message with
          | error e =>
            obtain ⟨error, hexc, hunavailable⟩ := publishJob_unavailable hpublish
            subst hexc
            exact .unpublished error payload hchecks hnew hstorable hreadable hunavailable
          | ok producer => exact .created payload producer hchecks hnew hstorable hreadable
        · rw [if_neg (mt readable_submitted.mp hreadable)]
          exact .unread _ payload hchecks hnew hstorable hreadable (unexpected_dataError "run_at")
      · rw [hcreate]
        exact .unstorable _ hchecks hnew hstorable (unexpected_dataError column)

/-! ## Which requests are answered 500 -/

/-- The request is answered by a route that depends on `get_job_service`. -/
def Request.UsesService : Request → Prop
  | .healthz | .readyz => False
  | _ => True

/-- The request passes what its route checks before the first statement. -/
def Request.Queries (settings : Settings) : Request → Prop
  | .healthz | .readyz => False
  | .createJob request => JobService.Accepts settings request
  | .listJobs _ handler _ => AcceptsFilter handler
  | _ => True

/-- A statement of the request fails though the database answers: it writes what does not fit, asks
    for a page by a number that is no `bigint`, or loads a row that cannot be read. -/
def Request.Fails (settings : Settings) (jsonb : Jsonb) (reads : Reads) (db : Database) :
    Request → Prop
  | .createJob request =>
    match SqlAlchemyJobRepository.existing db request with
    | some row => (recordFromModel row).readable = false
    | none => ¬ Storable jsonb request ∨ ¬ RunAtReadable request
  | .getJob jobId | .cancelJob jobId =>
    ∃ row, db.getJob? jobId = some row ∧ (recordFromModel row).readable = false
  | .listJobs status handler page =>
    2 ^ 63 ≤ page.offset ∨ 2 ^ 63 ≤ min page.limit settings.maxPageSize ∨
      ∃ job ∈ SqlAlchemyJobRepository.listJobs reads.rows status handler
        (min page.limit settings.maxPageSize) page.offset, job.readable = false
  | .metrics => ∃ job ∈ SqlAlchemyJobRepository.terminalJobs db, job.readable = false
  | _ => False

/-- What the status of a submission says of it. -/
theorem Submission.status {answer : Response × App Database}
    (h : Submission settings jsonb reads requestId app request answer) :
    (answer.1.statusCode = 500 ↔ JobService.Accepts settings request ∧
        (Request.createJob request).Fails settings jsonb reads app.repository) ∧
      (400 ≤ answer.1.statusCode → answer.2 = app ∨
        (answer.1.statusCode = 503 ∨ answer.1.statusCode = 500 ∧ ¬ RunAtReadable request) ∧
          ∃ payload, answer.2 = { app with
            repository := app.repository.submitted request reads.drawn reads.now payload }) := by
  unfold Request.Fails
  cases h with
  | refused e checks expected =>
    exact ⟨by simp [handleError_eq_500, expected, checks], fun _ => .inl rfl⟩
  | replayed row checks known readable => exact ⟨by simp [known, readable], by simp⟩
  | unreadable row e checks known readable unexpected =>
    exact ⟨by simp [handleError_eq_500, unexpected, checks, known, readable], fun _ => .inl rfl⟩
  | unstorable e checks new storable unexpected =>
    exact ⟨by simp [handleError_eq_500, unexpected, checks, new, storable], fun _ => .inl rfl⟩
  | unread e payload checks new storable readable unexpected =>
    have hstatus : (handleError requestId e).statusCode = 500 := handleError_eq_500.mpr unexpected
    exact ⟨by simp [hstatus, checks, new, readable], fun _ =>
      .inr ⟨.inr ⟨hstatus, readable⟩, payload, rfl⟩⟩
  | unpublished e payload checks new storable readable status =>
    have hstatus : (handleError requestId (.service e)).statusCode = 503 := status
    exact ⟨by simp [hstatus, new, storable, readable], fun _ => .inr ⟨.inl hstatus, payload, rfl⟩⟩
  | created payload producer checks new storable readable =>
    exact ⟨by simp [new, storable, readable], by simp⟩

/-- The answer is a 500 exactly if `fails`, and if it is an error, the application is as it was. -/
def Unchanging (app : App Database) (fails : Prop) (answer : Response × App Database) : Prop :=
  (answer.1.statusCode = 500 ↔ fails) ∧ (400 ≤ answer.1.statusCode → answer.2 = app)

theorem unchanging_read {result : Except Exc Body} {fails : Prop}
    (h : (∃ e, result = .error e ∧ ¬ Expected e) ↔ fails) :
    Unchanging app fails (respond requestId result, app) :=
  ⟨respond_eq_500.trans h, fun _ => rfl⟩

/-- A query whose rows are read back raises for a row that cannot be read. -/
theorem readBack_unexpected {α : Type} {jobs : List JobRecord} {a : α} {body : α → Body} :
    (∃ e, ((SqlAlchemyJobRepository.readBack jobs).map fun _ => a).map body = .error e ∧
      ¬ Expected e) ↔ ∃ job ∈ jobs, job.readable = false := by
  unfold SqlAlchemyJobRepository.readBack
  split
  · rename_i hall
    simp only [List.all_eq_true] at hall
    constructor
    · rintro ⟨e, he, -⟩
      cases he
    · rintro ⟨job, hmem, hunreadable⟩
      rw [hall job hmem] at hunreadable
      cases hunreadable
  · rename_i hall
    refine iff_of_true ⟨_, rfl, unexpected_dataError "run_at"⟩ ?_
    simpa using hall

theorem getJob_cases (db : Database) (jobId : UUID) :
    (∃ row, db.getJob? jobId = some row ∧
        SqlAlchemyJobRepository.getJob db jobId = .ok (recordFromModel row)) ∨
      db.getJob? jobId = none ∧ SqlAlchemyJobRepository.getJob db jobId =
        .error (.service (notFoundError "Job not found")) := by
  unfold SqlAlchemyJobRepository.getJob SqlAlchemyJobRepository.getModel
  cases db.getJob? jobId with
  | none => exact .inr ⟨rfl, rfl⟩
  | some row => exact .inl ⟨row, rfl, rfl⟩

theorem notFound_expected : Expected (.service (notFoundError "Job not found")) :=
  ⟨_, rfl, by simp [notFoundError]⟩

theorem routeGetJob_unchanging :
    Unchanging app ((Request.getJob jobId).Fails settings jsonb reads app.repository)
      (respond requestId (routeGetJob
        (SqlAlchemyJobRepository.connected jsonb reads app.repository) jobId), app) := by
  apply unchanging_read
  unfold Request.Fails routeGetJob
  simp only [SqlAlchemyJobRepository.connected]
  rcases getJob_cases app.repository jobId with ⟨row, hrow, hget⟩ | ⟨hrow, hget⟩
  · rw [hget, readBack_unexpected]
    simp [hrow]
  · rw [hget]
    simp [hrow, Except.map, notFound_expected]

theorem routeListJobs_unchanging {status : Option JobStatus} {handler : Option String}
    {page : PageQuery} :
    Unchanging app (AcceptsFilter handler ∧
        (Request.listJobs status handler page).Fails settings jsonb reads app.repository)
      (respond requestId ((SqlAlchemyJobRepository.connected jsonb reads
        app.repository).routeListJobs settings status handler page), app) := by
  apply unchanging_read
  unfold Request.Fails JobRepository.routeListJobs
  cases hcheck : checkHandlerFilter handler with
  | error e =>
    have hrefused : ¬ AcceptsFilter handler := by
      rw [← acceptsFilter_iff, hcheck]
      simp
    simp [hrefused, checkHandlerFilter_expected hcheck]
  | ok u =>
    have haccepted : AcceptsFilter handler := acceptsFilter_iff.mp hcheck
    simp only [haccepted, true_and, SqlAlchemyJobRepository.connected]
    cases hquery : SqlAlchemyJobRepository.queryListJobs reads.rows status handler
        (min page.limit settings.maxPageSize) page.offset with
    | ok jobs =>
      obtain ⟨hoffset, hlimit, rfl⟩ := SqlAlchemyJobRepository.queryListJobs_ok hquery
      rw [readBack_unexpected]
      simp only [Nat.not_le.mpr hoffset, Nat.not_le.mpr hlimit, false_or]
    | error e =>
      obtain ⟨column, rfl, hbeyond⟩ := SqlAlchemyJobRepository.queryListJobs_error hquery
      refine iff_of_true ⟨_, rfl, unexpected_dataError column⟩ ?_
      rcases hbeyond with hhandler | hoffset | hlimit
      · exact absurd haccepted.fits hhandler
      · exact .inl hoffset
      · exact .inr (.inl hlimit)

theorem routeMetrics_unchanging :
    Unchanging app (Request.metrics.Fails settings jsonb reads app.repository)
      (respond requestId (routeMetrics
        (SqlAlchemyJobRepository.connected jsonb reads app.repository)), app) :=
  unchanging_read readBack_unexpected

theorem cancelJob_expected (h : SqlAlchemyJobRepository.cancelJob db jobId now = .error e) :
    Expected e := by
  unfold SqlAlchemyJobRepository.cancelJob SqlAlchemyJobRepository.getModel at h
  cases hrow : db.getJob? jobId with
  | none =>
    simp only [hrow] at h
    cases h
    exact notFound_expected
  | some row =>
    simp only [hrow] at h
    split at h
    · cases h
      exact ⟨_, rfl, by simp [conflictError]⟩
    · -- The row that was read is still there to be refreshed.
      have hstored : ((db.commitCancelled row now).jobs.get? jobId).isSome = true := by
        have hget : db.jobs.get? jobId = some row := hrow
        rw [Database.commitCancelled, Database.update, Dict.get?_modify]
        split <;> simp [hget]
      obtain ⟨row', hrow'⟩ := Option.isSome_iff_exists.mp hstored
      simp [SqlAlchemyJobRepository.refresh, Database.getJob?, hrow', Except.map] at h

theorem routeCancelJob_unchanging :
    Unchanging app ((Request.cancelJob jobId).Fails settings jsonb reads app.repository)
      (routeCancelJob requestId app
        (SqlAlchemyJobRepository.connected jsonb reads app.repository) jobId) := by
  unfold Request.Fails routeCancelJob
  simp only [SqlAlchemyJobRepository.connected]
  rcases getJob_cases app.repository jobId with ⟨row, hrow, hget⟩ | ⟨hrow, hget⟩
  · simp only [hget, readBack_singleton, hrow, Option.some.injEq, exists_eq_left']
    cases hreadable : (recordFromModel row).readable with
    | false => exact ⟨by simp [respond_eq_500, Except.map, Expected], fun _ => rfl⟩
    | true =>
      cases hcancel : SqlAlchemyJobRepository.cancelJob app.repository jobId reads.now with
      | error e =>
        exact ⟨by simp [outcome, respond_eq_500, Except.map, cancelJob_expected hcancel],
          fun _ => rfl⟩
      | ok answer =>
        exact ⟨by simp [outcome, respond, Except.map], by simp [outcome, respond, Except.map]⟩
  · simp only [hget, hrow]
    exact ⟨by simp [respond_eq_500, Except.map, notFound_expected], fun _ => rfl⟩

theorem Request.Queries.usesService {request : Request} (h : request.Queries settings) :
    request.UsesService := by
  cases request with
  | healthz | readyz => exact h
  | _ => trivial

/-- The request is answered 500. -/
def HttpRequest.Unexpected (settings : Settings) (jsonb : Jsonb) (reads : Reads) (db : Database)
    (http : HttpRequest) : Prop :=
  http.request.UsesService ∧ http.producerBuilt = false ∨
    http.request.Queries settings ∧
      (http.databaseReady = false ∨ http.request.Fails settings jsonb reads db)

/-- A submission whose error comes after the commit of its row. -/
def StoredAll (reads : Reads) (app : App Database) (http : HttpRequest)
    (answer : Response × App Database) : Prop :=
  ∃ request payload, http.request = .createJob request ∧
    (answer.1.statusCode = 503 ∨ answer.1.statusCode = 500 ∧ ¬ RunAtReadable request) ∧
    answer.2 = { app with
      repository := app.repository.submitted request reads.drawn reads.now payload }

/-- Without a producer there is no service. -/
theorem serve_unbuilt {http : HttpRequest} (hbuilt : http.producerBuilt = false) :
    Unchanging app (http.request.UsesService)
      (serve settings app (getJobService jsonb reads http app.repository) http) := by
  have hunexpected : ¬ Expected (.other "NoBrokersAvailable" "NoBrokersAvailable") := by
    simp [Expected]
  have hservice : getJobService jsonb reads http app.repository =
      .error (.other "NoBrokersAvailable" "NoBrokersAvailable") := by
    simp [getJobService, hbuilt]
  unfold serve
  rw [hservice]
  cases http.request with
  | healthz => exact ⟨by simp [respond, Request.UsesService], fun _ => rfl⟩
  | readyz =>
    refine unchanging_read ?_
    simp [routeReadyz, hbuilt, Request.UsesService, Expected, dependencyUnavailableError]
  | _ => exact ⟨iff_of_true (handleError_eq_500.mpr hunexpected) trivial, fun _ => rfl⟩

/-- Without a database every request that comes to a statement fails with it. -/
theorem serve_disconnected {http : HttpRequest} (hbuilt : http.producerBuilt = true)
    (hready : http.databaseReady = false) :
    Unchanging app (http.request.Queries settings)
      (serve settings app (getJobService jsonb reads http app.repository) http) := by
  have hunexpected : ¬ Expected (.other "OperationalError" "connection failed") := by
    simp [Expected]
  have hservice : getJobService jsonb reads http app.repository =
      .ok (SqlAlchemyJobRepository.disconnected app.repository) := by
    simp [getJobService, SqlAlchemyJobRepository.protocol, hbuilt, hready]
  unfold serve
  rw [hservice]
  have hraised : ∀ {fails : Prop}, fails →
      Unchanging app fails
        (handleError http.requestId (.other "OperationalError" "connection failed"), app) :=
    fun hfails => ⟨iff_of_true (handleError_eq_500.mpr hunexpected) hfails, fun _ => rfl⟩
  cases http.request with
  | healthz => exact ⟨by simp [respond, Request.Queries], fun _ => rfl⟩
  | readyz =>
    refine unchanging_read ?_
    simp [routeReadyz, hready, Request.Queries, Expected, dependencyUnavailableError]
  | createJob request =>
    show Unchanging app (JobService.Accepts settings request) (routeCreateJob ..)
    unfold routeCreateJob App.submitJob
    cases hhandler : getHandler request.handler with
    | error e =>
      have hrefused : ¬ JobService.Accepts settings request := by
        rintro ⟨⟨handler, heq⟩, -⟩
        simp [hhandler] at heq
      exact ⟨by simp [handleError_eq_500, getHandler_expected hhandler, hrefused], fun _ => rfl⟩
    | ok handler =>
      cases hpayload : validatePayloadSize settings request.payload with
      | error e =>
        have hrefused : ¬ JobService.Accepts settings request := fun h =>
          absurd h.2 (by simp [hpayload])
        exact ⟨by simp [handleError_eq_500, validatePayloadSize_expected hpayload, hrefused],
          fun _ => rfl⟩
      | ok u => exact hraised ⟨⟨handler, hhandler⟩, hpayload⟩
  | listJobs status handler page =>
    refine unchanging_read ?_
    show _ ↔ AcceptsFilter handler
    unfold JobRepository.routeListJobs
    cases hcheck : checkHandlerFilter handler with
    | error e =>
      have hrefused : ¬ AcceptsFilter handler := by
        rw [← acceptsFilter_iff, hcheck]
        simp
      simp [hrefused, checkHandlerFilter_expected hcheck]
    | ok u => exact iff_of_true ⟨_, rfl, hunexpected⟩ (acceptsFilter_iff.mp hcheck)
  | _ => exact hraised trivial

/-- **A request while everything answers.** -/
theorem serve_connected {http : HttpRequest} (hbuilt : http.producerBuilt = true)
    (hready : http.databaseReady = true) (hfresh : app.repository.jobs.get? reads.drawn = none) :
    ((serve settings app (getJobService jsonb reads http app.repository) http).1.statusCode = 500 ↔
        http.request.Queries settings ∧
          http.request.Fails settings jsonb reads app.repository) ∧
      (400 ≤ (serve settings app (getJobService jsonb reads http app.repository)
          http).1.statusCode →
        (serve settings app (getJobService jsonb reads http app.repository) http).2 = app ∨
          StoredAll reads app http
            (serve settings app (getJobService jsonb reads http app.repository) http)) := by
  have hservice : getJobService jsonb reads http app.repository =
      .ok (SqlAlchemyJobRepository.connected jsonb reads app.repository) := by
    simp [getJobService, SqlAlchemyJobRepository.protocol, hbuilt, hready]
  have hunchanging : ∀ {fails : Prop} {answer : Response × App Database},
      Unchanging app fails answer → (answer.1.statusCode = 500 ↔ fails) ∧
        (400 ≤ answer.1.statusCode → answer.2 = app ∨ StoredAll reads app http answer) :=
    fun h => ⟨h.1, fun hstatus => .inl (h.2 hstatus)⟩
  -- Most routes check nothing before their first statement.
  have hqueries : ∀ {fails : Prop} {answer : Response × App Database},
      Unchanging app fails answer → Unchanging app (True ∧ fails) answer :=
    fun h => ⟨by rw [true_and]; exact h.1, h.2⟩
  obtain ⟨header, drawnId, databaseReady, producerBuilt, request⟩ := http
  unfold serve
  rw [hservice]
  cases request with
  | healthz => exact hunchanging ⟨by simp [respond, Request.Queries], fun _ => rfl⟩
  | readyz =>
    apply hunchanging
    apply unchanging_read
    constructor
    · rintro ⟨e, he, hunexpected⟩
      simp only [routeReadyz] at he
      split at he
      · cases he
        exact absurd ⟨_, rfl, by simp [dependencyUnavailableError]⟩ hunexpected
      · cases he
    · exact fun h => h.1.elim
  | createJob request =>
    have hsubmission : Submission settings jsonb reads
        (HttpRequest.requestId ⟨header, drawnId, databaseReady, producerBuilt, .createJob request⟩)
        app request _ := routeCreateJob_submission hfresh
    obtain ⟨hunexpected, herror⟩ := hsubmission.status
    refine ⟨hunexpected, fun hstatus => ?_⟩
    rcases herror hstatus with hsame | ⟨hafter, payload, hstored⟩
    · exact .inl hsame
    · exact .inr ⟨request, payload, rfl, hafter, hstored⟩
  | getJob jobId => exact hunchanging (hqueries routeGetJob_unchanging)
  | listJobs status handler page => exact hunchanging routeListJobs_unchanging
  | metrics => exact hunchanging (hqueries routeMetrics_unchanging)
  | cancelJob jobId => exact hunchanging (hqueries routeCancelJob_unchanging)
  | queueDepth | getDrain =>
    exact hunchanging ⟨by simp [Request.Fails, respond, withService, routeQueueDepth, routeGetDrain,
      SqlAlchemyJobRepository.connected, Except.map], fun _ => rfl⟩
  | setDrain enabled =>
    refine hunchanging ⟨by simp [Request.Fails, respond, withService, routeSetDrain, outcome,
      SqlAlchemyJobRepository.connected, Except.map], ?_⟩
    simp [respond, withService, routeSetDrain, outcome, SqlAlchemyJobRepository.connected, Except.map]

end Errors

/-- A `run_at` in the first hour of the year 1, two hours east of UTC. -/
def Sample.earlyRequest : JobCreate :=
  { request with
    runAt := some (.aware (seconds 3600) (seconds 7200)) }

end JobPipeline
