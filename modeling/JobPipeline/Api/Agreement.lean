import JobPipeline.Api.Routes

/-!
# The API over either repository

The application is tested over `InMemoryJobRepository` and deployed over PostgreSQL. Here both get the
same requests, with the same calls of a worker on the repository between them, and answer them alike:
each response has the same status and an equal body. What is asked of a request is what the
repository call it makes needs, and nothing when it makes none; and that PostgreSQL and Kafka are there
for it, which the memory repository does not need.
-/

set_option autoImplicit false

namespace JobPipeline

/-! ## Two applications -/

/-- What reaches an application: a request, a call that a worker makes on its repository, or a change
    of the producer. -/
inductive Input where
  | http (http : HttpRequest)
  | worker (operation : Operation)
  | setAvailable (available : Bool)

structure Arrival where
  reads : Reads
  input : Input

def Arrival.methodCall (arrival : Arrival) (operation : Operation) : MethodCall :=
  ⟨operation, arrival.reads.now, arrival.reads.drawn, arrival.reads.rows⟩

/-- One arrival at an application over some repository: the response, if it is a request. -/
def App.step {σ : Type} (settings : Settings)
    (service : Reads → HttpRequest → σ → Except Exc (JobRepository σ))
    (perform : σ → MethodCall → Except Exc Reply × σ) (app : App σ) (arrival : Arrival) :
    Option Response × App σ :=
  match arrival.input with
  | .http http =>
    let (response, app') := serve settings app (service arrival.reads http app.repository) http
    (some response, app')
  | .worker operation =>
    (none, { app with repository := (perform app.repository (arrival.methodCall operation)).2 })
  | .setAvailable available =>
    (none, { app with producer := { app.producer with available := available } })

/-- Under test `get_job_service` is overridden, and there always is a service. -/
def memoryApp (settings : Settings) :
    App InMemoryJobRepository → Arrival → Option Response × App InMemoryJobRepository :=
  App.step settings (fun reads _ r => .ok (InMemoryJobRepository.protocol reads r))
    InMemoryJobRepository.perform

def sqlApp (settings : Settings) (jsonb : Jsonb) :
    App Database → Arrival → Option Response × App Database :=
  App.step settings (getJobService jsonb) (SqlAlchemyJobRepository.perform jsonb)

/-! ## Equal responses -/

/-- Equal jobs; the keys of the result may come in any order. -/
def JobResponse.Same (a b : JobResponse) : Prop :=
  { a with result := a.result.map canonicalFields } =
    { b with result := b.result.map canonicalFields }

/-- Equal bodies; the groups of `by_priority` may come in any order. -/
def Body.Same : Body → Body → Prop
  | .job a, .job b => a.Same b
  | .depth a, .depth b =>
    a.queued = b.queued ∧ a.due = b.due ∧ a.running = b.running ∧
      a.deadLettered = b.deadLettered ∧ a.byPriority.Perm b.byPriority
  | a, b => a = b

def Response.Same (a b : Response) : Prop := a.statusCode = b.statusCode ∧ a.body.Same b.body

theorem Body.Same.refl (body : Body) : body.Same body := by
  cases body with
  | job response => exact rfl
  | depth response => exact ⟨rfl, rfl, rfl, rfl, List.Perm.refl _⟩
  | _ => exact rfl

theorem Response.Same.refl (response : Response) : response.Same response := ⟨rfl, .refl _⟩

namespace JobRecord.Same

variable {a b : JobRecord}

/-- What does not look at the payload and the result is the same of equal jobs. -/
theorem congr {α : Type} {f : JobRecord → α} (hf : ∀ job : JobRecord, f job.canonical = f job)
    (h : a.Same b) : f a = f b := by
  rw [← hf a, ← hf b]
  exact congrArg f h

theorem id (h : a.Same b) : a.id = b.id := h.congr fun _ => rfl

theorem status (h : a.Same b) : a.status = b.status := h.congr fun _ => rfl

/-- What is published of them is the same, too. -/
theorem message (h : a.Same b) : a.message = b.message := h.congr fun _ => rfl

theorem listItem (h : a.Same b) : JobListItem.ofRecord a = .ofRecord b := h.congr fun _ => rfl

theorem response (h : a.Same b) :
    (JobResponse.modelValidate a).Same (.modelValidate b) := by
  have hcanonical : a.canonical = b.canonical := h
  exact congrArg JobResponse.modelValidate hcanonical

end JobRecord.Same

/-! ## The calls -/

/-- Every stored `run_at` can be read back. -/
def Database.Readable (db : Database) : Prop :=
  ∀ row ∈ db.jobs.values, (recordFromModel row).readable = true

instance (db : Database) : Decidable db.Readable :=
  inferInstanceAs (Decidable (∀ row ∈ db.jobs.values, (recordFromModel row).readable = true))

/-- A `run_at` that both repositories print in UTC. -/
def InUtc (runAt : Option DateTime) : Prop :=
  ∀ reading utcOffset, runAt = some (.aware reading utcOffset) → utcOffset = 0

def Operation.InUtc : Operation → Prop
  | .createJob request => JobPipeline.InUtc request.runAt
  | _ => True

/-- What a request needs for its answers to be compared. -/
def ComparableRequest (settings : Settings) (jsonb : Jsonb) (r : InMemoryJobRepository)
    (db : Database) (arrival : Arrival) : Request → Prop
  | .createJob request => JobService.Accepts settings request →
    Comparable jsonb r db (arrival.methodCall (.createJob request)) ∧ InUtc request.runAt
  | .listJobs status handler page => AcceptsFilter handler → Comparable jsonb r db
    (arrival.methodCall
      (.listJobs status handler (min page.limit settings.maxPageSize) page.offset))
  | .queueDepth => Comparable jsonb r db (arrival.methodCall .queueDepth)
  | .metrics => SqlAlchemyJobRepository.Unclamped db
  | .healthz | .readyz | .getJob _ | .cancelJob _ | .setDrain _ | .getDrain => True

/-- What an arrival needs. -/
def ComparableArrival (settings : Settings) (jsonb : Jsonb) (app : App InMemoryJobRepository)
    (sql : App Database) (arrival : Arrival) : Prop :=
  sql.repository.Readable ∧
  match arrival.input with
  | .http http =>
    (http.request.UsesService → http.producerBuilt = true ∧ http.databaseReady = true) ∧
      ComparableRequest settings jsonb app.repository sql.repository arrival http.request
  | .worker operation =>
    Comparable jsonb app.repository sql.repository (arrival.methodCall operation) ∧
      operation.InUtc
  | .setAvailable _ => True

namespace Mirrors

open SqlAlchemyJobRepository

variable {jsonb : Jsonb} {r : InMemoryJobRepository} {db : Database} {jobId : UUID}
  {request : JobCreate} {now : Int}

/-- A comparable submission is refused by neither repository. -/
theorem created (h : Mirrors r db) {arrival : Arrival}
    (hcomparable : Comparable jsonb r db (arrival.methodCall (.createJob request))) :
    ∃ job job' replay r' db',
      r.createJob request arrival.reads.now arrival.reads.drawn = .ok ((job, replay), r') ∧
      SqlAlchemyJobRepository.createJob jsonb db request arrival.reads.now arrival.reads.drawn =
        .ok ((job', replay), db') ∧ job.Same job' ∧ Mirrors r' db' := by
  have hmatches := mirrors_kept r db (arrival.methodCall (.createJob request)) h hcomparable
  simp only [InMemoryJobRepository.perform, SqlAlchemyJobRepository.perform,
    Arrival.methodCall] at hmatches
  have hmemory : ∃ job replay r', r.createJob request arrival.reads.now arrival.reads.drawn =
      .ok ((job, replay), r') := by
    unfold InMemoryJobRepository.createJob
    rcases h.replay request with ⟨hreplay, -, -⟩ | ⟨job, row, hreplay, -, -⟩
    · rw [hreplay]
      exact ⟨_, _, _, rfl⟩
    · rw [hreplay]
      exact ⟨_, _, _, rfl⟩
  obtain ⟨job, replay, r', hmemory⟩ := hmemory
  rw [hmemory] at hmatches
  cases hsql : SqlAlchemyJobRepository.createJob jsonb db request arrival.reads.now
      arrival.reads.drawn with
  | error e =>
    rw [hsql] at hmatches
    exact hmatches.1.elim
  | ok answer =>
    obtain ⟨⟨job', replay'⟩, db'⟩ := answer
    rw [hsql] at hmatches
    obtain ⟨⟨hsame, hreplay⟩, hmirrors⟩ := hmatches
    subst hreplay
    exact ⟨job, job', replay, r', db', hmemory, rfl, hsame, hmirrors⟩

/-- `cancel_job` refuses a job with one error, or cancels it in both repositories. -/
theorem cancelled (h : Mirrors r db) (jobId : UUID) (now : Int) :
    (∃ e, r.cancelJob jobId now = .error e ∧
        SqlAlchemyJobRepository.cancelJob db jobId now = .error e) ∨
      ∃ job job' r' db', r.cancelJob jobId now = .ok (job, r') ∧
        SqlAlchemyJobRepository.cancelJob db jobId now = .ok (job', db') ∧ job.Same job' ∧
          Mirrors r' db' := by
  have hmatches := h.cancelJob jobId now
  cases hmemory : r.cancelJob jobId now with
  | ok answer =>
    obtain ⟨job, r'⟩ := answer
    rw [hmemory] at hmatches
    cases hsql : SqlAlchemyJobRepository.cancelJob db jobId now with
    | error e =>
      rw [hsql] at hmatches
      exact hmatches.1.elim
    | ok answer =>
      obtain ⟨job', db'⟩ := answer
      rw [hsql] at hmatches
      exact .inr ⟨job, job', r', db', rfl, rfl, hmatches⟩
  | error e =>
    -- The error names the status, which is the same in both.
    refine .inl ⟨e, rfl, ?_⟩
    unfold InMemoryJobRepository.cancelJob at hmemory
    unfold SqlAlchemyJobRepository.cancelJob
    rcases h.found jobId with ⟨hjob, hrow⟩ | ⟨job, row, -, -, hjob, hrow, hview⟩
    · rw [hjob] at hmemory
      rw [hrow]
      cases hmemory
      rfl
    · have hstatus : job.status = row.status := congrArg JobRecord.status hview
      rw [hjob] at hmemory
      rw [hrow]
      simp only [hstatus] at hmemory ⊢
      split at hmemory
      · rename_i hpending
        rw [if_pos hpending]
        cases hmemory
        rfl
      · cases hmemory

/-- The two repositories count the same jobs. -/
theorem countStatus (h : Mirrors r db) (status : JobStatus) :
    r.countStatus status = SqlAlchemyJobRepository.countStatus db status := by
  have hcount := congrArg (List.countP fun job : JobRecord => job.status = status) h.values
  rw [List.countP_map, List.countP_map] at hcount
  exact hcount

theorem latencies (h : Mirrors r db) :
    JobPipeline.latencies r.jobs.values = JobPipeline.latencies (terminalJobs db) := by
  have hvalues := congrArg (List.filterMap JobRecord.latency?) h.values
  rw [List.filterMap_map, List.filterMap_map] at hvalues
  have hterminal : (terminalJobs db).filterMap JobRecord.latency? =
      db.jobs.values.filterMap (JobRecord.latency? ∘ Job.view) := by
    unfold terminalJobs
    rw [List.filterMap_map, List.filterMap_filter]
    refine List.filterMap_congr fun row _ => ?_
    cases hprocessed : row.processedAt <;>
      simp [JobRecord.latency?, recordFromModel, Job.view, JobRecord.canonical, hprocessed]
  unfold JobPipeline.latencies
  rw [hterminal]
  exact congrArg (List.insertionSort (· ≤ ·)) hvalues

/-- **Both report the same metrics**, as long as no clamp hides a retry. -/
theorem metrics (h : Mirrors r db) (hclamp : Unclamped db) :
    r.metrics = SqlAlchemyJobRepository.metrics db := by
  have hretries : r.metrics.retryCount = (SqlAlchemyJobRepository.metrics db).retryCount := by
    have hiff := clamped_sum_eq_iff (db.jobs.values.map Job.attemptCount)
    simp only [List.map_map, List.forall_mem_map, Function.comp_def] at hiff
    rw [memory_retryCount h, retryCount_eq]
    simp only [List.map_map, Function.comp_def]
    exact (hiff.mpr hclamp).symm
  have hpercentiles : latencyPercentiles r.jobs.values = latencyPercentiles (terminalJobs db) := by
    unfold latencyPercentiles
    rw [h.latencies]
  simp only [InMemoryJobRepository.metrics, SqlAlchemyJobRepository.metrics, h.countStatus,
    hpercentiles] at hretries ⊢
  rw [hretries]

end Mirrors

/-! ## Rows that can be read -/

namespace Database.Readable

open SqlAlchemyJobRepository

variable {jsonb : Jsonb} {reads : Reads} {db db' : Database} {jobId : UUID} {request : JobCreate}
  {job : JobRecord} {replay : Bool}

/-- Records of stored rows are read back. -/
theorem readBack_ok {jobs : List JobRecord} (h : ∀ job ∈ jobs, job.readable = true) :
    readBack jobs = .ok () := by
  unfold readBack
  rw [if_pos (List.all_eq_true.mpr h)]

theorem stored (h : db.Readable) {row : Job} (hrow : db.jobs.get? jobId = some row) :
    (recordFromModel row).readable = true :=
  h row (Dict.mem_values_iff.mpr ⟨jobId, hrow⟩)

theorem createJob (h : db.Readable) (hsupported : Supported request.handler)
    (hfresh : db.jobs.get? reads.drawn = none) (hrunAt : RunAtReadable request)
    (hcreate : SqlAlchemyJobRepository.createJob jsonb db request reads.now reads.drawn =
      .ok ((job, replay), db')) :
    (connected jsonb reads db).createJob request = (.ok (job, replay), db') := by
  have hreadable : job.readable = true := by
    rcases createJob_cases jsonb reads.now hsupported hfresh with
      ⟨row, hknown, hreplayed⟩ | ⟨-, -, payload, hnew⟩ | ⟨-, -, column, hraised⟩
    · cases hcreate.symm.trans hreplayed
      obtain ⟨key, -, hfound⟩ := Option.bind_eq_some_iff.mp hknown
      obtain ⟨jobId, hrow, -⟩ := Database.findByKey_some hfound
      exact h.stored hrow
    · cases hcreate.symm.trans hnew
      exact readable_submitted.mpr hrunAt
    · cases hcreate.symm.trans hraised
  simp only [connected, hcreate, readBack_ok (List.forall_mem_singleton.mpr hreadable)]
  rfl

theorem getJob (h : db.Readable) (jobId : UUID) :
    (connected jsonb reads db).getJob jobId = SqlAlchemyJobRepository.getJob db jobId := by
  simp only [connected]
  rcases getJob_cases db jobId with ⟨row, hrow, hget⟩ | ⟨-, hget⟩
  · simp only [hget, readBack_ok (List.forall_mem_singleton.mpr (h.stored hrow))]
    rfl
  · rw [hget]

theorem listJobs (h : db.Readable) (hrows : reads.rows.Perm db.jobs.values)
    {handler : Option String} {limit offset : Nat} (hhandler : ∀ name ∈ handler, fitsText name = true)
    (hlimit : fitsBigint limit = true) (hoffset : fitsBigint offset = true)
    (status : Option JobStatus) :
    (connected jsonb reads db).listJobs status handler limit offset =
      .ok (SqlAlchemyJobRepository.listJobs reads.rows status handler limit offset) := by
  have hreadable : ∀ job ∈ SqlAlchemyJobRepository.listJobs reads.rows status handler limit offset,
      job.readable = true := by
    intro job hmem
    unfold SqlAlchemyJobRepository.listJobs at hmem
    obtain ⟨row, hpage, rfl⟩ := List.mem_map.mp hmem
    have hselected := List.mem_of_mem_drop (List.mem_of_mem_take hpage)
    rw [List.mem_insertionSort] at hselected
    exact h row (hrows.mem_iff.mp (List.mem_of_mem_filter hselected))
  simp only [connected, queryListJobs_of_fits hhandler hlimit hoffset, readBack_ok hreadable]
  rfl

theorem metrics (h : db.Readable) :
    (connected jsonb reads db).metrics = .ok (SqlAlchemyJobRepository.metrics db) := by
  have hreadable : ∀ job ∈ terminalJobs db, job.readable = true := by
    intro job hmem
    obtain ⟨row, hrow, rfl⟩ := List.mem_map.mp hmem
    exact h row (List.mem_of_mem_filter hrow)
  simp only [connected, readBack_ok hreadable]
  rfl

theorem cancelJob (h : db.Readable) (jobId : UUID) :
    (connected jsonb reads db).cancelJob jobId =
      outcome db (SqlAlchemyJobRepository.cancelJob db jobId reads.now) := by
  simp only [connected]
  rcases getJob_cases db jobId with ⟨row, hrow, hget⟩ | ⟨hrow, hget⟩
  · simp only [hget, readBack_ok (List.forall_mem_singleton.mpr (h.stored hrow))]
  · simp [hget, SqlAlchemyJobRepository.cancelJob, getModel, hrow, outcome]

end Database.Readable

/-! ## The routes -/

/-- Two applications in the same state: their repositories mirror each other. -/
structure Alike (app : App InMemoryJobRepository) (sql : App Database) : Prop where
  repository : Mirrors app.repository sql.repository
  producer : app.producer = sql.producer

/-- One route is answered alike, and leaves the applications alike. -/
def AnsweredAlike (a : Response × App InMemoryJobRepository) (b : Response × App Database) : Prop :=
  a.1.Same b.1 ∧ Alike a.2 b.2

section Routes

variable {settings : Settings} {jsonb : Jsonb} {app : App InMemoryJobRepository}
  {sql : App Database} {arrival : Arrival} {requestId : String} {request : JobCreate}

open SqlAlchemyJobRepository (connected)

theorem Alike.same (h : Alike app sql) {a b : Except Exc Body} (hbody : a = b) :
    AnsweredAlike (respond requestId a, app) (respond requestId b, sql) := by
  subst hbody
  exact ⟨.refl _, h⟩

theorem routeCreateJob_alike (h : Alike app sql) (hreadable : sql.repository.Readable)
    (hcomparable : JobService.Accepts settings request →
      Comparable jsonb app.repository sql.repository (arrival.methodCall (.createJob request)) ∧
        InUtc request.runAt) :
    AnsweredAlike
      (routeCreateJob settings requestId app
        (InMemoryJobRepository.protocol arrival.reads app.repository) request)
      (routeCreateJob settings requestId sql
        (connected jsonb arrival.reads sql.repository) request) := by
  unfold routeCreateJob App.submitJob
  cases hhandler : getHandler request.handler with
  | error e => exact ⟨.refl _, h⟩
  | ok handler =>
    cases hpayload : validatePayloadSize settings request.payload with
    | error e => exact ⟨.refl _, h⟩
    | ok u =>
      obtain ⟨hcomparable, -⟩ := hcomparable ⟨⟨handler, hhandler⟩, hpayload⟩
      obtain ⟨job, job', replay, r', db', hmemory, hsql, hsame, hmirrors⟩ :=
        h.repository.created hcomparable
      obtain ⟨hfresh, -, -, -, hrunAt⟩ := hcomparable
      have hfresh' : sql.repository.jobs.get? arrival.reads.drawn = none := by
        rcases h.repository.lookup arrival.reads.drawn with ⟨-, hnone⟩ | ⟨_, _, hjob, -⟩
        · exact hnone
        · exact absurd (hfresh.symm.trans hjob) (by simp)
      simp only [InMemoryJobRepository.protocol, hmemory, outcome,
        hreadable.createJob ⟨handler, hhandler⟩ hfresh' hrunAt hsql]
      cases replay with
      | true => exact ⟨⟨rfl, by simp [Body.Same, hsame.id, hsame.status]⟩, hmirrors, h.producer⟩
      | false =>
        simp only [hsame.message, h.producer]
        cases hpublish : sql.producer.publishJob job'.message with
        | error e => exact ⟨.refl _, hmirrors, rfl⟩
        | ok producer => exact ⟨⟨rfl, by simp [Body.Same, hsame.id, hsame.status]⟩, hmirrors, rfl⟩

theorem routeCancelJob_alike (jsonb : Jsonb) (h : Alike app sql)
    (hreadable : sql.repository.Readable) (jobId : UUID) :
    AnsweredAlike
      (routeCancelJob requestId app
        (InMemoryJobRepository.protocol arrival.reads app.repository) jobId)
      (routeCancelJob requestId sql (connected jsonb arrival.reads sql.repository) jobId) := by
  unfold routeCancelJob
  simp only [InMemoryJobRepository.protocol, hreadable.cancelJob]
  rcases h.repository.cancelled jobId arrival.reads.now with
    ⟨e, hmemory, hsql⟩ | ⟨job, job', r', db', hmemory, hsql, hsame, hmirrors⟩
  · rw [hmemory, hsql]
    exact ⟨.refl _, h⟩
  · rw [hmemory, hsql]
    exact ⟨⟨rfl, by simp [respond, outcome, Except.map, Body.Same, hsame.id, hsame.status]⟩, hmirrors,
      h.producer⟩

theorem routeGetJob_alike (h : Alike app sql) (hreadable : sql.repository.Readable) (jobId : UUID) :
    AnsweredAlike
      (respond requestId (routeGetJob
        (InMemoryJobRepository.protocol arrival.reads app.repository) jobId), app)
      (respond requestId (routeGetJob (connected jsonb arrival.reads sql.repository) jobId), sql) := by
  unfold routeGetJob
  rw [hreadable.getJob]
  simp only [InMemoryJobRepository.protocol, SqlAlchemyJobRepository.getJob]
  rcases h.repository.found jobId with ⟨hjob, hrow⟩ | ⟨job, row, -, -, hjob, hrow, hview⟩
  · rw [hjob, hrow]
    exact ⟨.refl _, h⟩
  · rw [hjob, hrow]
    exact ⟨⟨rfl, JobRecord.Same.response hview⟩, h⟩

theorem routeListJobs_alike (h : Alike app sql) (hreadable : sql.repository.Readable)
    {status : Option JobStatus} {handler : Option String} {page : PageQuery}
    (hcomparable : AcceptsFilter handler → Comparable jsonb app.repository sql.repository
      (arrival.methodCall
        (.listJobs status handler (min page.limit settings.maxPageSize) page.offset))) :
    AnsweredAlike
      (respond requestId ((InMemoryJobRepository.protocol arrival.reads
        app.repository).routeListJobs settings status handler page), app)
      (respond requestId ((connected jsonb arrival.reads
        sql.repository).routeListJobs settings status handler page), sql) := by
  refine h.same ?_
  unfold JobRepository.routeListJobs
  cases hcheck : checkHandlerFilter handler with
  | error e => rfl
  | ok u =>
    obtain ⟨hrows, hdistinct, hhandler, hlimit, hoffset⟩ := hcomparable (acceptsFilter_iff.mp hcheck)
    have hjobs : List.Forall₂ JobRecord.Same
        (app.repository.listJobs status handler (min page.limit settings.maxPageSize) page.offset)
        (SqlAlchemyJobRepository.listJobs arrival.reads.rows status handler
          (min page.limit settings.maxPageSize) page.offset) :=
      (h.repository.listJobs status handler (min page.limit settings.maxPageSize) page.offset
        hrows hdistinct).1
    have hitems : (app.repository.listJobs status handler (min page.limit settings.maxPageSize)
        page.offset).map JobListItem.ofRecord =
        (SqlAlchemyJobRepository.listJobs arrival.reads.rows status handler
          (min page.limit settings.maxPageSize) page.offset).map JobListItem.ofRecord := by
      rw [← List.forall₂_eq_eq_eq, List.forall₂_map_left_iff, List.forall₂_map_right_iff]
      exact List.Forall₂.imp (fun _ _ hsame => JobRecord.Same.listItem hsame) hjobs
    simp only [InMemoryJobRepository.protocol,
      hreadable.listJobs hrows hhandler hlimit hoffset status, Except.map, hitems]

theorem routeQueueDepth_alike (h : Alike app sql)
    (hrows : arrival.reads.rows.Perm sql.repository.jobs.values) :
    AnsweredAlike
      (respond requestId (routeQueueDepth
        (InMemoryJobRepository.protocol arrival.reads app.repository)), app)
      (respond requestId (routeQueueDepth (connected jsonb arrival.reads sql.repository)), sql) :=
  ⟨⟨rfl, (h.repository.queueDepth arrival.reads.now hrows).1⟩, h⟩

/-- **A request is answered alike**, and leaves the applications alike. -/
theorem serve_alike (h : Alike app sql) (hreadable : sql.repository.Readable) (http : HttpRequest)
    (hthere : http.request.UsesService → http.producerBuilt = true ∧ http.databaseReady = true)
    (hcomparable : ComparableRequest settings jsonb app.repository sql.repository arrival
      http.request) :
    AnsweredAlike
      (serve settings app (.ok (InMemoryJobRepository.protocol arrival.reads app.repository)) http)
      (serve settings sql (getJobService jsonb arrival.reads http sql.repository) http) := by
  have hservice : http.request.UsesService →
      getJobService jsonb arrival.reads http sql.repository =
        .ok (connected jsonb arrival.reads sql.repository) := by
    intro huses
    simp [getJobService, SqlAlchemyJobRepository.protocol, hthere huses]
  obtain ⟨header, drawnId, databaseReady, producerBuilt, request⟩ := http
  unfold serve
  cases request with
  | healthz => exact h.same rfl
  | readyz => exact h.same (by rw [h.producer])
  | createJob request =>
    rw [hservice trivial]
    exact routeCreateJob_alike h hreadable hcomparable
  | getJob jobId =>
    rw [hservice trivial]
    exact routeGetJob_alike h hreadable jobId
  | listJobs status handler page =>
    rw [hservice trivial]
    exact routeListJobs_alike h hreadable hcomparable
  | queueDepth =>
    rw [hservice trivial]
    exact routeQueueDepth_alike h hcomparable
  | metrics =>
    rw [hservice trivial]
    apply h.same
    show routeMetrics _ = routeMetrics _
    simp only [routeMetrics, InMemoryJobRepository.protocol, hreadable.metrics,
      h.repository.metrics hcomparable]
  | cancelJob jobId =>
    rw [hservice trivial]
    exact routeCancelJob_alike jsonb h hreadable jobId
  | setDrain enabled =>
    rw [hservice trivial]
    simp only [withService, routeSetDrain, connected, SqlAlchemyJobRepository.setDrain_ok, outcome]
    exact ⟨.refl _, h.repository.setDrain enabled arrival.reads.now, h.producer⟩
  | getDrain =>
    rw [hservice trivial]
    apply h.same
    show Except.ok (Body.drain ⟨app.repository.drainEnabled⟩) = _
    rw [h.repository.drain]
    rfl

end Routes

/-! ## Runs -/

/-- Comparable arrivals keep the applications alike. -/
theorem alike_kept (settings : Settings) (jsonb : Jsonb) :
    Lockstep.Keeps (memoryApp settings) (sqlApp settings jsonb) Alike (Option.Rel Response.Same)
      (ComparableArrival settings jsonb) := by
  intro app sql arrival h hcomparable
  obtain ⟨reads, input⟩ := arrival
  cases input with
  | http http =>
    obtain ⟨hreadable, hthere, hcomparable⟩ := hcomparable
    obtain ⟨hsame, halike⟩ := serve_alike h hreadable http hthere hcomparable
    exact ⟨.some hsame, halike⟩
  | worker operation =>
    obtain ⟨-, hmirrors⟩ := mirrors_kept _ _ _ h.repository hcomparable.2.1
    exact ⟨.none, hmirrors, h.producer⟩
  | setAvailable available => exact ⟨.none, h.repository, by simp [App.step, memoryApp, sqlApp,
      h.producer]⟩

/-- **The API does not tell the repositories apart.** -/
theorem api_over_either_repository (settings : Settings) (jsonb : Jsonb) (arrivals : List Arrival)
    (h : Lockstep.Allowed (memoryApp settings) (sqlApp settings jsonb)
      (ComparableArrival settings jsonb) ⟨.empty, .empty⟩ ⟨.empty, .empty⟩ arrivals) :
    List.Forall₂ (Option.Rel Response.Same)
      (Lockstep.run (memoryApp settings) ⟨.empty, .empty⟩ arrivals).1
      (Lockstep.run (sqlApp settings jsonb) ⟨.empty, .empty⟩ arrivals).1 :=
  ((alike_kept settings jsonb).run arrivals ⟨Mirrors.empty, rfl⟩ h).1

/-- A job is submitted, claimed and succeeds, and is asked for; then come the metrics. -/
def Sample.arrivals : List Arrival :=
  [⟨⟨0, Sample.jobId, []⟩, .http ⟨none, Sample.nextJobId, true, true, .createJob Sample.request⟩⟩,
   ⟨⟨1, Sample.nextJobId, []⟩, .worker (.claimJob Sample.jobId "worker-local")⟩,
   ⟨⟨2, Sample.nextJobId, []⟩, .worker (.markSucceeded Sample.jobId
     [("message", .str "done"), ("id", .num "7")])⟩,
   ⟨⟨3, Sample.nextJobId, []⟩, .http ⟨none, Sample.nextJobId, true, true, .getJob Sample.jobId⟩⟩,
   ⟨⟨4, Sample.nextJobId, []⟩, .http ⟨none, Sample.nextJobId, true, true, .metrics⟩⟩]

theorem api_over_either_repository_of_success :
    List.Forall₂ (Option.Rel Response.Same)
      (Lockstep.run (memoryApp {}) ⟨.empty, .empty⟩ Sample.arrivals).1
      (Lockstep.run (sqlApp {} Sample.sortingJsonb) ⟨.empty, .empty⟩ Sample.arrivals).1 :=
  api_over_either_repository {} Sample.sortingJsonb Sample.arrivals
    ⟨⟨by decide, fun _ => ⟨rfl, rfl⟩, fun _ => ⟨⟨rfl, by decide, by simp [Sample.request],
        ⟨[], rfl, rfl⟩, by simp [Sample.request, ensureAware]⟩, by simp [InUtc, Sample.request]⟩⟩,
      ⟨by decide, (by decide : fitsString 100 "worker-local" = true), trivial⟩,
      ⟨by decide, ⟨_, rfl, rfl⟩, trivial⟩,
      ⟨by decide, fun _ => ⟨rfl, rfl⟩, trivial⟩,
      ⟨by decide, fun _ => ⟨rfl, rfl⟩, Or.inr (by decide)⟩, trivial⟩

end JobPipeline
