import JobPipeline.Core.JsonText
import JobPipeline.Service.Delivery

/-!
# Submissions that fail and submissions that repeat

`submit_job` stores its job before it publishes it, so when the publish fails the job is there all
the same, and `due_jobs` will find it. A client that repeats the submission under its idempotency
key is answered from the index, whatever has become of the job in between. That rests on one
invariant, `Indexed`: the index and the keys of the stored records say the same.

`submit_job` is written here as one call (`submitJob`); `submitJob_steps` takes it apart into the
two steps that other calls can come between.
-/

set_option autoImplicit false

namespace JobPipeline

namespace JobService

/-- `submit_job`: what it returns or raises, and the service after it. -/
def submitJob (settings : Settings) (service : JobService) (request : JobCreate) (now : Int)
    (jobId : UUID) : Except Exc (JobRecord × Bool) × JobService :=
  match getHandler request.handler with
  | .error e => (.error e, service)
  | .ok _ =>
    match validatePayloadSize settings request.payload with
    | .error e => (.error e, service)
    | .ok _ =>
      match service.repository.createJob request now jobId with
      | .error e => (.error e, service)
      | .ok ((job, true), repository) => (.ok (job, true), { service with repository })
      | .ok ((job, false), repository) =>
        match service.producer.publishJob job.message with
        | .error e => (.error e, { service with repository })
        | .ok producer => (.ok (job, false), ⟨repository, producer⟩)

/-- The request passes the checks of `submit_job`. -/
def Accepts (settings : Settings) (request : JobCreate) : Prop :=
  Supported request.handler ∧ validatePayloadSize settings request.payload = .ok ()

/-- The size of a payload is that of its text in bytes. -/
theorem accepts_iff {floatRepr : List Char → List Char} {settings : Settings} {request : JobCreate}
    (h : (Json.obj request.payload).Printed floatRepr) :
    Accepts settings request ↔ Supported request.handler ∧
      (encodeUtf8 ((Json.obj request.payload).dumps .compact)).size ≤ settings.maxPayloadBytes := by
  rw [Accepts, validatePayloadSize, size_dumps h]
  refine and_congr_right fun _ => ?_
  split
  · rename_i hlarge
    exact iff_of_false (by simp) (Nat.not_le.mpr hlarge)
  · rename_i hfits
    exact iff_of_true rfl (Nat.not_lt.mp hfits)

end JobService

/-! ## The index -/

namespace InMemoryJobRepository

/-- The index names the job stored under a key, and every job stored under a key is named. -/
structure Indexed (r : InMemoryJobRepository) : Prop where
  stored : ∀ k id, r.idempotency.get? k = some id →
    ∃ job, r.jobs.get? id = some job ∧ job.idempotencyKey = some k
  named : ∀ id job k, r.jobs.get? id = some job → job.idempotencyKey = some k →
    r.idempotency.get? k = some id

/-- What one step can do to the jobs and the index. -/
inductive Changes (r : InMemoryJobRepository) : InMemoryJobRepository → Prop where
  | nothing {r' : InMemoryJobRepository} (jobs : r'.jobs = r.jobs)
      (index : r'.idempotency = r.idempotency) : Changes r r'
  | created (request : JobCreate) (now : Int) (jobId : UUID) (fresh : r.jobs.get? jobId = none)
      (first : r.replayOf request.idempotencyKey = none) :
      Changes r ((r.store (.submitted request jobId now)).remember request.idempotencyKey jobId)
  | rewritten {r' : InMemoryJobRepository} (id : UUID) (job job' : JobRecord)
      (before : r.jobs.get? id = some job) (same : JobRecord.SameRequest job job')
      (jobs : r'.jobs = r.jobs.insert id job') (index : r'.idempotency = r.idempotency) :
      Changes r r'
  | scheduled {r' : InMemoryJobRepository} (next : JobRecord) (fresh : r.jobs.get? next.id = none)
      (unkeyed : next.idempotencyKey = none) (jobs : r'.jobs = r.jobs.insert next.id next)
      (index : r'.idempotency = r.idempotency) : Changes r r'

variable {r r' : InMemoryJobRepository} {request : JobCreate} {now : Int} {jobId : UUID}
  {job : JobRecord} {k : String}

theorem indexed_empty : empty.Indexed := by
  constructor <;> simp [empty]

/-- Under a consistent index the only answer for a key is the job stored under it. -/
theorem Indexed.replayOf_eq (h : r.Indexed) (key : Option String) (hne : key ≠ some "") :
    r.replayOf key = none ∧ (∀ id job, r.jobs.get? id = some job → job.idempotencyKey = key →
        key = none) ∨
      ∃ k id job, key = some k ∧ r.jobs.get? id = some job ∧ job.idempotencyKey = some k ∧
        r.replayOf key = some (.ok job) := by
  cases key with
  | none => exact Or.inl ⟨rfl, fun _ _ _ _ => rfl⟩
  | some k =>
    have hk : k ≠ "" := fun heq => hne (by rw [heq])
    cases hindex : r.idempotency.get? k with
    | none =>
      refine Or.inl ⟨by simp [replayOf, hk, hindex], fun id job hget hkey => ?_⟩
      have hnamed := h.named id job k hget hkey
      rw [hindex] at hnamed
      cases hnamed
    | some id =>
      obtain ⟨job, hget, hkey⟩ := h.stored k id hindex
      exact Or.inr ⟨k, id, job, rfl, hget, hkey, by simp [replayOf, hk, hindex, hget]⟩

/-- **One job for a key.** -/
theorem Indexed.unique (h : r.Indexed) {id id' : UUID} {job job' : JobRecord}
    (hget : r.jobs.get? id = some job) (hget' : r.jobs.get? id' = some job')
    (hkey : job.idempotencyKey = some k) (hkey' : job'.idempotencyKey = some k) : id = id' :=
  Option.some.inj ((h.named id job k hget hkey).symm.trans (h.named id' job' k hget' hkey'))

/-- **Every step keeps the index consistent.** -/
theorem Indexed.changes (h : r.Indexed) (hc : Changes r r') : r'.Indexed := by
  cases hc with
  | nothing jobs index =>
    constructor
    · intro k id
      rw [jobs, index]
      exact h.stored k id
    · intro id job k
      rw [jobs, index]
      exact h.named id job k
  | created request now jobId fresh first =>
    have hjobs : ((r.store (.submitted request jobId now)).remember request.idempotencyKey
        jobId).jobs = r.jobs.insert jobId (.submitted request jobId now) := by
      rw [remember_jobs]
      rfl
    have hother : ∀ id job, r.jobs.get? id = some job → id ≠ jobId := fun id job hget heq =>
      absurd hget (by rw [heq, fresh]; simp)
    constructor
    · intro k id hindex
      rw [get?_remember _ request.key_ne_empty] at hindex
      rw [hjobs, Dict.get?_insert]
      split at hindex
      · rename_i hkey
        cases hindex
        exact ⟨_, if_pos rfl, hkey⟩
      · obtain ⟨job, hget, hkey⟩ := h.stored k id hindex
        exact ⟨job, by rw [if_neg (hother id job hget)]; exact hget, hkey⟩
    · intro id job k hget hkey
      rw [get?_remember _ request.key_ne_empty]
      rw [hjobs, Dict.get?_insert] at hget
      split at hget
      · rename_i heq
        cases hget
        rw [if_pos (show request.idempotencyKey = some k from hkey), heq]
      · split
        · -- The key of another stored job would have been answered from the index.
          rename_i hsame
          rcases h.replayOf_eq request.idempotencyKey request.key_ne_empty with
            ⟨-, hnone⟩ | ⟨_, _, _, -, -, -, hreplay⟩
          · have := hnone id job hget (hkey.trans hsame.symm)
            rw [hsame] at this
            cases this
          · rw [first] at hreplay
            cases hreplay
        · exact h.named id job k hget hkey
  | rewritten id job job' before same jobs index =>
    constructor
    · intro k id' hindex
      rw [index] at hindex
      obtain ⟨old, hget, hkey⟩ := h.stored k id' hindex
      rw [jobs, Dict.get?_insert]
      split
      · rename_i heq
        subst heq
        rw [before, Option.some.injEq] at hget
        exact ⟨job', rfl, by rw [same.idempotencyKey, hget, hkey]⟩
      · exact ⟨old, hget, hkey⟩
    · intro id' new k hget hkey
      rw [index]
      rw [jobs, Dict.get?_insert] at hget
      split at hget
      · rename_i heq
        cases hget
        rw [heq]
        exact h.named id job k before (same.idempotencyKey ▸ hkey)
      · exact h.named id' new k hget hkey
  | scheduled next fresh unkeyed jobs index =>
    constructor
    · intro k id hindex
      rw [index] at hindex
      obtain ⟨job, hget, hkey⟩ := h.stored k id hindex
      have hne : id ≠ next.id := fun heq => absurd hget (by rw [heq, fresh]; simp)
      exact ⟨job, by rw [jobs, Dict.get?_insert, if_neg hne]; exact hget, hkey⟩
    · intro id job k hget hkey
      rw [index]
      rw [jobs, Dict.get?_insert] at hget
      split at hget
      · -- A successor has no key to be found by.
        cases hget
        rw [unkeyed] at hkey
        cases hkey
      · exact h.named id job k hget hkey

/-- A stored job stays stored, with the request it was made from. -/
theorem Changes.kept (hc : Changes r r') {id : UUID} (hget : r.jobs.get? id = some job) :
    ∃ job', r'.jobs.get? id = some job' ∧ JobRecord.SameRequest job job' := by
  cases hc with
  | nothing jobs => exact ⟨job, by rw [jobs]; exact hget, .refl job⟩
  | created request now jobId fresh =>
    have hne : id ≠ jobId := fun heq => absurd hget (by rw [heq, fresh]; simp)
    refine ⟨job, ?_, .refl job⟩
    rw [remember_jobs]
    show (r.jobs.insert jobId _).get? id = some job
    rw [Dict.get?_insert, if_neg hne, hget]
  | rewritten id' old job' before same jobs =>
    rw [jobs, Dict.get?_insert]
    split
    · rename_i heq
      subst heq
      rw [before, Option.some.injEq] at hget
      exact ⟨job', rfl, hget ▸ same⟩
    · exact ⟨job, hget, .refl job⟩
  | scheduled next fresh _ jobs =>
    have hne : id ≠ next.id := fun heq => absurd hget (by rw [heq, fresh]; simp)
    exact ⟨job, by rw [jobs, Dict.get?_insert, if_neg hne]; exact hget, .refl job⟩

theorem createJob_of_first (h : r.replayOf request.idempotencyKey = none) (now : Int)
    (jobId : UUID) : r.createJob request now jobId = .ok ((.submitted request jobId now, false),
      (r.store (.submitted request jobId now)).remember request.idempotencyKey jobId) := by
  simp only [createJob, h]

theorem createJob_of_replay (h : r.replayOf request.idempotencyKey = some (.ok job)) (now : Int)
    (jobId : UUID) : r.createJob request now jobId = .ok ((job, true), r) := by
  simp only [createJob, h]

/-- What `create_job` does to the repository, if it succeeds. -/
theorem createJob_changes {replay : Bool} (fresh : r.jobs.get? jobId = none)
    (h : r.createJob request now jobId = .ok ((job, replay), r')) : Changes r r' := by
  unfold createJob at h
  split at h
  · cases h
    exact .nothing rfl rfl
  · cases h
  · rename_i first
    cases h
    exact .created request now jobId fresh first

/-- A claim that is lost changes nothing. -/
theorem claimJob_changes (r : InMemoryJobRepository) (jobId : UUID) (workerId : String) (now : Int) :
    Changes r (r.claimJob jobId workerId now).2 := by
  rcases r.claimJob_cases jobId workerId now with hlost | ⟨job, hget, -, -, hclaim⟩
  · rw [hlost]
    exact .nothing rfl rfl
  · rw [hclaim]
    exact .rewritten jobId job _ hget (JobRecord.sameRequest_claim job workerId now) rfl rfl

theorem cancelJob_changes (h : r.cancelJob jobId now = .ok (job, r')) : Changes r r' := by
  obtain ⟨old, hget, -, rfl, rfl⟩ := cancelJob_ok h
  exact .rewritten jobId old _ hget (JobRecord.sameRequest_cancel old now) rfl rfl

theorem markSucceeded_changes {result : JsonObject}
    (h : r.markSucceeded jobId result now = .ok (job, r')) : Changes r r' := by
  cases hget : r.jobs.get? jobId with
  | none => simp [markSucceeded, getJob, hget] at h
  | some old =>
    rw [markSucceeded_of_stored result now hget] at h
    cases h
    exact .rewritten jobId old _ hget (JobRecord.sameRequest_succeed old result now) rfl rfl

theorem markFailedAttempt_changes {error : String} {backoff : Int}
    (h : r.markFailedAttempt jobId error backoff now = .ok (job, r')) : Changes r r' := by
  cases hget : r.jobs.get? jobId with
  | none => simp [markFailedAttempt, getJob, hget] at h
  | some old =>
    rw [markFailedAttempt_of_stored error backoff now hget] at h
    cases h
    exact .rewritten jobId old _ hget (JobRecord.sameRequest_fail old error backoff now) rfl rfl

theorem createNext_changes {next : JobRecord} (fresh : r.jobs.get? jobId = none)
    (h : r.createNextRecurringJob job now jobId = .ok (some next, r')) : Changes r r' := by
  rcases r.createNextRecurringJob_cases job now jobId with
    ⟨-, hnext⟩ | ⟨cron, -, -, ⟨e, -, hnext⟩ | ⟨nextRunAt, -, hnext⟩⟩ <;> rw [hnext] at h <;> cases h
  exact .scheduled (job.successor jobId nextRunAt now) fresh rfl rfl rfl

end InMemoryJobRepository

namespace State

open InMemoryJobRepository (Changes)
open Transition (System)

variable {settings : Settings} {s s' : State} {now : Int} {c : CallId} {request : JobCreate}
  {jobId : UUID} {k : String}

/-- **What one step does to the jobs and the index.** -/
theorem act_changes {action : Action} (h : act settings s now action = some s') :
    Changes s.repository s'.repository := by
  have nothing : ∀ {r : InMemoryJobRepository}, r = s.repository → Changes s.repository r :=
    fun heq => .nothing (by rw [heq]) (by rw [heq])
  cases action with
  | submit c request jobId =>
    simp only [act] at h
    split at h
    · split at h
      · cases h
      · rename_i hfresh
        have fresh := Dict.contains_eq_false_iff.mp (by simpa using hfresh)
        cases h
        unfold submitJob
        split
        · exact nothing rfl
        · split
          · exact nothing rfl
          · split
            · exact nothing rfl
            · exact nothing rfl
            · rename_i hcreate
              exact InMemoryJobRepository.createJob_changes fresh hcreate
    · cases h
  | claim c jobId workerId =>
    simp only [act] at h
    split at h
    · cases h
      have hchanges := s.repository.claimJob_changes jobId workerId now
      unfold claimJob
      split
      · exact nothing rfl
      · rename_i hclaim
        rw [hclaim] at hchanges
        dsimp only
        split
        · exact hchanges
        · exact hchanges
    · cases h
  | markSucceeded c =>
    simp only [act] at h
    split at h
    · split at h
      · cases h
        exact nothing rfl
      · rename_i hmark
        cases h
        exact InMemoryJobRepository.markSucceeded_changes hmark
    · cases h
  | createNext c nextJobId =>
    simp only [act] at h
    split at h
    · split at h
      · cases h
      · rename_i hfresh
        have fresh := Dict.contains_eq_false_iff.mp (by simpa using hfresh)
        split at h
        · cases h
          exact nothing rfl
        · cases h
          exact nothing rfl
        · rename_i hnext
          cases h
          exact InMemoryJobRepository.createNext_changes fresh hnext
    · cases h
  | markFailed c =>
    simp only [act] at h
    split at h
    · split at h
      · cases h
        exact nothing rfl
      · rename_i hmark
        cases h
        exact InMemoryJobRepository.markFailedAttempt_changes hmark
    · cases h
  | cancel jobId =>
    simp only [act] at h
    split at h
    · cases h
      exact nothing rfl
    · rename_i hcancel
      cases h
      exact InMemoryJobRepository.cancelJob_changes hcancel
  | setDrain enabled =>
    cases h
    exact .nothing rfl rfl
  | setAvailable available =>
    cases h
    exact nothing rfl
  | publish c | finish c outcome | publishDeadLetter c =>
    simp only [act] at h
    repeat' split at h
    all_goals cases h
    all_goals exact nothing rfl

theorem step_changes {label : Label} (h : step settings s label = some s') :
    Changes s.repository s'.repository :=
  act_changes (s := { s with clock := label.now }) (step_eq_some_iff.mp h).2

/-- **The index is consistent in every run.** -/
theorem indexed_of_reachable {ok : State → Label → Prop} (h : (service settings).Reachable ok s) :
    s.repository.Indexed := by
  refine h.invariant (I := fun s => s.repository.Indexed) ?_ fun _ _ _ hI _ hs =>
    hI.changes (step_changes hs)
  rintro _ rfl
  exact InMemoryJobRepository.indexed_empty

end State

/-! ## One submission -/

namespace JobService

variable {settings : Settings} {service service' : JobService} {request : JobCreate} {now : Int}
  {jobId : UUID} {job : JobRecord}

/-- The repository after the request has been stored. -/
def stored (service : JobService) (request : JobCreate) (now : Int) (jobId : UUID) :
    InMemoryJobRepository :=
  (service.repository.store (.submitted request jobId now)).remember request.idempotencyKey jobId

/-- What the checks refuse is refused with a `BadRequestError`, before anything is touched. -/
theorem submitJob_refused (service : JobService) (now : Int) (jobId : UUID)
    (h : ¬ Accepts settings request) :
    ∃ e, service.submitJob settings request now jobId = (.error e, service) ∧
      e.className = "BadRequestError" := by
  unfold submitJob
  cases hhandler : getHandler request.handler with
  | error e =>
    refine ⟨e, rfl, ?_⟩
    unfold getHandler at hhandler
    split at hhandler
    · cases hhandler
    · cases hhandler
      rfl
  | ok handler =>
    cases hsize : validatePayloadSize settings request.payload with
    | ok u => exact absurd ⟨⟨handler, hhandler⟩, hsize⟩ h
    | error e =>
      refine ⟨e, rfl, ?_⟩
      unfold validatePayloadSize at hsize
      split at hsize
      · cases hsize
        rfl
      · cases hsize

/-- A repeated submission is answered with the stored job. -/
theorem submitJob_replayed (h : Accepts settings request)
    (hreplay : service.repository.replayOf request.idempotencyKey = some (.ok job)) :
    service.submitJob settings request now jobId = (.ok (job, true), service) := by
  obtain ⟨⟨handler, hhandler⟩, hsize⟩ := h
  simp only [submitJob, hhandler, hsize, InMemoryJobRepository.createJob_of_replay hreplay]

/-- The first submission is stored, and then published if the producer can be reached. -/
theorem submitJob_first (h : Accepts settings request)
    (hfirst : service.repository.replayOf request.idempotencyKey = none) :
    service.submitJob settings request now jobId =
      match service.producer.publishJob (JobRecord.submitted request jobId now).message with
      | .error e => (.error e, { service with repository := service.stored request now jobId })
      | .ok producer => (.ok (.submitted request jobId now, false),
          ⟨service.stored request now jobId, producer⟩) := by
  obtain ⟨⟨handler, hhandler⟩, hsize⟩ := h
  simp only [submitJob, hhandler, hsize, InMemoryJobRepository.createJob_of_first hfirst]
  rfl

theorem stored_get? (service : JobService) (request : JobCreate) (now : Int) (jobId id : UUID) :
    (service.stored request now jobId).jobs.get? id =
      if id = jobId then some (.submitted request jobId now)
      else service.repository.jobs.get? id := by
  rw [stored, InMemoryJobRepository.remember_jobs]
  exact Dict.get?_insert _ _ _ _

/-- One job more, waiting, and nothing published. -/
structure StoredUnpublished (service : JobService) (request : JobCreate) (now : Int)
    (jobId : UUID) (service' : JobService) : Prop where
  producer : service'.producer = service.producer
  added : service.repository.jobs.get? jobId = none ∧
    ∃ job, service'.repository.jobs.get? jobId = some job ∧ job.status = .queued ∧
      job.attemptCount = 0 ∧ job.nextRunAt = (ensureAware request.runAt).elim now (max now)
  others : ∀ id, id ≠ jobId →
    service'.repository.jobs.get? id = service.repository.jobs.get? id

theorem initialNextRunAt_eq (runAt : Option Int) (now : Int) :
    initialNextRunAt runAt now = runAt.elim now (max now) := by
  cases runAt with
  | none => rfl
  | some t =>
    unfold initialNextRunAt
    dsimp only [Option.elim]
    split <;> omega

/-- **What a submission that raises leaves behind.** -/
theorem submitJob_error (hindexed : service.repository.Indexed)
    (fresh : service.repository.jobs.get? jobId = none) {e : Exc}
    (h : service.submitJob settings request now jobId = (.error e, service')) :
    e.className = "BadRequestError" ∧ service' = service ∨
      e.className = "DependencyUnavailableError" ∧
        StoredUnpublished service request now jobId service' := by
  by_cases haccepts : Accepts settings request
  · rcases hindexed.replayOf_eq request.idempotencyKey request.key_ne_empty with
      ⟨hfirst, -⟩ | ⟨_, _, job, -, -, -, hreplay⟩
    · rw [submitJob_first haccepts hfirst] at h
      cases hpublish : service.producer.publishJob
          (JobRecord.submitted request jobId now).message with
      | ok producer =>
        rw [hpublish] at h
        cases (Prod.mk.inj h).1
      | error e' =>
        rw [hpublish] at h
        obtain ⟨herror, rfl⟩ := Prod.mk.inj h
        cases herror
        refine Or.inr ⟨FakeJobProducer.publishJob_error hpublish, rfl,
          ⟨fresh, .submitted request jobId now, ?_, rfl, rfl, ?_⟩, fun id hne => ?_⟩
        · exact (stored_get? service request now jobId jobId).trans (if_pos rfl)
        · exact initialNextRunAt_eq _ _
        · exact (stored_get? service request now jobId id).trans (if_neg hne)
    · rw [submitJob_replayed haccepts hreplay] at h
      cases (Prod.mk.inj h).1
  · obtain ⟨e', he', hclass⟩ := submitJob_refused service now jobId haccepts
    rw [he'] at h
    obtain ⟨herror, hservice⟩ := Prod.mk.inj h
    cases herror
    exact Or.inl ⟨hclass, hservice.symm⟩

end JobService

/-! ## Submissions under one key -/

/-- Where a call of `submit_job` ends. -/
def Call.ofSubmit : Except Exc (JobRecord × Bool) → Call
  | .ok (job, replay) => .submitted job replay
  | .error e => .raised e

/-- A submission under the key that passes the checks. -/
def Label.Submits (label : Label) (settings : Settings) (k : String) : Prop :=
  ∃ c request jobId, label.action = .submit c request jobId ∧ request.idempotencyKey = some k ∧
    JobService.Accepts settings request

namespace State

open InMemoryJobRepository (Changes)
open Transition (System)

variable {settings : Settings} {s s' : State} {c : CallId} {k : String}

/-- The repository and the producer, with the broker reachable or not. -/
def serviceWhen (s : State) (available : Bool) : JobService :=
  ⟨s.repository, { s.producer with available := available }⟩

/-- **An uninterrupted submission is two steps of the service**, or one if it does not publish. -/
theorem submitJob_steps (hidle : s.calls c = .idle) {now : Int} (time : s.clock ≤ now)
    {request : JobCreate} {jobId : UUID} (fresh : s.repository.jobs.get? jobId = none) :
    ∃ s', (service settings).Steps Transition.Any s s' ∧
      s'.toService = (s.toService.submitJob settings request now jobId).2 ∧
      s'.calls c = .ofSubmit (s.toService.submitJob settings request now jobId).1 := by
  have hsubmit : step settings s ⟨now, .submit c request jobId⟩ =
      some (({ s with clock := now } : State).submitJob settings c request now jobId) := by
    refine step_eq_some_iff.mpr ⟨time, ?_⟩
    have hfree : s.repository.jobs.contains jobId = false := Dict.contains_eq_false_iff.mpr fresh
    simp only [act, hidle, hfree, Bool.false_eq_true, if_false]
  have hfirst : (service settings).Steps Transition.Any s
      (({ s with clock := now } : State).submitJob settings c request now jobId) :=
    System.Steps.single trivial hsubmit
  -- A call that does not come to publish ends with the first step.
  have hone : ∀ call, ({ s with clock := now } : State).submitJob settings c request now jobId =
      ({ s with clock := now } : State).setCall c call →
      s.toService.submitJob settings request now jobId =
        ((s.toService.submitJob settings request now jobId).1, s.toService) →
      call = .ofSubmit (s.toService.submitJob settings request now jobId).1 →
      ∃ s', (service settings).Steps Transition.Any s s' ∧
        s'.toService = (s.toService.submitJob settings request now jobId).2 ∧
        s'.calls c = .ofSubmit (s.toService.submitJob settings request now jobId).1 := by
    intro call heq hservice hcall
    refine ⟨_, hfirst, ?_, ?_⟩
    · rw [heq, hservice]
      rfl
    · rw [heq, setCall_self, hcall]
  cases hhandler : getHandler request.handler with
  | error e =>
    refine hone (.raised e) ?_ ?_ ?_ <;>
      simp only [submitJob, JobService.submitJob, hhandler, Call.ofSubmit]
  | ok handler =>
    cases hsize : validatePayloadSize settings request.payload with
    | error e =>
      refine hone (.raised e) ?_ ?_ ?_ <;>
        simp only [submitJob, JobService.submitJob, hhandler, hsize, Call.ofSubmit]
    | ok u =>
      cases hcreate : s.repository.createJob request now jobId with
      | error e =>
        refine hone (.raised e) ?_ ?_ ?_ <;>
          simp only [submitJob, JobService.submitJob, toService, hhandler, hsize, hcreate,
            Call.ofSubmit]
      | ok result =>
        obtain ⟨⟨job, replay⟩, r⟩ := result
        cases replay with
        | true =>
          have hsame : r = s.repository := by
            unfold InMemoryJobRepository.createJob at hcreate
            split at hcreate <;> cases hcreate
            rfl
          subst hsame
          refine hone (.submitted job true) ?_ ?_ ?_ <;>
            simp only [submitJob, JobService.submitJob, toService, hhandler, hsize, hcreate,
              Call.ofSubmit]
        | false =>
          simp only [submitJob, hhandler, hsize, hcreate] at hfirst
          simp only [JobService.submitJob, toService, hhandler, hsize, hcreate]
          -- The second step publishes.
          obtain ⟨s₁, hs₁⟩ : ∃ s₁ : State, s₁ = (({ s with clock := now } : State).record r
            (.created job)).setCall c (.publishing job) := ⟨_, rfl⟩
          rw [← hs₁] at hfirst
          have hcall : s₁.calls c = .publishing job := by rw [hs₁, setCall_self]
          have hclock : s₁.clock ≤ now := by rw [hs₁]; exact le_refl now
          have hproducer : s₁.producer = s.producer := by rw [hs₁]; rfl
          have hrepository : s₁.repository = r := by rw [hs₁]; rfl
          cases hpublish : s.producer.publishJob job.message with
          | error e =>
            have hsecond : step settings s₁ ⟨now, .publish c⟩ =
                some (({ s₁ with clock := now } : State).setCall c (.raised e)) :=
              step_eq_some_iff.mpr ⟨hclock, by simp only [act, hcall, hproducer, hpublish]⟩
            refine ⟨_, hfirst.tail trivial hsecond, ?_, setCall_self _ _ _⟩
            simp only [setCall_repository, setCall_producer, hrepository, hproducer]
          | ok producer =>
            have hsecond : step settings s₁ ⟨now, .publish c⟩ =
                some (({ s₁ with clock := now, producer := producer } : State).setCall c
                  (.submitted job false)) :=
              step_eq_some_iff.mpr ⟨hclock, by simp only [act, hcall, hproducer, hpublish]⟩
            refine ⟨_, hfirst.tail trivial hsecond, ?_, setCall_self _ _ _⟩
            simp only [setCall_repository, setCall_producer, hrepository]

/-- A job is stored under the key. -/
def HasKey (s : State) (k : String) : Prop :=
  ∃ id r, s.repository.jobs.get? id = some r ∧ r.idempotencyKey = some k

/-- One job is stored under the key, and it is the answer to every further submission. -/
def AnswersKey (settings : Settings) (s : State) (k : String) : Prop :=
  ∃ id r, s.repository.jobs.get? id = some r ∧ r.idempotencyKey = some k ∧
    (∀ id' r', s.repository.jobs.get? id' = some r' → r'.idempotencyKey = some k → id' = id) ∧
    ∀ available request now jobId, request.idempotencyKey = some k →
      JobService.Accepts settings request →
        (s.serviceWhen available).submitJob settings request now jobId =
          (.ok (r, true), s.serviceWhen available)

theorem answersKey_of_hasKey (hindexed : s.repository.Indexed) (h : s.HasKey k) :
    AnswersKey settings s k := by
  obtain ⟨id, r, hget, hkey⟩ := h
  refine ⟨id, r, hget, hkey, fun id' r' hget' hkey' => hindexed.unique hget' hget hkey' hkey,
    fun available request now jobId hrequest haccepts => ?_⟩
  apply JobService.submitJob_replayed haccepts
  show s.repository.replayOf request.idempotencyKey = some (.ok r)
  rcases hindexed.replayOf_eq request.idempotencyKey request.key_ne_empty with
    ⟨-, hnone⟩ | ⟨k', id', r', hk', hget', hkey', hreplay⟩
  · rw [hnone id r hget (hkey.trans hrequest.symm)] at hrequest
    cases hrequest
  · rw [hrequest, Option.some.injEq] at hk'
    subst hk'
    have hid := hindexed.unique hget' hget hkey' hkey
    subst hid
    rw [hget', Option.some.injEq] at hget
    rw [hreplay, hget]

/-- A key stays. -/
theorem HasKey.changes (h : s.HasKey k) (hc : Changes s.repository s'.repository) :
    s'.HasKey k := by
  obtain ⟨id, r, hget, hkey⟩ := h
  obtain ⟨r', hget', hsame⟩ := hc.kept hget
  exact ⟨id, r', hget', hsame.idempotencyKey.trans hkey⟩

/-- **A submission leaves a job under its key**, whatever becomes of its publish. -/
theorem hasKey_of_submits (hindexed : s.repository.Indexed) {label : Label}
    (hsubmits : label.Submits settings k) (h : step settings s label = some s') :
    s'.HasKey k := by
  obtain ⟨c, request, jobId, haction, hkey, ⟨handler, hhandler⟩, hsize⟩ := hsubmits
  have hact := (step_eq_some_iff.mp h).2
  rw [haction] at hact
  simp only [act] at hact
  split at hact
  · split at hact
    · cases hact
    · cases hact
      simp only [submitJob, hhandler, hsize]
      rcases hindexed.replayOf_eq request.idempotencyKey request.key_ne_empty with
        ⟨hfirst, -⟩ | ⟨k', id, r, hk', hget, hkey', hreplay⟩
      · rw [InMemoryJobRepository.createJob_of_first hfirst]
        refine ⟨jobId, .submitted request jobId label.now, ?_, hkey⟩
        exact (JobService.stored_get? s.toService request label.now jobId jobId).trans (if_pos rfl)
      · rw [InMemoryJobRepository.createJob_of_replay hreplay]
        rw [hkey, Option.some.injEq] at hk'
        exact ⟨id, r, hget, hk' ▸ hkey'⟩
  · cases hact

/-- The key stays through a run. -/
theorem HasKey.replay {labels : List Label} (h : s.HasKey k)
    (hrun : System.replay (step settings) s labels = some s') : s'.HasKey k := by
  refine System.replay_invariant (I := fun t => t.HasKey k) ?_ hrun h
  intro label _ t t' hkey hs
  exact hkey.changes (step_changes hs)

/-- **A run with a submission under the key ends with a job under it.** -/
theorem hasKey_of_replay {labels : List Label} (hindexed : s.repository.Indexed)
    (hrun : System.replay (step settings) s labels = some s')
    (hsubmits : ∃ label ∈ labels, label.Submits settings k) : s'.HasKey k := by
  induction labels generalizing s with
  | nil =>
    obtain ⟨label, hmem, -⟩ := hsubmits
    cases hmem
  | cons label rest ih =>
    obtain ⟨s₁, hs, hrest⟩ := System.replay_cons.mp hrun
    obtain ⟨label', hmem, hsubmits⟩ := hsubmits
    rcases List.mem_cons.mp hmem with rfl | hmem
    · exact (hasKey_of_submits hindexed hsubmits hs).replay hrest
    · exact ih (hindexed.changes (step_changes hs)) hrest ⟨label', hmem, hsubmits⟩

theorem replay_indexed {labels : List Label} (hindexed : s.repository.Indexed)
    (hrun : System.replay (step settings) s labels = some s') : s'.repository.Indexed := by
  refine System.replay_invariant (I := fun t => t.repository.Indexed) ?_ hrun hindexed
  intro label _ t t' ht hs
  exact ht.changes (step_changes hs)

/-- **Submissions fail cleanly and may be repeated**: an error says what is left behind, and once
    a key was submitted, whatever the calls, outages, attempts and cancellations since, one job
    stands under it and answers every further submission. -/
theorem submissions_safe (h : (service settings).Reachable Transition.Any s) :
    (∀ available request now jobId e service', s.repository.jobs.get? jobId = none →
      (s.serviceWhen available).submitJob settings request now jobId = (.error e, service') →
        e.className = "BadRequestError" ∧ service' = s.serviceWhen available ∨
          e.className = "DependencyUnavailableError" ∧
            (s.serviceWhen available).StoredUnpublished request now jobId service') ∧
      ∀ k labels s', System.replay (step settings) s labels = some s' →
        (∃ label ∈ labels, label.Submits settings k) → AnswersKey settings s' k := by
  have hindexed := indexed_of_reachable h
  refine ⟨fun available request now jobId e service' fresh herror => ?_,
    fun k labels s' hrun hsubmits => ?_⟩
  · have hstored : (s.serviceWhen available).repository.Indexed := hindexed
    exact JobService.submitJob_error hstored fresh herror
  · exact answersKey_of_hasKey (replay_indexed hindexed hrun)
      (hasKey_of_replay hindexed hrun hsubmits)

/-- A submission under a key. -/
def Sample.keyedRequest : JobCreate := Sample.request.keyed "order-1" ⟨by decide, by decide⟩

/-- The broker is down when the job is submitted; it is claimed, fails and is cancelled. -/
def outageRun : List Label :=
  [⟨0, .setAvailable false⟩, ⟨0, .submit 0 Sample.keyedRequest Sample.jobId⟩, ⟨0, .publish 0⟩,
    ⟨0, .claim 1 Sample.jobId "worker-local"⟩, ⟨0, .finish 1 (.raised (.transient "boom"))⟩,
    ⟨0, .markFailed 1⟩, ⟨0, .cancel Sample.jobId⟩]

/-- The law for a submission during an outage, and for what follows it. -/
theorem submissions_safe_of_outageRun :
    (∃ e service', (initial.serviceWhen false).submitJob {} Sample.keyedRequest 0 Sample.jobId =
        (.error e, service') ∧
      (initial.serviceWhen false).StoredUnpublished Sample.keyedRequest 0 Sample.jobId service') ∧
      ∃ s', System.replay (step {}) initial outageRun = some s' ∧ AnswersKey {} s' "order-1" := by
  have hinit : (service {}).Reachable Transition.Any initial := .init rfl
  obtain ⟨hfails, hanswers⟩ := submissions_safe hinit
  have herror : ∃ e service', (initial.serviceWhen false).submitJob {} Sample.keyedRequest 0
      Sample.jobId = (.error e, service') ∧ e.className ≠ "BadRequestError" :=
    ⟨_, _, rfl, by decide⟩
  obtain ⟨e, service', herror, hclass⟩ := herror
  have hrun : ∃ s', System.replay (step {}) initial outageRun = some s' := ⟨_, rfl⟩
  obtain ⟨s', hrun⟩ := hrun
  refine ⟨⟨e, service', herror, ?_⟩, s', hrun, hanswers "order-1" _ s' hrun ?_⟩
  · rcases hfails false _ 0 _ e service' rfl herror with ⟨hbad, -⟩ | ⟨-, hstored⟩
    · exact absurd hbad hclass
    · exact hstored
  · exact ⟨⟨0, .submit 0 Sample.keyedRequest Sample.jobId⟩, by simp [outageRun], 0, _, _, rfl, rfl,
      ⟨.echoHandler, rfl⟩, rfl⟩

end State

end JobPipeline
