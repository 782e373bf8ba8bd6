import JobPipeline.Jobs.CronRuns
import JobPipeline.Lib.TakeOnce
import JobPipeline.Service.Due
import JobPipeline.Service.Delivery

/-!
# A batch of deliveries

A worker runs `process_job` on the messages of a batch one after another. When all of it happens
at one instant, what a delivery does to one job is nothing to the others: it acts if the job is
due and no earlier delivery of the batch acted on it, and what it settles or schedules is not due
any more. So a batch takes the due jobs that it names out of a table, each once (`takeOnce`), and
`Processed` says what is left of the service in terms of those.
-/

set_option autoImplicit false

namespace JobPipeline

/-- A message of a batch: the job it names, the worker that takes it, and the identifier that
    `uuid4` draws should a successor be stored. -/
structure Receipt where
  jobId : UUID
  workerId : String
  nextJobId : UUID

def Sample.receipt : Receipt :=
  ⟨Sample.jobId, "worker-1", ⟨"00000000-0000-4000-8000-000000000003", by decide⟩⟩

def Sample.nextReceipt : Receipt :=
  ⟨Sample.nextJobId, "worker-2", ⟨"00000000-0000-4000-8000-000000000004", by decide⟩⟩

/-- The delivery of the message at one instant. -/
def Receipt.delivery (runWithTimeout : JobHandler → JsonObject → Nat → Outcome) (now : Int)
    (m : Receipt) : Delivery where
  jobId := m.jobId
  workerId := m.workerId
  claimedAt := now
  succeededAt := now
  scheduledAt := now
  failedAt := now
  nextJobId := m.nextJobId
  runWithTimeout := runWithTimeout

namespace JobService

open InMemoryJobRepository

variable (runWithTimeout : JobHandler → JsonObject → Nat → Outcome) (now : Int)

/-- `process_job` on every message of the batch. -/
def processBatch (service : JobService) (batch : List Receipt) : JobService :=
  (Lockstep.run processJob service (batch.map (Receipt.delivery runWithTimeout now))).2

/-- The record that `claim_job` would claim. -/
def claimable (service : JobService) (jobId : UUID) : Option JobRecord :=
  if service.repository.drainEnabled then none
  else (service.repository.jobs.get? jobId).filter (isDue now)

/-- What becomes of a job that is due. No worker and no drawn identifier shows in it. -/
def settle (job : JobRecord) : Settlement :=
  match getHandler job.handler with
  | .error _ => ⟨job, none⟩
  | .ok handler => (Receipt.delivery runWithTimeout now ⟨job.id, "", job.id⟩).settlement handler
      (job.claim "" now)

/-- A record under another identifier. -/
def renamed (jobId : UUID) (job : JobRecord) : JobRecord :=
  { job with id := jobId, kafkaMessageKey := some jobId.str }

/-- The records that one service has and the other had not. -/
def createdSince (service service' : JobService) : List JobRecord :=
  service'.repository.jobs.values.filter fun job => !service.repository.jobs.contains job.id

/-! ## A delivery in the terms of the batch -/

variable {runWithTimeout now} {service service' service'' : JobService} {m : Receipt}
  {job : JobRecord} {handler : JobHandler}

theorem settlement_delivery (h : getHandler job.handler = .ok handler) :
    (m.delivery runWithTimeout now).settlement handler (job.claim m.workerId now) =
      settle runWithTimeout now job := by
  unfold settle
  rw [h]
  rfl

theorem settle_sameRequest (hhandler : getHandler job.handler = .ok handler) :
    JobRecord.SameRequest job (settle runWithTimeout now job).record := by
  have hsettled := ((Receipt.delivery runWithTimeout now ⟨job.id, "", job.id⟩).settlement_sameRequest
    handler (job.claim "" now))
  rw [← settlement_delivery (m := ⟨job.id, "", job.id⟩) hhandler]
  exact (JobRecord.sameRequest_claim job "" now).trans hsettled

theorem not_due_of_terminal (h : job.status.isTerminal = true) : isDue now job = false := by
  cases hpending : job.status.isPending with
  | false => simp [isDue, hpending]
  | true =>
    rw [JobStatus.not_terminal_of_pending hpending] at h
    cases h

theorem not_due_of_later (h : now < job.nextRunAt) : isDue now job = false := by
  simp [isDue, h]

/-- A settled job is not due. -/
theorem settle_not_due (hhandler : getHandler job.handler = .ok handler) :
    isDue now (settle runWithTimeout now job).record = false := by
  rw [← settlement_delivery (m := ⟨job.id, "", job.id⟩) hhandler]
  rcases (Receipt.delivery runWithTimeout now ⟨job.id, "", job.id⟩).settlement_status handler
    (job.claim "" now) with hterminal | ⟨-, hlater⟩
  · exact not_due_of_terminal hterminal
  · exact not_due_of_later hlater

/-- A successor is not due when it is stored. -/
theorem successor_not_due (hhandler : getHandler job.handler = .ok handler) {d : Delivery}
    {next : JobRecord} (h : (settle runWithTimeout now job).successor d = some next) :
    isDue now next = false := by
  obtain ⟨nextRunAt, hnext, rfl⟩ := Option.map_eq_some_iff.mp h
  rw [← settlement_delivery (m := ⟨job.id, "", job.id⟩) hhandler] at hnext
  obtain ⟨cron, -, hrun⟩ := Delivery.settlement_next hnext
  exact not_due_of_later (lt_nextCronRun hrun)

/-- Records of handlers that exist, under their own identifiers. -/
structure Sound (service : JobService) : Prop where
  keyed : service.repository.Keyed
  supported : ∀ id job, service.repository.jobs.get? id = some job → Supported job.handler

theorem claimable_eq_some_iff {jobId : UUID} : service.claimable now jobId = some job ↔
    service.repository.drainEnabled = false ∧ service.repository.jobs.get? jobId = some job ∧
      isDue now job = true := by
  unfold claimable
  cases service.repository.drainEnabled with
  | true => simp
  | false => simp [Option.filter_eq_some_iff]

theorem processJob_of_not_claimable (h : service.claimable now m.jobId = none) :
    service.processJob (m.delivery runWithTimeout now) = (.ok none, service) := by
  apply processJob_of_ignores
  cases hdrain : service.repository.drainEnabled with
  | true => exact Or.inl hdrain
  | false =>
    refine Or.inr ?_
    cases hget : service.repository.jobs.get? m.jobId with
    | none => exact Or.inl hget
    | some job =>
      refine Or.inr ⟨job, hget, ?_⟩
      by_contra hdue
      push Not at hdue
      obtain ⟨hstatus, hearly⟩ := hdue
      have hpending : job.status.isPending = true := by
        rcases hstatus with h | h <;> rw [h] <;> rfl
      have hearly' : job.nextRunAt ≤ now := hearly
      have hsome : service.claimable now m.jobId = some job :=
        claimable_eq_some_iff.mpr ⟨hdrain, hget, by simp [isDue, hpending, hearly']⟩
      rw [h] at hsome
      cases hsome

/-- A record as a delivery stores it. -/
structure Stored (now : Int) (jobId : UUID) (job : JobRecord) : Prop where
  id : job.id = jobId
  supported : Supported job.handler
  not_due : isDue now job = false

/-- What a delivery of the due job leaves. -/
structure Settled (runWithTimeout : JobHandler → JsonObject → Nat → Outcome) (now : Int)
    (service : JobService) (m : Receipt) (job : JobRecord) (service' : JobService) : Prop where
  jobs : ∀ id, service'.repository.jobs.get? id =
    if id = m.jobId then some (settle runWithTimeout now job).record
    else if id = m.nextJobId then
      (settle runWithTimeout now job).successor (m.delivery runWithTimeout now)
    else service.repository.jobs.get? id
  producer : service'.producer =
    publishing service.producer (settle runWithTimeout now job).deadLetter
  drain : service'.repository.drainEnabled = service.repository.drainEnabled
  record : Stored now m.jobId (settle runWithTimeout now job).record
  successor : ∀ next ∈ (settle runWithTimeout now job).successor (m.delivery runWithTimeout now),
    Stored now m.nextJobId next

theorem Sound.settled (h : Sound service) (hclaim : service.claimable now m.jobId = some job)
    (hfresh : service.repository.jobs.get? m.nextJobId = none) :
    Settled runWithTimeout now service m job
      (service.processJob (m.delivery runWithTimeout now)).2 := by
  obtain ⟨hdrain, hget, hdue⟩ := claimable_eq_some_iff.mp hclaim
  obtain ⟨handler, hhandler⟩ := h.supported _ job hget
  have hid := h.keyed _ job hget
  simp only [isDue, Bool.and_eq_true, decide_eq_true_eq] at hdue
  have hsettles : Settles service (m.delivery runWithTimeout now) (settle runWithTimeout now job)
      (service.processJob (m.delivery runWithTimeout now)).2 := by
    rw [← settlement_delivery (m := m) hhandler]
    exact processJob_claimed hget hid hdrain hdue.1 hdue.2 hhandler
  have hne : m.nextJobId ≠ m.jobId := Dict.ne_of_get?_eq_none hfresh hget
  have hsame : JobRecord.SameRequest job (settle runWithTimeout now job).record :=
    settle_sameRequest hhandler
  have hsupported : Supported (settle runWithTimeout now job).record.handler :=
    hsame.handler ▸ ⟨handler, hhandler⟩
  refine ⟨fun id => hsettles.jobs ▸ settled_apply _ hne hfresh id, hsettles.producer,
    hsettles.drain, ⟨hsame.id.trans hid, hsupported, settle_not_due hhandler⟩, fun next hnext => ?_⟩
  have hnot := successor_not_due hhandler hnext
  obtain ⟨nextRunAt, -, rfl⟩ := Option.map_eq_some_iff.mp hnext
  exact ⟨rfl, hsupported, hnot⟩

namespace Settled

variable (h : Settled runWithTimeout now service m job service')

include h

theorem get?_self : service'.repository.jobs.get? m.jobId =
    some (settle runWithTimeout now job).record := by
  rw [h.jobs, if_pos rfl]

/-- What was not there before is stored by the delivery. -/
theorem get?_cases {id : UUID} {job' : JobRecord}
    (hget : service'.repository.jobs.get? id = some job') :
    service.repository.jobs.get? id = some job' ∨ Stored now id job' := by
  rw [h.jobs] at hget
  split at hget
  · rename_i heq
    cases hget
    exact Or.inr (heq ▸ h.record)
  · split at hget
    · rename_i heq
      exact Or.inr (heq ▸ h.successor job' hget)
    · exact Or.inl hget

theorem sound (hs : Sound service) : Sound service' := by
  constructor
  · intro id job' hget
    rcases h.get?_cases hget with hold | hnew
    · exact hs.keyed id job' hold
    · exact hnew.id
  · intro id job' hget
    rcases h.get?_cases hget with hold | hnew
    · exact hs.supported id job' hold
    · exact hnew.supported

/-- The job is due no more, and everything else is as due as it was. -/
theorem claimable (hfresh : service.repository.jobs.get? m.nextJobId = none) :
    service'.claimable now = Function.update (service.claimable now) m.jobId none := by
  funext id
  unfold JobService.claimable
  rw [Function.update_apply, h.drain, h.jobs]
  by_cases hjob : id = m.jobId
  · rw [if_pos hjob, if_pos hjob, Option.filter_some_neg h.record.not_due, ite_self]
  · rw [if_neg hjob, if_neg hjob]
    by_cases hnext : id = m.nextJobId
    · rw [if_pos hnext, hnext, hfresh]
      cases hsuccessor : (settle runWithTimeout now job).successor (m.delivery runWithTimeout now) with
      | none => rfl
      | some next =>
        rw [Option.filter_some_neg (h.successor next hsuccessor).not_due]
        rfl
    · rw [if_neg hnext]

end Settled

/-! ## What is created -/

/-- `created` lists the records that `service'` has and `service` has not. -/
structure Creates (service service' : JobService) (created : List JobRecord) : Prop where
  nodup : (created.map JobRecord.id).Nodup
  mem_iff : ∀ id job, job ∈ created ∧ job.id = id ↔
    service.repository.jobs.get? id = none ∧ service'.repository.jobs.get? id = some job

theorem Creates.refl (service : JobService) : Creates service service [] := by
  constructor
  · exact List.nodup_nil
  · intro id job
    simp only [List.not_mem_nil, false_and, false_iff, not_and]
    intro hnone
    simp [hnone]

/-- One stretch after the other, when the second keeps what the first created. -/
theorem Creates.trans {created created' : List JobRecord} (h : Creates service service' created)
    (h' : Creates service' service'' created')
    (stays : ∀ id, service'.repository.jobs.get? id = none → service.repository.jobs.get? id = none)
    (kept : ∀ job ∈ created, service''.repository.jobs.get? job.id = some job) :
    Creates service service'' (created ++ created') := by
  constructor
  · rw [List.map_append, List.nodup_append]
    refine ⟨h.nodup, h'.nodup, fun id hid id' hid' heq => ?_⟩
    subst heq
    obtain ⟨job, hjob, rfl⟩ := List.mem_map.mp hid
    obtain ⟨job', hjob', hid⟩ := List.mem_map.mp hid'
    have hsome := ((h.mem_iff job.id job).mp ⟨hjob, rfl⟩).2
    have hnone := ((h'.mem_iff job.id job').mp ⟨hjob', hid⟩).1
    rw [hsome] at hnone
    cases hnone
  · intro id job
    rw [List.mem_append]
    constructor
    · rintro ⟨hjob | hjob, rfl⟩
      · exact ⟨((h.mem_iff job.id job).mp ⟨hjob, rfl⟩).1, kept job hjob⟩
      · obtain ⟨hnone, hsome⟩ := (h'.mem_iff job.id job).mp ⟨hjob, rfl⟩
        exact ⟨stays _ hnone, hsome⟩
    · rintro ⟨hnone, hsome⟩
      cases hget : service'.repository.jobs.get? id with
      | none =>
        obtain ⟨hjob, hid⟩ := (h'.mem_iff id job).mpr ⟨hget, hsome⟩
        exact ⟨Or.inr hjob, hid⟩
      | some first =>
        obtain ⟨hjob, hid⟩ := (h.mem_iff id first).mpr ⟨hnone, hget⟩
        have hkept := kept first hjob
        rw [hid, hsome, Option.some.injEq] at hkept
        exact ⟨Or.inl (hkept ▸ hjob), hkept ▸ hid⟩

/-- The created records, in the order of the table. -/
theorem Creates.perm {created : List JobRecord} (h : Creates service service' created)
    (hkeyed : service'.repository.Keyed) : (createdSince service service').Perm created := by
  have hvalues : service'.repository.jobs.values.Nodup := hkeyed.nodup_values.of_map _
  have hcreated : created.Nodup := h.nodup.of_map _
  unfold createdSince
  rw [List.perm_ext_iff_of_nodup (hvalues.filter _) hcreated]
  intro job
  rw [List.mem_filter, Dict.mem_values_iff]
  have hmem := h.mem_iff job.id job
  simp only [and_true] at hmem
  rw [hmem, Bool.not_eq_true', Dict.contains_eq_false_iff]
  constructor
  · rintro ⟨⟨id, hget⟩, hnone⟩
    exact ⟨hnone, (hkeyed id job hget).symm ▸ hget⟩
  · rintro ⟨hnone, hget⟩
    exact ⟨⟨_, hget⟩, hnone⟩

theorem Settled.creates (h : Settled runWithTimeout now service m job service')
    (hget : service.repository.jobs.get? m.jobId = some job)
    (hfresh : service.repository.jobs.get? m.nextJobId = none) :
    Creates service service' ((settle runWithTimeout now job).successor
      (m.delivery runWithTimeout now)).toList := by
  constructor
  · cases (settle runWithTimeout now job).successor (m.delivery runWithTimeout now) <;> simp
  · intro id job'
    rw [Option.mem_toList, h.jobs]
    constructor
    · rintro ⟨hnext, rfl⟩
      have hid := (h.successor job' hnext).id
      have hne : job'.id ≠ m.jobId := hid ▸ Dict.ne_of_get?_eq_none hfresh hget
      rw [if_neg hne, if_pos hid, hid]
      exact ⟨hfresh, hnext⟩
    · rintro ⟨hnone, hsome⟩
      have hne : id ≠ m.jobId := Dict.ne_of_get?_eq_none hnone hget
      rw [if_neg hne] at hsome
      split at hsome
      · rename_i heq
        exact ⟨hsome, heq ▸ (h.successor job' hsome).id⟩
      · rw [hnone] at hsome
        cases hsome

/-! ## What a batch leaves -/

/-- The successor of a due job, under the given identifier. -/
def successorAs (runWithTimeout : JobHandler → JsonObject → Nat → Outcome) (now : Int)
    (jobId : UUID) (job : JobRecord) : Option JobRecord :=
  (settle runWithTimeout now job).next.map fun nextRunAt =>
    (settle runWithTimeout now job).record.successor jobId nextRunAt now

theorem map_renamed_successor (jobId : UUID) :
    ((settle runWithTimeout now job).successor (m.delivery runWithTimeout now)).map (renamed jobId) =
      successorAs runWithTimeout now jobId job := by
  rw [Settlement.successor, Option.map_map]
  rfl

theorem publishing_of_available {producer : FakeJobProducer} (h : producer.available = true)
    (message : Option DeadLetterMessage) : publishing producer message =
      { producer with deadLetters := producer.deadLetters ++ message.toList } := by
  cases message with
  | none => simp [publishing]
  | some message => simp [publishing, FakeJobProducer.publishDeadLetter, h]

/-- What the messages of these jobs leave of the service, in whatever order they come. -/
structure Processed (runWithTimeout : JobHandler → JsonObject → Nat → Outcome) (now : Int)
    (service : JobService) (jobIds : List UUID) (service' : JobService) : Prop where
  sound : Sound service'
  jobs : ∀ id job, service.repository.jobs.get? id = some job →
    service'.repository.jobs.get? id = some (if id ∈ jobIds ∧ (service.claimable now id).isSome = true
      then (settle runWithTimeout now job).record else job)
  created : ∃ created, Creates service service' created ∧ ∀ jobId, created.map (renamed jobId) =
    (takeOnce (service.claimable now) jobIds).filterMap (successorAs runWithTimeout now jobId)
  producer : service'.producer = { service.producer with
    deadLetters := service.producer.deadLetters ++ (takeOnce (service.claimable now) jobIds).filterMap
      fun job => (settle runWithTimeout now job).deadLetter }

theorem Processed.nil (h : Sound service) :
    Processed runWithTimeout now service [] service := by
  refine ⟨h, fun id job hget => ?_, ⟨[], Creates.refl service, fun _ => rfl⟩, ?_⟩
  · simpa using hget
  · simp [takeOnce]

/-- A message whose job is not due is as good as none. -/
theorem Processed.skip {jobIds : List UUID} {jobId : UUID}
    (h : Processed runWithTimeout now service jobIds service')
    (hclaim : service.claimable now jobId = none) :
    Processed runWithTimeout now service (jobId :: jobIds) service' := by
  refine ⟨h.sound, fun id job hget => ?_, ?_, ?_⟩
  · rw [h.jobs id job hget]
    have hiff : (id ∈ jobIds ∧ (service.claimable now id).isSome = true) ↔
        (id ∈ jobId :: jobIds ∧ (service.claimable now id).isSome = true) := by
      refine and_congr_left fun hsome => ?_
      have hne : id ≠ jobId := by
        rintro rfl
        rw [hclaim] at hsome
        cases hsome
      rw [List.mem_cons, or_iff_right hne]
    simp only [hiff]
  · rw [takeOnce.cons_of_none hclaim]
    exact h.created
  · rw [takeOnce.cons_of_none hclaim]
    exact h.producer

/-- What is not due stays as it is. -/
theorem Processed.kept {jobIds : List UUID} {id : UUID}
    (h : Processed runWithTimeout now service jobIds service')
    (hget : service.repository.jobs.get? id = some job) (hdue : isDue now job = false) :
    service'.repository.jobs.get? id = some job := by
  rw [h.jobs id job hget, if_neg]
  rintro ⟨-, hsome⟩
  obtain ⟨due, hsome⟩ := Option.isSome_iff_exists.mp hsome
  obtain ⟨-, hget', hdue'⟩ := claimable_eq_some_iff.mp hsome
  rw [hget, Option.some.injEq] at hget'
  rw [hget', hdue'] at hdue
  cases hdue

/-- A message whose job is due comes first. -/
theorem Settled.processed (h : Settled runWithTimeout now service m job service')
    (hclaim : service.claimable now m.jobId = some job)
    (hfresh : service.repository.jobs.get? m.nextJobId = none)
    (havailable : service.producer.available = true) {jobIds : List UUID}
    (hrest : Processed runWithTimeout now service' jobIds service'') :
    Processed runWithTimeout now service (m.jobId :: jobIds) service'' := by
  have hget := (claimable_eq_some_iff.mp hclaim).2.1
  have htable := h.claimable hfresh
  have htake := takeOnce.cons_of_some hclaim jobIds
  rw [← htable] at htake
  refine ⟨hrest.sound, fun id job' hget' => ?_, ?_, ?_⟩
  · by_cases hid : id = m.jobId
    · subst hid
      rw [hget, Option.some.injEq] at hget'
      subst hget'
      rw [hrest.kept h.get?_self h.record.not_due, if_pos ⟨List.mem_cons_self, by rw [hclaim]; rfl⟩]
    · have hsame : service'.repository.jobs.get? id = some job' := by
        have hne : id ≠ m.nextJobId := (Dict.ne_of_get?_eq_none hfresh hget').symm
        rw [h.jobs, if_neg hid, if_neg hne, hget']
      rw [hrest.jobs id job' hsame, htable, Function.update_of_ne hid]
      simp only [List.mem_cons, hid, false_or]
  · obtain ⟨created, hcreates, hrenamed⟩ := hrest.created
    refine ⟨_, (h.creates hget hfresh).trans hcreates (fun id hnone => ?_) (fun next hnext => ?_),
      fun jobId => ?_⟩
    · rw [h.jobs] at hnone
      split at hnone
      · cases hnone
      · split at hnone
        · rename_i heq
          rw [heq, hfresh]
        · exact hnone
    · have hstored := (((h.creates hget hfresh).mem_iff _ next).mp ⟨hnext, rfl⟩).2
      exact hrest.kept hstored (h.successor next (Option.mem_toList.mp hnext)).not_due
    · rw [List.map_append, hrenamed, htake, List.filterMap_cons, ← map_renamed_successor (m := m)]
      cases (settle runWithTimeout now job).successor (m.delivery runWithTimeout now) <;> rfl
  · rw [hrest.producer, h.producer, publishing_of_available havailable, htake, List.filterMap_cons]
    cases (settle runWithTimeout now job).deadLetter <;> simp

/-- The identifiers that are drawn for a batch: each is new, and drawn once. -/
structure Drawn (service : JobService) (batch : List Receipt) : Prop where
  fresh : ∀ m ∈ batch, service.repository.jobs.get? m.nextJobId = none
  nodup : (batch.map Receipt.nextJobId).Nodup

/-- What a batch starts from. -/
structure Ready (service : JobService) (batch : List Receipt) : Prop where
  sound : Sound service
  available : service.producer.available = true
  drawn : Drawn service batch

/-- After the first message, the service is ready for the others. -/
theorem Ready.tail {batch : List Receipt} (h : Ready service (m :: batch)) :
    Ready (service.processJob (m.delivery runWithTimeout now)).2 batch := by
  have hfresh := h.drawn.fresh m List.mem_cons_self
  have hrest : Drawn service batch :=
    ⟨fun m' hm' => h.drawn.fresh m' (List.mem_cons_of_mem _ hm'),
      (List.nodup_cons.mp h.drawn.nodup).2⟩
  cases hclaim : service.claimable now m.jobId with
  | none =>
    rw [processJob_of_not_claimable hclaim]
    exact ⟨h.sound, h.available, hrest⟩
  | some job =>
    have hsettled : Settled runWithTimeout now service m job
        (service.processJob (m.delivery runWithTimeout now)).2 := h.sound.settled hclaim hfresh
    refine ⟨hsettled.sound h.sound, ?_, fun m' hm' => ?_, hrest.nodup⟩
    · rw [hsettled.producer, publishing_of_available h.available]
      exact h.available
    · have hfresh' := hrest.fresh m' hm'
      have hjob : m'.nextJobId ≠ m.jobId :=
        Dict.ne_of_get?_eq_none hfresh' (claimable_eq_some_iff.mp hclaim).2.1
      have hnext : m'.nextJobId ≠ m.nextJobId := by
        intro heq
        exact (List.nodup_cons.mp h.drawn.nodup).1 (heq ▸ List.mem_map_of_mem hm')
      rw [hsettled.jobs, if_neg hjob, if_neg hnext, hfresh']

/-- **What a batch does is said by the jobs it names.** -/
theorem processBatch_processed (batch : List Receipt) (h : Ready service batch) :
    Processed runWithTimeout now service (batch.map Receipt.jobId)
      (processBatch runWithTimeout now service batch) := by
  induction batch generalizing service with
  | nil => exact .nil h.sound
  | cons m rest ih =>
    have hrest : Processed runWithTimeout now (service.processJob (m.delivery runWithTimeout now)).2
        (rest.map Receipt.jobId) (processBatch runWithTimeout now service (m :: rest)) := ih h.tail
    cases hclaim : service.claimable now m.jobId with
    | none =>
      rw [processJob_of_not_claimable hclaim] at hrest
      exact hrest.skip hclaim
    | some job =>
      have hfresh := h.drawn.fresh m List.mem_cons_self
      exact (h.sound.settled hclaim hfresh).processed hclaim hfresh h.available hrest

/-- No message of the batch raises, so a worker goes through all of it. -/
theorem processBatch_returns (batch : List Receipt) (h : Ready service batch) :
    ∀ reply ∈ (Lockstep.run processJob service (batch.map (Receipt.delivery runWithTimeout now))).1,
      ∃ returned, reply = .ok returned := by
  induction batch generalizing service with
  | nil => simp [Lockstep.run]
  | cons m rest ih =>
    intro reply hreply
    rcases List.mem_cons.mp hreply with rfl | hreply
    · exact processJob_returns h.sound.keyed h.sound.supported h.available
    · exact ih h.tail reply hreply

/-- Two services that come from one and differ in nothing but identifiers drawn since, the
    order of the tables and the order of the dead letters. -/
structure SameOutcome (service service₁ service₂ : JobService) : Prop where
  jobs : ∀ id, service.repository.jobs.contains id = true →
    service₁.repository.jobs.get? id = service₂.repository.jobs.get? id
  successors : ∀ jobId, ((createdSince service service₁).map (renamed jobId)).Perm
    ((createdSince service service₂).map (renamed jobId))
  deadLetters : service₁.producer.deadLetters.Perm service₂.producer.deadLetters

theorem Processed.sameOutcome {jobIds₁ jobIds₂ : List UUID} {service₁ service₂ : JobService}
    (h₁ : Processed runWithTimeout now service jobIds₁ service₁)
    (h₂ : Processed runWithTimeout now service jobIds₂ service₂) (hperm : jobIds₁.Perm jobIds₂) :
    SameOutcome service service₁ service₂ := by
  have htaken := takeOnce.perm_of_perm (service.claimable now) hperm
  refine ⟨fun id hid => ?_, fun jobId => ?_, ?_⟩
  · obtain ⟨job, hget⟩ := Option.isSome_iff_exists.mp hid
    rw [h₁.jobs id job hget, h₂.jobs id job hget]
    simp only [hperm.mem_iff]
  · obtain ⟨created₁, hcreates₁, hrenamed₁⟩ := h₁.created
    obtain ⟨created₂, hcreates₂, hrenamed₂⟩ := h₂.created
    have hfirst := (hcreates₁.perm h₁.sound.keyed).map (renamed jobId)
    have hsecond := (hcreates₂.perm h₂.sound.keyed).map (renamed jobId)
    rw [hrenamed₁] at hfirst
    rw [hrenamed₂] at hsecond
    exact hfirst.trans ((htaken.filterMap _).trans hsecond.symm)
  · rw [h₁.producer, h₂.producer]
    exact (htaken.filterMap _).append_left _

end JobService

namespace State

open Transition JobService

variable {settings : Settings} {ok : State → Label → Prop} {s : State}

theorem sound_of_reachable (h : (service settings).Reachable ok s) : s.toService.Sound := by
  have hinv := inv_of_reachable h
  exact ⟨hinv.consistent.keyed, fun id job hget => hinv.getHandler hget⟩

/-- **The order of a batch does not matter.** -/
theorem batch_order (h : (service settings).Reachable ok s) (havailable : s.producer.available = true)
    (runWithTimeout : JobHandler → JsonObject → Nat → Outcome) (now : Int)
    {batch₁ batch₂ : List Receipt}
    (hperm : (batch₁.map Receipt.jobId).Perm (batch₂.map Receipt.jobId))
    (hdrawn₁ : Drawn s.toService batch₁) (hdrawn₂ : Drawn s.toService batch₂) :
    SameOutcome s.toService (processBatch runWithTimeout now s.toService batch₁)
      (processBatch runWithTimeout now s.toService batch₂) := by
  have hsound := sound_of_reachable h
  have h₁ : Processed runWithTimeout now s.toService (batch₁.map Receipt.jobId) _ :=
    processBatch_processed batch₁ ⟨hsound, havailable, hdrawn₁⟩
  have h₂ : Processed runWithTimeout now s.toService (batch₂.map Receipt.jobId) _ :=
    processBatch_processed batch₂ ⟨hsound, havailable, hdrawn₂⟩
  exact h₁.sameOutcome h₂ hperm

/-- Two submitted jobs, in both orders. -/
theorem batch_order_of_submitted : ∃ s : State, s.repository.jobs.contains Sample.jobId = true ∧
    s.repository.jobs.contains Sample.nextJobId = true ∧ SameOutcome s.toService
      (processBatch (fun _ _ _ => .value []) 0 s.toService [Sample.receipt, Sample.nextReceipt])
      (processBatch (fun _ _ _ => .value []) 0 s.toService [Sample.nextReceipt, Sample.receipt]) := by
  have hrun : ∃ s, System.replay (step {}) initial
      [⟨0, .submit 0 Sample.request Sample.jobId⟩, ⟨0, .submit 1 Sample.request Sample.nextJobId⟩] =
        some s ∧ s.repository.jobs.contains Sample.jobId = true ∧
      s.repository.jobs.contains Sample.nextJobId = true ∧ s.producer.available = true ∧
      s.repository.jobs.get? Sample.receipt.nextJobId = none ∧
      s.repository.jobs.get? Sample.nextReceipt.nextJobId = none :=
    ⟨_, rfl, rfl, rfl, rfl, rfl, rfl⟩
  obtain ⟨s, hs, hjob, hnext, havailable, hfresh, hfresh'⟩ := hrun
  have hreach : (service {}).Reachable Transition.Any s :=
    ⟨initial, rfl, System.Steps.of_replay hs fun _ _ _ => trivial⟩
  have hne : Sample.receipt.nextJobId ≠ Sample.nextReceipt.nextJobId := by decide
  exact ⟨s, hjob, hnext, batch_order hreach havailable _ 0 (List.Perm.swap ..)
    ⟨by simp [toService, hfresh, hfresh'], by simp [hne]⟩
    ⟨by simp [toService, hfresh, hfresh'], by simp [hne.symm]⟩⟩

end State

end JobPipeline
