import JobPipeline.Service.Batches

/-!
# Rounds of the scheduler

A round is one `publish_due_jobs` and the deliveries that a worker makes until the next one, with
whatever handlers and clocks. An attempt of a job uses up one of a bounded number, so the backlog,
the attempts that all waiting jobs have left, goes down with every delivery that is not ignored, and
a round in which a job is due has one. It follows that the service is done after as many rounds as
the backlog counts.
-/

set_option autoImplicit false

namespace JobPipeline

/-- The attempts that a waiting job can still make. -/
def JobRecord.attemptsLeft (job : JobRecord) : Nat :=
  if job.status.isPending then job.maxRetries - job.attemptCount + 1 else 0

namespace JobService

open InMemoryJobRepository

/-- The attempts that all jobs can still make. -/
def backlog (service : JobService) : Nat :=
  (service.repository.jobs.values.map JobRecord.attemptsLeft).sum

/-- One `publish_due_jobs` at `now`, and the deliveries before the next. -/
structure Round where
  now : Int
  deliveries : List Delivery
  /-- No failure is stamped later. -/
  ended : Int

/-- The service after `publish_due_jobs`. -/
def published (service : JobService) (limit : Nat) (now : Int) : JobService :=
  { service with producer := (publishDueJobs service.repository service.producer limit now).2 }

def round (service : JobService) (limit : Nat) (r : Round) : JobService :=
  (Lockstep.run processJob (service.published limit r.now) r.deliveries).2

def rounds (service : JobService) (limit : Nat) : List Round → JobService
  | [] => service
  | r :: rest => (service.round limit r).rounds limit rest

/-- A worker gets every message that the scheduler has just published, and nothing of the round is
    stamped before or after it. -/
structure Serves (service : JobService) (limit : Nat) (r : Round) : Prop where
  delivered : ∀ messages,
    (service.published limit r.now).producer.published = service.producer.published ++ messages →
      ∀ message ∈ messages, ∃ d ∈ r.deliveries, d.jobId = message.jobId
  claimedAt : ∀ d ∈ r.deliveries, r.now ≤ d.claimedAt
  failedAt : ∀ d ∈ r.deliveries, d.failedAt ≤ r.ended
  ended : r.now ≤ r.ended

/-- The first round begins at `start` or later, each of the others at least as long after the one
    before it as the longest backoff. -/
def Scheduled (limit : Nat) : Int → JobService → List Round → Prop
  | _, _, [] => True
  | start, service, r :: rest => start ≤ r.now ∧ service.Serves limit r ∧
      Scheduled limit (r.ended + seconds 300) (service.round limit r) rest

/-- What the rounds are made of: no job recurs, so none is added. -/
structure OneShot (service : JobService) : Prop where
  sound : Sound service
  drain : service.repository.drainEnabled = false
  available : service.producer.available = true
  once : ∀ id job, service.repository.jobs.get? id = some job → job.recurringCron = none

variable {service service' : JobService} {d : Delivery} {job job' : JobRecord} {limit : Nat}
  {start : Int} {r : Round} {handler : JobHandler}

/-! ## A delivery -/

theorem attemptsLeft_pos (h : job.status.isPending = true) : 0 < job.attemptsLeft := by
  unfold JobRecord.attemptsLeft
  rw [if_pos h]
  exact Nat.succ_pos _

/-- A failure uses up the attempt that was made, or all. -/
theorem attemptsLeft_fail (claimed : JobRecord) (hpending : job.status.isPending = true)
    (hmax : claimed.maxRetries = job.maxRetries)
    (hcount : claimed.attemptCount = job.attemptCount + 1) (error : String) (backoff now : Int) :
    (claimed.fail error backoff now).attemptsLeft < job.attemptsLeft := by
  unfold JobRecord.attemptsLeft
  rw [if_pos hpending, JobRecord.fail_status]
  cases hexhausted : claimed.exhausted with
  | true =>
    simp only [if_true]
    exact Nat.succ_pos _
  | false =>
    simp only [JobRecord.exhausted, decide_eq_false_iff_not, not_lt, hmax, hcount] at hexhausted
    show claimed.maxRetries - claimed.attemptCount + 1 < job.maxRetries - job.attemptCount + 1
    omega

/-- **An attempt** leaves fewer, and the next one within the longest backoff. -/
theorem attemptsLeft_settlement (hpending : job.status.isPending = true) (d : Delivery)
    (handler : JobHandler) (workerId : String) (now : Int) :
    (d.settlement handler (job.claim workerId now)).record.attemptsLeft < job.attemptsLeft ∧
      ((d.settlement handler (job.claim workerId now)).record.status.isPending = true →
        (d.settlement handler (job.claim workerId now)).record.nextRunAt ≤
          d.failedAt + seconds 300) := by
  have hbackoff : ∀ n, d.failedAt + seconds (backoffSeconds n) ≤ d.failedAt + seconds 300 := by
    intro n
    have hle : backoffSeconds n ≤ 300 := min_le_right _ _
    unfold seconds
    omega
  rcases d.settlement_cases handler (job.claim workerId now) with
    ⟨result, h⟩ | ⟨-, ⟨error, h⟩ | ⟨result, error, h⟩⟩
  · rw [h]
    refine ⟨attemptsLeft_pos hpending, fun hstatus => ?_⟩
    cases hstatus
  · rw [h]
    exact ⟨attemptsLeft_fail (job.claim workerId now) hpending rfl rfl error _ _,
      fun _ => hbackoff _⟩
  · rw [h]
    exact ⟨attemptsLeft_fail ((job.claim workerId now).succeed result d.succeededAt)
      hpending rfl rfl error _ _, fun _ => hbackoff _⟩

/-- What a delivery that is not ignored does where no job recurs. -/
structure Uses (service : JobService) (d : Delivery) (service' : JobService) (job job' : JobRecord) :
    Prop where
  before : service.repository.jobs.get? d.jobId = some job
  after : service'.repository.jobs.get? = Function.update service.repository.jobs.get? d.jobId
    (some job')
  left : job'.attemptsLeft < job.attemptsLeft
  soon : job'.status.isPending = true → job'.nextRunAt ≤ d.failedAt + seconds 300
  settled : job'.status ≠ .running
  request : JobRecord.SameRequest job job'

theorem OneShot.uses (h : OneShot service) (hclaim : ¬ service.Ignores d) :
    OneShot (service.processJob d).2 ∧
      ∃ job job', Uses service d (service.processJob d).2 job job' := by
  obtain ⟨-, job, hget, hpending, hdue⟩ := claimable_of_not_ignores hclaim
  obtain ⟨handler, hhandler⟩ := h.sound.supported _ job hget
  have hsettles := processJob_claimed hget (h.sound.keyed _ job hget) h.drain hpending hdue hhandler
  obtain ⟨hleft, hsoon⟩ := attemptsLeft_settlement hpending d handler d.workerId d.claimedAt
  have hsame := (JobRecord.sameRequest_claim job d.workerId d.claimedAt).trans
    (d.settlement_sameRequest handler (job.claim d.workerId d.claimedAt))
  obtain ⟨-, -, hsettled, -, -⟩ :=
    d.settlement_settled handler (job.claim d.workerId d.claimedAt)
  -- A job that does not recur has no successor.
  have hnext : (d.settlement handler (job.claim d.workerId d.claimedAt)).next = none := by
    cases hnext : (d.settlement handler (job.claim d.workerId d.claimedAt)).next with
    | none => rfl
    | some nextRunAt =>
      obtain ⟨cron, hcron, -⟩ := Delivery.settlement_next hnext
      have honce : job.recurringCron = none := h.once _ job hget
      cases honce.symm.trans hcron
  generalize d.settlement handler (job.claim d.workerId d.claimedAt) = s at *
  have hafter : (service.processJob d).2.repository.jobs.get? =
      Function.update service.repository.jobs.get? d.jobId (some s.record) := by
    rw [hsettles.jobs]
    simp only [settled, Settlement.successor, hnext, Option.map_none]
  have hstored : ∀ id job', (service.processJob d).2.repository.jobs.get? id = some job' →
      ∃ job, service.repository.jobs.get? id = some job ∧ JobRecord.SameRequest job job' := by
    intro id job' hget'
    rw [hafter, Function.update_apply] at hget'
    split at hget'
    · rename_i heq
      cases hget'
      exact ⟨job, heq ▸ hget, hsame⟩
    · exact ⟨job', hget', JobRecord.SameRequest.refl job'⟩
  refine ⟨⟨⟨?_, ?_⟩, hsettles.drain.trans h.drain, ?_, ?_⟩, job, s.record, hget, hafter, hleft,
    hsoon, hsettled, hsame⟩
  · intro id job' hget'
    obtain ⟨job, hget, hreq⟩ := hstored id job' hget'
    exact hreq.id.trans (h.sound.keyed id job hget)
  · intro id job' hget'
    obtain ⟨job, hget, hreq⟩ := hstored id job' hget'
    rw [hreq.handler]
    exact h.sound.supported id job hget
  · rw [hsettles.producer, publishing_of_available h.available]
    exact h.available
  · intro id job' hget'
    obtain ⟨job, hget, hreq⟩ := hstored id job' hget'
    exact hreq.recurringCron.trans (h.once id job hget)

theorem Uses.backlog (h : Uses service d service' job job') : service'.backlog < service.backlog := by
  have hsum := Dict.sum_values_update JobRecord.attemptsLeft h.before h.after
  have hleft := h.left
  unfold JobService.backlog
  omega

/-! ## Deliveries -/

/-- What deliveries that end by `last` can do to the jobs. -/
structure Worked (last : Int) (service service' : JobService) : Prop where
  backlog : service'.backlog ≤ service.backlog
  kept : ∀ id job, service.repository.jobs.get? id = some job →
    ∃ job', service'.repository.jobs.get? id = some job' ∧ JobRecord.SameRequest job job' ∧
      (job.status ≠ .running → job'.status ≠ .running)
  stored : ∀ id job', service'.repository.jobs.get? id = some job' →
    service.repository.jobs.get? id = some job' ∨ service.repository.jobs.contains id = true ∧
      (job'.status.isPending = true → job'.nextRunAt ≤ last + seconds 300)

theorem Worked.refl (last : Int) (service : JobService) : Worked last service service := by
  constructor
  · exact le_refl _
  · intro id job hget
    exact ⟨job, hget, JobRecord.SameRequest.refl job, fun hne => hne⟩
  · intro id job' hget
    exact Or.inl hget

theorem Worked.trans {last : Int} {service'' : JobService} (h : Worked last service service')
    (h' : Worked last service' service'') : Worked last service service'' := by
  constructor
  · exact h'.backlog.trans h.backlog
  · intro id job hget
    obtain ⟨job', hget', hsame, hrunning⟩ := h.kept id job hget
    obtain ⟨job'', hget'', hsame', hrunning'⟩ := h'.kept id job' hget'
    exact ⟨job'', hget'', hsame.trans hsame', fun hne => hrunning' (hrunning hne)⟩
  · intro id job'' hget''
    rcases h'.stored id job'' hget'' with hget' | ⟨hcontains, hsoon⟩
    · exact h.stored id job'' hget'
    · refine Or.inr ⟨?_, hsoon⟩
      obtain ⟨job', hget'⟩ := Option.isSome_iff_exists.mp hcontains
      rcases h.stored id job' hget' with hget | ⟨hcontains, -⟩
      · simp [Dict.contains, hget]
      · exact hcontains

theorem Uses.worked {last : Int} (h : Uses service d service' job job') (hlast : d.failedAt ≤ last) :
    Worked last service service' := by
  constructor
  · exact le_of_lt h.backlog
  · intro id other hget
    rw [h.after, Function.update_apply]
    split
    · rename_i heq
      rw [heq, h.before] at hget
      cases hget
      exact ⟨job', rfl, h.request, fun _ => h.settled⟩
    · exact ⟨other, hget, JobRecord.SameRequest.refl other, fun hne => hne⟩
  · intro id other hget
    rw [h.after, Function.update_apply] at hget
    split at hget
    · rename_i heq
      cases hget
      refine Or.inr ⟨?_, fun hpending => (h.soon hpending).trans ?_⟩
      · simp [Dict.contains, heq, h.before]
      · omega
    · exact Or.inl hget

/-- **A run of deliveries**: the backlog never grows, and it falls when one that is not ignored
    is among them. -/
theorem OneShot.deliveries {last : Int} (h : OneShot service) {ds : List Delivery}
    (hlast : ∀ d ∈ ds, d.failedAt ≤ last) :
    OneShot (Lockstep.run processJob service ds).2 ∧
      Worked last service (Lockstep.run processJob service ds).2 ∧
      ((∃ d ∈ ds, ¬ service.Ignores d) →
        (Lockstep.run processJob service ds).2.backlog < service.backlog) := by
  induction ds generalizing service with
  | nil =>
    refine ⟨h, Worked.refl last service, ?_⟩
    intro hclaim
    obtain ⟨d, hd, -⟩ := hclaim
    cases hd
  | cons d rest ih =>
    have hrest : ∀ d' ∈ rest, d'.failedAt ≤ last :=
      fun d' hd' => hlast d' (List.mem_cons_of_mem _ hd')
    show OneShot (Lockstep.run processJob (service.processJob d).2 rest).2 ∧
      Worked last service (Lockstep.run processJob (service.processJob d).2 rest).2 ∧
      ((∃ d' ∈ d :: rest, ¬ service.Ignores d') →
        (Lockstep.run processJob (service.processJob d).2 rest).2.backlog < service.backlog)
    by_cases hignores : service.Ignores d
    · -- Then the one that is not ignored comes later.
      rw [processJob_of_ignores hignores]
      obtain ⟨hshot, hworked, hfalls⟩ := ih h hrest
      refine ⟨hshot, hworked, ?_⟩
      intro hclaim
      obtain ⟨d', hd', hclaim⟩ := hclaim
      rcases List.mem_cons.mp hd' with heq | hd'
      · subst heq
        exact absurd hignores hclaim
      · exact hfalls ⟨d', hd', hclaim⟩
    · -- This one is served, and what comes after cannot undo it.
      obtain ⟨hshot, job, job', huses⟩ := h.uses hignores
      obtain ⟨hshot', hworked, -⟩ := ih hshot hrest
      have hfirst : Worked last service (service.processJob d).2 :=
        huses.worked (hlast d List.mem_cons_self)
      refine ⟨hshot', hfirst.trans hworked, ?_⟩
      intro _
      exact lt_of_le_of_lt hworked.backlog huses.backlog

/-! ## Rounds -/

theorem OneShot.published (h : OneShot service) (limit : Nat) (now : Int) :
    OneShot (service.published limit now) := by
  refine ⟨⟨h.sound.keyed, h.sound.supported⟩, h.drain, ?_, h.once⟩
  unfold JobService.published
  rw [publishDueJobs_of_available h.available]
  exact h.available

/-- What the scheduler publishes are the messages of `due_jobs`. -/
theorem published_iff (h : service.producer.available = true) {now : Int}
    {messages : List JobMessage} :
    (service.published limit now).producer.published = service.producer.published ++ messages ↔
      messages = (service.repository.dueJobs limit now).map JobRecord.message := by
  unfold JobService.published
  rw [publishDueJobs_of_available h]
  exact (List.append_cancel_left_eq ..).to_iff.trans eq_comm

theorem Serves.dueJobs (hserves : service.Serves limit r) (h : OneShot service)
    (hdue : job ∈ service.repository.dueJobs limit r.now) : ∃ d ∈ r.deliveries, d.jobId = job.id :=
  hserves.delivered _ ((published_iff h.available).mpr rfl) job.message (List.mem_map_of_mem hdue)

/-- When a job is due, the first one that is published is delivered, and not ignored. -/
theorem Serves.claims (hserves : service.Serves limit r) (h : OneShot service) (hlimit : 0 < limit)
    {id : UUID} (hget : service.repository.jobs.get? id = some job)
    (hpending : job.status.isPending = true) (hdue : job.nextRunAt ≤ r.now) :
    ∃ d ∈ r.deliveries, ¬ (service.published limit r.now).Ignores d := by
  have hmem : job ∈ service.repository.allDue r.now := by
    rw [mem_allDue, Dict.mem_values_iff]
    exact ⟨⟨id, hget⟩, by simp [isDue, hpending, hdue]⟩
  -- The limit is not 0, so something is published.
  have hsome : ∃ first, first ∈ service.repository.dueJobs limit r.now := by
    apply List.exists_mem_of_length_pos
    rw [dueJobs_eq_take, List.length_take]
    exact lt_min hlimit (List.length_pos_of_mem hmem)
  obtain ⟨first, hfirst⟩ := hsome
  obtain ⟨d, hd, hid⟩ := hserves.dueJobs h hfirst
  refine ⟨d, hd, ?_⟩
  have hall : first ∈ service.repository.allDue r.now := List.mem_of_mem_take hfirst
  have hstored := h.sound.keyed.get?_of_mem hall
  have hisDue := (mem_allDue.mp hall).2
  simp only [isDue, Bool.and_eq_true, decide_eq_true_eq] at hisDue
  intro hignores
  rcases hignores with hdrain | hnone | ⟨other, hother, hnot⟩
  · have hoff : service.repository.drainEnabled = false := h.drain
    cases hoff.symm.trans hdrain
  · have hnone : service.repository.jobs.get? d.jobId = none := hnone
    rw [hid, hstored] at hnone
    cases hnone
  · have hother : service.repository.jobs.get? d.jobId = some other := hother
    rw [hid, hstored] at hother
    cases hother
    -- It waits and is due, and nothing was delivered before it.
    rcases hnot with hstatus | hearly
    · exact hstatus (JobRecord.pending_cases hisDue.1)
    · have hclaimed := hserves.claimedAt d hd
      have hnext := hisDue.2
      omega

/-- Waiting jobs are due at this time. -/
def DueBy (service : JobService) (start : Int) : Prop :=
  ∀ id job, service.repository.jobs.get? id = some job → job.status.isPending = true →
    job.nextRunAt ≤ start

theorem backlog_pos_iff : 0 < service.backlog ↔ ∃ id job,
    service.repository.jobs.get? id = some job ∧ job.status.isPending = true := by
  unfold backlog
  rw [List.sum_pos_iff_exists_pos_nat]
  constructor
  · intro h
    obtain ⟨left, hleft, hpos⟩ := h
    obtain ⟨job, hjob, rfl⟩ := List.mem_map.mp hleft
    obtain ⟨id, hget⟩ := Dict.mem_values_iff.mp hjob
    refine ⟨id, job, hget, ?_⟩
    by_contra hpending
    simp [JobRecord.attemptsLeft, hpending] at hpos
  · intro h
    obtain ⟨id, job, hget, hpending⟩ := h
    exact ⟨job.attemptsLeft, List.mem_map_of_mem (Dict.mem_values_iff.mpr ⟨id, hget⟩),
      attemptsLeft_pos hpending⟩

/-- **A round** takes one from the backlog, if there is one to take. -/
theorem OneShot.round (h : OneShot service) (hlimit : 0 < limit) (hserves : service.Serves limit r)
    (hdue : service.DueBy start) (hstart : start ≤ r.now) :
    OneShot (service.round limit r) ∧ Worked r.ended service (service.round limit r) ∧
      (service.round limit r).backlog ≤ service.backlog - 1 := by
  obtain ⟨hshot, hworked, hfalls⟩ := (h.published limit r.now).deliveries hserves.failedAt
  have hworked : Worked r.ended service (service.round limit r) :=
    ⟨hworked.backlog, hworked.kept, hworked.stored⟩
  refine ⟨hshot, hworked, ?_⟩
  rcases Nat.eq_zero_or_pos service.backlog with hzero | hpos
  · exact hworked.backlog.trans (by omega)
  · obtain ⟨id, job, hget, hpending⟩ := backlog_pos_iff.mp hpos
    have hlt : (service.round limit r).backlog < service.backlog :=
      hfalls (hserves.claims h hlimit hget hpending ((hdue id job hget hpending).trans hstart))
    omega

/-- After a round and the longest backoff, what still waits is due. -/
theorem DueBy.round (h : service.DueBy start) (hserves : service.Serves limit r)
    (hstart : start ≤ r.now) (hworked : Worked r.ended service service') :
    service'.DueBy (r.ended + seconds 300) := by
  intro id job hget hpending
  rcases hworked.stored id job hget with hbefore | ⟨-, hsoon⟩
  · have hdue := h id job hbefore hpending
    have hended := hserves.ended
    unfold seconds
    omega
  · exact hsoon hpending

/-- The jobs are those that were there, and none of them has begun to run. -/
structure Lasts (service service' : JobService) : Prop where
  kept : ∀ id job, service.repository.jobs.get? id = some job →
    ∃ job', service'.repository.jobs.get? id = some job' ∧ JobRecord.SameRequest job job' ∧
      (job.status ≠ .running → job'.status ≠ .running)
  stored : ∀ id job', service'.repository.jobs.get? id = some job' →
    service.repository.jobs.contains id = true

theorem Worked.lasts {last : Int} {service'' : JobService} (h : Worked last service service')
    (h' : Lasts service' service'') : Lasts service service'' := by
  constructor
  · intro id job hget
    obtain ⟨job', hget', hsame, hrunning⟩ := h.kept id job hget
    obtain ⟨job'', hget'', hsame', hrunning'⟩ := h'.kept id job' hget'
    exact ⟨job'', hget'', hsame.trans hsame', fun hne => hrunning' (hrunning hne)⟩
  · intro id job'' hget''
    obtain ⟨job', hget'⟩ := Option.isSome_iff_exists.mp (h'.stored id job'' hget'')
    rcases h.stored id job' hget' with hget | ⟨hcontains, -⟩
    · simp [Dict.contains, hget]
    · exact hcontains

/-- **A run of rounds** takes one from the backlog for each of them. -/
theorem OneShot.rounds (h : OneShot service) (hlimit : 0 < limit) (hdue : service.DueBy start)
    {rs : List Round} (hrounds : Scheduled limit start service rs) :
    (service.rounds limit rs).backlog ≤ service.backlog - rs.length ∧
      Lasts service (service.rounds limit rs) := by
  induction rs generalizing service start with
  | nil =>
    refine ⟨le_refl _, ?_, ?_⟩
    · intro id job hget
      exact ⟨job, hget, JobRecord.SameRequest.refl job, fun hne => hne⟩
    · intro id job hget
      simp [Dict.contains, show service.repository.jobs.get? id = some job from hget]
  | cons r rest ih =>
    obtain ⟨hstart, hserves, hrest⟩ := hrounds
    obtain ⟨hshot, hworked, hfalls⟩ := h.round hlimit hserves hdue hstart
    obtain ⟨hbacklog, hlasts⟩ := ih hshot (hdue.round hserves hstart hworked) hrest
    refine ⟨?_, hworked.lasts hlasts⟩
    show ((service.round limit r).rounds limit rest).backlog ≤ service.backlog - (rest.length + 1)
    omega

end JobService

namespace State

open Transition JobService

variable {settings : Settings} {ok : State → Label → Prop} {s : State}

/-- **The backlog is worked off.** With drain off, Kafka reachable and no job that recurs, rounds a
    longest backoff apart, as many as there are attempts left, leave every job that no lost worker
    holds finished, whatever the handlers do and however few jobs a round publishes. -/
theorem backlog_clears (h : (service settings).Reachable ok s)
    (hdrain : s.repository.drainEnabled = false) (havailable : s.producer.available = true)
    (honce : ∀ id job, s.repository.jobs.get? id = some job → job.recurringCron = none)
    {limit : Nat} (hlimit : 0 < limit) {start : Int} (hdue : s.toService.DueBy start)
    {rs : List Round} (hrounds : Scheduled limit start s.toService rs)
    (hlength : s.toService.backlog ≤ rs.length) :
    (∀ id job, s.repository.jobs.get? id = some job → ∃ job',
      (s.toService.rounds limit rs).repository.jobs.get? id = some job' ∧
        JobRecord.SameRequest job job' ∧
        (job.status ≠ .running → job'.status.isTerminal = true)) ∧
    ∀ id job', (s.toService.rounds limit rs).repository.jobs.get? id = some job' →
      s.repository.jobs.contains id = true := by
  have hshot : OneShot s.toService := ⟨sound_of_reachable h, hdrain, havailable, honce⟩
  obtain ⟨hbacklog, hlasts⟩ := hshot.rounds hlimit hdue hrounds
  have hzero : (s.toService.rounds limit rs).backlog = 0 := by omega
  refine ⟨?_, hlasts.stored⟩
  intro id job hget
  obtain ⟨job', hget', hsame, hrunning⟩ := hlasts.kept id job hget
  refine ⟨job', hget', hsame, fun hne => ?_⟩
  have hwaits : ¬ job'.status.isPending = true := by
    intro hpending
    exact absurd (backlog_pos_iff.mpr ⟨id, job', hget', hpending⟩) (by omega)
  have hruns := hrunning hne
  cases hstatus : job'.status with
  | queued | failed =>
    rw [hstatus] at hwaits
    exact absurd rfl hwaits
  | running => exact absurd hstatus hruns
  | succeeded | deadLettered | cancelled => rfl

/-- A round with one delivery, of a handler that fails. -/
def Sample.failingRound (now : Int) : Round :=
  ⟨now, [{ Sample.delivery with
    claimedAt := now
    failedAt := now
    runWithTimeout := fun _ _ _ => .raised (.transient "handler failed") }], now⟩

/-- It serves the service when the job is the only one that is due. -/
theorem serves_failingRound {service : JobService} {job : JobRecord} {now : Int}
    (havailable : service.producer.available = true)
    (hdue : service.repository.dueJobs 1 now = [job]) (hid : job.id = Sample.jobId) :
    service.Serves 1 (Sample.failingRound now) := by
  refine ⟨?_, by simp [Sample.failingRound], by simp [Sample.failingRound], le_refl now⟩
  intro messages hpublished message hmessage
  have hdue : service.repository.dueJobs 1 (Sample.failingRound now).now = [job] := hdue
  rw [(published_iff havailable).mp hpublished, hdue, List.map_singleton,
    List.mem_singleton] at hmessage
  exact ⟨_, List.mem_singleton.mpr rfl, by rw [hmessage]; exact hid.symm⟩

/-- A job of two attempts, both of which fail: two rounds, and it is dead-lettered. -/
theorem backlog_clears_of_submitted : ∃ (s : State) (job job' : JobRecord),
    (service {}).Reachable Any s ∧ s.repository.jobs.get? Sample.jobId = some job ∧
      job.status = .queued ∧ s.toService.backlog = 2 ∧
      (s.toService.rounds 1 [Sample.failingRound 0,
        Sample.failingRound (seconds 300)]).repository.jobs.get? Sample.jobId = some job' ∧
      job'.status.isTerminal = true := by
  have hrun : ∃ s job failed, System.replay (step {}) initial
      [⟨0, .submit 0 Sample.request.retriedOnce Sample.jobId⟩] = some s ∧
      s.repository.jobs.entries = [(Sample.jobId, job)] ∧ job.status = .queued ∧
      job.id = Sample.jobId ∧ job.recurringCron = none ∧ job.nextRunAt = 0 ∧
      s.repository.drainEnabled = false ∧ s.producer.available = true ∧
      s.repository.dueJobs 1 0 = [job] ∧ s.toService.backlog = 2 ∧
      (s.toService.round 1 (Sample.failingRound 0)).producer.available = true ∧
      (s.toService.round 1 (Sample.failingRound 0)).repository.dueJobs 1 (seconds 300) = [failed] ∧
      failed.id = Sample.jobId :=
    ⟨_, _, _, rfl, rfl, rfl, rfl, rfl, rfl, rfl, rfl, rfl, rfl, rfl, rfl, rfl⟩
  obtain ⟨s, job, failed, hs, hentries, hqueued, hid, hcron, hnext, hdrain, havailable, hdue, hbacklog,
    havailable', hdue', hid'⟩ := hrun
  have hreach : (service {}).Reachable Any s :=
    ⟨initial, rfl, System.Steps.of_replay hs fun _ _ _ => trivial⟩
  have honly : ∀ id job', s.repository.jobs.get? id = some job' → job' = job := by
    intro id job' hget
    rw [← Dict.mem_entries_iff, hentries] at hget
    exact (Prod.mk.inj (List.mem_singleton.mp hget)).2
  have hget : s.repository.jobs.get? Sample.jobId = some job :=
    Dict.mem_entries_iff.mp (by rw [hentries]; exact List.mem_singleton.mpr rfl)
  have hdueBy : s.toService.DueBy 0 := fun id job' hget _ => by rw [honly id job' hget, hnext]
  have hrounds : Scheduled 1 0 s.toService
      [Sample.failingRound 0, Sample.failingRound (seconds 300)] :=
    ⟨le_refl 0, serves_failingRound havailable hdue hid, by decide,
      serves_failingRound havailable' hdue' hid', trivial⟩
  obtain ⟨hclears, -⟩ := backlog_clears hreach hdrain havailable
    (fun id job' hget => by rw [honly id job' hget, hcron]) Nat.one_pos hdueBy hrounds
    (le_of_eq hbacklog)
  obtain ⟨job', hget', -, hterminal⟩ := hclears _ job hget
  exact ⟨s, job, job', hreach, hget, hqueued, hbacklog, hget', hterminal (by rw [hqueued]; simp)⟩

end State

end JobPipeline
