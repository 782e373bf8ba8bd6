import Mathlib.Algebra.BigOperators.Group.List.Lemmas
import JobPipeline.Lib.Lockstep
import JobPipeline.Queue.Producer
import JobPipeline.Sql.Operations

/-!
# What is due

`claim_job`, `due_jobs` and `queue_depth` each say for themselves which jobs are due.
`due_agrees` says that they say the same, of every repository that calls of its methods lead to,
and its field `republished` what that means for a job whose message was lost.
-/

set_option autoImplicit false

namespace JobPipeline

namespace InMemoryJobRepository

/-- A sequence of method calls leads from the empty repository to this one. -/
def Reached (r : InMemoryJobRepository) : Prop := ∃ calls, (Lockstep.run perform empty calls).2 = r

/-- Every record stands under its own identifier. -/
def Keyed (r : InMemoryJobRepository) : Prop := ∀ id job, r.jobs.get? id = some job → job.id = id

variable {r : InMemoryJobRepository} {now : Int} {job : JobRecord}

theorem Keyed.insert (h : r.Keyed) (job : JobRecord) :
    Keyed { r with jobs := r.jobs.insert job.id job } := by
  intro id job' hget
  rw [Dict.get?_insert] at hget
  split at hget
  · rename_i heq
    cases hget
    exact heq.symm
  · exact h id job' hget

/-- A record rewritten under its identifier. -/
theorem Keyed.rewrite (h : r.Keyed) {id : UUID} {job' : JobRecord} (hget : r.jobs.get? id = some job)
    (hid : job'.id = job.id) : Keyed { r with jobs := r.jobs.insert id job' } := by
  have heq : job'.id = id := hid.trans (h id job hget)
  subst heq
  exact h.insert job'

theorem Keyed.remember (h : r.Keyed) (key : Option String) (id : UUID) :
    (r.remember key id).Keyed := by
  intro id' job hget
  rw [remember_jobs] at hget
  exact h id' job hget

/-- **Every method keeps the records under their identifiers.** -/
theorem Keyed.perform (h : r.Keyed) (call : MethodCall) : (r.perform call).2.Keyed := by
  unfold InMemoryJobRepository.perform
  split
  · rename_i request _
    unfold createJob
    split
    · exact h
    · exact h
    · exact (h.insert (.submitted request call.drawn call.now)).remember _ _
  · exact h
  · exact h
  · exact h
  · exact h
  · rename_i jobId workerId _
    rcases r.claimJob_cases jobId workerId call.now with hclaim | ⟨job, hget, -, -, hclaim⟩
    · rw [hclaim]
      exact h
    · rw [hclaim]
      exact h.rewrite hget rfl
  · rename_i jobId result _
    cases hget : r.jobs.get? jobId with
    | none => simpa [markSucceeded, getJob, hget, settle] using h
    | some job =>
      rw [markSucceeded_of_stored result call.now hget]
      exact h.rewrite hget rfl
  · rename_i job _ _
    rcases r.createNextRecurringJob_cases job call.now call.drawn with
      ⟨-, hnext⟩ | ⟨cron, -, -, ⟨e, -, hnext⟩ | ⟨nextRunAt, -, hnext⟩⟩
    · rw [hnext]
      exact h
    · rw [hnext]
      exact h
    · rw [hnext]
      exact h.insert (job.successor call.drawn nextRunAt call.now)
  · rename_i jobId error backoff _
    cases hget : r.jobs.get? jobId with
    | none => simpa [markFailedAttempt, getJob, hget, settle] using h
    | some job =>
      rw [markFailedAttempt_of_stored error backoff call.now hget]
      exact h.rewrite hget rfl
  · rename_i jobId _
    cases hcancel : r.cancelJob jobId call.now with
    | error e => exact h
    | ok result =>
      obtain ⟨job, r'⟩ := result
      obtain ⟨old, hget, -, rfl, rfl⟩ := cancelJob_ok hcancel
      exact h.rewrite hget rfl
  · exact h
  · exact h

theorem Reached.keyed (h : r.Reached) : r.Keyed := by
  obtain ⟨calls, rfl⟩ := h
  apply Lockstep.run_invariant (I := Keyed) fun s call hs => hs.perform call
  intro id job hget
  simp [empty] at hget

/-! ## The jobs that are due -/

/-- All that are due, in the order of `due_jobs`. -/
def allDue (r : InMemoryJobRepository) (now : Int) : List JobRecord :=
  (r.jobs.values.filter (isDue now)).insertionSort duePrecedes

theorem dueJobs_eq_take (r : InMemoryJobRepository) (limit : Nat) (now : Int) :
    r.dueJobs limit now = (r.allDue now).take limit := rfl

theorem mem_allDue : job ∈ r.allDue now ↔ job ∈ r.jobs.values ∧ isDue now job = true := by
  rw [allDue, List.mem_insertionSort, List.mem_filter]

theorem length_allDue (r : InMemoryJobRepository) (now : Int) :
    (r.allDue now).length = r.jobs.values.countP (isDue now) := by
  rw [allDue, List.length_insertionSort, List.countP_eq_length_filter]

/-- With drain off, the claimable jobs are those that are due. -/
theorem Keyed.claimable_iff (h : r.Keyed) (hdrain : r.drainEnabled = false) (jobId : UUID)
    (workerId : String) : (r.claimJob jobId workerId now).1.isSome = true ↔
      ∃ job ∈ r.allDue now, job.id = jobId := by
  rcases r.claimJob_cases jobId workerId now with hclaim | ⟨job, hget, hpending, hdue, hclaim⟩
  · rw [hclaim]
    simp only [Option.isSome_none, Bool.false_eq_true, false_iff, not_exists, not_and]
    intro job hmem hid
    rw [mem_allDue, Dict.mem_values_iff] at hmem
    obtain ⟨⟨id, hget⟩, hdue⟩ := hmem
    have hkey : id = jobId := (h id job hget).symm.trans hid
    subst hkey
    simp only [isDue, Bool.and_eq_true, decide_eq_true_eq] at hdue
    simp [claimJob, hdrain, hget, hdue.1, not_lt.mpr hdue.2] at hclaim
  · rw [hclaim]
    simp only [Option.isSome_some, true_iff]
    exact ⟨job,
      mem_allDue.mpr ⟨Dict.mem_values_iff.mpr ⟨jobId, hget⟩, by simp [isDue, hpending, hdue]⟩,
      h jobId job hget⟩

/-- No two records have one identifier. -/
theorem Keyed.nodup_values (h : r.Keyed) : (r.jobs.values.map JobRecord.id).Nodup := by
  have hkeys : r.jobs.values.map JobRecord.id = r.jobs.entries.map Prod.fst := by
    rw [Dict.values, List.map_map]
    refine List.map_congr_left fun entry hmem => ?_
    obtain ⟨id, job⟩ := entry
    exact h id job (Dict.mem_entries_iff.mp hmem)
  rw [hkeys]
  exact r.jobs.nodupKeys

theorem Keyed.nodup_allDue (h : r.Keyed) (now : Int) : ((r.allDue now).map JobRecord.id).Nodup := by
  have hperm : (r.allDue now).Perm (r.jobs.values.filter (isDue now)) := List.perm_insertionSort _ _
  rw [(hperm.map JobRecord.id).nodup_iff]
  exact h.nodup_values.sublist (List.Sublist.map _ List.filter_sublist)

theorem pairwise_allDue (r : InMemoryJobRepository) (now : Int) :
    (r.allDue now).Pairwise duePrecedes := List.pairwise_insertionSort _ _

theorem length_allDue_le (r : InMemoryJobRepository) (now : Int) :
    (r.allDue now).length ≤ r.jobs.values.length := by
  rw [length_allDue]
  exact List.countP_le_length

theorem dueJobs_of_large (r : InMemoryJobRepository) {limit : Nat} (now : Int)
    (h : r.jobs.values.length ≤ limit) : r.dueJobs limit now = r.allDue now := by
  rw [dueJobs_eq_take, List.take_of_length_le (le_trans (length_allDue_le r now) h)]

/-! ## The depth of the queue -/

theorem queueDepth_due (r : InMemoryJobRepository) (now : Int) :
    (r.queueDepth now).due = (r.allDue now).length := by
  rw [length_allDue]
  unfold queueDepth
  dsimp only
  rw [List.countP_filter]
  refine List.countP_congr fun job _ => ?_
  simp [isDue, and_comm]

theorem queueDepth_queued (r : InMemoryJobRepository) (now : Int) :
    (r.queueDepth now).queued = r.jobs.values.countP fun job => job.status.isPending :=
  List.countP_eq_length_filter.symm

/-- The counts add up to the pending jobs. -/
theorem sum_byPriority (r : InMemoryJobRepository) (now : Int) :
    ((r.queueDepth now).byPriority.map Prod.snd).sum = (r.queueDepth now).queued := by
  have hperm := (List.perm_insertionSort (fun a b : Nat × Nat => a.1 < b.1 ∨ a.1 = b.1 ∧ a.2 ≤ b.2)
    _).trans (countPriorities_perm (r.jobs.values.filter fun job => job.status.isPending))
  have hsum := (hperm.map Prod.snd).sum_eq
  rw [List.map_map] at hsum
  have hlength := List.sum_map_count_dedup_eq_length
    ((r.jobs.values.filter fun job => job.status.isPending).map JobRecord.priority)
  rw [List.length_map] at hlength
  exact hsum.trans hlength

/-- The priorities are listed once each, in increasing order. -/
theorem pairwise_byPriority (r : InMemoryJobRepository) (now : Int) :
    ((r.queueDepth now).byPriority.map Prod.fst).Pairwise (· < ·) := by
  have hperm : (r.queueDepth now).byPriority.Perm _ :=
    List.perm_insertionSort (fun a b : Nat × Nat => a.1 < b.1 ∨ a.1 = b.1 ∧ a.2 ≤ b.2) _
  have htotal : Std.Total fun a b : Nat × Nat => a.1 < b.1 ∨ a.1 = b.1 ∧ a.2 ≤ b.2 :=
    ⟨fun a b => by omega⟩
  have htrans : IsTrans (Nat × Nat) fun a b => a.1 < b.1 ∨ a.1 = b.1 ∧ a.2 ≤ b.2 :=
    ⟨fun a b c hab hbc => by omega⟩
  have hsorted : (r.queueDepth now).byPriority.Pairwise _ := List.pairwise_insertionSort
    (fun a b : Nat × Nat => a.1 < b.1 ∨ a.1 = b.1 ∧ a.2 ≤ b.2) _
  have hnodup : ((r.queueDepth now).byPriority.map Prod.fst).Nodup :=
    (hperm.map Prod.fst).nodup_iff.mpr (countPriorities _).nodupKeys
  rw [List.Nodup, List.pairwise_map] at hnodup
  rw [List.pairwise_map]
  refine (hsorted.and hnodup).imp fun {a b} hab => ?_
  omega

/-! ## What `publish_due_jobs` reaches -/

end InMemoryJobRepository

/-- The loop of `publish_due_jobs`, and the producer after it. -/
def publishJobs (p : FakeJobProducer) : List JobRecord → Except Exc Unit × FakeJobProducer
  | [] => (.ok (), p)
  | job :: rest =>
    match p.publishJob job.message with
    | .error e => (.error e, p)
    | .ok p' => publishJobs p' rest

/-- `publish_due_jobs`. -/
def publishDueJobs (r : InMemoryJobRepository) (p : FakeJobProducer) (limit : Nat) (now : Int) :
    Except Exc Nat × FakeJobProducer :=
  let jobs := r.dueJobs limit now
  match publishJobs p jobs with
  | (.error e, p') => (.error e, p')
  | (.ok _, p') => (.ok jobs.length, p')

theorem publishJobs_of_available {p : FakeJobProducer} (h : p.available = true)
    (jobs : List JobRecord) :
    publishJobs p jobs =
      (.ok (), { p with published := p.published ++ jobs.map JobRecord.message }) := by
  induction jobs generalizing p with
  | nil => simp [publishJobs]
  | cons job rest ih =>
    have hpublish : p.publishJob job.message =
        .ok { p with published := p.published ++ [job.message] } := by
      simp [FakeJobProducer.publishJob, h]
    rw [publishJobs, hpublish]
    refine (ih (p := { p with published := p.published ++ [job.message] }) h).trans ?_
    simp

theorem publishDueJobs_of_available {p : FakeJobProducer} (h : p.available = true)
    (r : InMemoryJobRepository) (limit : Nat) (now : Int) :
    publishDueJobs r p limit now = (.ok (r.dueJobs limit now).length,
      { p with published := p.published ++ (r.dueJobs limit now).map JobRecord.message }) := by
  simp only [publishDueJobs, publishJobs_of_available h]

namespace InMemoryJobRepository

variable {r : InMemoryJobRepository} {now : Int} {job : JobRecord}

/-- A due job beyond the limit has that many other due jobs before it. -/
theorem Keyed.precedes_of_not_mem (h : r.Keyed) {limit : Nat} (hdue : job ∈ r.allDue now)
    (hbeyond : job ∉ r.dueJobs limit now) :
    limit ≤ ((r.allDue now).filter fun other => other.id ≠ job.id ∧ duePrecedes other job).length := by
  -- The jobs of the batch all come before the one that was left out.
  have hsplit : r.dueJobs limit now ++ (r.allDue now).drop limit = r.allDue now :=
    List.take_append_drop _ _
  have hrest : job ∈ (r.allDue now).drop limit := by
    rw [← hsplit, List.mem_append] at hdue
    exact hdue.resolve_left hbeyond
  have hbefore : ∀ other ∈ r.dueJobs limit now, other.id ≠ job.id ∧ duePrecedes other job := by
    intro other hother
    have hsorted := pairwise_allDue r now
    have hnodup := h.nodup_allDue now
    rw [← hsplit] at hsorted hnodup
    rw [List.map_append] at hnodup
    refine ⟨fun hid => ?_, (List.pairwise_append.mp hsorted).2.2 other hother job hrest⟩
    exact (List.nodup_append.mp hnodup).2.2 _ (List.mem_map_of_mem hother) _
      (List.mem_map_of_mem hrest) hid
  have hlength : (r.dueJobs limit now).length = limit := by
    have hpos := List.length_pos_of_mem hrest
    rw [List.length_drop] at hpos
    rw [dueJobs_eq_take, List.length_take]
    omega
  calc limit = ((r.dueJobs limit now).filter fun other =>
        other.id ≠ job.id ∧ duePrecedes other job).length := by
        rw [List.filter_eq_self.mpr fun other hother => by simpa using hbefore other hother, hlength]
    _ ≤ _ := List.Sublist.length_le (List.Sublist.filter _ (List.take_sublist limit _))

/-- What the scheduler, the workers and the operators see of the jobs that are due. -/
structure DueAgrees (r : InMemoryJobRepository) (now : Int) : Prop where
  /-- A limit that lets all jobs pass gives the jobs that can be claimed. -/
  claimable : ∀ limit, r.jobs.values.length ≤ limit → ∀ jobId workerId,
    (r.claimJob jobId workerId now).1.isSome = true ↔ ∃ job ∈ r.dueJobs limit now, job.id = jobId
  first : ∀ limit large, r.jobs.values.length ≤ large →
    r.dueJobs limit now = (r.dueJobs large now).take limit
  ordered : ∀ limit, (r.dueJobs limit now).Pairwise duePrecedes
  once : ∀ limit, ((r.dueJobs limit now).map JobRecord.id).Nodup
  due : ∀ limit, r.jobs.values.length ≤ limit →
    (r.queueDepth now).due = (r.dueJobs limit now).length
  queued : (r.queueDepth now).queued =
    r.jobs.values.countP fun job => job.status = .queued ∨ job.status = .failed
  byPriority : ((r.queueDepth now).byPriority.map Prod.snd).sum = (r.queueDepth now).queued
  increasing : ((r.queueDepth now).byPriority.map Prod.fst).Pairwise (· < ·)
  due_le : (r.queueDepth now).due ≤ (r.queueDepth now).queued
  /-- `publish_due_jobs` publishes the message of a claimable job, unless `limit` others precede
      it. -/
  republished : ∀ (p : FakeJobProducer) (limit : Nat), p.available = true →
    ∃ messages, publishDueJobs r p limit now =
        (.ok messages.length, { p with published := p.published ++ messages }) ∧
      ∀ jobId job, r.jobs.get? jobId = some job →
        (∀ workerId, (r.claimJob jobId workerId now).1.isSome = true) →
        job.message ∈ messages ∨ ∃ others : List JobRecord, limit ≤ others.length ∧
          (others.map JobRecord.id).Nodup ∧ ∀ other ∈ others, other.id ≠ jobId ∧
            r.jobs.get? other.id = some other ∧ duePrecedes other job ∧
            ∀ workerId, (r.claimJob other.id workerId now).1.isSome = true

theorem Keyed.get?_of_mem (h : r.Keyed) (hmem : job ∈ r.allDue now) :
    r.jobs.get? job.id = some job := by
  obtain ⟨id, hget⟩ := Dict.mem_values_iff.mp (mem_allDue.mp hmem).1
  rwa [h id job hget]

/-- A claimable job is published, or outranked by as many claimable jobs as the limit allows. -/
theorem Keyed.published_or_outranked (h : r.Keyed) (hdrain : r.drainEnabled = false) (limit : Nat)
    {jobId : UUID} (hget : r.jobs.get? jobId = some job)
    (hclaim : ∀ workerId, (r.claimJob jobId workerId now).1.isSome = true) :
    job ∈ r.dueJobs limit now ∨ ∃ others : List JobRecord, limit ≤ others.length ∧
      (others.map JobRecord.id).Nodup ∧ ∀ other ∈ others, other.id ≠ jobId ∧
        r.jobs.get? other.id = some other ∧ duePrecedes other job ∧
        ∀ workerId, (r.claimJob other.id workerId now).1.isSome = true := by
  obtain ⟨job', hdue, hid⟩ := (h.claimable_iff hdrain jobId "").mp (hclaim "")
  have hsame : job' = job := by
    have hget' := h.get?_of_mem hdue
    rw [hid, hget, Option.some.injEq] at hget'
    exact hget'.symm
  subst hsame
  by_cases hmem : job' ∈ r.dueJobs limit now
  · exact Or.inl hmem
  · refine Or.inr ⟨_, h.precedes_of_not_mem hdue hmem, ?_, fun other hother => ?_⟩
    · exact (h.nodup_allDue now).sublist (List.Sublist.map _ List.filter_sublist)
    · rw [List.mem_filter] at hother
      obtain ⟨hother, hbefore⟩ := hother
      simp only [decide_eq_true_eq] at hbefore
      exact ⟨hid ▸ hbefore.1, h.get?_of_mem hother, hbefore.2, fun workerId =>
        (h.claimable_iff hdrain other.id workerId).mpr ⟨other, hother, rfl⟩⟩

/-- **Scheduler, claim and depth agree on what is due.** -/
theorem due_agrees (h : r.Reached) (hdrain : r.drainEnabled = false) (now : Int) :
    r.DueAgrees now := by
  have hkeyed := h.keyed
  constructor
  · intro limit hlimit jobId workerId
    rw [dueJobs_of_large r now hlimit]
    exact hkeyed.claimable_iff hdrain jobId workerId
  · intro limit large hlarge
    rw [dueJobs_of_large r now hlarge, dueJobs_eq_take]
  · exact fun limit => (pairwise_allDue r now).sublist (List.take_sublist _ _)
  · exact fun limit => (hkeyed.nodup_allDue now).sublist (List.Sublist.map _ (List.take_sublist _ _))
  · intro limit hlimit
    rw [dueJobs_of_large r now hlimit]
    exact queueDepth_due r now
  · rw [queueDepth_queued]
    refine List.countP_congr fun job _ => ?_
    cases job.status <;> simp [JobStatus.isPending]
  · exact sum_byPriority r now
  · exact pairwise_byPriority r now
  · rw [queueDepth_due, queueDepth_queued, length_allDue]
    refine List.countP_mono_left fun job _ hdue => ?_
    simp only [isDue, Bool.and_eq_true] at hdue
    exact hdue.1
  · intro p limit havailable
    refine ⟨(r.dueJobs limit now).map JobRecord.message, ?_, fun jobId job hget hclaim => ?_⟩
    · rw [publishDueJobs_of_available havailable, List.length_map]
    · rcases hkeyed.published_or_outranked hdrain limit hget hclaim with hmem | hothers
      · exact Or.inl (List.mem_map_of_mem hmem)
      · exact Or.inr hothers

/-- A repository with two jobs, the later one of higher priority. -/
theorem due_agrees_of_submitted : ∃ r : InMemoryJobRepository,
    (r.dueJobs 2 0).map JobRecord.id = [Sample.nextJobId, Sample.jobId] ∧ r.DueAgrees 0 := by
  have hreached : ∃ r : InMemoryJobRepository, r.Reached ∧ r.drainEnabled = false ∧
      (r.dueJobs 2 0).map JobRecord.id = [Sample.nextJobId, Sample.jobId] :=
    ⟨_, ⟨[⟨.createJob Sample.request, 0, Sample.jobId, []⟩,
      ⟨.createJob Sample.request.urgent, 0, Sample.nextJobId, []⟩], rfl⟩, rfl, rfl⟩
  obtain ⟨r, hr, hdrain, hjobs⟩ := hreached
  exact ⟨r, hjobs, due_agrees hr hdrain 0⟩

end InMemoryJobRepository

end JobPipeline
