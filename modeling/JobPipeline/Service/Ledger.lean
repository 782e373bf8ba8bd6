import JobPipeline.Service.Machine

/-!
# The job ledger

What the service is for, without its program points: a table of job records, and for every call
the record it is answerable for, if any. A call holds a job from its claim until the job needs
no further step of that call; nobody else touches a held job. The moves are the life of a job:

```
create ─▶ QUEUED ─claim─▶ RUNNING ─succeed─▶ SUCCEEDED (held) ─close / schedule─▶ SUCCEEDED
                  ▲          └─fail─▶ FAILED / DEAD_LETTERED  ◀─revert─┘
              FAILED ─claim─▶ RUNNING          QUEUED, FAILED ─cancel─▶ CANCELLED
```

`revert` is the one move that leaves a terminal status: the successor of a recurring job could
not be scheduled, and the attempt that had succeeded is recorded as failed. It is a move of its
own so that a run can be said to be without it.

`Consistent` is the invariant of the table and the holders; `Step` preserves it.
-/

set_option autoImplicit false

namespace JobPipeline

/-! ## Well-formed records -/

/-- What every stored record satisfies by itself. -/
structure JobRecord.WellFormed (r : JobRecord) : Prop where
  supported : Supported r.handler
  cron : ∀ e ∈ r.recurringCron, validateCronExpression e = .ok e
  lockedBy : r.lockedBy.isSome = true ↔ r.status = .running
  lockedAt : r.lockedAt.isSome = true ↔ r.status = .running
  processedAt : r.processedAt.isSome = true ↔ r.status.isTerminal = true
  queued : r.status = .queued → r.attemptCount = 0
  failed : r.status = .failed → 1 ≤ r.attemptCount ∧ r.attemptCount ≤ r.maxRetries
  deadLettered : r.status = .deadLettered → r.attemptCount = r.maxRetries + 1
  attempted : r.status = .running ∨ r.status = .succeeded →
    1 ≤ r.attemptCount ∧ r.attemptCount ≤ r.maxRetries + 1

namespace JobRecord

theorem wellFormed_submitted {request : JobCreate} (h : Supported request.handler)
    (jobId : UUID) (now : Int) : (submitted request jobId now).WellFormed := by
  constructor <;> simp [submitted, JobStatus.isTerminal]
  · exact h
  · exact fun e he => request.cron_valid (by simp [he])

theorem WellFormed.successor {r : JobRecord} (h : r.WellFormed) (nextJobId : UUID)
    (nextRunAt now : Int) : (r.successor nextJobId nextRunAt now).WellFormed := by
  constructor <;> simp [JobRecord.successor, JobStatus.isTerminal]
  · exact h.supported
  · exact fun e he => h.cron e (by simp [he])

/-- The empty text is no cron expression. -/
theorem WellFormed.cron_ne_empty {r : JobRecord} (h : r.WellFormed) {e : String}
    (he : e ∈ r.recurringCron) : e ≠ "" := by
  intro heq
  subst heq
  have hempty : validateCronExpression "" = .error (.service (badRequestError
    "Cron expression must have five fields" [("cron", .str "")])) := rfl
  exact absurd ((h.cron "" he).symm.trans hempty) (by simp)

theorem pending_cases {r : JobRecord} (h : r.status.isPending = true) :
    r.status = .queued ∨ r.status = .failed := by
  cases hs : r.status <;> simp_all [JobStatus.isPending]

theorem WellFormed.claim {r : JobRecord} (h : r.WellFormed) (hp : r.status.isPending = true)
    (workerId : String) (now : Int) : (r.claim workerId now).WellFormed := by
  have hcount : r.attemptCount ≤ r.maxRetries := by
    rcases pending_cases hp with hs | hs
    · have := h.queued hs; omega
    · exact (h.failed hs).2
  have hproc : r.processedAt = none := by
    have := h.processedAt
    rcases pending_cases hp with hs | hs <;>
      simpa [hs, JobStatus.isTerminal] using this
  constructor <;> simp [JobRecord.claim, JobStatus.isTerminal, hproc]
  · exact h.supported
  · exact fun e he => h.cron e (by simp [he])
  · exact hcount

theorem WellFormed.succeed {r : JobRecord} (h : r.WellFormed) (hs : r.status = .running)
    (result : JsonObject) (now : Int) : (r.succeed result now).WellFormed := by
  constructor <;> simp [JobRecord.succeed, JobStatus.isTerminal]
  · exact h.supported
  · exact fun e he => h.cron e (by simp [he])
  · exact h.attempted (Or.inl hs)

theorem WellFormed.fail {r : JobRecord} (h : r.WellFormed)
    (hs : r.status = .running ∨ r.status = .succeeded) (error : String) (backoff now : Int) :
    (r.fail error backoff now).WellFormed := by
  have hcount := h.attempted hs
  by_cases hex : r.maxRetries < r.attemptCount
  · constructor <;> simp [JobRecord.fail, JobRecord.exhausted, JobStatus.isTerminal, hex]
    · exact h.supported
    · exact fun e he => h.cron e (by simp [he])
    · omega
  · constructor <;> simp [JobRecord.fail, JobRecord.exhausted, JobStatus.isTerminal, hex]
    · exact h.supported
    · exact fun e he => h.cron e (by simp [he])
    · omega

theorem WellFormed.cancel {r : JobRecord} (h : r.WellFormed) (hp : r.status.isPending = true)
    (now : Int) : (r.cancel now).WellFormed := by
  have hlock : r.lockedBy = none ∧ r.lockedAt = none := by
    have h₁ := h.lockedBy
    have h₂ := h.lockedAt
    rcases pending_cases hp with hs | hs <;> simp_all
  constructor <;> simp [JobRecord.cancel, JobStatus.isTerminal, hlock]
  · exact h.supported
  · exact fun e he => h.cron e (by simp [he])

end JobRecord

/-! ## The moves -/

structure Ledger where
  jobs : UUID → Option JobRecord
  held : CallId → Option JobRecord
  clock : Int
  history : List Event

inductive Move where
  | tick | create | claim | succeed | close | schedule | fail | revert | cancel
deriving DecidableEq

namespace Ledger

def initial : Ledger := ⟨fun _ => none, fun _ => none, 0, []⟩

def put (l : Ledger) (job : JobRecord) : Ledger :=
  { l with jobs := Function.update l.jobs job.id (some job) }

def hold (l : Ledger) (c : CallId) (held : Option JobRecord) : Ledger :=
  { l with held := Function.update l.held c held }

def note (l : Ledger) (now : Int) (event : Event) : Ledger :=
  { l with clock := now, history := event :: l.history }

@[simp] theorem put_held (l : Ledger) (job : JobRecord) : (l.put job).held = l.held := rfl
@[simp] theorem hold_jobs (l : Ledger) (c : CallId) (x : Option JobRecord) :
    (l.hold c x).jobs = l.jobs := rfl
@[simp] theorem note_jobs (l : Ledger) (now : Int) (e : Event) : (l.note now e).jobs = l.jobs := rfl
@[simp] theorem note_held (l : Ledger) (now : Int) (e : Event) : (l.note now e).held = l.held := rfl
@[simp] theorem note_history (l : Ledger) (now : Int) (e : Event) :
    (l.note now e).history = e :: l.history := rfl

theorem put_jobs (l : Ledger) (job : JobRecord) (id : UUID) :
    (l.put job).jobs id = if id = job.id then some job else l.jobs id := by
  simp only [put, Function.update_apply]

theorem hold_held (l : Ledger) (c c' : CallId) (x : Option JobRecord) :
    (l.hold c x).held c' = if c' = c then x else l.held c' := by
  simp only [hold, Function.update_apply]

inductive Step : Ledger → Move → Ledger → Prop where
  | tick {l : Ledger} (now : Int) (time : l.clock ≤ now) : Step l .tick { l with clock := now }
  | create {l : Ledger} (now : Int) (request : JobCreate) (jobId : UUID) (time : l.clock ≤ now)
      (fresh : l.jobs jobId = none) (supported : Supported request.handler) :
      Step l .create ((l.put (.submitted request jobId now)).note now
        (.created (.submitted request jobId now)))
  | claim {l : Ledger} (now : Int) (c : CallId) (r : JobRecord) (workerId : String)
      (time : l.clock ≤ now) (stored : l.jobs r.id = some r)
      (pending : r.status.isPending = true) (due : r.nextRunAt ≤ now) (free : l.held c = none) :
      Step l .claim (((l.put (r.claim workerId now)).hold c (some (r.claim workerId now))).note now
        (.claimed (r.claim workerId now)))
  | succeed {l : Ledger} (now : Int) (c : CallId) (r : JobRecord) (result : JsonObject)
      (time : l.clock ≤ now) (held : l.held c = some r) (status : r.status = .running) :
      Step l .succeed (((l.put (r.succeed result now)).hold c (some (r.succeed result now))).note now
        (.succeeded (r.succeed result now)))
  /-- A job that does not recur needs no successor. -/
  | close {l : Ledger} (now : Int) (c : CallId) (r : JobRecord) (time : l.clock ≤ now)
      (held : l.held c = some r) (status : r.status = .succeeded)
      (once : ∀ cron ∈ r.recurringCron, cron = "") :
      Step l .close { l.hold c none with clock := now }
  | schedule {l : Ledger} (now : Int) (c : CallId) (r : JobRecord) (cron : String) (nextJobId : UUID)
      (nextRunAt : Int) (time : l.clock ≤ now) (held : l.held c = some r)
      (status : r.status = .succeeded) (recurs : r.recurringCron = some cron)
      (run : nextCronRun cron now = .ok nextRunAt) (fresh : l.jobs nextJobId = none) :
      Step l .schedule (((l.put (r.successor nextJobId nextRunAt now)).hold c none).note now
        (.scheduled r (r.successor nextJobId nextRunAt now)))
  | fail {l : Ledger} (now : Int) (c : CallId) (r : JobRecord) (error : String)
      (time : l.clock ≤ now) (held : l.held c = some r) (status : r.status = .running) :
      Step l .fail (((l.put (r.fail error (backoffSeconds r.attemptCount) now)).hold c none).note now
        (.failed (r.fail error (backoffSeconds r.attemptCount) now)))
  | revert {l : Ledger} (now : Int) (c : CallId) (r : JobRecord) (error : String)
      (time : l.clock ≤ now) (held : l.held c = some r) (status : r.status = .succeeded) :
      Step l .revert (((l.put (r.fail error (backoffSeconds r.attemptCount) now)).hold c none).note
        now (.failed (r.fail error (backoffSeconds r.attemptCount) now)))
  | cancel {l : Ledger} (now : Int) (r : JobRecord) (time : l.clock ≤ now)
      (stored : l.jobs r.id = some r) (pending : r.status.isPending = true) :
      Step l .cancel ((l.put (r.cancel now)).note now (.cancelled (r.cancel now)))

/-- Time may pass before a move. -/
theorem Step.after {l l' : Ledger} {m : Move} {now : Int} (h : Step { l with clock := now } m l')
    (time : l.clock ≤ now) : Step l m l' := by
  cases h with
  | tick now' h => exact .tick (l := l) now' (le_trans time h)
  | create now' request jobId h fresh supported =>
    exact .create (l := l) now' request jobId (le_trans time h) fresh supported
  | claim now' c r workerId h stored pending due free =>
    exact .claim (l := l) now' c r workerId (le_trans time h) stored pending due free
  | succeed now' c r result h held status =>
    exact .succeed (l := l) now' c r result (le_trans time h) held status
  | close now' c r h held status once =>
    exact .close (l := l) now' c r (le_trans time h) held status once
  | schedule now' c r cron nextJobId nextRunAt h held status recurs run fresh =>
    exact .schedule (l := l) now' c r cron nextJobId nextRunAt (le_trans time h) held status recurs
      run fresh
  | fail now' c r error h held status =>
    exact .fail (l := l) now' c r error (le_trans time h) held status
  | revert now' c r error h held status =>
    exact .revert (l := l) now' c r error (le_trans time h) held status
  | cancel now' r h stored pending => exact .cancel (l := l) now' r (le_trans time h) stored pending

/-- The ledger as a transition system. -/
def system : Transition.System Ledger Move := ⟨(· = initial), Step⟩

/-! ## The invariant -/

/-- The table and the holders agree. -/
structure Consistent (l : Ledger) : Prop where
  keyed : ∀ id r, l.jobs id = some r → r.id = id
  wellFormed : ∀ id r, l.jobs id = some r → r.WellFormed
  /-- What a call holds is what is stored, and is running or just succeeded. -/
  held_stored : ∀ c r, l.held c = some r →
    l.jobs r.id = some r ∧ (r.status = .running ∨ r.status = .succeeded)
  held_unique : ∀ c c' r r', l.held c = some r → l.held c' = some r' → r.id = r'.id → c = c'
  running_held : ∀ id r, l.jobs id = some r → r.status = .running → ∃ c, l.held c = some r

variable {l l' : Ledger}

theorem consistent_initial : initial.Consistent := by
  constructor <;> simp [initial]

/-- A pending or dead job has no holder. -/
theorem Consistent.not_held (h : l.Consistent) {r : JobRecord} (stored : l.jobs r.id = some r)
    (hr : r.status ≠ .running) (hs : r.status ≠ .succeeded) {c : CallId} {x : JobRecord}
    (hx : l.held c = some x) : x.id ≠ r.id := by
  intro hid
  obtain ⟨hstored, hstatus⟩ := h.held_stored c x hx
  rw [hid, stored, Option.some.injEq] at hstored
  subst hstored
  rcases hstatus with hstatus | hstatus
  · exact hr hstatus
  · exact hs hstatus

theorem Consistent.not_held_of_pending (h : l.Consistent) {r : JobRecord}
    (stored : l.jobs r.id = some r) (pending : r.status.isPending = true) {c : CallId}
    {x : JobRecord} (hx : l.held c = some x) : x.id ≠ r.id := by
  rcases JobRecord.pending_cases pending with hs | hs <;>
    exact h.not_held stored (by simp [hs]) (by simp [hs]) hx

/-- **Adding a record** under a fresh identifier. -/
theorem Consistent.add (h : l.Consistent) {r : JobRecord} (fresh : l.jobs r.id = none)
    (hwf : r.WellFormed) (hstatus : r.status ≠ .running) : (l.put r).Consistent := by
  have hne : ∀ id x, l.jobs id = some x → id ≠ r.id := by
    rintro id x hx rfl; rw [fresh] at hx; cases hx
  constructor
  · intro id x hx
    by_cases hid : id = r.id
    · subst hid; simp only [put, Function.update_self, Option.some.injEq] at hx; rw [← hx]
    · exact h.keyed id x (by simpa [put, hid] using hx)
  · intro id x hx
    by_cases hid : id = r.id
    · subst hid; simp only [put, Function.update_self, Option.some.injEq] at hx; exact hx ▸ hwf
    · exact h.wellFormed id x (by simpa [put, hid] using hx)
  · intro c x hx
    obtain ⟨hstored, hst⟩ := h.held_stored c x hx
    exact ⟨by simpa [put, hne _ _ hstored] using hstored, hst⟩
  · exact h.held_unique
  · intro id x hx hrun
    by_cases hid : id = r.id
    · subst hid
      simp only [put, Function.update_self, Option.some.injEq] at hx
      exact absurd (hx ▸ hrun) hstatus
    · exact h.running_held id x (by simpa [put, hid] using hx) hrun

/-- **Rewriting a record.** Afterwards a call holds the new record, or what it held of another
    job before; holders of other jobs stay. -/
theorem Consistent.rewrite (h : l.Consistent) (r r' : JobRecord) {held' : CallId → Option JobRecord}
    (hid : r'.id = r.id) (hwf : r'.WellFormed)
    (after : ∀ c x, held' c = some x →
      (x = r' ∧ (r'.status = .running ∨ r'.status = .succeeded)) ∨
        (l.held c = some x ∧ x.id ≠ r.id))
    (others : ∀ c x, l.held c = some x → x.id ≠ r.id → held' c = some x)
    (unique : ∀ c c', held' c = some r' → held' c' = some r' → c = c')
    (running : r'.status = .running → ∃ c, held' c = some r') :
    ({ l.put r' with held := held' } : Ledger).Consistent := by
  have hjobs : ∀ id, (l.put r').jobs id = if id = r.id then some r' else l.jobs id := by
    intro id; simp only [put, Function.update_apply, hid]
  constructor
  · intro id x hx
    rw [hjobs] at hx
    by_cases hi : id = r.id
    · rw [if_pos hi, Option.some.injEq] at hx; rw [← hx, hid, hi]
    · exact h.keyed id x (by simpa [hi] using hx)
  · intro id x hx
    rw [hjobs] at hx
    by_cases hi : id = r.id
    · rw [if_pos hi, Option.some.injEq] at hx; exact hx ▸ hwf
    · exact h.wellFormed id x (by simpa [hi] using hx)
  · intro c x hx
    rw [hjobs]
    rcases after c x hx with ⟨rfl, hlive⟩ | ⟨hx', hne⟩
    · exact ⟨by rw [if_pos hid], hlive⟩
    · rw [if_neg hne]; exact h.held_stored c x hx'
  · intro c₁ c₂ x₁ x₂ h₁ h₂ heq
    rcases after c₁ x₁ h₁ with ⟨rfl, -⟩ | ⟨h₁', hne₁⟩ <;>
      rcases after c₂ x₂ h₂ with ⟨rfl, -⟩ | ⟨h₂', hne₂⟩
    · exact unique c₁ c₂ h₁ h₂
    · exact absurd (heq.symm.trans hid) hne₂
    · exact absurd (heq.trans hid) hne₁
    · exact h.held_unique c₁ c₂ x₁ x₂ h₁' h₂' heq
  · intro id x hx hrun
    rw [hjobs] at hx
    by_cases hi : id = r.id
    · rw [if_pos hi, Option.some.injEq] at hx
      subst hx
      exact running hrun
    · rw [if_neg hi] at hx
      obtain ⟨c, hc⟩ := h.running_held id x hx hrun
      exact ⟨c, others c x hc (h.keyed id x hx ▸ hi)⟩

/-- Rewriting a record nobody holds, by one nobody needs to hold. -/
theorem Consistent.rewrite_unheld (h : l.Consistent) (r r' : JobRecord) (hid : r'.id = r.id)
    (hwf : r'.WellFormed) (none_held : ∀ c x, l.held c = some x → x.id ≠ r.id)
    (hstatus : r'.status ≠ .running) : (l.put r').Consistent :=
  h.rewrite r r' hid hwf (fun c x hx => Or.inr ⟨hx, none_held c x hx⟩) (fun _ _ hx _ => hx)
    (fun c _ hc _ => absurd hid (none_held c r' hc)) (fun hrun => absurd hrun hstatus)

/-- Rewriting a record that only `c` may hold, and handing it to `c`. -/
theorem Consistent.rewrite_hold (h : l.Consistent) (r r' : JobRecord) (c : CallId)
    (hid : r'.id = r.id) (hwf : r'.WellFormed)
    (only : ∀ c' x, l.held c' = some x → x.id = r.id → c' = c)
    (mine : ∀ x, l.held c = some x → x.id = r.id)
    (live : r'.status = .running ∨ r'.status = .succeeded) :
    ((l.put r').hold c (some r')).Consistent := by
  refine h.rewrite r r' hid hwf ?_ ?_ ?_ (fun _ => ⟨c, by simp⟩)
  · intro c' x hx
    by_cases hc : c' = c
    · subst hc
      exact Or.inl ⟨by simpa using hx.symm, live⟩
    · have hx' : l.held c' = some x := by simpa [Function.update_of_ne hc] using hx
      exact Or.inr ⟨hx', fun heq => hc (only c' x hx' heq)⟩
  · intro c' x hx hne
    have hc : c' ≠ c := by rintro rfl; exact hne (mine x hx)
    simpa [Function.update_of_ne hc] using hx
  · intro c₁ c₂ h₁ h₂
    have key : ∀ c', Function.update l.held c (some r') c' = some r' → c' = c := by
      intro c' hc'
      by_contra hne
      rw [Function.update_of_ne hne] at hc'
      exact hne (only c' r' hc' hid)
    rw [key c₁ h₁, key c₂ h₂]

/-- Rewriting a record that `c` holds, and letting go of it. -/
theorem Consistent.rewrite_drop (h : l.Consistent) {r : JobRecord} (r' : JobRecord) {c : CallId}
    (held : l.held c = some r) (hid : r'.id = r.id) (hwf : r'.WellFormed)
    (hstatus : r'.status ≠ .running) : ((l.put r').hold c none).Consistent := by
  have hafter : ∀ c' x, Function.update l.held c none c' = some x →
      l.held c' = some x ∧ x.id ≠ r.id := by
    intro c' x hx
    have hc : c' ≠ c := by rintro rfl; simp at hx
    rw [Function.update_of_ne hc] at hx
    exact ⟨hx, fun heq => hc (h.held_unique _ _ _ _ hx held heq)⟩
  refine h.rewrite r r' hid hwf (fun c' x hx => Or.inr (hafter c' x hx)) ?_ ?_
    (fun hrun => absurd hrun hstatus)
  · intro c' x hx hne
    have hc : c' ≠ c := by
      intro heq
      subst heq
      rw [held, Option.some.injEq] at hx
      exact hne (by rw [hx])
    simpa [Function.update_of_ne hc] using hx
  · intro c₁ c₂ h₁ _
    exact absurd hid (hafter c₁ r' h₁).2

/-- The clock and the history carry no obligation. -/
theorem Consistent.congr (h : l.Consistent) (hjobs : l'.jobs = l.jobs) (hheld : l'.held = l.held) :
    l'.Consistent := by
  obtain ⟨h₁, h₂, h₃, h₄, h₅⟩ := h
  constructor <;> simp only [hjobs, hheld] <;> assumption

theorem Consistent.note (h : l.Consistent) (now : Int) (event : Event) :
    (l.note now event).Consistent := h.congr rfl rfl

/-- Letting go of a job that is not running. -/
theorem Consistent.release (h : l.Consistent) {c : CallId} {r : JobRecord} (held : l.held c = some r)
    (hstatus : r.status ≠ .running) : (l.hold c none).Consistent := by
  have hcases : ∀ c' x, (l.hold c none).held c' = some x → l.held c' = some x := by
    intro c' x hx
    by_cases hc : c' = c
    · subst hc; simp [hold] at hx
    · simpa [hold, hc] using hx
  refine ⟨h.keyed, h.wellFormed, fun c' x hx => h.held_stored c' x (hcases c' x hx),
    fun c₁ c₂ x₁ x₂ h₁ h₂ => h.held_unique c₁ c₂ x₁ x₂ (hcases _ _ h₁) (hcases _ _ h₂), ?_⟩
  intro id x hx hrun
  obtain ⟨c', hc'⟩ := h.running_held id x hx hrun
  have hne : c' ≠ c := by
    intro heq
    subst heq
    rw [held, Option.some.injEq] at hc'
    exact hstatus (hc' ▸ hrun)
  exact ⟨c', by simpa [hold, hne] using hc'⟩

/-- A failed attempt is never left running. -/
theorem fail_not_running (r : JobRecord) (error : String) (backoff now : Int) :
    (r.fail error backoff now).status ≠ .running := by
  rw [JobRecord.fail_status]; split <;> simp

/-- **Every move keeps the ledger consistent.** -/
theorem Consistent.step (h : l.Consistent) {m : Move} (hs : Step l m l') : l'.Consistent := by
  cases hs with
  | tick now _ => exact h.congr rfl rfl
  | create now request jobId _ fresh supported =>
    exact (h.add fresh (JobRecord.wellFormed_submitted supported jobId now) (by
      simp [JobRecord.submitted])).note _ _
  | claim now c r workerId _ stored pending _ free =>
    have hwf := (h.wellFormed _ _ stored).claim pending workerId now
    refine (h.rewrite_hold r (r.claim workerId now) c rfl hwf ?_ ?_ (Or.inl rfl)).note _ _
    · exact fun c' x hx heq => absurd heq (h.not_held_of_pending stored pending hx)
    · intro x hx; rw [free] at hx; cases hx
  | succeed now c r result _ held status =>
    have hwf := (h.wellFormed _ _ (h.held_stored c r held).1).succeed status result now
    refine (h.rewrite_hold r (r.succeed result now) c rfl hwf ?_ ?_ (Or.inr rfl)).note _ _
    · exact fun c' x hx heq => h.held_unique _ _ _ _ hx held heq
    · intro x hx; rw [held, Option.some.injEq] at hx; rw [hx]
  | close now c r _ held status _ =>
    exact (h.release held (by simp [status])).congr rfl rfl
  | schedule now c r cron nextJobId nextRunAt _ held status _ _ fresh =>
    have hwf := (h.wellFormed _ _ (h.held_stored c r held).1).successor nextJobId nextRunAt now
    have hadd := h.add (r := r.successor nextJobId nextRunAt now) fresh hwf (by
      simp [JobRecord.successor])
    exact (hadd.release (c := c) (r := r) held (by simp [status])).note _ _
  | fail now c r error _ held status =>
    have hwf := (h.wellFormed _ _ (h.held_stored c r held).1).fail (Or.inl status) error
      (backoffSeconds r.attemptCount) now
    exact (h.rewrite_drop (r.fail error (backoffSeconds r.attemptCount) now) held rfl hwf
      (fail_not_running r error _ now)).note _ _
  | revert now c r error _ held status =>
    have hwf := (h.wellFormed _ _ (h.held_stored c r held).1).fail (Or.inr status) error
      (backoffSeconds r.attemptCount) now
    exact (h.rewrite_drop (r.fail error (backoffSeconds r.attemptCount) now) held rfl hwf
      (fail_not_running r error _ now)).note _ _
  | cancel now r _ stored pending =>
    have hwf := (h.wellFormed _ _ stored).cancel pending now
    exact (h.rewrite_unheld r (r.cancel now) rfl hwf
      (fun _ _ hx => h.not_held_of_pending stored pending hx) (by simp)).note _ _

end Ledger

end JobPipeline
