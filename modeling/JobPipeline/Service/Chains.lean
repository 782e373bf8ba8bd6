import Mathlib.Logic.Relation
import JobPipeline.Jobs.CronGrammar
import JobPipeline.Service.Moves
import JobPipeline.Service.Refinement

/-!
# Recurring chains

A recurring job that succeeds schedules one successor, which carries the same request; the jobs
made that way from one submission are its chain. On the ledger three invariants carry the law:
a due job is not early (`Timely`), a job with a successor is `Settled`, so it never acts again,
and a succeeded recurring job has a successor unless the call that ran it is still to make it
(`Chained`).

A successor starts with `next_run_at` equal to `run_at`. A failed attempt moves `next_run_at`
to the end of its backoff and leaves `run_at` alone, so the two agree until the first failure.
-/

set_option autoImplicit false

namespace JobPipeline

open Relation (ReflTransGen)

/-- `next` is what `create_next_recurring_job` made of `parent` at time `now`. -/
structure JobRecord.Follows (parent next : JobRecord) (now : Int) : Prop where
  successor : next = parent.successor next.id next.nextRunAt now
  run : ∃ cron, parent.recurringCron = some cron ∧ validateCronExpression cron = .ok cron ∧
    nextCronRun cron now = .ok next.nextRunAt
  due : parent.nextRunAt ≤ now
  processed : ∃ t, parent.processedAt = some t ∧ t ≤ now

/-- `r` is a later record of the job created as `next`. -/
structure JobRecord.Later (next r : JobRecord) : Prop where
  request : SameRequest next r
  not_early : next.nextRunAt ≤ r.nextRunAt
  until_failure : r.lastError = none → r.nextRunAt = next.nextRunAt

namespace JobRecord

theorem seconds_backoff_nonneg (n : Nat) : 0 ≤ seconds (backoffSeconds n) := by
  unfold seconds
  have : (0 : Int) ≤ (backoffSeconds n : Int) := Int.natCast_nonneg _
  omega

theorem Later.refl (r : JobRecord) : Later r r := ⟨.refl r, le_refl _, fun _ => rfl⟩

/-- A retry is scheduled no earlier than the run it follows. -/
theorem Later.evolves {next r r' : JobRecord} {now : Int} {m : Move} (h : Later next r)
    (hevolves : Evolves now r m r')
    (hdue : r.status = .running ∨ r.status = .succeeded → r.nextRunAt ≤ now) : Later next r' := by
  have hrequest := h.request.trans hevolves.sameRequest
  have hfail : ∀ error, r.status = .running ∨ r.status = .succeeded →
      Later next (r.fail error (backoffSeconds r.attemptCount) now) := fun error hs => by
    refine ⟨h.request.trans (sameRequest_fail r error _ now), ?_, by simp [fail]⟩
    have h₁ := h.not_early
    have h₂ := hdue hs
    have h₃ := seconds_backoff_nonneg r.attemptCount
    show next.nextRunAt ≤ now + seconds (backoffSeconds r.attemptCount)
    omega
  cases hevolves with
  | claim workerId => exact ⟨hrequest, h.not_early, h.until_failure⟩
  | succeed result => exact ⟨hrequest, h.not_early, h.until_failure⟩
  | fail error hs => exact hfail error (Or.inl hs)
  | revert error hs => exact hfail error (Or.inr hs)
  | cancel => exact ⟨hrequest, h.not_early, h.until_failure⟩

/-- **A successor runs at a whole minute that matches**, after its parent was due and done. -/
theorem Follows.nextRunAt {parent next : JobRecord} {now : Int} (h : Follows parent next now) :
    (∃ cron, ∃ c : CronSchedule, parent.recurringCron = some cron ∧ c.Reads cron ∧
        c.Matches next.nextRunAt) ∧
      next.nextRunAt % minutes 1 = 0 ∧ parent.nextRunAt < next.nextRunAt ∧
      ∃ t, parent.processedAt = some t ∧ t < next.nextRunAt := by
  obtain ⟨cron, hcron, hvalid, hrun⟩ := h.run
  obtain ⟨-, -, c, hc⟩ := validateCronExpression_ok hvalid
  obtain ⟨k, -, hk, hmatch, -⟩ := (nextCronRun_eq_ok_iff hvalid hc).mp hrun
  obtain ⟨hafter, hminute⟩ := cronCandidate_spec now k
  rw [← hk] at hafter hminute
  obtain ⟨t, ht, hle⟩ := h.processed
  exact ⟨⟨cron, c, hcron, hc, hmatch⟩, hminute, lt_of_le_of_lt h.due hafter, t, ht,
    lt_of_le_of_lt hle hafter⟩

/-- A failed record waits, and if it is processed it is processed now. -/
theorem fail_timely (job : JobRecord) (error : String) (backoff now : Int) :
    ((job.fail error backoff now).status = .running ∨
        (job.fail error backoff now).status = .succeeded →
      (job.fail error backoff now).nextRunAt ≤ now) ∧
      ∀ t ∈ (job.fail error backoff now).processedAt, t ≤ now := by
  refine ⟨fun hs => ?_, fun t ht => ?_⟩
  · rw [fail_status] at hs
    split at hs <;> simp at hs
  · simp only [fail] at ht
    split at ht <;> cases ht
    exact le_refl _

end JobRecord

namespace Ledger

variable {l l' : Ledger} {m : Move}

/-! ## Time -/

/-- A job that was claimed was due, and what is processed was processed in the past. -/
def Timely (l : Ledger) : Prop :=
  ∀ id r, l.jobs id = some r →
    (r.status = .running ∨ r.status = .succeeded → r.nextRunAt ≤ l.clock) ∧
      ∀ t ∈ r.processedAt, t ≤ l.clock

theorem timely_initial : initial.Timely := by
  intro id r h
  simp [initial] at h

theorem Timely.step (h : l.Timely) (hl : l.Consistent) (hs : Step l m l') : l'.Timely := by
  intro id r' hr'
  have hclock := hs.clock_le
  cases hold : l.jobs id with
  | none =>
    obtain ⟨hstatus, hprocessed⟩ := hs.stored_new hold hr' hl
    exact ⟨by simp [hstatus], by simp [hprocessed]⟩
  | some r =>
    obtain ⟨hdue, hprocessed⟩ := h id r hold
    rcases hs.stored hl hold with hsame | ⟨r'', hr'', hevolves, -, -⟩
    · rw [hsame, Option.some.injEq] at hr'
      subst hr'
      exact ⟨fun hs => le_trans (hdue hs) hclock, fun t ht => le_trans (hprocessed t ht) hclock⟩
    · rw [hr'', Option.some.injEq] at hr'
      subst hr'
      cases hevolves with
      | claim workerId _ due =>
        exact ⟨fun _ => due, fun t ht => le_trans (hprocessed t ht) hclock⟩
      | succeed result hrunning =>
        exact ⟨fun _ => le_trans (hdue (Or.inl hrunning)) hclock, by simp [JobRecord.succeed]⟩
      | fail error => exact JobRecord.fail_timely ..
      | revert error => exact JobRecord.fail_timely ..
      | cancel => exact ⟨by simp, by simp [JobRecord.cancel]⟩

/-! ## Chains -/

/-- `q` was created as the next run of `p`. -/
def Successor (l : Ledger) (p q : UUID) : Prop :=
  ∃ parent next, .scheduled parent next ∈ l.history ∧ parent.id = p ∧ next.id = q

/-- What the history of scheduled successors says of the table. -/
structure Chained (l : Ledger) : Prop where
  parent_settled : ∀ parent next, .scheduled parent next ∈ l.history →
    l.Settled parent ∧ parent.status = .succeeded
  follows : ∀ parent next, .scheduled parent next ∈ l.history → ∃ now, parent.Follows next now
  next_stored : ∀ parent next, .scheduled parent next ∈ l.history →
    ∃ r, l.jobs next.id = some r ∧ next.Later r
  unique : ∀ parent next parent' next', .scheduled parent next ∈ l.history →
    .scheduled parent' next' ∈ l.history → parent.id = parent'.id → next = next'
  complete : ∀ r, l.jobs r.id = some r → r.status = .succeeded →
    (∃ cron ∈ r.recurringCron, cron ≠ "") →
    (∃ c, l.held c = some r) ∨ ∃ next, .scheduled r next ∈ l.history

theorem chained_initial : initial.Chained := by
  constructor <;> simp [initial]

/-- A succeeded job let go by a move was let go for good, or has just got its successor. -/
theorem Step.released (hs : Step l m l') {c : CallId} {r : JobRecord}
    (held : l.held c = some r) (stored : l'.jobs r.id = some r) (status : r.status = .succeeded)
    (recurs : ∃ cron ∈ r.recurringCron, cron ≠ "") :
    l'.held c = some r ∨ ∃ next, .scheduled r next ∈ l'.history := by
  have keep : ∀ c' x, l.held c' = some x → x.status ≠ .succeeded → c ≠ c' := by
    intro c' x hx hstatus heq
    subst heq
    rw [held, Option.some.injEq] at hx
    exact hstatus (hx ▸ status)
  cases hs with
  | tick => exact Or.inl held
  | create => exact Or.inl held
  | cancel => exact Or.inl held
  | claim now c' x workerId _ _ _ _ free =>
    apply Or.inl
    simp only [note_held, hold_held, put_held]
    rw [if_neg (by rintro rfl; rw [free] at held; cases held), held]
  | succeed now c' x result _ hx hstatus =>
    apply Or.inl
    simp only [note_held, hold_held, put_held]
    rw [if_neg (keep c' x hx (by simp [hstatus])), held]
  | close now c' x _ hx _ once =>
    apply Or.inl
    simp only [hold_held]
    rw [if_neg, held]
    intro heq
    subst heq
    obtain ⟨cron, hcron, hne⟩ := recurs
    rw [held, Option.some.injEq] at hx
    exact hne (once cron (hx ▸ hcron))
  | schedule now c' x cron nextJobId nextRunAt _ hx =>
    by_cases hc : c = c'
    · subst hc
      rw [held, Option.some.injEq] at hx
      subst hx
      exact Or.inr ⟨_, List.mem_cons_self⟩
    · apply Or.inl
      simp only [note_held, hold_held, put_held]
      rw [if_neg hc, held]
  | fail now c' x error _ hx hstatus =>
    apply Or.inl
    simp only [note_held, hold_held, put_held]
    rw [if_neg (keep c' x hx (by simp [hstatus])), held]
  | revert now c' x error _ hx =>
    apply Or.inl
    simp only [note_held, hold_held, put_held]
    rw [if_neg, held]
    -- The reverted record is no longer stored as succeeded.
    intro heq
    subst heq
    rw [held, Option.some.injEq] at hx
    subst hx
    have hput := put_self l (r.fail error (backoffSeconds r.attemptCount) now)
    rw [note_jobs, hold_jobs] at stored
    have hfailed : (r.fail error (backoffSeconds r.attemptCount) now) = r :=
      Option.some.inj (hput.symm.trans stored)
    have hstatus := congrArg JobRecord.status hfailed
    rw [JobRecord.fail_status, status] at hstatus
    split at hstatus <;> cases hstatus

/-- **Every move keeps the chains.** -/
theorem Chained.step (h : l.Chained) (hl : l.Consistent) (ht : l.Timely) (hs : Step l m l') :
    l'.Chained := by
  constructor
  · intro parent next hmem
    rcases hs.scheduled_cases hmem with hmem | ⟨-, c, hsched, heq⟩
    · obtain ⟨hsettled, hstatus⟩ := h.parent_settled parent next hmem
      exact ⟨hsettled.step hs hl, hstatus⟩
    · obtain ⟨hstored, -⟩ := hl.held_stored c parent hsched.held
      have hne : parent.id ≠ next.id := by
        intro hid
        have hfresh := hsched.fresh
        rw [← hid, hstored] at hfresh
        cases hfresh
      refine ⟨⟨?_, by rw [hsched.status]; rfl, fun c' x hx hid => ?_⟩, hsched.status⟩
      · rw [heq]
        exact put_other hstored hne
      · rw [heq, note_held, hold_held, put_held] at hx
        split at hx
        · cases hx
        · rename_i hc
          exact hc (hl.held_unique c' c x parent hx hsched.held hid)
  · intro parent next hmem
    rcases hs.scheduled_cases hmem with hmem | ⟨-, c, hsched, heq⟩
    · exact h.follows parent next hmem
    · obtain ⟨hstored, -⟩ := hl.held_stored c parent hsched.held
      obtain ⟨hdue, hpast⟩ := ht _ parent hstored
      obtain ⟨cron, hcron, hrun⟩ := hsched.run
      have hwf := hl.wellFormed _ parent hstored
      obtain ⟨t, hprocessed⟩ := Option.isSome_iff_exists.mp
        (hwf.processedAt.mpr (by rw [hsched.status]; rfl))
      exact ⟨l'.clock, hsched.successor, ⟨cron, hcron, hwf.cron cron hcron, hrun⟩,
        le_trans (hdue (Or.inr hsched.status)) hs.clock_le, t, hprocessed,
        le_trans (hpast t hprocessed) hs.clock_le⟩
  · intro parent next hmem
    rcases hs.scheduled_cases hmem with hmem | ⟨-, c, hsched, heq⟩
    · obtain ⟨r, hstored, hlater⟩ := h.next_stored parent next hmem
      rcases hs.stored hl hstored with hr | ⟨r', hr'⟩
      · exact ⟨r, hr, hlater⟩
      · exact ⟨r', hr'.stored, hlater.evolves hr'.evolves fun hr =>
          le_trans ((ht _ r hstored).1 hr) hs.clock_le⟩
    · refine ⟨next, ?_, .refl next⟩
      rw [heq]
      exact put_self l next
  · intro parent next parent' next' hmem hmem' hid
    -- A job with a successor is settled, and the parent of a new one is held.
    have held_ne : ∀ p n c q, .scheduled p n ∈ l.history → l.held c = some q → p.id ≠ q.id :=
      fun p n c q hp hq heq => (h.parent_settled p n hp).1.unheld c q hq heq.symm
    rcases hs.scheduled_cases hmem with hold | ⟨-, c, hsched, heq⟩ <;>
      rcases hs.scheduled_cases hmem' with hold' | ⟨-, c', hsched', heq'⟩
    · exact h.unique parent next parent' next' hold hold' hid
    · exact absurd hid (held_ne parent next c' parent' hold hsched'.held)
    · exact absurd hid.symm (held_ne parent' next' c parent hold' hsched.held)
    · have hhistory := congrArg Ledger.history (heq.symm.trans heq')
      simp only [note_history, List.cons.injEq, Event.scheduled.injEq] at hhistory
      exact hhistory.1.2
  · intro r hstored hstatus hrecurs
    cases hold : l.jobs r.id with
    | none =>
      obtain ⟨hqueued, -⟩ := hs.stored_new hold hstored hl
      rw [hqueued] at hstatus
      cases hstatus
    | some x =>
      rcases hs.stored hl hold with hr | ⟨r', hr'⟩
      · rw [hr, Option.some.injEq] at hstored
        subst hstored
        rcases h.complete x hold hstatus hrecurs with ⟨c, hc⟩ | ⟨next, hnext⟩
        · rcases hs.released hc hr hstatus hrecurs with hheld | hnext
          · exact Or.inl ⟨c, hheld⟩
          · exact Or.inr hnext
        · exact Or.inr ⟨next, hs.history_mono hnext⟩
      · rw [hr'.stored, Option.some.injEq] at hstored
        subst hstored
        exact Or.inl (hr'.succeeder (hr'.evolves.succeeds hstatus))

/-- The three invariants along every run. -/
theorem chained_of_reachable {ok : Ledger → Move → Prop} (h : system.Reachable ok l) :
    l.Consistent ∧ l.Timely ∧ l.Chained := by
  refine h.invariant (I := fun l => l.Consistent ∧ l.Timely ∧ l.Chained) ?_ ?_
  · intro _ heq
    subst heq
    exact ⟨consistent_initial, timely_initial, chained_initial⟩
  · intro l m l' h _ hs
    obtain ⟨hl, ht, hc⟩ := h
    exact ⟨hl.step hs, ht.step hl hs, hc.step hl ht hs⟩

theorem Chained.successor_unique (h : l.Chained) {p q q' : UUID} (hq : l.Successor p q)
    (hq' : l.Successor p q') : q = q' := by
  obtain ⟨parent, next, hmem, rfl, rfl⟩ := hq
  obtain ⟨parent', next', hmem', hid, rfl⟩ := hq'
  rw [h.unique parent next parent' next' hmem hmem' hid.symm]

/-- A job with a successor is stored as succeeded. -/
theorem Chained.succeeded (h : l.Chained) {p q : UUID} (hq : l.Successor p q) :
    ∃ parent, l.jobs p = some parent ∧ parent.status = .succeeded := by
  obtain ⟨parent, next, hmem, rfl, -⟩ := hq
  obtain ⟨hsettled, hstatus⟩ := h.parent_settled parent next hmem
  exact ⟨parent, hsettled.stored, hstatus⟩

/-- A job later in its chain than a live one is that job. -/
theorem Chained.eq_of_live (h : l.Chained) {q q' : UUID} {r : JobRecord}
    (hpath : ReflTransGen l.Successor q q') (stored : l.jobs q = some r)
    (live : r.status.isTerminal = false) : q = q' := by
  cases hpath using ReflTransGen.head_induction_on with
  | refl => rfl
  | head hfirst _ =>
    obtain ⟨parent, hparent, hstatus⟩ := h.succeeded hfirst
    rw [stored, Option.some.injEq] at hparent
    rw [hparent, hstatus] at live
    cases live

/-- **A chain does not fork**: it has at most one live member. -/
theorem Chained.one_live (h : l.Chained) {root q q' : UUID} {r r' : JobRecord}
    (hq : ReflTransGen l.Successor root q) (hq' : ReflTransGen l.Successor root q')
    (stored : l.jobs q = some r) (stored' : l.jobs q' = some r')
    (live : r.status.isTerminal = false) (live' : r'.status.isTerminal = false) : q = q' := by
  have hunique : Relator.RightUnique l.Successor := fun _ _ _ => h.successor_unique
  rcases ReflTransGen.total_of_right_unique hunique hq hq' with hpath | hpath
  · exact h.eq_of_live hpath stored live
  · exact (h.eq_of_live hpath stored' live').symm

end Ledger

/-! ## In the service -/

/-- What a member of a chain has from its parent. `run_at` is the run it was created for. -/
structure JobRecord.Carries (parent r : JobRecord) : Prop where
  handler : r.handler = parent.handler
  payload : r.payload = parent.payload
  priority : r.priority = parent.priority
  maxRetries : r.maxRetries = parent.maxRetries
  timeoutSeconds : r.timeoutSeconds = parent.timeoutSeconds
  recurringCron : r.recurringCron = parent.recurringCron
  idempotencyKey : r.idempotencyKey = none
  runAt : ∃ t, r.runAt = some t ∧ t % minutes 1 = 0 ∧
    (∃ cron, ∃ c : CronSchedule, parent.recurringCron = some cron ∧ c.Reads cron ∧ c.Matches t) ∧
    parent.nextRunAt < t ∧ (∃ done, parent.processedAt = some done ∧ done < t) ∧
    t ≤ r.nextRunAt ∧ (r.lastError = none → r.nextRunAt = t)

theorem JobRecord.Follows.carries {parent next r : JobRecord} {now : Int}
    (h : parent.Follows next now) (hr : next.Later r) : parent.Carries r := by
  obtain ⟨hmatch, hminute, hdue, hdone⟩ := h.nextRunAt
  have hnext := h.successor
  have hreq := hr.request
  rw [hnext] at hreq
  exact ⟨hreq.handler, hreq.payload, hreq.priority, hreq.maxRetries, hreq.timeoutSeconds,
    hreq.recurringCron, hreq.idempotencyKey, next.nextRunAt, hreq.runAt, hminute, hmatch, hdue,
    hdone, hr.not_early, hr.until_failure⟩

namespace State

open Transition (System)

variable {settings : Settings} {s : State}

/-- `q` is the direct successor of `p`. -/
def Successor (s : State) (p q : UUID) : Prop := s.ledger.Successor p q

/-- The law of recurring chains. -/
structure Chains (s : State) : Prop where
  one_live : ∀ root q q' r r', ReflTransGen s.Successor root q → ReflTransGen s.Successor root q' →
    s.repository.jobs.get? q = some r → s.repository.jobs.get? q' = some r' →
      r.status.isTerminal = false → r'.status.isTerminal = false → q = q'
  continues : (∀ c, ¬ (s.calls c).InProgress) → ∀ id r, s.repository.jobs.get? id = some r →
    r.recurringCron.isSome = true → r.status = .succeeded → ∃! q, s.Successor id q
  ends : ∀ id r, s.repository.jobs.get? id = some r → r.status ≠ .succeeded →
    ∀ q, ¬ s.Successor id q
  carries : ∀ p q, s.Successor p q → ∃ parent r, s.repository.jobs.get? p = some parent ∧
    s.repository.jobs.get? q = some r ∧ parent.Carries r

/-- **Recurring chains neither fork nor rewind.** -/
theorem chains_of_reachable (h : (service settings).Reachable Transition.Any s) : s.Chains := by
  obtain ⟨hconsistent, -, hchained⟩ := Ledger.chained_of_reachable
    ((simulates settings).reachable (fun _ => inv_of_reachable) h)
  refine ⟨fun _ _ _ _ _ => hchained.one_live, ?_, ?_, ?_⟩
  · intro hidle id r stored hrecurs hstatus
    obtain ⟨cron, hcron⟩ := Option.isSome_iff_exists.mp hrecurs
    have hid : r.id = id := hconsistent.keyed id r stored
    subst hid
    have hne : cron ≠ "" := (hconsistent.wellFormed _ r stored).cron_ne_empty hcron
    rcases hchained.complete r stored hstatus ⟨cron, hcron, hne⟩ with ⟨c, hc⟩ | ⟨next, hnext⟩
    · have : (s.calls c).held = some r := hc
      rw [Call.held_of_not_inProgress (hidle c)] at this
      cases this
    · exact ⟨next.id, ⟨r, next, hnext, rfl, rfl⟩, fun q hq =>
        hchained.successor_unique hq ⟨r, next, hnext, rfl, rfl⟩⟩
  · intro id r stored hstatus q hq
    obtain ⟨parent, hparent, hsucceeded⟩ := hchained.succeeded hq
    have stored' : s.ledger.jobs id = some r := stored
    rw [stored', Option.some.injEq] at hparent
    exact hstatus (hparent ▸ hsucceeded)
  · intro p q h
    obtain ⟨parent, next, hmem, rfl, rfl⟩ := h
    obtain ⟨hsettled, -⟩ := hchained.parent_settled parent next hmem
    obtain ⟨now, hfollows⟩ := hchained.follows parent next hmem
    obtain ⟨r, hr, hlater⟩ := hchained.next_stored parent next hmem
    exact ⟨parent, r, hsettled.stored, hr, hfollows.carries hlater⟩

/-- A submission that recurs every minute, run once, and its successor run once and failed. -/
def chainRun : List Label :=
  [⟨0, .submit 0 (Sample.request.recurring "* * * * *" ⟨by decide, by decide, rfl⟩) Sample.jobId⟩,
    ⟨0, .claim 1 Sample.jobId "worker-local"⟩, ⟨0, .finish 1 (.value [])⟩, ⟨0, .markSucceeded 1⟩,
    ⟨0, .createNext 1 Sample.nextJobId⟩,
    ⟨minutes 1, .claim 2 Sample.nextJobId "worker-local"⟩,
    ⟨minutes 1, .finish 2 (.raised (.transient "boom"))⟩, ⟨minutes 1, .markFailed 2⟩]

/-- The law in a state with a successor. -/
theorem chains_of_chainRun : ∃ s, (service {}).Reachable Transition.Any s ∧
    s.Successor Sample.jobId Sample.nextJobId ∧ s.Chains := by
  have hrun : ∃ s parent next, System.replay (step {}) initial chainRun = some s ∧
      s.history[2]? = some (.scheduled parent next) ∧ parent.id = Sample.jobId ∧
      next.id = Sample.nextJobId := ⟨_, _, _, rfl, rfl, rfl, rfl⟩
  obtain ⟨s, parent, next, hs, hnext, hparent, hid⟩ := hrun
  have hreach : (service {}).Reachable Transition.Any s :=
    ⟨initial, rfl, System.Steps.of_replay hs fun _ _ _ => trivial⟩
  exact ⟨s, hreach, ⟨parent, next, List.mem_of_getElem? hnext, hparent, hid⟩,
    chains_of_reachable hreach⟩

/-- **A retried successor's `next_run_at` is not its `run_at`.** -/
theorem retried_successor_moves : ∃ s r t, (service {}).Reachable Transition.Any s ∧
    s.Successor Sample.jobId Sample.nextJobId ∧
      s.repository.jobs.get? Sample.nextJobId = some r ∧ r.status = .failed ∧
      r.runAt = some t ∧ r.nextRunAt ≠ t := by
  have hrun : ∃ s parent next r, System.replay (step {}) initial chainRun = some s ∧
      s.history[2]? = some (.scheduled parent next) ∧ parent.id = Sample.jobId ∧
      next.id = Sample.nextJobId ∧ s.repository.jobs.get? Sample.nextJobId = some r ∧
      r.status = .failed ∧ r.runAt = some (minutes 1) ∧ r.nextRunAt = minutes 1 + seconds 1 :=
    ⟨_, _, _, _, rfl, rfl, rfl, rfl, rfl, rfl, rfl, rfl⟩
  obtain ⟨s, parent, next, r, hs, hnext, hparent, hid, stored, hstatus, hrunAt, hnextRunAt⟩ := hrun
  refine ⟨s, r, minutes 1, ⟨initial, rfl, System.Steps.of_replay hs fun _ _ _ => trivial⟩,
    ⟨parent, next, List.mem_of_getElem? hnext, hparent, hid⟩, stored, hstatus, hrunAt, ?_⟩
  rw [hnextRunAt]
  decide

/-! ## Stored expressions -/

/-- **Expressions stay valid**: what validation returns is a normal form, and so is every
    expression on a stored job, a submitted one or a successor, so `next_cron_run` neither refuses
    it nor fails to read its fields. -/
theorem cron_normalForm (h : (service settings).Reachable Transition.Any s) :
    (∀ raw n, validateCronExpression raw = .ok n → NormalForm raw n) ∧
      ∀ id job, s.repository.jobs.get? id = some job → ∀ cron ∈ job.recurringCron,
        NormalForm cron cron := by
  refine ⟨fun raw n => normalForm_of_validateCronExpression, fun id job stored cron hcron => ?_⟩
  exact normalForm_of_validateCronExpression
    (((inv_of_reachable h).consistent.wellFormed id job stored).cron cron hcron)

/-- Five stars with more whitespace than they need, and the expression of a stored successor. -/
theorem cron_normalForm_of_chainRun : NormalForm " *  * * *\t*" "* * * * *" ∧
    ∃ s job, (service {}).Reachable Transition.Any s ∧
      s.repository.jobs.get? Sample.nextJobId = some job ∧
      job.recurringCron = some "* * * * *" ∧ NormalForm "* * * * *" "* * * * *" := by
  have hrun : ∃ s job, System.replay (step {}) initial chainRun = some s ∧
      s.repository.jobs.get? Sample.nextJobId = some job ∧
      job.recurringCron = some "* * * * *" := ⟨_, _, rfl, rfl, rfl⟩
  obtain ⟨s, job, hs, stored, hcron⟩ := hrun
  have hreach : (service {}).Reachable Transition.Any s :=
    ⟨initial, rfl, System.Steps.of_replay hs fun _ _ _ => trivial⟩
  obtain ⟨hraw, hstored⟩ := cron_normalForm hreach
  exact ⟨hraw _ _ rfl, s, job, hreach, stored, hcron, hstored _ job stored _ hcron⟩

end State

end JobPipeline
