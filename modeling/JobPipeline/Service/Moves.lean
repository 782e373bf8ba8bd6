import JobPipeline.Service.Ledger

/-!
# What a move can do

Inversion lemmas for `Ledger.Step`, one for each thing an invariant speaks of: the stored record
of a job, what a call holds, and what is noted in the history. Each invariant of the ledger is
derived from these and none splits the moves again.
-/

set_option autoImplicit false

namespace JobPipeline

/-- How a move at time `now` rewrites the record of a job. -/
inductive JobRecord.Evolves (now : Int) (r : JobRecord) : Move → JobRecord → Prop where
  | claim (workerId : String) (pending : r.status.isPending = true) (due : r.nextRunAt ≤ now) :
      Evolves now r .claim (r.claim workerId now)
  | succeed (result : JsonObject) (status : r.status = .running) :
      Evolves now r .succeed (r.succeed result now)
  | fail (error : String) (status : r.status = .running) :
      Evolves now r .fail (r.fail error (backoffSeconds r.attemptCount) now)
  | revert (error : String) (status : r.status = .succeeded) :
      Evolves now r .revert (r.fail error (backoffSeconds r.attemptCount) now)
  | cancel (pending : r.status.isPending = true) : Evolves now r .cancel (r.cancel now)

namespace JobRecord

variable {now : Int} {r r' : JobRecord} {m : Move}

theorem Evolves.sameRequest (h : Evolves now r m r') : SameRequest r r' := by
  cases h with
  | claim workerId => exact sameRequest_claim r workerId now
  | succeed result => exact sameRequest_succeed r result now
  | fail error => exact sameRequest_fail r error _ now
  | revert error => exact sameRequest_fail r error _ now
  | cancel => exact sameRequest_cancel r now

/-- Only a revert rewrites a terminal record. -/
theorem Evolves.of_terminal (h : Evolves now r m r') (terminal : r.status.isTerminal = true) :
    m = .revert := by
  cases h with
  | claim _ pending _ => rw [JobStatus.not_terminal_of_pending pending] at terminal; cases terminal
  | succeed _ status => rw [status] at terminal; cases terminal
  | fail _ status => rw [status] at terminal; cases terminal
  | revert => rfl
  | cancel pending => rw [JobStatus.not_terminal_of_pending pending] at terminal; cases terminal

/-- Only a succeed ends in `SUCCEEDED`. -/
theorem Evolves.succeeds (h : Evolves now r m r') (hs : r'.status = .succeeded) : m = .succeed := by
  cases h with
  | claim => cases hs
  | succeed => rfl
  | fail => rw [fail_status] at hs; split at hs <;> cases hs
  | revert => rw [fail_status] at hs; split at hs <;> cases hs
  | cancel => cases hs

end JobRecord

namespace Ledger

variable {l l' : Ledger} {m : Move}

theorem put_self (l : Ledger) (job : JobRecord) : (l.put job).jobs job.id = some job := by
  rw [put_jobs, if_pos rfl]

/-- Storing the record of another job. -/
theorem put_other {job r : JobRecord} {id : UUID} (h : l.jobs id = some r) (hne : id ≠ job.id) :
    (l.put job).jobs id = some r := by
  rw [put_jobs, if_neg hne, h]

theorem Step.clock_le (hs : Step l m l') : l.clock ≤ l'.clock := by
  cases hs <;> assumption

/-- A move rewrote the record `r` of a job to `r'`. -/
structure Rewrites (l : Ledger) (m : Move) (l' : Ledger) (id : UUID) (r r' : JobRecord) : Prop where
  stored : l'.jobs id = some r'
  evolves : JobRecord.Evolves l'.clock r m r'
  reverter : m = .revert → ∃ c, l.held c = some r
  succeeder : m = .succeed → ∃ c, l'.held c = some r'

/-- **A stored job stays stored**, and its record stays or is rewritten. -/
theorem Step.stored (hs : Step l m l') (hl : l.Consistent) {id : UUID} {r : JobRecord}
    (stored : l.jobs id = some r) : l'.jobs id = some r ∨ ∃ r', Rewrites l m l' id r r' := by
  -- A rewritten record is the one that was stored under its identifier.
  have rewrite : ∀ x x' : JobRecord, l.jobs x.id = some x → x'.id = x.id →
      (l.put x').jobs id = some r ∨ x = r ∧ (l.put x').jobs id = some x' := by
    intro x x' hx hid
    by_cases heq : id = x.id
    · subst heq
      rw [stored, Option.some.injEq] at hx
      exact Or.inr ⟨hx.symm, hid ▸ put_self l x'⟩
    · exact Or.inl (put_other stored (hid ▸ heq))
  have fresh : ∀ x' : JobRecord, l.jobs x'.id = none → (l.put x').jobs id = some r := by
    intro x' hnone
    apply put_other stored
    intro heq
    subst heq
    rw [hnone] at stored
    cases stored
  cases hs with
  | tick => exact Or.inl stored
  | create now request jobId _ hfresh => exact Or.inl (fresh _ hfresh)
  | claim now c x workerId _ hx pending due =>
    rcases rewrite x (x.claim workerId now) hx rfl with h | ⟨rfl, h⟩
    · exact Or.inl h
    · exact Or.inr ⟨_, h, .claim workerId pending due, by simp, by simp⟩
  | succeed now c x result _ held status =>
    rcases rewrite x (x.succeed result now) (hl.held_stored c x held).1 rfl with h | ⟨rfl, h⟩
    · exact Or.inl h
    · exact Or.inr ⟨_, h, .succeed result status, by simp, fun _ => ⟨c, by simp [hold_held]⟩⟩
  | close => exact Or.inl stored
  | schedule now c x cron nextJobId nextRunAt _ _ _ _ _ hfresh => exact Or.inl (fresh _ hfresh)
  | fail now c x error _ held status =>
    rcases rewrite x (x.fail error (backoffSeconds x.attemptCount) now)
      (hl.held_stored c x held).1 rfl with h | ⟨rfl, h⟩
    · exact Or.inl h
    · exact Or.inr ⟨_, h, .fail error status, by simp, by simp⟩
  | revert now c x error _ held status =>
    rcases rewrite x (x.fail error (backoffSeconds x.attemptCount) now)
      (hl.held_stored c x held).1 rfl with h | ⟨rfl, h⟩
    · exact Or.inl h
    · exact Or.inr ⟨_, h, .revert error status, fun _ => ⟨c, held⟩, by simp⟩
  | cancel now x _ hx pending =>
    rcases rewrite x (x.cancel now) hx rfl with h | ⟨rfl, h⟩
    · exact Or.inl h
    · exact Or.inr ⟨_, h, .cancel pending, by simp, by simp⟩

/-- A job stored by a move that was not stored before is queued and unattempted. -/
theorem Step.stored_new (hs : Step l m l') {id : UUID} {r : JobRecord} (hnone : l.jobs id = none)
    (stored : l'.jobs id = some r) (hl : l.Consistent) :
    r.status = .queued ∧ r.processedAt = none := by
  have new : ∀ x' : JobRecord, (l.put x').jobs id = some r → id = x'.id ∧ x' = r := by
    intro x' hx
    rw [put_jobs] at hx
    split at hx
    · rename_i heq
      exact ⟨heq, Option.some.inj hx⟩
    · rw [hnone] at hx; cases hx
  -- A move that rewrites a record finds one under its identifier.
  have old : ∀ x x' : JobRecord, l.jobs x.id = some x → x'.id = x.id →
      (l.put x').jobs id = some r → False := by
    intro x x' hx hid hr
    rw [(new x' hr).1, hid, hx] at hnone
    cases hnone
  cases hs with
  | tick => exact absurd (hnone.symm.trans stored) (by simp)
  | close => exact absurd (hnone.symm.trans stored) (by simp)
  | create now request jobId =>
    obtain ⟨-, rfl⟩ := new _ stored
    exact ⟨rfl, rfl⟩
  | schedule now c x cron nextJobId nextRunAt =>
    obtain ⟨-, rfl⟩ := new _ stored
    exact ⟨rfl, rfl⟩
  | claim now c x workerId _ hx => exact (old x (x.claim workerId now) hx rfl stored).elim
  | succeed now c x result _ held =>
    exact (old x (x.succeed result now) (hl.held_stored c x held).1 rfl stored).elim
  | fail now c x error _ held =>
    exact (old x (x.fail error (backoffSeconds x.attemptCount) now) (hl.held_stored c x held).1 rfl
      stored).elim
  | revert now c x error _ held =>
    exact (old x (x.fail error (backoffSeconds x.attemptCount) now) (hl.held_stored c x held).1 rfl
      stored).elim
  | cancel now x _ hx => exact (old x (x.cancel now) hx rfl stored).elim

/-- A call comes to hold a job by claiming it when it is pending, and otherwise held it before. -/
theorem Step.held_cases (hs : Step l m l') {c : CallId} {x : JobRecord}
    (hx : l'.held c = some x) :
    (∃ y, l.held c = some y ∧ y.id = x.id) ∨
      ∃ r, l.jobs x.id = some r ∧ r.status.isPending = true := by
  have dropped : ∀ c', (if c = c' then none else l.held c) = some x →
      ∃ y, l.held c = some y ∧ y.id = x.id := by
    intro c' h
    split at h
    · cases h
    · exact ⟨x, h, rfl⟩
  have kept : l.held c = some x → ∃ y, l.held c = some y ∧ y.id = x.id := fun h => ⟨x, h, rfl⟩
  cases hs with
  | tick => exact Or.inl (kept hx)
  | create => exact Or.inl (kept hx)
  | cancel => exact Or.inl (kept hx)
  | claim now c' r workerId _ stored pending =>
    simp only [note_held, hold_held, put_held] at hx
    split at hx
    · cases hx
      exact Or.inr ⟨r, stored, pending⟩
    · exact Or.inl (kept hx)
  | succeed now c' r result _ held =>
    simp only [note_held, hold_held, put_held] at hx
    split at hx
    · rename_i heq
      cases hx
      exact Or.inl ⟨r, heq ▸ held, rfl⟩
    · exact Or.inl (kept hx)
  | close now c' r => exact Or.inl (dropped c' (by simpa only [hold_held] using hx))
  | schedule now c' r cron nextJobId nextRunAt =>
    exact Or.inl (dropped c' (by simpa only [note_held, hold_held, put_held] using hx))
  | fail now c' r error =>
    exact Or.inl (dropped c' (by simpa only [note_held, hold_held, put_held] using hx))
  | revert now c' r error =>
    exact Or.inl (dropped c' (by simpa only [note_held, hold_held, put_held] using hx))

/-- What a `schedule` move of `c` at time `now` requires of the parent and makes of it. -/
structure Schedules (l : Ledger) (c : CallId) (now : Int) (parent next : JobRecord) : Prop where
  held : l.held c = some parent
  status : parent.status = .succeeded
  fresh : l.jobs next.id = none
  successor : next = parent.successor next.id next.nextRunAt now
  run : ∃ cron, parent.recurringCron = some cron ∧ nextCronRun cron now = .ok next.nextRunAt

/-- A successor is noted when it is scheduled, and then stored, and the parent is let go. -/
theorem Step.scheduled_cases (hs : Step l m l') {parent next : JobRecord}
    (h : .scheduled parent next ∈ l'.history) : .scheduled parent next ∈ l.history ∨
      m = .schedule ∧ ∃ c, l.Schedules c l'.clock parent next ∧
        l' = ((l.put next).hold c none).note l'.clock (.scheduled parent next) := by
  cases hs with
  | tick => exact Or.inl h
  | close => exact Or.inl h
  | schedule now c r cron nextJobId nextRunAt time held status recurs run fresh =>
    rcases List.mem_cons.mp h with heq | h
    · cases heq
      exact Or.inr ⟨rfl, c, ⟨held, status, fresh, rfl, cron, recurs, run⟩, rfl⟩
    · exact Or.inl h
  | create | claim | succeed | fail | revert | cancel =>
    rcases List.mem_cons.mp h with heq | h
    · cases heq
    · exact Or.inl h

/-- The history only grows. -/
theorem Step.history_mono (hs : Step l m l') {e : Event} (h : e ∈ l.history) : e ∈ l'.history := by
  cases hs with
  | tick => exact h
  | close => exact h
  | create | claim | succeed | schedule | fail | revert | cancel => exact List.mem_cons_of_mem _ h

/-- **Terminal records stay**, under every move but `revert`. -/
theorem Step.terminal (hs : Step l m l') (hl : l.Consistent) (hm : m ≠ .revert) {id : UUID}
    {r : JobRecord} (stored : l.jobs id = some r) (terminal : r.status.isTerminal = true) :
    l'.jobs id = some r := by
  rcases hs.stored hl stored with h | ⟨r', h⟩
  · exact h
  · exact absurd (h.evolves.of_terminal terminal) hm

/-- The job is terminal and no call is answerable for it. -/
structure Settled (l : Ledger) (r : JobRecord) : Prop where
  stored : l.jobs r.id = some r
  terminal : r.status.isTerminal = true
  unheld : ∀ c x, l.held c = some x → x.id ≠ r.id

/-- **A settled job stays settled**, under every move. -/
theorem Settled.step {r : JobRecord} (h : l.Settled r) (hs : Step l m l') (hl : l.Consistent) :
    l'.Settled r := by
  refine ⟨?_, h.terminal, fun c x hx hid => ?_⟩
  · rcases hs.stored hl h.stored with hr | ⟨r', hr'⟩
    · exact hr
    · obtain ⟨c, hc⟩ := hr'.reverter (hr'.evolves.of_terminal h.terminal)
      exact absurd rfl (h.unheld c r hc)
  · rcases hs.held_cases hx with ⟨y, hy, hyx⟩ | ⟨y, hy, hpending⟩
    · exact h.unheld c y hy (hyx.trans hid)
    · rw [hid, h.stored, Option.some.injEq] at hy
      subst hy
      exact absurd h.terminal (by rw [JobStatus.not_terminal_of_pending hpending]; simp)

end Ledger

end JobPipeline
