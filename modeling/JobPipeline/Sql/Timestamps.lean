import JobPipeline.Jobs.Percentiles
import JobPipeline.Sql.Metrics
import JobPipeline.Sql.Pacing

/-!
# Timestamps and latencies

Every timestamp of a job is a clock reading of the session that wrote it, made before the commit. So
a later commit can put an earlier time over a later one; but if the clock does not run backwards, no
time of a job is before its creation, no attempt ends before it starts, and no latency that
`metrics` reports is negative or longer than the service has run.
-/

set_option autoImplicit false

namespace JobPipeline

/-- The times of a row lie between its creation, which is not before `t₀`, and `t`. -/
structure Job.TimedIn (row : Job) (t₀ t : Int) : Prop where
  created : t₀ ≤ row.createdAt ∧ row.createdAt ≤ t
  updated : row.createdAt ≤ row.updatedAt ∧ row.updatedAt ≤ t
  locked : ∀ lockedAt ∈ row.lockedAt, row.createdAt ≤ lockedAt ∧ lockedAt ≤ t
  processed : ∀ processedAt ∈ row.processedAt, row.createdAt ≤ processedAt ∧ processedAt ≤ t

namespace Job.TimedIn

variable {row : Job} {t₀ t t' : Int}

theorem mono (h : row.TimedIn t₀ t) (hle : t ≤ t') : row.TimedIn t₀ t' where
  created := ⟨h.created.1, h.created.2.trans hle⟩
  updated := ⟨h.updated.1, h.updated.2.trans hle⟩
  locked := fun lockedAt hmem =>
    ⟨(h.locked lockedAt hmem).1, (h.locked lockedAt hmem).2.trans hle⟩
  processed := fun processedAt hmem =>
    ⟨(h.processed processedAt hmem).1, (h.processed processedAt hmem).2.trans hle⟩

/-- A row as it is written at `now`. -/
theorem new (hcreated : row.createdAt = t) (hupdated : row.updatedAt = t)
    (hlocked : row.lockedAt = none) (hprocessed : row.processedAt = none) (hle : t₀ ≤ t) :
    row.TimedIn t₀ t where
  created := by rw [hcreated]; exact ⟨hle, le_refl t⟩
  updated := by rw [hcreated, hupdated]; exact ⟨le_refl t, le_refl t⟩
  locked := by rw [hlocked]; intro lockedAt hmem; cases hmem
  processed := by rw [hprocessed]; intro processedAt hmem; cases hmem

/-- A row after an `UPDATE` that writes the time `now` wherever it writes one. -/
theorem update {row' : Job} {now : Int} (h : row.TimedIn t₀ t) (hnow : row.createdAt ≤ now)
    (hle : now ≤ t) (hcreated : row'.createdAt = row.createdAt) (hupdated : row'.updatedAt = now)
    (hlocked : row'.lockedAt = none ∨ row'.lockedAt = some now ∨ row'.lockedAt = row.lockedAt)
    (hprocessed : row'.processedAt = some now ∨ row'.processedAt = row.processedAt) :
    row'.TimedIn t₀ t := by
  constructor
  · rw [hcreated]
    exact h.created
  · rw [hcreated, hupdated]
    exact ⟨hnow, hle⟩
  · rw [hcreated]
    intro lockedAt hmem
    rcases hlocked with heq | heq | heq
    · rw [heq] at hmem
      cases hmem
    · rw [heq] at hmem
      cases hmem
      exact ⟨hnow, hle⟩
    · rw [heq] at hmem
      exact h.locked lockedAt hmem
  · rw [hcreated]
    intro processedAt hmem
    rcases hprocessed with heq | heq
    · rw [heq] at hmem
      cases hmem
      exact ⟨hnow, hle⟩
    · rw [heq] at hmem
      exact h.processed processedAt hmem

end Job.TimedIn

namespace Sql

namespace Session

/-- The row a commit is about to be computed from, and the clock reading it is going to write. -/
def reading : Session → Option (Job × Int)
  | .claimPending read _ t => some (read, t)
  | .succeedPending _ read _ t => some (read, t)
  | .failPending _ _ read _ t => some (read, t)
  | .cancelPending read t => some (read, t)
  | _ => none

theorem read_of_reading {session : Session} {read : Job} {t : Int}
    (h : session.reading = some (read, t)) : session.read = some read := by
  cases session with
  | claimPending | succeedPending | failPending | cancelPending =>
    cases h
    rfl
  | _ => cases h

end Session

namespace State

open Transition

variable {settings : Settings} {jsonb : Jsonb} {s s' : State} {c d : CallId} {jobId : UUID}
  {now t₀ t : Int} {action : Action} {label : Label} {call : Option CallId} {row : Job}

theorem reading_of_act (hs : s.act settings jsonb now action = some s') {read : Job}
    (h : (s'.sessions c).reading = some (read, t)) :
    s'.sessions c = s.sessions c ∨ s'.db = s.db ∧ t = now := by
  rcases entered_of_act hs c with heq | hentered
  · exact .inl heq
  · cases hsession : s'.sessions c with
    | claimPending read' workerId t' =>
      rw [hsession] at h
      cases h
      rcases claimPending_of_act hs hsession with hbefore | ⟨hdb, -, -, -, rfl⟩
      · exact .inl hbefore.symm
      · exact .inr ⟨hdb, rfl⟩
    | failPending job succeeded read' error t' =>
      rw [hsession] at h
      cases h
      rcases failPending_of_act hs hsession with hbefore | ⟨hdb, rfl⟩
      · exact .inl hbefore.symm
      · exact .inr ⟨hdb, rfl⟩
    | succeedPending job read' result t' =>
      rw [hsession] at h hentered
      cases h
      obtain ⟨d, rfl⟩ := hentered
      simp only [act] at hs
      repeat' split at hs
      all_goals cases hs
      all_goals rcases session_of_setSession hsession with ⟨rfl, heq⟩ | hbefore
      all_goals first | exact .inl hbefore.symm | cases heq
      exact .inr ⟨rfl, rfl⟩
    | cancelPending read' t' =>
      rw [hsession] at h hentered
      cases h
      obtain ⟨d, jobId, rfl⟩ := hentered
      simp only [act] at hs
      repeat' split at hs
      all_goals cases hs
      all_goals rcases session_of_setSession hsession with ⟨rfl, heq⟩ | hbefore
      all_goals first | exact .inl hbefore.symm | cases heq
      exact .inr ⟨rfl, rfl⟩
    | _ =>
      rw [hsession] at h
      cases h

/-- A row comes to its `INSERT` with the time at which it was made. -/
theorem pendingRow_of_act (hs : s.act settings jsonb now action = some s') (hle : t₀ ≤ now)
    (h : (s'.sessions c).pendingRow = some row) :
    (s.sessions c).pendingRow = some row ∨ row.TimedIn t₀ now := by
  rcases entered_of_act hs c with heq | hentered
  · exact .inl (heq ▸ h)
  · cases hsession : s'.sessions c with
    | inserting row' =>
      rw [hsession] at h hentered
      cases h
      obtain ⟨d, request, jobId, rfl⟩ := hentered
      simp only [act, submitJob] at hs
      repeat' split at hs
      all_goals cases hs
      all_goals rcases session_of_setSession hsession with ⟨rfl, heq⟩ | hbefore
      all_goals first | exact .inl (by rw [show s.sessions c = _ from hbefore]; rfl) | cases heq
      exact .inr (.new rfl rfl rfl rfl hle)
    | nextPending job succeeded next =>
      rw [hsession] at h hentered
      cases h
      obtain ⟨d, after, nextJobId, rfl⟩ := hentered
      simp only [act, State.next] at hs
      repeat' split at hs
      all_goals cases hs
      all_goals rcases session_of_setSession hsession with ⟨rfl, heq⟩ | hbefore
      all_goals first | exact .inl (by rw [show s.sessions c = _ from hbefore]; rfl) | cases heq
      exact .inr (.new rfl rfl rfl rfl hle)
    | _ =>
      rw [hsession] at h
      cases h

/-! ## The invariant -/

/-- The times of an attempt: it starts after its job is created, and ends after it starts. -/
structure AttemptTimedIn (s : State) (attempt : JobAttempt) (t : Int) : Prop where
  created : ∃ row, s.db.jobs.get? attempt.jobId = some row ∧ row.createdAt ≤ attempt.startedAt
  started : attempt.startedAt ≤ t
  finished : ∀ finishedAt ∈ attempt.finishedAt, attempt.startedAt ≤ finishedAt ∧ finishedAt ≤ t

/-- The time a call is going to write: after the creation of the job, and, if the call holds the job,
    after the starts of its attempts. -/
structure ReadIn (s : State) (c : CallId) (read : Job) (t' t : Int) : Prop where
  le : t' ≤ t
  created : ∀ row, s.db.jobs.get? read.id = some row → row.createdAt ≤ t'
  started : (s.sessions c).held = some read.id →
    ∀ attempt ∈ s.attemptsOf read.id, attempt.startedAt ≤ t'

structure Timed (s : State) (t₀ t : Int) : Prop where
  rows : ∀ jobId row, s.db.jobs.get? jobId = some row → row.TimedIn t₀ t
  attempts : ∀ attempt ∈ s.db.jobAttempts, s.AttemptTimedIn attempt t
  pending : ∀ c row, (s.sessions c).pendingRow = some row → row.TimedIn t₀ t
  reads : ∀ c read t', (s.sessions c).reading = some (read, t') → s.ReadIn c read t' t

/-- No call reads an earlier time than what is committed: a job that is created, an attempt that has
    started. -/
structure ClockFollows (s : State) (label : Label) : Prop where
  starts : s.ClockAhead label
  created : ∀ jobId row, s.db.jobs.get? jobId = some row → row.createdAt ≤ label.now

theorem Timed.clockFollows (h : s.Timed t₀ t) (hle : t ≤ label.now) : s.ClockFollows label where
  starts := fun attempt hmem => (h.attempts attempt hmem).started.trans hle
  created := fun jobId row hrow => (h.rows jobId row hrow).created.2.trans hle

theorem timed_initial (t₀ t : Int) : State.initial.Timed t₀ t := by
  constructor
  · intro jobId row hrow
    exact absurd hrow (by simp [State.initial, Database.empty])
  · intro attempt hmem
    cases hmem
  · intro c row hrow
    cases hrow
  · intro c read t' hreading
    cases hreading

theorem Timed.row_act (h : s.Timed t₀ t) (he : Effect s s' call)
    (hrow : s'.db.jobs.get? jobId = some row) : row.TimedIn t₀ t := by
  have hsame : s'.db.jobs = s.db.jobs → row.TimedIn t₀ t := by
    intro hjobs
    rw [hjobs] at hrow
    exact h.rows jobId row hrow
  -- An `UPDATE` writes the time that its session has read.
  have hupdate : ∀ (c : CallId) {read : Job} {t' : Int} {assign : Job → Job},
      s'.db.jobs = s.db.jobs.modify read.id assign → (s.sessions c).reading = some (read, t') →
      (∀ row, (assign row).createdAt = row.createdAt) → (∀ row, (assign row).updatedAt = t') →
      (∀ row, (assign row).lockedAt = none ∨ (assign row).lockedAt = some t' ∨
        (assign row).lockedAt = row.lockedAt) →
      (∀ row, (assign row).processedAt = some t' ∨ (assign row).processedAt = row.processedAt) →
      row.TimedIn t₀ t := by
    intro c read t' assign hjobs hreading hcreated hupdated hlocked hprocessed
    by_cases hid : jobId = read.id
    · subst hid
      rw [hjobs, Dict.get?_modify_self] at hrow
      obtain ⟨before, hbefore, rfl⟩ := Option.map_eq_some_iff.mp hrow
      have hread := h.reads c read t' hreading
      exact (h.rows read.id before hbefore).update (hread.created before hbefore) hread.le
        (hcreated before) (hupdated before) (hlocked before) (hprocessed before)
    · rw [hjobs, Dict.get?_modify_of_ne _ _ hid] at hrow
      exact h.rows jobId row hrow
  cases he with
  | idle tables => exact hsame tables.1
  | quiet _ _ tables => exact hsame tables.1
  | reads _ _ _ tables => exact hsame tables.1
  | start _ _ tables => exact hsame tables.1
  | insert c created payload session jobs attempts fresh new moves read held pending history raised
      drawn unkeyed before =>
    by_cases hid : jobId = created.id
    · subst hid
      rw [jobs, Dict.get?_insert_self] at hrow
      cases hrow
      obtain ⟨hcreated, hupdated, hlocked, hprocessed⟩ := h.pending c created before
      exact ⟨hcreated, hupdated, hlocked, hprocessed⟩
    · rw [jobs, Dict.get?_insert_of_ne _ _ hid] at hrow
      exact h.rows jobId row hrow
  | claim c read workerId t' before fits free jobs =>
    exact hupdate c jobs (by rw [before]; rfl) (fun _ => rfl) (fun _ => rfl)
      (fun _ => .inr (.inl rfl)) fun _ => .inr rfl
  | succeed c job read result stored t' before jobs =>
    exact hupdate c jobs (by rw [before]; rfl) (fun _ => rfl) (fun _ => rfl)
      (fun _ => .inl rfl) fun _ => .inl rfl
  | fail c job succeeded read error t' before fits jobs =>
    refine hupdate c jobs (by rw [before]; rfl) (fun _ => rfl) (fun _ => rfl)
      (fun _ => .inl rfl) fun row => ?_
    simp only [Job.failAssignments]
    split
    · exact .inl rfl
    · exact .inr rfl
  | cancel c read t' before jobs =>
    exact hupdate c jobs (by rw [before]; rfl) (fun _ => rfl) (fun _ => rfl)
      (fun _ => .inr (.inr rfl)) fun _ => .inl rfl

theorem AttemptTimedIn.mono {attempt : JobAttempt} (h : s.AttemptTimedIn attempt t) (hle : t ≤ now) :
    s.AttemptTimedIn attempt now where
  created := h.created
  started := h.started.trans hle
  finished := fun finishedAt hmem =>
    ⟨(h.finished finishedAt hmem).1, (h.finished finishedAt hmem).2.trans hle⟩

theorem Timed.mono (h : s.Timed t₀ t) (hle : t ≤ now) : s.Timed t₀ now where
  rows := fun jobId row hrow => (h.rows jobId row hrow).mono hle
  attempts := fun attempt hmem => (h.attempts attempt hmem).mono hle
  pending := fun c row hrow => (h.pending c row hrow).mono hle
  reads := by
    intro c read t' hreading
    have hread := h.reads c read t' hreading
    exact ⟨hread.le.trans hle, hread.created, hread.started⟩

/-- The times of an attempt hold on, since its job stays. -/
theorem AttemptTimedIn.step {attempt : JobAttempt} (h : s.AttemptTimedIn attempt t)
    (he : Effect s s' call) : s'.AttemptTimedIn attempt t := by
  obtain ⟨⟨row, hrow, hcreated⟩, hstarted, hfinished⟩ := h
  obtain ⟨row', hrow', hfixed⟩ := he.fixed hrow
  have hsame : row'.createdAt = row.createdAt := congrArg FixedColumns.createdAt hfixed
  exact ⟨⟨row', hrow', hsame ▸ hcreated⟩, hstarted, hfinished⟩

theorem Timed.attempt_act (h : s.Timed t₀ t) (hinv : s.Inv) (he : Effect s s' call)
    {attempt : JobAttempt} (hmem : attempt ∈ s'.db.jobAttempts) : s'.AttemptTimedIn attempt t := by
  have hold : ∀ attempt ∈ s.db.jobAttempts, s'.AttemptTimedIn attempt t :=
    fun attempt hmem => (h.attempts attempt hmem).step he
  have hfinish : ∀ (c : CallId) {read : Job} {t' : Int} {status : AttemptStatus}
      {error : Option String}, (s.sessions c).reading = some (read, t') →
      (s.sessions c).held = some read.id →
      s'.db.jobAttempts = (s.db.finishAttempt read.id read.attemptCount status error t').jobAttempts →
      s'.AttemptTimedIn attempt t := by
    intro c read t' status error hreading hheld hattempts
    rw [hattempts, Database.finishAttempt] at hmem
    obtain ⟨before, hbefore, rfl⟩ := List.mem_map.mp hmem
    have hread := h.reads c read t' hreading
    split
    · rename_i hsame
      obtain ⟨hcreated, hstarted, -⟩ := hold before hbefore
      refine ⟨hcreated, hstarted, ?_⟩
      intro finishedAt hfinished
      cases hfinished
      have hmem : before ∈ s.attemptsOf read.id := List.mem_filter.mpr ⟨hbefore, by simp [hsame.1]⟩
      exact ⟨hread.started hheld before hmem, hread.le⟩
    · exact hold before hbefore
  have hcases := he
  cases hcases with
  | idle tables => exact hold attempt (tables.2 ▸ hmem)
  | quiet _ _ tables => exact hold attempt (tables.2 ▸ hmem)
  | reads _ _ _ tables => exact hold attempt (tables.2 ▸ hmem)
  | start _ _ tables => exact hold attempt (tables.2 ▸ hmem)
  | insert _ _ _ _ _ attempts => exact hold attempt (attempts ▸ hmem)
  | cancel _ _ _ _ _ attempts => exact hold attempt (attempts ▸ hmem)
  | succeed c job read result stored t' before jobs attempts =>
    obtain ⟨hid, -⟩ := hinv.read_current c read job.id (by rw [before]; rfl) (by rw [before]; rfl)
    exact hfinish c (by rw [before]; rfl) (by rw [before, hid]; rfl) attempts
  | fail c job succeeded read error t' before fits jobs attempts =>
    obtain ⟨hid, -⟩ := hinv.read_current c read job.id (by rw [before]; rfl) (by rw [before]; rfl)
    exact hfinish c (by rw [before]; rfl) (by rw [before, hid]; rfl) attempts
  | claim c read workerId t' before fits free jobs attempts =>
    rw [attempts, List.mem_append, List.mem_singleton] at hmem
    rcases hmem with hmem | rfl
    · exact hold attempt hmem
    · have hread := h.reads c read t' (by rw [before]; rfl)
      obtain ⟨row, hrow, -⟩ := hinv.read_stored c read (by rw [before]; rfl)
      refine ⟨⟨_, get?_of_update jobs hrow, hread.created row hrow⟩, hread.le, ?_⟩
      intro finishedAt hfinished
      cases hfinished

theorem Timed.read_act (h : s.Timed t₀ t) (hinv : s.Inv) (hle : now ≤ t)
    (hclock : s.ClockFollows ⟨now, action⟩) (hs : s.act settings jsonb now action = some s')
    {read : Job} {t' : Int} (hreading : (s'.sessions c).reading = some (read, t')) :
    s'.ReadIn c read t' t := by
  have he := act_effect hinv.toKnown hs
  rcases reading_of_act hs hreading with hbefore | ⟨hdb, rfl⟩
  · rw [hbefore] at hreading
    have hread := h.reads c read t' hreading
    refine ⟨hread.le, ?_, ?_⟩
    · intro row' hrow'
      obtain ⟨row, hrow, -⟩ := hinv.read_stored c read (Session.read_of_reading hreading)
      obtain ⟨row'', hrow'', hfixed⟩ := he.fixed hrow
      rw [hrow'] at hrow''
      cases hrow''
      have hsame : row'.createdAt = row.createdAt := congrArg FixedColumns.createdAt hfixed
      exact hsame ▸ hread.created row hrow
    · intro hheld
      rw [hbefore] at hheld
      exact hinv.starts_of_held hs hheld (hread.started hheld)
  · refine ⟨hle, ?_, ?_⟩
    · intro row hrow
      rw [hdb] at hrow
      exact hclock.created read.id row hrow
    · intro _ attempt hmem
      have hattempts : s'.attemptsOf read.id = s.attemptsOf read.id :=
        attemptsOf_congr (congrArg Database.jobAttempts hdb) read.id
      rw [hattempts] at hmem
      exact hclock.starts attempt (List.mem_of_mem_filter hmem)

/-- **A step of a clock that follows what is committed keeps the times in order.** -/
theorem Timed.act (h : s.Timed t₀ t) (hinv : s.Inv) (hstart : t₀ ≤ now) (hle : now ≤ t)
    (hclock : s.ClockFollows ⟨now, action⟩) (hs : s.act settings jsonb now action = some s') :
    s'.Timed t₀ t := by
  have he := act_effect hinv.toKnown hs
  constructor
  · intro jobId row hrow
    exact h.row_act he hrow
  · intro attempt hmem
    exact h.attempt_act hinv he hmem
  · intro c row hrow
    rcases pendingRow_of_act hs hstart hrow with hbefore | hnew
    · exact h.pending c row hbefore
    · exact hnew.mono hle
  · intro c read t' hreading
    exact h.read_act hinv hle hclock hs hreading

/-- **The times are in order** in every run between `t₀` and `t` in which no call reads an earlier
    time than the creation of a job or the start of an attempt that is committed. -/
theorem timed_of_reachable (h : (Sql.sessions settings jsonb).Reachable
    (fun s label => s.ClockFollows label ∧ t₀ ≤ label.now ∧ label.now ≤ t) s) : s.Timed t₀ t := by
  apply h.invariant_of_reachable (I := fun s => s.Timed t₀ t)
  · intro s hs
    have hs : s = State.initial := hs
    subst hs
    exact timed_initial t₀ t
  · intro s label s' hreach htimed hok hs
    exact htimed.act (inv_of_reachable hreach.any) hok.2.1 hok.2.2 hok.1 hs

/-- With a clock that does not run backwards, no time is later than the last step. -/
theorem timed_of_sorted {labels : List Label} {s₀ : State} {t₁ : Int}
    (hreach : (Sql.sessions settings jsonb).Reachable Any s₀) (h : s₀.Timed t₀ t) (hle : t ≤ t₁)
    (hlater : ∀ label ∈ labels, t ≤ label.now)
    (hspan : ∀ label ∈ labels, t₀ ≤ label.now ∧ label.now ≤ t₁)
    (hsorted : labels.Pairwise fun a b => a.now ≤ b.now)
    (hrun : System.replay (State.step settings jsonb) s₀ labels = some s) :
    ∃ t', t' ≤ t₁ ∧ s.Timed t₀ t' := by
  induction labels generalizing s₀ t with
  | nil =>
    cases hrun
    exact ⟨t, hle, h⟩
  | cons label rest ih =>
    obtain ⟨s₁, hs, hrest⟩ := System.replay_cons.mp hrun
    obtain ⟨hfirst, hsorted⟩ := List.pairwise_cons.mp hsorted
    obtain ⟨hstart, hend⟩ := hspan label List.mem_cons_self
    have hnow := hlater label List.mem_cons_self
    have htimed : s₁.Timed t₀ label.now :=
      (h.mono hnow).act (inv_of_reachable hreach) hstart (le_refl _) (h.clockFollows hnow) hs
    exact ih (hreach.tail trivial hs) htimed hend hfirst
      (fun other hmem => hspan other (List.mem_cons_of_mem _ hmem)) hsorted hrest

/-- A latency of a job whose times lie in a span. -/
theorem latency_within (hrows : ∀ jobId row, s.db.jobs.get? jobId = some row → row.TimedIn t₀ t)
    {v : ℚ} (hv : v ∈ latencies (SqlAlchemyJobRepository.terminalJobs s.db)) :
    0 ≤ v ∧ v ≤ ((t - t₀ : Int) : ℚ) / 1000000 := by
  obtain ⟨job, hjob, hlatency⟩ := mem_latencies.mp hv
  obtain ⟨row, hmem, rfl⟩ := List.mem_map.mp hjob
  obtain ⟨jobId, hrow⟩ := Dict.mem_values_iff.mp (List.mem_of_mem_filter hmem)
  have htimes := hrows jobId row hrow
  obtain ⟨processedAt, hprocessed, rfl⟩ := Option.map_eq_some_iff.mp hlatency
  have hprocessed : row.processedAt = some processedAt := hprocessed
  obtain ⟨hafter, hend⟩ := htimes.processed processedAt hprocessed
  have hstart := htimes.created.1
  constructor
  · apply div_nonneg _ (by norm_num)
    exact_mod_cast sub_nonneg.mpr hafter
  · apply div_le_div_of_nonneg_right _ (by norm_num)
    have hle : processedAt - row.createdAt ≤ t - t₀ := by omega
    exact_mod_cast hle

/-- The latencies that `metrics` reports are neither negative nor longer than the service has run. -/
theorem Timed.latencies (h : s.Timed t₀ t) (hle : t₀ ≤ t) :
    0 ≤ (SqlAlchemyJobRepository.metrics s.db).jobLatencyP50Seconds ∧
      (SqlAlchemyJobRepository.metrics s.db).jobLatencyP50Seconds ≤
        (SqlAlchemyJobRepository.metrics s.db).jobLatencyP95Seconds ∧
      (SqlAlchemyJobRepository.metrics s.db).jobLatencyP95Seconds ≤
        ((t - t₀ : Int) : ℚ) / 1000000 := by
  have hspan_nonneg : (0 : ℚ) ≤ ((t - t₀ : Int) : ℚ) / 1000000 := by
    apply div_nonneg _ (by norm_num)
    exact_mod_cast sub_nonneg.mpr hle
  exact latencyPercentiles_within (le_refl 0) hspan_nonneg fun v hv => latency_within h.rows hv

/-- **Times are in order**: with a clock that does not run backwards, in every run between `t₀` and
    `t₁` the times of every job and of every attempt are, and the latencies that `metrics` reports
    are neither negative nor longer than that, nor is the 95th percentile below the median. -/
theorem times_in_order {labels : List Label} {t₁ : Int}
    (hspan : ∀ label ∈ labels, t₀ ≤ label.now ∧ label.now ≤ t₁) (hle : t₀ ≤ t₁)
    (hsorted : labels.Pairwise fun a b => a.now ≤ b.now)
    (hrun : System.replay (State.step settings jsonb) State.initial labels = some s) :
    (∀ jobId row, s.db.getJob? jobId = some row → row.TimedIn t₀ t₁) ∧
      (∀ attempt ∈ s.db.jobAttempts, s.AttemptTimedIn attempt t₁) ∧
      0 ≤ (SqlAlchemyJobRepository.metrics s.db).jobLatencyP50Seconds ∧
      (SqlAlchemyJobRepository.metrics s.db).jobLatencyP50Seconds ≤
        (SqlAlchemyJobRepository.metrics s.db).jobLatencyP95Seconds ∧
      (SqlAlchemyJobRepository.metrics s.db).jobLatencyP95Seconds ≤
        ((t₁ - t₀ : Int) : ℚ) / 1000000 := by
  have hreach : (Sql.sessions settings jsonb).Reachable Any State.initial := .init rfl
  obtain ⟨t, ht, htimed⟩ := timed_of_sorted hreach (timed_initial t₀ t₀) hle
    (fun label hmem => (hspan label hmem).1) hspan hsorted hrun
  have htimed := htimed.mono ht
  exact ⟨htimed.rows, htimed.attempts, htimed.latencies hle⟩

/-- A job that succeeds after five seconds. -/
theorem times_in_order_of_success : ∃ (s : State) (row : Job),
    s.db.getJob? Sample.jobId = some row ∧ row.processedAt = some (seconds 5) ∧
      row.TimedIn 0 (seconds 5) ∧
      (SqlAlchemyJobRepository.metrics s.db).jobLatencyP95Seconds ≤
        ((seconds 5 - 0 : Int) : ℚ) / 1000000 := by
  have hrun : ∃ s row, System.replay (State.step {} some) State.initial
        (startedRun ++ [⟨seconds 5, .finish 1 (.value [])⟩, ⟨seconds 5, .succeedRead 1⟩,
          ⟨seconds 5, .succeedCommit 1⟩]) = some s ∧
      s.db.getJob? Sample.jobId = some row ∧ row.processedAt = some (seconds 5) :=
    ⟨_, _, rfl, rfl, rfl⟩
  obtain ⟨s, row, hs, hrow, hprocessed⟩ := hrun
  have hspan : ∀ label ∈ startedRun ++ [⟨seconds 5, .finish 1 (.value [])⟩,
      ⟨seconds 5, .succeedRead 1⟩, ⟨seconds 5, .succeedCommit 1⟩],
      0 ≤ label.now ∧ label.now ≤ seconds 5 := by
    decide
  obtain ⟨hrows, -, -, -, hp95⟩ := times_in_order hspan (by decide) (by decide) hs
  exact ⟨s, row, hrow, hprocessed, hrows Sample.jobId row hrow, hp95⟩

end State

end Sql

end JobPipeline
