import Mathlib.Tactic.IntervalCases
import JobPipeline.Service.Moves
import JobPipeline.Service.Refinement

/-!
# Dead-letter events

`mark_failed_attempt` commits `DEAD_LETTERED` first and `publish_dead_letter` sends the event
afterwards. Between the two the call is at `deadLettering` and the job is settled: a redelivered
message finds it in a terminal state and does nothing. So an event is sent at most once, and it
is sent exactly when the producer is reachable at that one publish: `DeadLetterAvailable` is the
guard of the runs in which it always is.
-/

set_option autoImplicit false

namespace JobPipeline

namespace State

open Transition (System)

variable {settings : Settings} {s s' : State} {c : CallId}

/-- The dead-letter events of a job. -/
def deadLettersOf (s : State) (jobId : UUID) : List DeadLetterMessage :=
  s.producer.deadLetters.filter fun message => message.jobId = jobId

/-- A dead-letter publish finds the producer reachable. -/
def DeadLetterAvailable (s : State) (label : Label) : Prop :=
  ∀ c, label.action = .publishDeadLetter c → s.producer.available = true

/-- The job is stored as dead-lettered, with this record. -/
def Dead (s : State) (jobId : UUID) (r : JobRecord) : Prop :=
  s.repository.jobs.get? jobId = some r ∧ r.status = .deadLettered

/-- Events, dead-lettered jobs and calls about to publish agree. -/
structure DeadLettersAgree (s : State) : Prop where
  publishing : ∀ c r, s.calls c = .deadLettering r → s.Dead r.id r ∧ s.deadLettersOf r.id = []
  once : ∀ c c' r r', s.calls c = .deadLettering r → s.calls c' = .deadLettering r' →
    r.id = r'.id → c = c'
  dead : ∀ id r, s.Dead id r →
    (∃ c, s.calls c = .deadLettering r) ∨ s.deadLettersOf id = [r.deadLetterMessage]
  other : ∀ id, (∀ r, ¬ s.Dead id r) → s.deadLettersOf id = []

/-! ## What a step does to the three -/

/-- Only `publish_dead_letter` writes to the dead-letter log. -/
theorem act_deadLetters {now : Int} {action : Action} (h : act settings s now action = some s')
    (hne : ∀ c, action ≠ .publishDeadLetter c) :
    s'.producer.deadLetters = s.producer.deadLetters := by
  cases action with
  | publishDeadLetter c => exact absurd rfl (hne c)
  | submit c request jobId =>
    simp only [act, submitJob] at h
    repeat' split at h
    all_goals cases h
    all_goals rfl
  | claim c jobId workerId =>
    simp only [act, claimJob] at h
    repeat' split at h
    all_goals cases h
    all_goals rfl
  | publish c =>
    simp only [act, FakeJobProducer.publishJob] at h
    repeat' split at h
    all_goals cases h
    all_goals first
      | rfl
      | (rename_i hpublish
         split at hpublish <;> cases hpublish
         rfl)
  | finish | markSucceeded | createNext | markFailed | cancel | setDrain | setAvailable =>
    simp only [act] at h
    repeat' split at h
    all_goals cases h
    all_goals rfl

/-- Only `mark_failed_attempt` brings a call to `deadLettering`. -/
theorem act_deadLettering {now : Int} {action : Action} {r : JobRecord}
    (h : act settings s now action = some s') (hne : ∀ c, action ≠ .markFailed c)
    (hcall : s'.calls c = .deadLettering r) : s.calls c = .deadLettering r := by
  by_cases hc : action.call = some c
  · cases action with
    | markFailed c => exact absurd rfl (hne c)
    | submit c' request jobId =>
      cases hc
      simp only [act, submitJob] at h
      repeat' split at h
      all_goals cases h
      all_goals simp at hcall
    | claim c' jobId workerId =>
      cases hc
      simp only [act, claimJob] at h
      repeat' split at h
      all_goals cases h
      all_goals simp at hcall
    | publish | finish | markSucceeded | createNext | publishDeadLetter =>
      cases hc
      simp only [act] at h
      repeat' split at h
      all_goals cases h
      all_goals simp at hcall
    | cancel | setDrain | setAvailable => cases hc
  · rw [← act_calls h hc, hcall]

/-- Only `publish_dead_letter` takes a call away from it. -/
theorem act_of_deadLettering {now : Int} {action : Action} {r : JobRecord}
    (h : act settings s now action = some s') (hne : ∀ c, action ≠ .publishDeadLetter c)
    (hcall : s.calls c = .deadLettering r) : s'.calls c = .deadLettering r := by
  by_cases hc : action.call = some c
  · cases action with
    | publishDeadLetter c => exact absurd rfl (hne c)
    | submit | publish | claim | finish | markSucceeded | createNext | markFailed =>
      cases hc
      simp [act, hcall] at h
    | cancel | setDrain | setAvailable => cases hc
  · rw [act_calls h hc, hcall]

/-- A dead-lettered job stays as it is. -/
theorem Inv.dead_step (hinv : s.Inv) {label : Label} (h : step settings s label = some s')
    {id : UUID} {r : JobRecord} (hdead : s.Dead id r) : s'.Dead id r := by
  obtain ⟨⟨m, hmove, -⟩, -⟩ := (step_refines hinv h).1
  obtain ⟨stored, hstatus⟩ := hdead
  have hid : r.id = id := hinv.consistent.keyed id r stored
  subst hid
  have hsettled : s.ledger.Settled r := ⟨stored, by rw [hstatus]; rfl, fun c x hx =>
    hinv.consistent.not_held stored (by simp [hstatus]) (by simp [hstatus]) hx⟩
  exact ⟨(hsettled.step hmove hinv.consistent).stored, hstatus⟩

/-- Only `mark_failed_attempt` dead-letters a job. -/
theorem Inv.dead_of_step (hinv : s.Inv) {label : Label} (h : step settings s label = some s')
    (hne : ∀ c, label.action ≠ .markFailed c) {id : UUID} {r : JobRecord} (hdead : s'.Dead id r) :
    s.Dead id r := by
  obtain ⟨⟨m, hmove, hfail, hrevert⟩, -⟩ := (step_refines hinv h).1
  obtain ⟨stored, hstatus⟩ := hdead
  have hm : m ≠ .fail ∧ m ≠ .revert :=
    ⟨fun hm => let ⟨c, hc⟩ := hfail hm; hne c hc, fun hm => let ⟨c, hc, _⟩ := hrevert hm; hne c hc⟩
  cases hold : s.ledger.jobs id with
  | none =>
    obtain ⟨hqueued, -⟩ := hmove.stored_new hold stored hinv.consistent
    rw [hqueued] at hstatus
    cases hstatus
  | some x =>
    rcases hmove.stored hinv.consistent hold with hsame | ⟨r', hr'⟩
    · have hstored : s'.ledger.jobs id = some r := stored
      rw [hsame, Option.some.injEq] at hstored
      exact ⟨hstored ▸ hold, hstatus⟩
    · have hstored := hr'.stored.symm.trans (show s'.ledger.jobs id = some r from stored)
      rw [Option.some.injEq] at hstored
      subst hstored
      cases hr'.evolves with
      | claim => cases hstatus
      | succeed => cases hstatus
      | fail => exact absurd rfl hm.1
      | revert => exact absurd rfl hm.2
      | cancel => cases hstatus

/-! ## The invariant -/

theorem deadLettersAgree_initial : initial.DeadLettersAgree := by
  constructor <;> simp [initial, Dead, deadLettersOf, InMemoryJobRepository.empty,
    FakeJobProducer.empty, Dict.get?_empty]

/-- A step that touches neither. -/
theorem DeadLettersAgree.of_other (h : s.DeadLettersAgree) (hinv : s.Inv) {label : Label}
    (hs : step settings s label = some s') (hfail : ∀ c, label.action ≠ .markFailed c)
    (hpublish : ∀ c, label.action ≠ .publishDeadLetter c) : s'.DeadLettersAgree := by
  obtain ⟨-, hact⟩ := step_eq_some_iff.mp hs
  have hlog : ∀ id, s'.deadLettersOf id = s.deadLettersOf id := by
    intro id
    unfold deadLettersOf
    rw [act_deadLetters hact hpublish]
  have hcalls : ∀ c r, s'.calls c = .deadLettering r → s.calls c = .deadLettering r :=
    fun c r hc => act_deadLettering (s := { s with clock := label.now }) hact hfail hc
  constructor
  · intro c r hc
    obtain ⟨hdead, hnone⟩ := h.publishing c r (hcalls c r hc)
    exact ⟨hinv.dead_step hs hdead, by rw [hlog, hnone]⟩
  · exact fun c c' r r' hc hc' => h.once c c' r r' (hcalls c r hc) (hcalls c' r' hc')
  · intro id r hdead
    rw [hlog]
    rcases h.dead id r (hinv.dead_of_step hs hfail hdead) with ⟨c, hc⟩ | hevent
    · exact Or.inl ⟨c, act_of_deadLettering (s := { s with clock := label.now }) hact hpublish hc⟩
    · exact Or.inr hevent
  · intro id hnone
    rw [hlog]
    exact h.other id fun r hr => hnone r (hinv.dead_step hs hr)

/-- `mark_failed_attempt`, which may dead-letter the job it fails. -/
theorem DeadLettersAgree.markFailed (h : s.DeadLettersAgree) (hinv : s.Inv) {now : Int}
    (hs : step settings s ⟨now, .markFailed c⟩ = some s') : s'.DeadLettersAgree := by
  have hkeep : ∀ id r, s.Dead id r → s'.Dead id r := fun id r => hinv.dead_step hs
  obtain ⟨-, hact⟩ := step_eq_some_iff.mp hs
  obtain ⟨r, updated, error, hheld, hupdated, hstatus, heq⟩ :=
    act_markFailed (hinv.setClock now) hact
  have hid : updated.id = r.id := by rw [hupdated]; rfl
  have hstored : s.repository.jobs.get? r.id = some r := hinv.stored hheld
  have hlive : ∀ x, ¬ s.Dead r.id x := by
    intro x h
    obtain ⟨hx, hdead⟩ := h
    rw [hstored, Option.some.injEq] at hx
    subst hx
    rcases hstatus with hstatus | ⟨hstatus, -⟩ <;> rw [hstatus] at hdead <;> cases hdead
  have hlog : ∀ id, s'.deadLettersOf id = s.deadLettersOf id := by
    intro id
    rw [heq]
    rfl
  have hself : s'.calls c = if updated.status = .deadLettered then .deadLettering updated
      else .returned (some updated) := by rw [heq, setCall_self]
  have hothers : ∀ c', c' ≠ c → s'.calls c' = s.calls c' := by
    intro c' hne
    rw [heq, setCall_calls, if_neg hne]
    rfl
  -- The job the step fails is dead afterwards exactly as `updated`.
  have hdead' : ∀ id x, s'.Dead id x → s.Dead id x ∨
      id = r.id ∧ x = updated ∧ updated.status = .deadLettered := by
    intro id x h
    obtain ⟨hx, hdead⟩ := h
    rw [heq] at hx
    by_cases hir : id = r.id
    · subst hir
      have hx' : updated = x := Option.some.inj ((Dict.get?_insert_self _ _ _).symm.trans hx)
      exact Or.inr ⟨rfl, hx'.symm, hx' ▸ hdead⟩
    · exact Or.inl ⟨(Dict.get?_insert_of_ne _ updated hir).symm.trans hx, hdead⟩
  have hpublishing : ∀ c' x, s'.calls c' = .deadLettering x → c' ≠ c ∧ s.calls c' = .deadLettering x ∨
      c' = c ∧ x = updated ∧ updated.status = .deadLettered := by
    intro c' x hx
    by_cases hc : c' = c
    · subst hc
      rw [hself] at hx
      split at hx
      · rename_i hdead
        cases hx
        exact Or.inr ⟨rfl, rfl, hdead⟩
      · cases hx
    · exact Or.inl ⟨hc, hothers c' hc ▸ hx⟩
  constructor
  · intro c' x hx
    rw [hlog]
    rcases hpublishing c' x hx with ⟨-, hx⟩ | ⟨-, rfl, hdead⟩
    · obtain ⟨hdead, hnone⟩ := h.publishing c' x hx
      exact ⟨hkeep _ _ hdead, hnone⟩
    · refine ⟨⟨?_, hdead⟩, by rw [hid]; exact h.other r.id hlive⟩
      rw [heq, hid]
      exact Dict.get?_insert_self _ _ _
  · intro c₁ c₂ x₁ x₂ h₁ h₂ hxx
    rcases hpublishing c₁ x₁ h₁ with ⟨-, h₁⟩ | ⟨rfl, rfl, -⟩ <;>
      rcases hpublishing c₂ x₂ h₂ with ⟨-, h₂⟩ | ⟨rfl, rfl, -⟩
    · exact h.once c₁ c₂ x₁ x₂ h₁ h₂ hxx
    · exact absurd (hxx.trans hid ▸ (h.publishing c₁ x₁ h₁).1) (hlive x₁)
    · exact absurd (hxx.symm.trans hid ▸ (h.publishing c₂ x₂ h₂).1) (hlive x₂)
    · rfl
  · intro id x hx
    rw [hlog]
    rcases hdead' id x hx with hx | ⟨-, rfl, hdead⟩
    · rcases h.dead id x hx with ⟨c', hc'⟩ | hevent
      · refine Or.inl ⟨c', ?_⟩
        rw [hothers, hc']
        intro heq
        subst heq
        rw [show s.calls c' = _ from hc'] at hheld
        cases hheld
      · exact Or.inr hevent
    · exact Or.inl ⟨c, by rw [hself, if_pos hdead]⟩
  · intro id hnone
    rw [hlog]
    exact h.other id fun x hx => hnone x (hkeep id x hx)

/-- `publish_dead_letter` with the producer reachable. -/
theorem DeadLettersAgree.publish (h : s.DeadLettersAgree) (hinv : s.Inv) {now : Int}
    (havailable : s.producer.available = true)
    (hs : step settings s ⟨now, .publishDeadLetter c⟩ = some s') : s'.DeadLettersAgree := by
  obtain ⟨-, hact⟩ := step_eq_some_iff.mp hs
  simp only [act, FakeJobProducer.publishDeadLetter, havailable, not_true, if_false] at hact
  split at hact
  case h_2 => cases hact
  rename_i updated hcall
  have heq := (Option.some.inj hact).symm
  have hcall : s.calls c = .deadLettering updated := hcall
  obtain ⟨hdead, hnone⟩ := h.publishing c updated hcall
  have hiff : ∀ id x, s'.Dead id x ↔ s.Dead id x := by
    intro id x
    rw [heq]
    rfl
  have hlog : ∀ id, s'.deadLettersOf id =
      s.deadLettersOf id ++ if updated.id = id then [updated.deadLetterMessage] else [] := by
    intro id
    rw [heq]
    simp only [deadLettersOf, setCall_producer, List.filter_append, List.filter_cons,
      List.filter_nil, decide_eq_true_eq, JobRecord.deadLetterMessage]
  have hothers : ∀ c' x, s'.calls c' = .deadLettering x → c' ≠ c ∧ s.calls c' = .deadLettering x := by
    intro c' x hx
    rw [heq, setCall_calls] at hx
    split at hx
    · cases hx
    · exact ⟨by assumption, hx⟩
  constructor
  · intro c' x hx
    obtain ⟨hne, hx⟩ := hothers c' x hx
    obtain ⟨hdead', hnone'⟩ := h.publishing c' x hx
    refine ⟨(hiff _ _).mpr hdead', ?_⟩
    rw [hlog, hnone', if_neg fun hid => hne (h.once c' c x updated hx hcall hid.symm)]
    rfl
  · intro c₁ c₂ x₁ x₂ h₁ h₂ hxx
    exact h.once c₁ c₂ x₁ x₂ (hothers c₁ x₁ h₁).2 (hothers c₂ x₂ h₂).2 hxx
  · intro id x hx
    have hx := (hiff id x).mp hx
    by_cases hid : updated.id = id
    · subst hid
      -- The job is the one of this call, and this is its first dead letter.
      have hux : updated = x := Option.some.inj (hdead.1.symm.trans hx.1)
      apply Or.inr
      rw [hlog, hnone, if_pos rfl, hux]
      rfl
    · rw [hlog, if_neg hid, List.append_nil]
      rcases h.dead id x hx with ⟨c', hc'⟩ | hevent
      · refine Or.inl ⟨c', ?_⟩
        have hne : c' ≠ c := by
          intro heq
          subst heq
          rw [hcall] at hc'
          cases hc'
          exact hid (hinv.consistent.keyed id updated hx.1)
        rw [heq, setCall_calls, if_neg hne]
        exact hc'
      · exact Or.inr hevent
  · intro id hid
    have hne : updated.id ≠ id := by
      intro heq
      subst heq
      exact hid updated ((hiff _ _).mpr hdead)
    rw [hlog, if_neg hne, List.append_nil]
    exact h.other id fun x hx => hid x ((hiff id x).mpr hx)

/-- **The agreement along every run in which dead-letter publishes find the producer.** -/
theorem deadLettersAgree_of_reachable (h : (service settings).Reachable DeadLetterAvailable s) :
    s.DeadLettersAgree := by
  apply h.invariant_of_reachable (I := DeadLettersAgree)
  · intro _ heq
    subst heq
    exact deadLettersAgree_initial
  · intro s label s' hreach hagree hok hs
    have hinv := inv_of_reachable hreach
    obtain ⟨now, action⟩ := label
    cases action with
    | markFailed c => exact hagree.markFailed hinv hs
    | publishDeadLetter c => exact hagree.publish hinv (hok c rfl) hs
    | submit | publish | claim | finish | markSucceeded | createNext | cancel | setDrain
    | setAvailable => exact hagree.of_other hinv hs (by simp) (by simp)

/-- **Dead-letter events match dead-lettered jobs**: with no `process_job` in progress, the events
    of a job are the one event of its record if it is dead-lettered, and none otherwise. -/
theorem deadLetters_match (h : (service settings).Reachable DeadLetterAvailable s)
    (idle : ∀ c, ¬ (s.calls c).InProgress) (jobId : UUID) :
    (∀ r, s.Dead jobId r → s.deadLettersOf jobId = [r.deadLetterMessage]) ∧
      ((∀ r, ¬ s.Dead jobId r) → s.deadLettersOf jobId = []) := by
  have hagree := deadLettersAgree_of_reachable h
  refine ⟨fun r hr => ?_, hagree.other jobId⟩
  rcases hagree.dead jobId r hr with ⟨c, hc⟩ | hevent
  · exact absurd (show (s.calls c).InProgress from hc ▸ trivial) (idle c)
  · exact hevent

/-- A job without retries that fails: submitted, run and dead-lettered. -/
def deadLetterRun : List Label :=
  [⟨0, .submit 0 Sample.request.unretried Sample.jobId⟩,
    ⟨0, .publish 0⟩, ⟨0, .claim 1 Sample.jobId "worker-local"⟩,
    ⟨0, .finish 1 (.raised (.transient "boom"))⟩, ⟨0, .markFailed 1⟩]

/-- In a state reached by steps of calls 0, 1 and 2 only, these are the calls to look at. -/
theorem idle_of_replay {labels : List Label}
    (hs : System.replay (step settings) initial labels = some s)
    (hc : ∀ label ∈ labels, ∀ c ∈ label.action.call, c < 3)
    (h : ∀ c < 3, ¬ (s.calls c).InProgress) (c : CallId) : ¬ (s.calls c).InProgress := by
  by_cases hlt : c < 3
  · exact h c hlt
  · rw [replay_calls (fun label hl heq => hlt (hc label hl c heq)) hs]
    exact id

/-- The event of a job that was dead-lettered with the producer reachable. -/
theorem deadLetters_match_of_publish : ∃ s r, (service {}).Reachable DeadLetterAvailable s ∧
    s.Dead Sample.jobId r ∧ s.deadLettersOf Sample.jobId = [r.deadLetterMessage] := by
  have hrun : ∃ s s' r, System.replay (step {}) initial deadLetterRun = some s ∧
      step {} s ⟨0, .publishDeadLetter 1⟩ = some s' ∧ s.producer.available = true ∧
      s'.repository.jobs.get? Sample.jobId = some r ∧ r.status = .deadLettered ∧
      ¬ (s'.calls 0).InProgress ∧ ¬ (s'.calls 1).InProgress ∧ ¬ (s'.calls 2).InProgress :=
    ⟨_, _, _, rfl, rfl, rfl, rfl, rfl, id, id, id⟩
  obtain ⟨s, s', r, hs, hs', havailable, stored, hstatus, h₀, h₁, h₂⟩ := hrun
  have hreach : (service {}).Reachable DeadLetterAvailable s := by
    refine ⟨initial, rfl, System.Steps.of_replay hs fun label hlabel s c hc => ?_⟩
    simp only [deadLetterRun, List.mem_cons, List.not_mem_nil, or_false] at hlabel
    rcases hlabel with rfl | rfl | rfl | rfl | rfl <;> cases hc
  have hreach' : (service {}).Reachable DeadLetterAvailable s' :=
    hreach.tail (fun _ _ => havailable) hs'
  have hrun' : System.replay (step {}) initial (deadLetterRun ++ [⟨0, .publishDeadLetter 1⟩]) =
      some s' := by
    rw [System.replay, List.foldlM_append]
    show (System.replay (step {}) initial deadLetterRun >>= _) = _
    rw [hs]
    simp [hs']
  have idle := idle_of_replay hrun' (by decide) (by
    intro c hc
    interval_cases c <;> assumption)
  exact ⟨s', r, hreach', ⟨stored, hstatus⟩,
    (deadLetters_match hreach' idle _).1 r ⟨stored, hstatus⟩⟩

/-- **A lost event**: the publish met an outage, and the redelivery after it, with the producer
    reachable again, did nothing. -/
theorem deadLetter_lost : ∃ s r, (service {}).Reachable Transition.Any s ∧
    (∀ c, ¬ (s.calls c).InProgress) ∧ s.Dead Sample.jobId r ∧ s.producer.available = true ∧
      s.calls 2 = .returned none ∧ s.deadLettersOf Sample.jobId = [] := by
  have hrun : ∃ s r, System.replay (step {}) initial (deadLetterRun ++
      [⟨0, .setAvailable false⟩, ⟨0, .publishDeadLetter 1⟩, ⟨0, .setAvailable true⟩,
        ⟨1, .claim 2 Sample.jobId "worker-local"⟩]) = some s ∧
      s.repository.jobs.get? Sample.jobId = some r ∧ r.status = .deadLettered ∧
      ¬ (s.calls 0).InProgress ∧ ¬ (s.calls 1).InProgress ∧ s.calls 2 = .returned none ∧
      s.producer.available = true ∧ s.deadLettersOf Sample.jobId = [] :=
    ⟨_, _, rfl, rfl, rfl, id, id, rfl, rfl, rfl⟩
  obtain ⟨s, r, hs, stored, hstatus, h₀, h₁, h₂, havailable, hlog⟩ := hrun
  refine ⟨s, r, ⟨initial, rfl, System.Steps.of_replay hs fun _ _ _ => trivial⟩,
    idle_of_replay hs (by decide) ?_, ⟨stored, hstatus⟩, havailable, h₂, hlog⟩
  intro c hc
  interval_cases c
  · exact h₀
  · exact h₁
  · rw [h₂]
    exact id

end State

end JobPipeline
