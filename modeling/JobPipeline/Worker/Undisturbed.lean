import JobPipeline.Worker.MessageLoop

/-!
# Errors in the worker loop

An exception of `_publish_due_jobs` or of `_process_message` ends the loop over the messages, and
with it the handling of every message that is left. `undisturbed` says when no error does: at every
step that may raise, what the step needs is there. What a `process_job` needs is the matter of
`Sql.Processing`.
-/

set_option autoImplicit false

namespace JobPipeline

open Transition (System Any)

namespace MessageLoop

/-! ## The law and its condition -/

/-- The messages of the batch besides the one that is being handled, for which `_process_message`
    has not been called. -/
def others (w : MessageLoop) : List ConsumerRecord :=
  match w.worker.point with
  | .polled messages => messages
  | .looping (_ :: rest) => rest
  | _ => []

/-- `_process_message` was called for every message of the batch. -/
def AllCalled (w : MessageLoop) : Prop := ∀ message ∈ w.batch, message ∈ w.called

/-- The loop has ended only because it was told to, and not before all were called. -/
def EndsDone (w : MessageLoop) : Prop :=
  ∀ ending, w.ending = some ending → ending ≠ .lost → w.worker.running = false ∧ w.AllCalled

/-- The loop goes on, and from one batch to the next only when all were called. -/
structure Undisturbed (w : MessageLoop) : Prop where
  batch : w.worker.point = .ready → w.AllCalled
  loop : w.EndsDone

/-- What a step must find so as not to raise: the broker, for a job that is due; a `job_id` that
    `UUID` accepts, in a message; and what its `process_job` asks for. -/
def Clear (value : ConsumerRecord → Json) (w : MessageLoop) : Action → Prop
  | .publishDueJob => w.service.producer.available = true
  | .processMessage _ _ => ∀ message rest, w.worker.point = .looping (message :: rest) →
      ∃ jobId, messageJobId (value message) = .ok jobId
  | .service label => ∀ call, w.activity = .processing call → label.action.call = some call →
      w.service.Clear label.action
  | _ => True

/-- Nothing is at stake any more: the worker was told to stop, and this message is the last. -/
def Spared (w : MessageLoop) : Prop := w.worker.running = false ∧ w.others = []

def Guard (value : ConsumerRecord → Json) (w : MessageLoop) (action : Action) : Prop :=
  w.Clear value action ∨ w.Spared

/-! ## The invariant -/

/-- What is left of the batch, without the message that is being handled. -/
def pending (w : MessageLoop) : List ConsumerRecord :=
  match w.activity with
  | .processing _ => w.worker.left.tail
  | _ => w.worker.left

/-- The activity belongs to the place of the loop. -/
def Doing (w : MessageLoop) : Prop :=
  match w.activity with
  | .none => True
  | .scheduling _ => ∃ messages, w.worker.point = .polled messages
  | .processing call => (∃ message rest, w.worker.point = .looping (message :: rest)) ∧
      (w.service.sessions call).Processing

structure Inv (w : MessageLoop) : Prop where
  service : w.service.Inv
  served : w.service.Served
  doing : w.Doing
  /-- Until the loop ends, each message of the batch is called once or still to be called. -/
  split : w.worker.point ≠ .stopped → (w.called ++ w.pending).Perm w.batch
  nodup : w.batch.Nodup
  ended : w.ending ≠ none → w.worker.point = .stopped

/-- What a step from `w` to `w'` has to show, when it is clear under `clear`. -/
structure Sound (w w' : MessageLoop) (clear : Prop) : Prop where
  inv : w'.Inv
  endsDone : w.EndsDone → (w'.EndsDone ↔ clear ∨ w.Spared)

variable {settings : Settings} {jsonb : Jsonb} {assigned : List TopicPartition}
  {value : ConsumerRecord → Json} {w w' : MessageLoop} {call : CallId}

theorem Inv.ending_none (h : w.Inv) (hlive : w.worker.point ≠ .stopped) : w.ending = none := by
  by_contra hending
  exact hlive (h.ended hending)

/-- Between the two calls the loop is in no activity. -/
theorem Inv.idle (h : w.Inv) (hpolled : ∀ messages, w.worker.point ≠ .polled messages)
    (hlooping : ∀ message rest, w.worker.point ≠ .looping (message :: rest)) :
    w.activity = .none := by
  have hdoing := h.doing
  unfold Doing at hdoing
  cases hactivity : w.activity with
  | none => rfl
  | scheduling jobs =>
    rw [hactivity] at hdoing
    obtain ⟨messages, hpoint⟩ := hdoing
    exact absurd hpoint (hpolled messages)
  | processing call =>
    rw [hactivity] at hdoing
    obtain ⟨⟨message, rest, hpoint⟩, -⟩ := hdoing
    exact absurd hpoint (hlooping message rest)

theorem Inv.split_of_idle (h : w.Inv) (hactivity : w.activity = .none)
    (hlive : w.worker.point ≠ .stopped) : (w.called ++ w.worker.left).Perm w.batch := by
  have hsplit := h.split hlive
  simp only [pending, hactivity] at hsplit
  exact hsplit

theorem Inv.scheduling (h : w.Inv) {jobs : List JobRecord}
    (hactivity : w.activity = .scheduling jobs) :
    ∃ messages, w.worker.point = .polled messages ∧ w.ending = none ∧
      (w.called ++ messages).Perm w.batch := by
  have hdoing := h.doing
  simp only [Doing, hactivity] at hdoing
  obtain ⟨messages, hpoint⟩ := hdoing
  have hsplit := h.split (by simp [hpoint])
  simp only [pending, hactivity, Worker.left, hpoint] at hsplit
  exact ⟨messages, hpoint, h.ending_none (by simp [hpoint]), hsplit⟩

/-- The invariant once the loop has ended. -/
theorem Inv.of_stopped (service : w.service.Inv) (served : w.service.Served)
    (activity : w.activity = .none) (nodup : w.batch.Nodup) (stopped : w.worker.point = .stopped) :
    w.Inv where
  service := service
  served := served
  doing := by simp [Doing, activity]
  split := fun hlive => absurd stopped hlive
  nodup := nodup
  ended := fun _ => stopped

/-- The invariant between the two calls. -/
theorem Inv.of_idle (service : w.service.Inv) (served : w.service.Served)
    (activity : w.activity = .none) (nodup : w.batch.Nodup) (ending : w.ending = none)
    (split : (w.called ++ w.worker.left).Perm w.batch) : w.Inv where
  service := service
  served := served
  doing := by simp [Doing, activity]
  split := fun _ => by simpa [pending, activity] using split
  nodup := nodup
  ended := fun hne => absurd ending hne

theorem endsDone_of_none (h : w.ending = none) : w.EndsDone := by
  intro ending hending
  rw [h] at hending
  cases hending

/-- Nothing has ended. -/
theorem Sound.live {clear : Prop} (hclear : clear) (hinv : w'.Inv) (hending : w'.ending = none) :
    Sound w w' clear :=
  ⟨hinv, fun _ => iff_of_true (endsDone_of_none hending) (Or.inl hclear)⟩

/-- Nothing that the law speaks of has changed, except that the worker may have been told to stop. -/
theorem Sound.same {clear : Prop} (hclear : clear) (hinv : w'.Inv) (hending : w'.ending = w.ending)
    (hbatch : w'.batch = w.batch) (hcalled : w'.called = w.called)
    (hrunning : w.worker.running = false → w'.worker.running = false) : Sound w w' clear := by
  refine ⟨hinv, fun h => iff_of_true ?_ (Or.inl hclear)⟩
  intro ending hsome hlost
  rw [hending] at hsome
  obtain ⟨hstop, hall⟩ := h ending hsome hlost
  refine ⟨hrunning hstop, ?_⟩
  intro message hmem
  rw [hcalled]
  exact hall message (hbatch ▸ hmem)

/-- Every message has been called when none is left, and not before. -/
theorem all_called_iff {called rest batch : List ConsumerRecord}
    (hsplit : (called ++ rest).Perm batch) (hnodup : batch.Nodup) :
    (∀ message ∈ batch, message ∈ called) ↔ rest = [] := by
  constructor
  · intro hall
    have hdisjoint := (List.nodup_append.mp (hsplit.nodup_iff.mpr hnodup)).2.2
    apply List.eq_nil_iff_forall_not_mem.mpr
    intro message hmem
    have hcalled := hall message (hsplit.mem_iff.mp (List.mem_append_right _ hmem))
    exact hdisjoint message hcalled message hmem rfl
  · intro hrest message hmem
    subst hrest
    rw [List.append_nil] at hsplit
    exact hsplit.mem_iff.mpr hmem

theorem stopped_of_failed {worker worker' : Worker} {action : Worker.Action}
    (hfailed : action = .publishDueJobs false ∨ action = .processMessage false)
    (hs : worker.step settings assigned action = some worker') :
    worker'.point = .stopped ∧ worker'.running = worker.running := by
  rcases hfailed with rfl | rfl
  all_goals
    simp only [Worker.step] at hs
    split at hs
    · cases hs
      exact ⟨rfl, rfl⟩
    · cases hs

/-- **An error in one of the calls ends the loop**; that breaks the law unless nothing was at
    stake any more. -/
theorem raise_sound {action : Worker.Action} {exc : Exc} {clear : Prop} (hinv : w.Inv)
    (w₁ : MessageLoop) (hworker : w₁.worker = w.worker) (hbatch : w₁.batch = w.batch)
    (hservice : w₁.service.Inv) (hserved : w₁.service.Served)
    (hsplit : (w₁.called ++ w.others).Perm w.batch) (hblocked : ¬ clear)
    (hfailed : action = .publishDueJobs false ∨ action = .processMessage false)
    (hs : w₁.raise settings assigned action exc = some w') : Sound w w' clear := by
  unfold raise at hs
  rw [hworker] at hs
  obtain ⟨worker, hstep, rfl⟩ := Option.map_eq_some_iff.mp hs
  obtain ⟨hstopped, hrunning⟩ := stopped_of_failed hfailed hstep
  constructor
  · exact .of_stopped hservice hserved rfl (by rw [hbatch]; exact hinv.nodup) hstopped
  · intro _
    have hall := all_called_iff hsplit hinv.nodup
    constructor
    · intro hends
      obtain ⟨hstop, hcalled⟩ := hends (.raised exc) rfl (by simp)
      refine Or.inr ⟨hrunning ▸ hstop, hall.mp ?_⟩
      intro message hmem
      exact hcalled message (by rw [hbatch]; exact hmem)
    · intro hguard
      rcases hguard with hclear | ⟨hstop, hothers⟩
      · exact absurd hclear hblocked
      · intro ending _ _
        refine ⟨hrunning.trans hstop, ?_⟩
        intro message hmem
        exact hall.mpr hothers message (by rw [← hbatch]; exact hmem)

/-! ## The steps of the loop -/

theorem nodup_fetch (position : TopicPartition → Nat) (source : TopicPartition) (count : Nat) :
    (Worker.fetch position source count).Nodup := by
  apply List.Nodup.map _ List.nodup_range'
  intro offset offset' heq
  exact (ConsumerRecord.mk.inj heq).2

/-- A poll hands out no message twice. -/
theorem nodup_polled (position : TopicPartition → Nat) (counts : Dict TopicPartition Nat) :
    (counts.entries.flatMap fun p => Worker.fetch position p.1 p.2).Nodup := by
  apply List.nodup_flatMap.mpr
  refine ⟨fun p _ => nodup_fetch position p.1 p.2, ?_⟩
  refine (List.pairwise_map.mp counts.nodupKeys).imp ?_
  intro p q hne message hp hq
  exact hne ((Worker.mem_fetch.mp hp).1.symm.trans (Worker.mem_fetch.mp hq).1)

theorem poll_sound (hinv : w.Inv) {counts : Dict TopicPartition Nat}
    (hs : step settings jsonb assigned value w (.loop (.poll counts)) = some w') :
    Sound w w' True := by
  obtain ⟨worker, hstep, rfl⟩ := Option.map_eq_some_iff.mp hs
  simp only [Worker.step] at hstep
  split at hstep
  · rename_i hpoint
    have hactivity := hinv.idle (by simp [hpoint]) (by simp [hpoint])
    have hending := hinv.ending_none (by simp [hpoint])
    split at hstep
    · cases hstep
      have hnodup := nodup_polled w.worker.position counts
      refine .live trivial ?_ hending
      exact .of_idle hinv.service hinv.served hactivity hnodup hending List.Perm.rfl
    · cases hstep
  · cases hstep

/-- The loop goes round, or ends, with every message called. -/
theorem next_sound (hinv : w.Inv)
    (hs : step settings jsonb assigned value w (.loop .next) = some w') : Sound w w' True := by
  obtain ⟨worker, hstep, rfl⟩ := Option.map_eq_some_iff.mp hs
  simp only [Worker.step] at hstep
  split at hstep
  · rename_i hpoint
    cases hstep
    have hactivity := hinv.idle (by simp [hpoint]) (by simp [hpoint])
    have hending := hinv.ending_none (by simp [hpoint])
    have hsplit := hinv.split_of_idle hactivity (by simp [hpoint])
    simp only [Worker.left, hpoint] at hsplit
    cases hrunning : w.worker.running with
    | true =>
      have hending' : (w.note { w.worker with point := .ready, running := true } .next).ending =
          none := by simp [note, hending]
      refine .live trivial ?_ hending'
      exact .of_idle hinv.service hinv.served hactivity hinv.nodup hending' hsplit
    | false =>
      refine ⟨.of_stopped hinv.service hinv.served hactivity hinv.nodup rfl,
        fun _ => iff_of_true ?_ (Or.inl trivial)⟩
      intro ending _ _
      exact ⟨rfl, (all_called_iff hsplit hinv.nodup).mpr rfl⟩
  · cases hstep

theorem commit_sound (hinv : w.Inv) {taken : Bool}
    (hs : step settings jsonb assigned value w (.loop (.commit taken)) = some w') :
    Sound w w' True := by
  obtain ⟨worker, hstep, rfl⟩ := Option.map_eq_some_iff.mp hs
  simp only [Worker.step] at hstep
  split at hstep
  · rename_i rest hpoint
    have hactivity := hinv.idle (by simp [hpoint]) (by simp [hpoint])
    have hending := hinv.ending_none (by simp [hpoint])
    have hsplit := hinv.split_of_idle hactivity (by simp [hpoint])
    simp only [Worker.left, hpoint] at hsplit
    cases taken with
    | true =>
      cases hstep
      refine .live trivial ?_ hending
      exact .of_idle hinv.service hinv.served hactivity hinv.nodup hending hsplit
    | false =>
      cases hstep
      refine ⟨.of_stopped hinv.service hinv.served hactivity hinv.nodup rfl,
        fun _ => iff_of_true ?_ (Or.inl trivial)⟩
      intro ending hsome hlost
      exact absurd (Option.some.inj hsome).symm hlost
  · cases hstep

theorem restart_sound (hinv : w.Inv)
    (hs : step settings jsonb assigned value w (.loop .restart) = some w') : Sound w w' True := by
  obtain ⟨worker, hstep, rfl⟩ := Option.map_eq_some_iff.mp hs
  simp only [Worker.step] at hstep
  split at hstep
  · cases hstep
    exact .live trivial (.of_idle hinv.service hinv.served rfl List.nodup_nil rfl List.Perm.nil) rfl
  · cases hstep

theorem crash_sound (hinv : w.Inv)
    (hs : step settings jsonb assigned value w (.loop .crash) = some w') : Sound w w' True := by
  cases hs
  refine ⟨.of_stopped hinv.service hinv.served rfl hinv.nodup rfl,
    fun h => iff_of_true ?_ (Or.inl trivial)⟩
  intro ending hsome hlost
  cases hending : w.ending with
  | none =>
    simp only [note, hending] at hsome
    exact absurd (Option.some.inj hsome).symm hlost
  | some before =>
    simp only [note, hending] at hsome
    cases hsome
    exact h _ hending hlost

/-- **The loop alone keeps the law.** -/
theorem loop_sound (hinv : w.Inv) {action : Worker.Action}
    (hs : step settings jsonb assigned value w (.loop action) = some w') : Sound w w' True := by
  cases action with
  | poll counts => exact poll_sound hinv hs
  | next => exact next_sound hinv hs
  | commit taken => exact commit_sound hinv hs
  | restart => exact restart_sound hinv hs
  | crash => exact crash_sound hinv hs
  | publishDueJobs | processMessage => cases hs
  | produce source =>
    cases hs
    exact .same trivial ⟨hinv.service, hinv.served, hinv.doing, hinv.split, hinv.nodup, hinv.ended⟩
      rfl rfl rfl id
  | stop =>
    cases hs
    exact .same trivial ⟨hinv.service, hinv.served, hinv.doing, hinv.split, hinv.nodup, hinv.ended⟩
      rfl rfl rfl fun _ => rfl

/-! ## The steps of the two calls -/

/-- `_process_message` goes on, returns or raises as its `process_job` does. -/
theorem settle_sound (hinv : w.Inv) (w₁ : MessageLoop) {message : ConsumerRecord}
    {rest : List ConsumerRecord} {clear : Prop}
    (hpoint : w.worker.point = .looping (message :: rest)) (hworker : w₁.worker = w.worker)
    (hbatch : w₁.batch = w.batch) (hending : w₁.ending = none)
    (hservice : w₁.service.Inv) (hserved : w₁.service.Served)
    (hsplit : (w₁.called ++ rest).Perm w.batch)
    (hfate : clear ∧ (w₁.service.sessions call).Processing ∨
      clear ∧ (∃ job, w₁.service.sessions call = .returned job) ∨
      ¬ clear ∧ ∃ exc, w₁.service.sessions call = .raised exc)
    (hs : w₁.settle settings assigned call = some w') : Sound w w' clear := by
  have hnodup : w₁.batch.Nodup := hbatch ▸ hinv.nodup
  have hpoint₁ : w₁.worker.point = .looping (message :: rest) := by rw [hworker, hpoint]
  rcases hfate with ⟨hclear, hprocessing⟩ | ⟨hclear, job, hreturned⟩ | ⟨hblocked, exc, hraised⟩
  · -- Then the loop waits for the call, wherever that stands.
    have hon : some { w₁ with activity := .processing call } = some w' := by
      rw [← hs]
      unfold settle
      split
      · rename_i hsession
        rw [hsession] at hprocessing
        exact hprocessing.elim
      · rename_i hsession
        rw [hsession] at hprocessing
        exact hprocessing.elim
      · rfl
    cases hon
    refine .live hclear ?_ hending
    exact {
      service := hservice
      served := hserved
      doing := ⟨⟨message, rest, hpoint₁⟩, hprocessing⟩
      split := fun _ => by simpa [pending, Worker.left, hpoint₁, hbatch] using hsplit
      nodup := hnodup
      ended := fun hne => absurd hending hne }
  · simp only [settle, hreturned, returns, Worker.step, hpoint₁] at hs
    cases hs
    exact .live hclear (.of_idle hservice hserved rfl hnodup hending (hbatch ▸ hsplit)) hending
  · simp only [settle, hraised] at hs
    refine raise_sound hinv w₁ hworker hbatch hservice hserved ?_ hblocked (Or.inr rfl) hs
    simpa [others, hpoint] using hsplit

theorem service_sound (hinv : w.Inv) {label : Sql.Label}
    (hs : step settings jsonb assigned value w (.service label) = some w') :
    Sound w w' (w.Clear value (.service label)) := by
  simp only [step] at hs
  split at hs
  · cases hs
  rename_i service hstep
  have hservice := hinv.service.step hstep
  have hserved := hinv.served.act hinv.service hstep
  have hdoing := hinv.doing
  split at hs
  · rename_i call hactivity
    simp only [Doing, hactivity] at hdoing
    obtain ⟨⟨message, rest, hpoint⟩, hprocessing⟩ := hdoing
    have hending := hinv.ending_none (by simp [hpoint])
    have hsplit := hinv.split (by simp [hpoint])
    simp only [pending, hactivity, Worker.left, hpoint, List.tail_cons] at hsplit
    refine settle_sound hinv { w with service := service } hpoint rfl rfl hending hservice hserved
      hsplit ?_ hs
    by_cases hcall : label.action.call = some call
    · have hclear : w.Clear value (.service label) ↔ w.service.Clear label.action := by
        constructor
        · intro h
          exact h call hactivity hcall
        · intro h call' hactivity' _
          exact h
      rw [hclear]
      -- A step of the call that this message is processed by.
      cases Sql.State.process_step hinv.service hinv.served hprocessing hcall hstep with
      | goesOn clear processing => exact Or.inl ⟨clear, processing⟩
      | returns clear job returned => exact Or.inr (Or.inl ⟨clear, job, returned⟩)
      | raises blocked exc raised => exact Or.inr (Or.inr ⟨blocked, exc, raised⟩)
    · -- A step of someone else's call.
      have hother := (Sql.State.act_effect hinv.service.toKnown hstep).other hcall
      refine Or.inl ⟨?_, ?_⟩
      · intro call' hactivity' hcall'
        rw [hactivity] at hactivity'
        cases hactivity'
        exact absurd hcall' hcall
      · show (service.sessions call).Processing
        rw [hother]
        exact hprocessing
  · rename_i hactivity
    cases hs
    have hclear : w.Clear value (.service label) := fun call h => absurd h (hactivity call)
    have hinv' : Inv { w with service := service } := {
      service := hservice
      served := hserved
      doing := by
        unfold Doing at hdoing ⊢
        cases hw : w.activity with
        | none => trivial
        | scheduling jobs => simpa [hw] using hdoing
        | processing call => exact absurd hw (hactivity call)
      split := hinv.split
      nodup := hinv.nodup
      ended := hinv.ended }
    exact .same hclear hinv' rfl rfl rfl id

theorem dueJobs_sound (hinv : w.Inv) {now : Int} {order : List UUID}
    (hs : step settings jsonb assigned value w (.dueJobs now order) = some w') :
    Sound w w' True := by
  simp only [step] at hs
  split at hs
  · rename_i messages hpoint hactivity
    have hending := hinv.ending_none (by simp [hpoint])
    have hsplit := hinv.split_of_idle hactivity (by simp [hpoint])
    split at hs
    · cases hs
      refine .live trivial ?_ hending
      exact {
        service := hinv.service
        served := hinv.served
        doing := ⟨messages, hpoint⟩
        split := fun _ => hsplit
        nodup := hinv.nodup
        ended := fun hne => absurd hending hne }
    · cases hs
  · cases hs

theorem publishDueJob_sound (hinv : w.Inv)
    (hs : step settings jsonb assigned value w .publishDueJob = some w') :
    Sound w w' (w.Clear value .publishDueJob) := by
  simp only [step] at hs
  split at hs
  · rename_i job rest hactivity
    obtain ⟨messages, hpoint, hending, hsplit⟩ := hinv.scheduling hactivity
    unfold FakeJobProducer.publishJob at hs
    cases havailable : w.service.producer.available with
    | false =>
      simp only [havailable] at hs
      have hblocked : ¬ w.Clear value .publishDueJob := by simp [Clear, havailable]
      refine raise_sound hinv w rfl rfl hinv.service hinv.served ?_ hblocked (Or.inl rfl) hs
      simpa [others, hpoint] using hsplit
    | true =>
      simp only [havailable] at hs
      cases hs
      refine .live havailable ?_ hending
      exact {
        service := hinv.service.setProducer _
        served := hinv.served.setProducer _
        doing := ⟨messages, hpoint⟩
        split := fun _ => by simpa [pending, Worker.left, hpoint] using hsplit
        nodup := hinv.nodup
        ended := fun hne => absurd hending hne }
  · cases hs

theorem dueJobsPublished_sound (hinv : w.Inv)
    (hs : step settings jsonb assigned value w .dueJobsPublished = some w') :
    Sound w w' True := by
  simp only [step] at hs
  split at hs
  · rename_i hactivity
    obtain ⟨messages, hpoint, hending, hsplit⟩ := hinv.scheduling hactivity
    simp only [returns, Worker.step, hpoint] at hs
    cases hs
    have hsorted : (sortedByRank settings messages).Perm messages := List.perm_insertionSort _ _
    have hsplit' := (hsorted.append_left w.called).trans hsplit
    exact .live trivial (.of_idle hinv.service hinv.served rfl hinv.nodup hending hsplit') hending
  · cases hs

/-- The session that `_process_message` opens. -/
theorem processing_of_process {s s' : Sql.State} {now : Int} {jobId : UUID} {workerId : String}
    (hs : s.act settings jsonb now (.process call jobId workerId) = some s') :
    (s'.sessions call).Processing ∨ ∃ job, s'.sessions call = .returned job := by
  simp only [Sql.State.act] at hs
  split at hs
  · split at hs
    · cases hs
      exact Or.inr ⟨none, Sql.State.sessions_setSession ..⟩
    · cases hs
      exact Or.inl (by rw [Sql.State.sessions_setSession]; trivial)
  · cases hs

theorem processMessage_sound (hinv : w.Inv) {now : Int}
    (hs : step settings jsonb assigned value w (.processMessage now call) = some w') :
    Sound w w' (w.Clear value (.processMessage now call)) := by
  simp only [step] at hs
  split at hs
  · rename_i message rest hpoint hactivity
    have hending := hinv.ending_none (by simp [hpoint])
    have hsplit := hinv.split_of_idle hactivity (by simp [hpoint])
    simp only [Worker.left, hpoint] at hsplit
    have hcalled : (message :: w.called ++ rest).Perm w.batch :=
      (List.perm_middle.symm).trans hsplit
    have hclear : w.Clear value (.processMessage now call) ↔
        ∃ jobId, messageJobId (value message) = .ok jobId := by
      constructor
      · intro h
        exact h message rest hpoint
      · intro h message' rest' hpoint'
        rw [hpoint] at hpoint'
        cases hpoint'
        exact h
    split at hs
    · rename_i exc herror
      -- The payload names no job, and `_process_message` raises at once.
      have hblocked : ¬ w.Clear value (.processMessage now call) := by
        rw [hclear]
        intro h
        obtain ⟨jobId, hok⟩ := h
        rw [hok] at herror
        cases herror
      refine raise_sound hinv { w with called := message :: w.called } rfl rfl hinv.service
        hinv.served ?_ hblocked (Or.inr rfl) hs
      simpa [others, hpoint] using hcalled
    · rename_i jobId hok
      split at hs
      · cases hs
      · rename_i service hstep
        have hlabel : w.service.step settings jsonb
            ⟨now, .process call jobId settings.workerId⟩ = some service := hstep
        refine settle_sound hinv { w with called := message :: w.called, service := service } hpoint
          rfl rfl hending (hinv.service.step hlabel) (hinv.served.act hinv.service hstep) hcalled
          ?_ hs
        have hid := hclear.mpr ⟨jobId, hok⟩
        rcases processing_of_process hstep with hprocessing | hreturned
        · exact Or.inl ⟨hid, hprocessing⟩
        · exact Or.inr (Or.inl ⟨hid, hreturned⟩)
  · cases hs

/-- **Every step keeps the invariant, and the law exactly when it meets the guard.** -/
theorem step_sound (hinv : w.Inv) {action : Action}
    (hs : step settings jsonb assigned value w action = some w') :
    Sound w w' (w.Clear value action) := by
  cases action with
  | loop action => exact loop_sound hinv hs
  | service label => exact service_sound hinv hs
  | dueJobs now order => exact dueJobs_sound hinv hs
  | publishDueJob => exact publishDueJob_sound hinv hs
  | dueJobsPublished => exact dueJobsPublished_sound hinv hs
  | processMessage now call => exact processMessage_sound hinv hs

theorem inv_of_initial (h : Initial settings jsonb w) : w.Inv := by
  have hinv := Sql.State.inv_of_reachable h.service
  have hserved := Sql.State.served_of_reachable h.service
  refine .of_idle hinv hserved h.activity (by rw [h.batch]; exact List.nodup_nil) h.ending ?_
  rw [h.called, h.batch, h.worker]
  exact List.Perm.nil

/-- At the head of the loop nothing is left of the batch. -/
theorem Inv.allCalled (h : w.Inv) (hready : w.worker.point = .ready) : w.AllCalled := by
  have hactivity := h.idle (by simp [hready]) (by simp [hready])
  have hsplit := h.split_of_idle hactivity (by simp [hready])
  simp only [Worker.left, hready] at hsplit
  exact (all_called_iff hsplit h.nodup).mpr rfl

theorem Inv.undisturbed_iff (h : w.Inv) : w.Undisturbed ↔ w.EndsDone :=
  ⟨fun hw => hw.loop, fun hw => ⟨h.allCalled, hw⟩⟩

/-- A new worker beside a new service. -/
def initial : MessageLoop where
  worker := .initial
  service := .initial
  activity := .none
  ending := none
  batch := []
  called := []

theorem initial_initial : Initial settings jsonb initial := ⟨rfl, .init rfl, rfl, rfl, rfl, rfl⟩

/-- A job is submitted, and its message delivered twice. -/
def Sample.polled : List Action :=
  [.service ⟨0, .submit 1 Sample.request Sample.jobId⟩, .service ⟨0, .insertCommit 1⟩,
    .service ⟨0, .insertRefresh 1⟩, .service ⟨0, .publish 1⟩, .loop (.produce ⟨"jobs.retry", 0⟩),
    .loop (.produce ⟨"jobs.retry", 0⟩), .loop (.poll (Dict.empty.insert ⟨"jobs.retry", 0⟩ 2)),
    .dueJobs 0 [Sample.jobId]]

/-- The job is claimed, … -/
def Sample.claimed : List Action :=
  [.dueJobsPublished, .processMessage 0 2, .service ⟨0, .claimRead 2⟩]

/-- … executed, and its messages committed: the second one finds nothing to do. -/
def Sample.succeeded : List Action :=
  [.service ⟨0, .claimRefresh 2⟩, .service ⟨0, .finish 2 (.value [])⟩, .service ⟨0, .succeedRead 2⟩,
    .service ⟨0, .succeedCommit 2⟩, .service ⟨0, .succeedRefresh 2⟩,
    .service ⟨0, .next 2 0 Sample.nextJobId⟩, .loop (.commit true), .processMessage 0 3,
    .service ⟨0, .claimRead 3⟩, .loop (.commit true), .loop .next]

/-- The message of the job, wherever it stands. -/
def Sample.delivered (_ : ConsumerRecord) : Json := .obj [("job_id", .str Sample.jobId.str)]

/-- The first message of each log has no `job_id`. -/
def Sample.poisoned (message : ConsumerRecord) : Json :=
  if message.offset = 0 then .obj [] else Sample.delivered message

end MessageLoop

end JobPipeline
