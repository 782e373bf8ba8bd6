import Mathlib.Data.List.Sort
import JobPipeline.Jobs.Schemas
import JobPipeline.Lib.Dict
import JobPipeline.Lib.Transition

/-!
# The worker loop (`worker.py`)

`Worker.run` over the partitions its consumer is assigned. A partition is a log; the consumer
keeps a position in each, and the broker keeps a committed offset for each. `poll` hands out the
next messages of some partitions and moves the positions past all of them, and `commit` without
arguments commits the position of every assigned partition, not that of the message just
processed.

What `_process_message` and `_publish_due_jobs` come to, and whether a call to the broker goes
through, is in the label of the step. An exception leaves the loop through `finally`, whose
`close` commits nothing because `enable_auto_commit` is off; so it ends the process just as a
crash does, and a restarted worker takes its positions from the committed offsets.
-/

set_option autoImplicit false

namespace JobPipeline

structure TopicPartition where
  topic : String
  partition : Nat
deriving DecidableEq, Repr

/-- A message, named by its place in its log. -/
structure ConsumerRecord where
  source : TopicPartition
  offset : Nat
deriving DecidableEq, Repr

/-- `_topic_rank`. Where two settings name one topic the later entry of the literal counts. -/
def topicRank (settings : Settings) (topic : String) : Nat :=
  let ranks := [(settings.kafkaSubmittedLowTopic, 3), (settings.kafkaRetryTopic, 2),
    (settings.kafkaSubmittedDefaultTopic, 1), (settings.kafkaSubmittedHighTopic, 0)]
  (ranks.lookup topic).getD 99

/-- `sorted(messages, key=...)`: stable, as Python's is. -/
def sortedByRank (settings : Settings) (messages : List ConsumerRecord) : List ConsumerRecord :=
  messages.insertionSort fun a b =>
    topicRank settings a.source.topic ≤ topicRank settings b.source.topic

/-- Where `run` stands. -/
inductive Worker.Point where
  /-- At the head of the `while`. -/
  | ready
  /-- `poll` returned these messages; `_publish_due_jobs` comes next. -/
  | polled (messages : List ConsumerRecord)
  /-- In the `for`, with these messages left. -/
  | looping (messages : List ConsumerRecord)
  /-- A message has been processed; `commit` comes next, then these messages. -/
  | committing (messages : List ConsumerRecord)
  /-- The process has ended. -/
  | stopped
deriving DecidableEq, Repr

/-- The worker, its consumer and the broker. `returned` lists the messages for which a call of
    `_process_message` has returned; no step reads it. -/
structure Worker where
  point : Worker.Point
  running : Bool
  log : TopicPartition → Nat
  position : TopicPartition → Nat
  committed : TopicPartition → Nat
  returned : List ConsumerRecord

namespace Worker

open Transition (System)

/-- The messages a `poll` hands out from one partition. -/
def fetch (position : TopicPartition → Nat) (source : TopicPartition) (count : Nat) :
    List ConsumerRecord :=
  (List.range' (position source) count).map fun offset => ⟨source, offset⟩

inductive Action where
  /-- A producer appends a message. -/
  | produce (source : TopicPartition)
  /-- `consumer.poll`: so many messages of each of these partitions, in the order of the dict. -/
  | poll (counts : Dict TopicPartition Nat)
  /-- `_publish_due_jobs`, and whether it returned. -/
  | publishDueJobs (returns : Bool)
  /-- `_process_message`, and whether it returned. -/
  | processMessage (returns : Bool)
  /-- `consumer.commit()`, and whether the broker took it. -/
  | commit (returns : Bool)
  /-- The `for` is through. -/
  | next
  /-- A signal sets `running` to false. -/
  | stop
  | crash
  | restart

/-- One step; `none` when the action is not enabled. -/
def step (settings : Settings) (assigned : List TopicPartition) (w : Worker) :
    Action → Option Worker
  | .produce source => some { w with log := Function.update w.log source (w.log source + 1) }
  | .poll counts =>
    match w.point with
    | .ready =>
      if w.running ∧
          ∀ p ∈ counts.entries, p.1 ∈ assigned ∧ w.position p.1 + p.2 ≤ w.log p.1 then
        some { w with
          point := .polled (counts.entries.flatMap fun p => fetch w.position p.1 p.2)
          position := fun source => w.position source + (counts.get? source).getD 0 }
      else none
    | _ => none
  | .publishDueJobs returns =>
    match w.point with
    | .polled messages =>
      some { w with point := if returns then .looping (sortedByRank settings messages) else .stopped }
    | _ => none
  | .processMessage returns =>
    match w.point with
    | .looping (message :: rest) =>
      if returns then some { w with point := .committing rest, returned := message :: w.returned }
      else some { w with point := .stopped }
    | _ => none
  | .commit returns =>
    match w.point with
    | .committing rest =>
      if returns then
        some { w with
          point := .looping rest
          committed := fun source =>
            if source ∈ assigned then w.position source else w.committed source }
      else some { w with point := .stopped }
    | _ => none
  | .next =>
    match w.point with
    | .looping [] => some { w with point := if w.running then .ready else .stopped }
    | _ => none
  | .stop => some { w with running := false }
  | .crash => some { w with point := .stopped }
  | .restart =>
    match w.point with
    | .stopped => some { w with point := .ready, running := true, position := w.committed }
    | _ => none

/-- Empty logs and a consumer group without committed offsets, which starts at the earliest. -/
def initial : Worker :=
  { point := .ready, running := true, log := fun _ => 0, position := fun _ => 0,
    committed := fun _ => 0, returned := [] }

/-- The runs of a worker, through any number of ends and restarts. -/
def system (settings : Settings) (assigned : List TopicPartition) :
    Transition.System Worker Action :=
  .ofFunction (· = initial) (step settings assigned)

/-! ## The law of committed offsets -/

/-- Every message below a committed offset has been processed. -/
def CommittedProcessed (w : Worker) : Prop :=
  ∀ source offset, offset < w.committed source → ⟨source, offset⟩ ∈ w.returned

/-- The messages of the polled batch that are still to be processed. -/
def left (w : Worker) : List ConsumerRecord :=
  match w.point with
  | .polled messages => messages
  | .looping messages => messages
  | .committing messages => messages
  | _ => []

/-- A commit finds no message left that has never been processed. -/
def Drained (w : Worker) (action : Action) : Prop :=
  action = .commit true → ∀ message ∈ w.left, message ∈ w.returned

/-- While the worker lives, a message behind the position is processed or still in the batch. -/
structure Inv (assigned : List TopicPartition) (w : Worker) : Prop where
  behind : w.point ≠ .stopped → ∀ source offset, offset < w.position source →
    ⟨source, offset⟩ ∈ w.returned ∨ ⟨source, offset⟩ ∈ w.left
  left_behind : ∀ message ∈ w.left, message.source ∈ assigned ∧
    message.offset < w.position message.source
  committed : w.CommittedProcessed

variable {settings : Settings} {assigned : List TopicPartition} {w w' : Worker}

theorem mem_fetch {position : TopicPartition → Nat} {source : TopicPartition} {count : Nat}
    {message : ConsumerRecord} : message ∈ fetch position source count ↔
      message.source = source ∧ position source ≤ message.offset ∧
        message.offset < position source + count := by
  obtain ⟨source', offset⟩ := message
  simp only [fetch, List.mem_map, List.mem_range'_1, ConsumerRecord.mk.injEq]
  constructor
  · intro h
    obtain ⟨n, hn, rfl, rfl⟩ := h
    exact ⟨rfl, hn⟩
  · intro h
    obtain ⟨rfl, hn⟩ := h
    exact ⟨offset, hn, rfl, rfl⟩

theorem mem_sortedByRank {messages : List ConsumerRecord} {message : ConsumerRecord} :
    message ∈ sortedByRank settings messages ↔ message ∈ messages :=
  (List.perm_insertionSort _ messages).mem_iff

theorem inv_initial : Inv assigned initial := by
  refine ⟨?_, ?_, ?_⟩
  · intro _ source offset h
    exact absurd h (Nat.not_lt_zero _)
  · intro message h
    exact absurd h (by simp [left, initial])
  · intro source offset h
    exact absurd h (Nat.not_lt_zero _)

/-- A poll puts every message between the old and the new position into the batch. -/
theorem Inv.poll (h : w.Inv assigned) (hready : w.point = .ready) {counts : Dict TopicPartition Nat}
    (hassigned : ∀ p ∈ counts.entries, p.1 ∈ assigned) :
    Inv assigned { w with
      point := .polled (counts.entries.flatMap fun p => fetch w.position p.1 p.2)
      position := fun source => w.position source + (counts.get? source).getD 0 } := by
  have hleft : w.left = [] := by simp [left, hready]
  refine ⟨?_, ?_, h.committed⟩
  · intro _ source offset hlt
    change offset < w.position source + (counts.get? source).getD 0 at hlt
    by_cases hold : offset < w.position source
    · rcases h.behind (by simp [hready]) source offset hold with hret | hmem
      · exact Or.inl hret
      · rw [hleft] at hmem
        cases hmem
    · cases hcount : counts.get? source with
      | none =>
        rw [hcount] at hlt
        exact absurd hlt (by simpa using hold)
      | some count =>
        rw [hcount] at hlt
        refine Or.inr (List.mem_flatMap.mpr ⟨(source, count), Dict.mem_entries_iff.mpr hcount, ?_⟩)
        exact mem_fetch.mpr ⟨rfl, by simpa using hold, hlt⟩
  · intro message hmem
    obtain ⟨⟨source, count⟩, hp, hmem⟩ := List.mem_flatMap.mp hmem
    obtain ⟨hsource, -, hlt⟩ := mem_fetch.mp hmem
    simp only at hsource hlt
    subst hsource
    refine ⟨hassigned _ hp, ?_⟩
    show message.offset < w.position message.source + (counts.get? message.source).getD 0
    rw [Dict.mem_entries_iff.mp hp]
    exact hlt

/-- A worker that is not running owes nothing but the committed offsets. -/
theorem inv_of_stopped (hpoint : w.point = .stopped) (h : w.CommittedProcessed) :
    w.Inv assigned := by
  refine ⟨fun hne => absurd hpoint hne, ?_, h⟩
  intro message hmem
  simp [left, hpoint] at hmem

/-- Moving within the batch: nothing is left that was not left before, and what is not left any
    more has been processed. -/
theorem Inv.move (h : w.Inv assigned) (hlive : w.point ≠ .stopped)
    (hposition : w'.position = w.position) (hcommitted : w'.CommittedProcessed)
    (hreturned : ∀ message ∈ w.returned, message ∈ w'.returned)
    (hleft : ∀ message ∈ w'.left, message ∈ w.left)
    (hdone : ∀ message ∈ w.left, message ∈ w'.returned ∨ message ∈ w'.left) :
    w'.Inv assigned := by
  refine ⟨?_, ?_, hcommitted⟩
  · intro _ source offset hlt
    rw [hposition] at hlt
    rcases h.behind hlive source offset hlt with hret | hmem
    · exact Or.inl (hreturned _ hret)
    · exact hdone _ hmem
  · intro message hmem
    rw [hposition]
    exact h.left_behind message (hleft message hmem)

/-- **A commit keeps the law exactly when it finds the batch drained.** -/
theorem Inv.commit_iff (h : w.Inv assigned) {rest : List ConsumerRecord}
    (hpoint : w.point = .committing rest) (hs : step settings assigned w (.commit true) = some w') :
    w'.CommittedProcessed ↔ ∀ message ∈ w.left, message ∈ w.returned := by
  simp only [step, hpoint, if_true, Option.some.injEq] at hs
  subst hs
  constructor
  · intro hlaw message hmem
    obtain ⟨hassigned, hlt⟩ := h.left_behind message hmem
    apply hlaw message.source message.offset
    show message.offset < if message.source ∈ assigned then w.position message.source else _
    rw [if_pos hassigned]
    exact hlt
  · intro hdrained source offset hlt
    change offset < if source ∈ assigned then w.position source else w.committed source at hlt
    show (⟨source, offset⟩ : ConsumerRecord) ∈ w.returned
    split at hlt
    · rcases h.behind (by simp [hpoint]) source offset hlt with hret | hmem
      · exact hret
      · exact hdrained _ hmem
    · exact h.committed source offset hlt

theorem Inv.publishDueJobs (h : w.Inv assigned) {returns : Bool}
    (hs : step settings assigned w (.publishDueJobs returns) = some w') : w'.Inv assigned := by
  simp only [step] at hs
  split at hs
  · rename_i messages hpoint
    cases hs
    cases returns with
    | false => exact inv_of_stopped rfl h.committed
    | true =>
      have hleft : ∀ message, message ∈ sortedByRank settings messages ↔ message ∈ w.left := by
        intro message
        rw [mem_sortedByRank, left, hpoint]
      refine h.move (by simp [hpoint]) rfl h.committed (fun _ hm => hm) ?_ ?_
      · intro message hmem
        exact (hleft message).mp hmem
      · intro message hmem
        exact Or.inr ((hleft message).mpr hmem)
  · cases hs

theorem Inv.processMessage (h : w.Inv assigned) {returns : Bool}
    (hs : step settings assigned w (.processMessage returns) = some w') : w'.Inv assigned := by
  simp only [step] at hs
  split at hs
  · rename_i message rest hpoint
    have hleft : w.left = message :: rest := by simp [left, hpoint]
    cases returns with
    | false =>
      cases hs
      exact inv_of_stopped rfl h.committed
    | true =>
      cases hs
      -- The message leaves the batch for the processed ones.
      refine h.move (by simp [hpoint]) rfl ?_ (fun _ hm => List.mem_cons_of_mem _ hm) ?_ ?_
      · intro source offset hlt
        exact List.mem_cons_of_mem _ (h.committed source offset hlt)
      · intro m hmem
        rw [hleft]
        exact List.mem_cons_of_mem _ hmem
      · intro m hmem
        rw [hleft] at hmem
        rcases List.mem_cons.mp hmem with rfl | hmem
        · exact Or.inl List.mem_cons_self
        · exact Or.inr hmem
  · cases hs

theorem Inv.commit (h : w.Inv assigned) {returns : Bool} (hok : w.Drained (.commit returns))
    (hs : step settings assigned w (.commit returns) = some w') : w'.Inv assigned := by
  cases hpoint : w.point with
  | committing rest =>
    cases returns with
    | false =>
      simp only [step, hpoint] at hs
      cases hs
      exact inv_of_stopped rfl h.committed
    | true =>
      have hlaw := (h.commit_iff hpoint hs).mpr (hok rfl)
      have hleft : w.left = rest := by simp [left, hpoint]
      simp only [step, hpoint, if_true, Option.some.injEq] at hs
      subst hs
      refine h.move (by simp [hpoint]) rfl hlaw (fun _ hm => hm) ?_ ?_
      · intro message hmem
        rw [hleft]
        exact hmem
      · intro message hmem
        rw [hleft] at hmem
        exact Or.inr hmem
  | _ => simp [step, hpoint] at hs

theorem Inv.next (h : w.Inv assigned) (hs : step settings assigned w .next = some w') :
    w'.Inv assigned := by
  simp only [step] at hs
  split at hs
  · rename_i hpoint
    have hleft : w.left = [] := by simp [left, hpoint]
    cases hrunning : w.running with
    | false =>
      simp only [hrunning] at hs
      cases hs
      exact inv_of_stopped rfl h.committed
    | true =>
      simp only [hrunning] at hs
      cases hs
      refine h.move (by simp [hpoint]) rfl h.committed (fun _ hm => hm) ?_ ?_
      · intro message hmem
        cases hmem
      · intro message hmem
        rw [hleft] at hmem
        cases hmem
  · cases hs

/-- A restarted worker takes its positions from the committed offsets. -/
theorem Inv.restart (h : w.Inv assigned) (hs : step settings assigned w .restart = some w') :
    w'.Inv assigned := by
  simp only [step] at hs
  split at hs
  · cases hs
    refine ⟨?_, ?_, h.committed⟩
    · intro _ source offset hlt
      exact Or.inl (h.committed source offset hlt)
    · intro message hmem
      cases hmem
  · cases hs

/-- **A step that meets the guard keeps the invariant.** -/
theorem Inv.step (h : w.Inv assigned) {action : Action} (hok : w.Drained action)
    (hs : step settings assigned w action = some w') : w'.Inv assigned := by
  cases action with
  | produce source =>
    cases hs
    exact ⟨h.behind, h.left_behind, h.committed⟩
  | poll counts =>
    simp only [Worker.step] at hs
    split at hs
    · rename_i hready
      split at hs
      · rename_i hcounts
        cases hs
        exact h.poll hready fun p hp => (hcounts.2 p hp).1
      · cases hs
    · cases hs
  | publishDueJobs returns => exact h.publishDueJobs hs
  | processMessage returns => exact h.processMessage hs
  | commit returns => exact h.commit hok hs
  | next => exact h.next hs
  | stop =>
    cases hs
    exact ⟨h.behind, h.left_behind, h.committed⟩
  | crash =>
    cases hs
    exact inv_of_stopped rfl h.committed
  | restart => exact h.restart hs

theorem inv_of_reachable (h : (system settings assigned).Reachable Drained w) : w.Inv assigned := by
  apply h.invariant
  · intro _ heq
    subst heq
    exact inv_initial
  · intro w action w' hinv hok hs
    exact hinv.step hok hs

/-- **Committed offsets cover processed messages only**, in every state of a run whose commits
    all find the batch drained; and the next step keeps the law exactly when it does, too. -/
theorem committed_processed (h : (system settings assigned).Reachable Drained w) :
    w.CommittedProcessed ∧ ∀ action w', step settings assigned w action = some w' →
      (w'.CommittedProcessed ↔ w.Drained action) := by
  have hinv := inv_of_reachable h
  refine ⟨hinv.committed, ?_⟩
  intro action w' hs
  constructor
  · intro hlaw haction
    subst haction
    cases hpoint : w.point with
    | committing rest => exact (hinv.commit_iff hpoint hs).mp hlaw
    | _ => simp [step, hpoint] at hs
  · intro hok
    exact (hinv.step hok hs).committed

/-- A message whose commit failed is delivered again behind one of a higher rank. The commit of that
    one commits both, and both have been processed. -/
theorem committed_processed_of_leftover : ∃ w,
    (system {} [⟨"jobs.submitted.high", 0⟩, ⟨"jobs.retry", 0⟩]).Reachable Drained w ∧
      w.left = [⟨⟨"jobs.retry", 0⟩, 0⟩] ∧ w.committed ⟨"jobs.submitted.high", 0⟩ = 1 ∧
      w.committed ⟨"jobs.retry", 0⟩ = 1 ∧ w.CommittedProcessed := by
  have hrun : ∃ w w',
      System.replay (step {} [⟨"jobs.submitted.high", 0⟩, ⟨"jobs.retry", 0⟩]) initial
        [.produce ⟨"jobs.retry", 0⟩, .poll (Dict.empty.insert ⟨"jobs.retry", 0⟩ 1),
          .publishDueJobs true, .processMessage true, .commit false, .restart,
          .produce ⟨"jobs.submitted.high", 0⟩,
          .poll ((Dict.empty.insert ⟨"jobs.retry", 0⟩ 1).insert ⟨"jobs.submitted.high", 0⟩ 1),
          .publishDueJobs true, .processMessage true] = some w ∧
      step {} [⟨"jobs.submitted.high", 0⟩, ⟨"jobs.retry", 0⟩] w (.commit true) = some w' ∧
      w.left = [⟨⟨"jobs.retry", 0⟩, 0⟩] ∧
      w.returned = [⟨⟨"jobs.submitted.high", 0⟩, 0⟩, ⟨⟨"jobs.retry", 0⟩, 0⟩] ∧
      w'.left = [⟨⟨"jobs.retry", 0⟩, 0⟩] ∧ w'.committed ⟨"jobs.submitted.high", 0⟩ = 1 ∧
      w'.committed ⟨"jobs.retry", 0⟩ = 1 := ⟨_, _, rfl, rfl, rfl, rfl, rfl, rfl, rfl⟩
  obtain ⟨w, w', hw, hw', hleft, hreturned, hleft', hhigh, hretry⟩ := hrun
  have hreach : (system {} [⟨"jobs.submitted.high", 0⟩, ⟨"jobs.retry", 0⟩]).Reachable Drained w := by
    refine ⟨initial, rfl, System.Steps.of_replay hw fun action hmem w haction => ?_⟩
    subst haction
    simp at hmem
  have hdrained : w.Drained (.commit true) := by
    intro _ message hmem
    rw [hleft] at hmem
    rw [List.mem_singleton.mp hmem, hreturned]
    simp
  have hcommit := hreach.tail hdrained hw'
  exact ⟨w', hcommit, hleft', hhigh, hretry, (committed_processed hcommit).1⟩

/-- **A lost message**: two messages polled together, the first processed and committed, and a
    crash. The restarted worker starts behind the second, which was never processed. -/
theorem committed_unprocessed : ∃ w, (system {} [⟨"jobs.retry", 0⟩]).Reachable Transition.Any w ∧
    1 < w.committed ⟨"jobs.retry", 0⟩ ∧ w.point = .ready ∧ w.position ⟨"jobs.retry", 0⟩ = 2 ∧
      ⟨⟨"jobs.retry", 0⟩, 1⟩ ∉ w.returned := by
  have hrun : ∃ w, System.replay (step {} [⟨"jobs.retry", 0⟩]) initial
      [.produce ⟨"jobs.retry", 0⟩, .produce ⟨"jobs.retry", 0⟩,
        .poll (Dict.empty.insert ⟨"jobs.retry", 0⟩ 2), .publishDueJobs true,
        .processMessage true, .commit true, .crash, .restart] = some w ∧
      w.committed ⟨"jobs.retry", 0⟩ = 2 ∧ w.point = .ready ∧
      w.position ⟨"jobs.retry", 0⟩ = 2 ∧ w.returned = [⟨⟨"jobs.retry", 0⟩, 0⟩] :=
    ⟨_, rfl, rfl, rfl, rfl, rfl⟩
  obtain ⟨w, hw, hcommitted, hpoint, hposition, hreturned⟩ := hrun
  refine ⟨w, ⟨initial, rfl, System.Steps.of_replay hw fun _ _ _ => trivial⟩, ?_, hpoint, hposition, ?_⟩
  · rw [hcommitted]
    decide
  · rw [hreturned]
    decide

end Worker

end JobPipeline
