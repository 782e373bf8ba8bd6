import JobPipeline.Lib.Sorting
import JobPipeline.Queue.Wire
import JobPipeline.Worker.Loop

/-!
# The order of processing

Between two restarts a worker processes the messages of each partition in the order of its log, each
of them once and without a gap, although it polls many partitions at once and sorts what it polled by
topic: the sort is stable. Across topics it processes a polled batch by rank, and whether rank means
priority depends on the names of the topics: `_topic_rank` looks a topic up in a dictionary, in which
of two equal names the later one counts.
-/

set_option autoImplicit false

namespace JobPipeline

namespace Worker

open Transition (System)

variable {settings : Settings} {assigned : List TopicPartition} {w w' w₀ : Worker}

/-- The offsets of the messages of one partition. -/
def offsets (messages : List ConsumerRecord) (source : TopicPartition) : List Nat :=
  (messages.filter fun message => message.source = source).map ConsumerRecord.offset

@[simp] theorem offsets_nil (source : TopicPartition) : offsets [] source = [] := rfl

@[simp] theorem offsets_append (ms ms' : List ConsumerRecord) (source : TopicPartition) :
    offsets (ms ++ ms') source = offsets ms source ++ offsets ms' source := by
  simp [offsets]

/-- Sorting by rank leaves the messages of one partition in order: they have one rank. -/
theorem offsets_sortedByRank (settings : Settings) (messages : List ConsumerRecord)
    (source : TopicPartition) :
    offsets (sortedByRank settings messages) source = offsets messages source := by
  unfold offsets sortedByRank
  rw [Sorting.filter_insertionSort_of_ties]
  intro a _ b _ ha hb
  rw [decide_eq_true_eq] at ha hb
  rw [ha, hb]

/-- What is fetched from one partition, in a batch from several. -/
theorem offsets_fetch (position : TopicPartition → Nat) (counts : Dict TopicPartition Nat)
    (source : TopicPartition) :
    offsets (counts.entries.flatMap fun p => fetch position p.1 p.2) source =
      List.range' (position source) ((counts.get? source).getD 0) := by
  have hfetch : ∀ source' count, offsets (fetch position source' count) source =
      if source' = source then List.range' (position source) count else [] := by
    intro source' count
    unfold offsets fetch
    by_cases heq : source' = source
    · subst heq
      simp [List.filter_map, Function.comp_def]
    · simp [List.filter_map, Function.comp_def, heq]
  obtain ⟨entries, hnodup⟩ := counts
  show offsets (entries.flatMap fun p => fetch position p.1 p.2) source =
    List.range' (position source) ((entries.lookup source).getD 0)
  induction entries with
  | nil => rfl
  | cons entry rest ih =>
    obtain ⟨source', count⟩ := entry
    rw [List.map_cons, List.nodup_cons] at hnodup
    rw [List.flatMap_cons, offsets_append, hfetch, Dict.lookup_cons_eq, ih hnodup.2]
    by_cases heq : source' = source
    · subst heq
      have hrest : rest.lookup source' = none := by
        rw [List.lookup_eq_none_iff]
        intro p hp
        have hne : source' ≠ p.1 := fun heq => hnodup.1 (List.mem_map.mpr ⟨p, hp, heq.symm⟩)
        simpa using hne
      simp [hrest]
    · simp [heq, Ne.symm heq]

/-! ## In the order of the log -/

/-- What has been processed since the worker stood at `w₀`, and what is left of the batch: of every
    partition the messages from its position then, in order. -/
def InOrder (w₀ w : Worker) : Prop :=
  ∃ done, w.returned = done.reverse ++ w₀.returned ∧ ∀ source, ∃ n,
    offsets done source ++ offsets w.left source = List.range' (w₀.position source) n ∧
      (w.point ≠ .stopped → w₀.position source + n = w.position source)

theorem inOrder_self (hready : w₀.point = .ready) : InOrder w₀ w₀ := by
  refine ⟨[], rfl, fun source => ⟨0, ?_, fun _ => rfl⟩⟩
  simp [left, hready]

/-- A worker that ends has processed the first of them. -/
theorem InOrder.stop (h : InOrder w₀ w) (hreturned : w'.returned = w.returned)
    (hpoint : w'.point = .stopped) : InOrder w₀ w' := by
  obtain ⟨done, hdone, horder⟩ := h
  refine ⟨done, hreturned.trans hdone, fun source => ?_⟩
  obtain ⟨n, hn, -⟩ := horder source
  obtain ⟨k, -, hk, -⟩ := List.range'_eq_append_iff.mp hn.symm
  refine ⟨k, ?_, fun hne => absurd hpoint hne⟩
  simp [left, hpoint, hk]

/-- A step that leaves what is left in place. -/
theorem InOrder.move (h : InOrder w₀ w) (hlive : w.point ≠ .stopped)
    (hreturned : w'.returned = w.returned) (hposition : w'.position = w.position)
    (hleft : ∀ source, offsets w'.left source = offsets w.left source) : InOrder w₀ w' := by
  obtain ⟨done, hdone, horder⟩ := h
  refine ⟨done, hreturned.trans hdone, fun source => ?_⟩
  obtain ⟨n, hn, hlast⟩ := horder source
  exact ⟨n, by rw [hleft, hn], fun _ => by rw [hposition, hlast hlive]⟩

theorem InOrder.poll (h : InOrder w₀ w) (hready : w.point = .ready)
    (counts : Dict TopicPartition Nat) :
    InOrder w₀ { w with
      point := .polled (counts.entries.flatMap fun p => fetch w.position p.1 p.2)
      position := fun source => w.position source + (counts.get? source).getD 0 } := by
  obtain ⟨done, hdone, horder⟩ := h
  refine ⟨done, hdone, fun source => ?_⟩
  obtain ⟨n, hn, hlast⟩ := horder source
  have hlast := hlast (by simp [hready])
  have hleft : w.left = [] := by simp [left, hready]
  rw [hleft, offsets_nil, List.append_nil] at hn
  refine ⟨n + (counts.get? source).getD 0, ?_, fun _ => ?_⟩
  · show offsets done source ++
      offsets (counts.entries.flatMap fun p => fetch w.position p.1 p.2) source = _
    rw [hn, offsets_fetch, ← hlast, List.range'_append_1]
  · show _ = w.position source + _
    omega

/-- Processing a message moves it from what is left to what is done. -/
theorem InOrder.processMessage (h : InOrder w₀ w) {message : ConsumerRecord}
    {rest : List ConsumerRecord} (hpoint : w.point = .looping (message :: rest)) :
    InOrder w₀ { w with point := .committing rest, returned := message :: w.returned } := by
  obtain ⟨done, hdone, horder⟩ := h
  refine ⟨done ++ [message], by simp [hdone], fun source => ?_⟩
  obtain ⟨n, hn, hlast⟩ := horder source
  refine ⟨n, ?_, fun _ => hlast (by simp [hpoint])⟩
  have hleft : w.left = [message] ++ rest := by simp [left, hpoint]
  rw [hleft, offsets_append, ← List.append_assoc, ← offsets_append] at hn
  exact hn

/-- **A step other than a restart keeps the order.** -/
theorem InOrder.step (h : InOrder w₀ w) {action : Action} (hok : action ≠ .restart)
    (hs : step settings assigned w action = some w') : InOrder w₀ w' := by
  cases action with
  | produce source => cases hs; exact h
  | stop => cases hs; exact h
  | crash => cases hs; exact h.stop rfl rfl
  | restart => exact absurd rfl hok
  | poll counts =>
    simp only [Worker.step] at hs
    split at hs
    · rename_i hready
      split at hs
      · cases hs
        exact h.poll hready counts
      · cases hs
    · cases hs
  -- The batch is sorted by topic, which keeps the order inside a partition.
  | publishDueJobs returns =>
    simp only [Worker.step] at hs
    split at hs
    · rename_i messages hpoint
      cases hs
      cases returns with
      | false => exact h.stop rfl rfl
      | true =>
        refine h.move (by simp [hpoint]) rfl rfl fun source => ?_
        rw [show w.left = messages by simp [left, hpoint], ← offsets_sortedByRank settings messages]
        rfl
    · cases hs
  | processMessage returns =>
    simp only [Worker.step] at hs
    split at hs
    · rename_i message rest hpoint
      cases returns with
      | false => cases hs; exact h.stop rfl rfl
      | true => cases hs; exact h.processMessage hpoint
    · cases hs
  | commit returns =>
    simp only [Worker.step] at hs
    split at hs
    · rename_i rest hpoint
      cases returns with
      | false => cases hs; exact h.stop rfl rfl
      | true =>
        cases hs
        refine h.move (by simp [hpoint]) rfl rfl fun source => ?_
        simp [left, hpoint]
    · cases hs
  | next =>
    simp only [Worker.step] at hs
    split at hs
    · rename_i hpoint
      cases hrunning : w.running with
      | false =>
        simp only [hrunning] at hs
        cases hs
        exact h.stop rfl rfl
      | true =>
        simp only [hrunning] at hs
        cases hs
        refine h.move (by simp [hpoint]) rfl rfl fun source => ?_
        simp [left, hpoint]
    · cases hs

/-- **Between restarts, every partition is processed in the order of its log**: without a gap, no
    message twice, and to the last one polled whenever the worker polls again. -/
theorem processed_in_order (hready : w₀.point = .ready)
    (h : (system settings assigned).Steps (fun _ action => action ≠ .restart) w₀ w) :
    ∃ done, w.returned = done.reverse ++ w₀.returned ∧ ∀ source, ∃ n,
      offsets done source = List.range' (w₀.position source) n ∧
        (w.point = .ready → w₀.position source + n = w.position source) := by
  have horder : InOrder w₀ w := by
    refine h.invariant (I := InOrder w₀) (inOrder_self hready) ?_
    intro _ _ _ h hok hs
    exact h.step hok hs
  obtain ⟨done, hdone, horder⟩ := horder
  refine ⟨done, hdone, fun source => ?_⟩
  obtain ⟨n, hn, hlast⟩ := horder source
  obtain ⟨k, hk, hprefix, hrest⟩ := List.range'_eq_append_iff.mp hn.symm
  refine ⟨k, hprefix, fun hpoint => ?_⟩
  have hnone : offsets w.left source = [] := by simp [left, hpoint]
  rw [hnone, eq_comm, List.range'_eq_nil_iff] at hrest
  have hlast := hlast (by simp [hpoint])
  omega

/-- Two messages of one partition, polled together with one of a higher rank. -/
theorem processed_in_order_of_pair : ∃ w done,
    (system {} [⟨"jobs.retry", 0⟩, ⟨"jobs.submitted.high", 0⟩]).Steps
        (fun _ action => action ≠ .restart) initial w ∧
      w.returned = [⟨⟨"jobs.retry", 0⟩, 1⟩, ⟨⟨"jobs.retry", 0⟩, 0⟩,
        ⟨⟨"jobs.submitted.high", 0⟩, 0⟩] ∧ w.returned = done.reverse ++ initial.returned ∧
      offsets done ⟨"jobs.retry", 0⟩ = [0, 1] := by
  have hrun : ∃ w, System.replay (step {} [⟨"jobs.retry", 0⟩, ⟨"jobs.submitted.high", 0⟩]) initial
      [.produce ⟨"jobs.retry", 0⟩, .produce ⟨"jobs.retry", 0⟩, .produce ⟨"jobs.submitted.high", 0⟩,
        .poll ((Dict.empty.insert ⟨"jobs.retry", 0⟩ 2).insert ⟨"jobs.submitted.high", 0⟩ 1),
        .publishDueJobs true, .processMessage true, .commit true, .processMessage true, .commit true,
        .processMessage true, .commit true, .next] = some w ∧
      w.returned = [⟨⟨"jobs.retry", 0⟩, 1⟩, ⟨⟨"jobs.retry", 0⟩, 0⟩,
        ⟨⟨"jobs.submitted.high", 0⟩, 0⟩] ∧
      w.point = .ready ∧ w.position ⟨"jobs.retry", 0⟩ = 2 := ⟨_, rfl, rfl, rfl, rfl⟩
  obtain ⟨w, hw, hreturned, hpoint, hposition⟩ := hrun
  have hsteps : (system {} [⟨"jobs.retry", 0⟩, ⟨"jobs.submitted.high", 0⟩]).Steps
      (fun _ action => action ≠ .restart) initial w := by
    refine System.Steps.of_replay hw fun action hmem _ haction => ?_
    subst haction
    simp at hmem
  obtain ⟨done, hdone, horder⟩ := processed_in_order rfl hsteps
  obtain ⟨n, hn, hlast⟩ := horder ⟨"jobs.retry", 0⟩
  have hlast := hlast hpoint
  rw [hposition] at hlast
  have hn2 : n = 2 := by simpa [initial] using hlast
  exact ⟨w, done, hsteps, hreturned, hdone, by rw [hn, hn2]; rfl⟩

/-! ## By priority -/

/-- The ranks of the topics that `submit_job` publishes to. -/
theorem topicRank_low (settings : Settings) :
    topicRank settings settings.kafkaSubmittedLowTopic = 3 := by
  simp [topicRank]

theorem topicRank_default (settings : Settings) :
    topicRank settings settings.kafkaSubmittedDefaultTopic =
      if settings.kafkaSubmittedDefaultTopic = settings.kafkaSubmittedLowTopic then 3
      else if settings.kafkaSubmittedDefaultTopic = settings.kafkaRetryTopic then 2 else 1 := by
  unfold topicRank
  simp only [Dict.lookup_cons_eq]
  repeat' split
  all_goals simp_all

theorem topicRank_high (settings : Settings) :
    topicRank settings settings.kafkaSubmittedHighTopic =
      if settings.kafkaSubmittedHighTopic = settings.kafkaSubmittedLowTopic then 3
      else if settings.kafkaSubmittedHighTopic = settings.kafkaRetryTopic then 2
      else if settings.kafkaSubmittedHighTopic = settings.kafkaSubmittedDefaultTopic then 1
      else 0 := by
  unfold topicRank
  simp only [Dict.lookup_cons_eq]
  repeat' split
  all_goals simp_all

/-- Where topics share a name, no topic is ranked behind one of lower priority for it. -/
def RanksByPriority (settings : Settings) : Prop :=
  (settings.kafkaSubmittedHighTopic = settings.kafkaSubmittedLowTopic →
    settings.kafkaSubmittedDefaultTopic = settings.kafkaSubmittedLowTopic) ∧
  (settings.kafkaSubmittedHighTopic = settings.kafkaRetryTopic →
    settings.kafkaSubmittedDefaultTopic = settings.kafkaSubmittedLowTopic ∨
      settings.kafkaSubmittedDefaultTopic = settings.kafkaRetryTopic)

/-- **When rank means priority**, for the topics of every two jobs. -/
theorem ranksByPriority_iff (settings : Settings) : RanksByPriority settings ↔
    ∀ p q : Nat, p ≤ q → topicRank settings (topicForPriority settings q) ≤
      topicRank settings (topicForPriority settings p) := by
  -- Where two settings have one topic, the later entry of `ranks` counts.
  have hhigh : RanksByPriority settings ↔ topicRank settings settings.kafkaSubmittedHighTopic ≤
      topicRank settings settings.kafkaSubmittedDefaultTopic := by
    rw [topicRank_high, topicRank_default, RanksByPriority]
    repeat' split
    all_goals simp_all
  have hlow : ∀ q, topicRank settings (topicForPriority settings q) ≤ 3 := by
    intro q
    unfold topicForPriority
    split
    · rw [topicRank_high]
      repeat' split
      all_goals omega
    · split
      · exact (topicRank_low settings).le
      · rw [topicRank_default]
        repeat' split
        all_goals omega
  rw [hhigh]
  constructor
  · intro h p q hpq
    by_cases hp : p = 0
    · calc topicRank settings (topicForPriority settings q) ≤ 3 := hlow q
        _ = topicRank settings (topicForPriority settings p) := by
          rw [hp, ← topicRank_low settings]
          rfl
    · by_cases hq : 8 ≤ q
      · by_cases hp' : 8 ≤ p
        · simp [topicForPriority, hq, hp']
        · simpa [topicForPriority, hq, hp, hp'] using h
      · have hp' : ¬ 8 ≤ p := by omega
        have hq' : q ≠ 0 := by omega
        simp [topicForPriority, hq, hp, hp', hq']
  · intro h
    -- A job of priority 1 goes to the default topic, one of priority 8 to the high one.
    exact h 1 8 (by omega)

/-- Two topics of `submit_job` have one rank only if they are one topic. -/
theorem topicForPriority_inj {p q : Nat}
    (h : topicRank settings (topicForPriority settings p) =
      topicRank settings (topicForPriority settings q)) :
    topicForPriority settings p = topicForPriority settings q := by
  have hhigh := topicRank_high settings
  have hdefault := topicRank_default settings
  have hlow := topicRank_low settings
  unfold topicForPriority at h ⊢
  split at h <;> split at h <;> simp_all
  all_goals grind

/-- Where the worker is in the batch it polled. -/
def InBatch (settings : Settings) (batch : List ConsumerRecord) (w₀ w : Worker) : Prop :=
  (w.point = .polled batch ∧ w.returned = w₀.returned) ∨
    ∃ done rest, done ++ rest = sortedByRank settings batch ∧
      w.returned = done.reverse ++ w₀.returned ∧
      (w.point = .looping rest ∨ w.point = .committing rest ∨ w.point = .ready ∧ rest = [] ∨
        w.point = .stopped)

/-- A worker that ends leaves the rest of the batch. -/
theorem InBatch.stop {batch : List ConsumerRecord} (h : InBatch settings batch w₀ w)
    (hreturned : w'.returned = w.returned) (hpoint : w'.point = .stopped) :
    InBatch settings batch w₀ w' := by
  rcases h with ⟨-, hsame⟩ | ⟨done, rest, hdone, hsame, -⟩
  · exact .inr ⟨[], sortedByRank settings batch, rfl, by rw [hreturned, hsame]; rfl,
      .inr (.inr (.inr hpoint))⟩
  · exact .inr ⟨done, rest, hdone, hreturned.trans hsame, .inr (.inr (.inr hpoint))⟩

/-- **A step inside the batch.** -/
theorem InBatch.step {batch : List ConsumerRecord} (h : InBatch settings batch w₀ w)
    {action : Action} (hrestart : action ≠ .restart) (hpoll : ∀ counts, action ≠ .poll counts)
    (hs : step settings assigned w action = some w') : InBatch settings batch w₀ w' := by
  cases action with
  | produce source => cases hs; exact h
  | stop => cases hs; exact h
  | crash => cases hs; exact h.stop rfl rfl
  | restart => exact absurd rfl hrestart
  | poll counts => exact absurd rfl (hpoll counts)
  | publishDueJobs returns =>
    simp only [Worker.step] at hs
    split at hs
    · rename_i messages hpoint
      cases hs
      cases returns with
      | false => exact h.stop rfl rfl
      | true =>
        -- Before the first message is handed over, nothing of the batch is done.
        rcases h with ⟨hbatch, hsame⟩ | ⟨_, _, -, -, hrest⟩
        · rw [hpoint, Point.polled.injEq] at hbatch
          subst hbatch
          exact .inr ⟨[], _, rfl, hsame, .inl rfl⟩
        · simp [hpoint] at hrest
    · cases hs
  | processMessage returns =>
    simp only [Worker.step] at hs
    split at hs
    · rename_i message rest hpoint
      cases returns with
      | false => cases hs; exact h.stop rfl rfl
      | true =>
        cases hs
        rcases h with ⟨hbatch, -⟩ | ⟨done, rest', hdone, hsame, hrest⟩
        · rw [hpoint] at hbatch
          cases hbatch
        · simp only [hpoint, Point.looping.injEq, reduceCtorEq, false_and, or_false] at hrest
          subst hrest
          exact .inr ⟨done ++ [message], rest, by simpa using hdone, by simp [hsame],
            .inr (.inl rfl)⟩
    · cases hs
  | commit returns =>
    simp only [Worker.step] at hs
    split at hs
    · rename_i rest hpoint
      cases returns with
      | false => cases hs; exact h.stop rfl rfl
      | true =>
        cases hs
        rcases h with ⟨hbatch, -⟩ | ⟨done, rest', hdone, hsame, hrest⟩
        · rw [hpoint] at hbatch
          cases hbatch
        · simp only [hpoint, Point.committing.injEq, reduceCtorEq, false_and, false_or,
            or_false] at hrest
          subst hrest
          exact .inr ⟨done, rest, hdone, hsame, .inl rfl⟩
    · cases hs
  | next =>
    simp only [Worker.step] at hs
    split at hs
    · rename_i hpoint
      cases hs
      rcases h with ⟨hbatch, -⟩ | ⟨done, rest', hdone, hsame, hrest⟩
      · rw [hpoint] at hbatch
        cases hbatch
      · simp only [hpoint, Point.looping.injEq, reduceCtorEq, false_and, or_false] at hrest
        subst hrest
        refine .inr ⟨done, [], hdone, hsame, .inr (.inr ?_)⟩
        cases hrunning : w.running with
        | false => exact .inr rfl
        | true => exact .inl ⟨rfl, rfl⟩
    · cases hs

/-- **A polled batch is processed by priority** wherever rank means priority: until the next poll,
    what has been processed and what is left come in an order in which no message of a job of lower
    priority stands before one of higher priority, unless the two have one topic. When the loop is
    through, nothing is left. -/
theorem batch_by_priority {batch : List ConsumerRecord} (hranks : RanksByPriority settings)
    (hpolled : w₀.point = .polled batch)
    (h : (system settings assigned).Steps
      (fun _ action => action ≠ .restart ∧ ∀ counts, action ≠ .poll counts) w₀ w) :
    ∃ done rest, (done ++ rest).Perm batch ∧ w.returned = done.reverse ++ w₀.returned ∧
      (w.point = .ready → rest = []) ∧
      (done ++ rest).Pairwise fun m m' => ∀ p q, m.source.topic = topicForPriority settings p →
        m'.source.topic = topicForPriority settings q → p < q → m.source.topic = m'.source.topic := by
  have hsorted : (sortedByRank settings batch).Pairwise fun m m' =>
      ∀ p q, m.source.topic = topicForPriority settings p →
        m'.source.topic = topicForPriority settings q → p < q →
        m.source.topic = m'.source.topic := by
    have htotal : Std.Total fun a b : ConsumerRecord =>
        topicRank settings a.source.topic ≤ topicRank settings b.source.topic :=
      ⟨fun a b => le_total _ _⟩
    have htrans : IsTrans ConsumerRecord fun a b =>
        topicRank settings a.source.topic ≤ topicRank settings b.source.topic :=
      ⟨fun a b c => le_trans⟩
    refine (List.pairwise_insertionSort _ batch).imp ?_
    intro m m' hrank p q hm hm' hpq
    rw [hm, hm'] at hrank ⊢
    exact topicForPriority_inj
      (le_antisymm hrank ((ranksByPriority_iff settings).mp hranks p q hpq.le))
  have hperm : (sortedByRank settings batch).Perm batch := List.perm_insertionSort _ batch
  have hbatch : InBatch settings batch w₀ w := by
    refine h.invariant (I := InBatch settings batch w₀) (.inl ⟨hpolled, rfl⟩) ?_
    intro _ _ _ h hok hs
    exact h.step hok.1 hok.2 hs
  rcases hbatch with ⟨hpoint, hsame⟩ | ⟨done, rest, hdone, hsame, hpoint⟩
  · exact ⟨[], sortedByRank settings batch, hperm, hsame, by simp [hpoint], hsorted⟩
  · refine ⟨done, rest, hdone ▸ hperm, hsame, fun hready => ?_, hdone ▸ hsorted⟩
    simpa [hready] using hpoint

/-- A message of low priority polled before one of high priority. -/
theorem batch_by_priority_of_pair : ∃ w₀ w done rest,
    (system {} [⟨"jobs.submitted.low", 0⟩, ⟨"jobs.submitted.high", 0⟩]).Reachable Transition.Any w₀ ∧
    (system {} [⟨"jobs.submitted.low", 0⟩, ⟨"jobs.submitted.high", 0⟩]).Steps
        (fun _ action => action ≠ .restart ∧ ∀ counts, action ≠ .poll counts) w₀ w ∧
      (done ++ rest).Perm [⟨⟨"jobs.submitted.low", 0⟩, 0⟩, ⟨⟨"jobs.submitted.high", 0⟩, 0⟩] ∧
      w.returned = done.reverse ++ w₀.returned ∧
      done = [⟨⟨"jobs.submitted.high", 0⟩, 0⟩] := by
  let low : ConsumerRecord := ⟨⟨"jobs.submitted.low", 0⟩, 0⟩
  let high : ConsumerRecord := ⟨⟨"jobs.submitted.high", 0⟩, 0⟩
  have hrun : ∃ w₀ w, System.replay (step {} [low.source, high.source]) initial
        [.produce low.source, .produce high.source,
          .poll ((Dict.empty.insert low.source 1).insert high.source 1)] = some w₀ ∧
      System.replay (step {} [low.source, high.source]) w₀
        [.publishDueJobs true, .processMessage true] = some w ∧
      w₀.point = .polled [low, high] ∧ w₀.returned = [] ∧ w.returned = [high] :=
    ⟨_, _, rfl, rfl, rfl, rfl, rfl⟩
  obtain ⟨w₀, w, hw₀, hw, hpolled, hnone, hreturned⟩ := hrun
  have hreach : (system {} [low.source, high.source]).Reachable Transition.Any w₀ :=
    ⟨initial, rfl, System.Steps.of_replay hw₀ fun _ _ _ => trivial⟩
  have hsteps : (system {} [low.source, high.source]).Steps
      (fun _ action => action ≠ .restart ∧ ∀ counts, action ≠ .poll counts) w₀ w := by
    refine System.Steps.of_replay hw fun action hmem _ => ?_
    simp only [List.mem_cons, List.not_mem_nil, or_false] at hmem
    rcases hmem with rfl | rfl
    · exact ⟨by simp, by simp⟩
    · exact ⟨by simp, by simp⟩
  have hranks : RanksByPriority {} := ⟨by decide, by decide⟩
  obtain ⟨done, rest, hperm, hdone, -, -⟩ := batch_by_priority hranks hpolled hsteps
  refine ⟨w₀, w, done, rest, hreach, hsteps, hperm, hdone, ?_⟩
  have hreverse : done.reverse = [high] := by
    rw [hreturned, hnone, List.append_nil] at hdone
    exact hdone.symm
  simpa using congrArg List.reverse hreverse

end Worker

end JobPipeline
