import JobPipeline.Sql.Leases

/-!
# What a call has said so far

Where a call of `submit_job` stands determines, up to a few values, what it has asked, inserted,
answered and published, and in which order. `Story` is that table; it is kept by every step of the
call itself and not touched by any other. What several calls mean to each other is left to
`Sql.Submissions`.
-/

set_option autoImplicit false

namespace JobPipeline

namespace Sql

/-- The call that a submission, an insert or a publication is by. -/
def Event.speaker : Event → Option CallId
  | .requested c _ => some c
  | .answered c _ _ => some c
  | .inserted c _ => some c
  | .published c _ => some c
  | _ => none

/-- What the call `c` has said, latest first, by its session. -/
inductive Story (c : CallId) : Session → List Event → Prop where
  /-- Not a call of `submit_job`: it has inserted successors. -/
  | process {session : Session} (rows : List Job)
      (unasked : session.Submits → ∃ exc, session = .raised exc)
      (idle : session = .idle → rows = []) (unkeyed : ∀ row ∈ rows, row.idempotencyKey = none)
      (pending : ∀ row, session.pendingRow = some row → row.idempotencyKey = none) :
      Story c session (rows.map (.inserted c))
  | inserting (row : Job) : Story c (.inserting row) [.requested c row.idempotencyKey]
  | conflicted (row : Job) : Story c (.conflicted row) [.requested c row.idempotencyKey]
  | refused (key : Option String) (exc : Exc) : Story c (.raised exc) [.requested c key]
  | replayed (key : Option String) (job : JobRecord) :
      Story c (.submitted job true) [.answered c job true, .requested c key]
  | inserted (row : Job) :
      Story c (.inserted row.id) [.inserted c row, .requested c row.idempotencyKey]
  | publishing (row : Job) (job : JobRecord) (id : job.id = row.id) :
      Story c (.publishing job)
        [.answered c job false, .inserted c row, .requested c row.idempotencyKey]
  | published {session : Session} (row : Job) (job : JobRecord) (id : job.id = row.id)
      (after : session = .submitted job false ∨ ∃ exc, session = .raised exc) :
      Story c session
        [.published c job.id, .answered c job false, .inserted c row,
          .requested c row.idempotencyKey]

namespace Story

variable {c : CallId} {session : Session} {events : List Event}

/-- A call that does not submit has inserted rows without keys, if anything. -/
theorem of_unasked (h : Story c session events) (hunasked : ¬ session.Submits) :
    ∃ rows : List Job, events = rows.map (.inserted c) ∧ (session = .idle → rows = []) ∧
      (∀ row ∈ rows, row.idempotencyKey = none) ∧
      ∀ row, session.pendingRow = some row → row.idempotencyKey = none := by
  cases h with
  | process rows _ idle unkeyed pending => exact ⟨rows, rfl, idle, unkeyed, pending⟩
  | published _ _ _ after =>
    rcases after with rfl | ⟨exc, rfl⟩
    · exact absurd trivial hunasked
    · exact absurd trivial hunasked
  | _ => exact absurd trivial hunasked

theorem of_idle (h : Story c .idle events) : events = [] := by
  obtain ⟨rows, rfl, hidle, -⟩ := h.of_unasked id
  rw [hidle rfl, List.map_nil]

theorem of_inserting {row : Job} (h : Story c (.inserting row) events) :
    events = [.requested c row.idempotencyKey] := by
  cases h with
  | process rows unasked => exact absurd (unasked trivial) (by simp)
  | inserting => rfl
  | published _ _ _ after => simp at after

theorem of_conflicted {row : Job} (h : Story c (.conflicted row) events) :
    events = [.requested c row.idempotencyKey] := by
  cases h with
  | process rows unasked => exact absurd (unasked trivial) (by simp)
  | conflicted => rfl
  | published _ _ _ after => simp at after

theorem of_inserted {jobId : UUID} (h : Story c (.inserted jobId) events) :
    ∃ row, jobId = row.id ∧ events = [.inserted c row, .requested c row.idempotencyKey] := by
  cases h with
  | process rows unasked => exact absurd (unasked trivial) (by simp)
  | inserted row => exact ⟨row, rfl, rfl⟩
  | published _ _ _ after => simp at after

theorem of_publishing {job : JobRecord} (h : Story c (.publishing job) events) :
    ∃ row, job.id = row.id ∧ events =
      [.answered c job false, .inserted c row, .requested c row.idempotencyKey] := by
  cases h with
  | process rows unasked => exact absurd (unasked trivial) (by simp)
  | publishing row _ id => exact ⟨row, id, rfl⟩
  | published _ _ _ after => simp at after

/-- A call that has asked asks once, and submits. -/
theorem asked {key : Option String} (h : Story c session events)
    (hasked : .requested c key ∈ events) :
    session.Submits ∧ ∀ key', .requested c key' ∈ events → key' = key := by
  cases h with
  | process rows => simp at hasked
  | published row job id after =>
    refine ⟨?_, ?_⟩
    · rcases after with rfl | ⟨exc, rfl⟩ <;> trivial
    · intro key' hkey'
      simp at hasked hkey'
      rw [hasked, hkey']
  | inserting | conflicted | refused | replayed | inserted | publishing =>
    refine ⟨trivial, ?_⟩
    intro key' hkey'
    simp at hasked hkey'
    rw [hasked, hkey']

/-- A call that was told of a new row has inserted it, and has asked with its key. -/
theorem answered_new {job : JobRecord} (h : Story c session events)
    (hanswered : .answered c job false ∈ events) :
    ∃ row, .inserted c row ∈ events ∧ row.id = job.id ∧ .requested c row.idempotencyKey ∈ events := by
  cases h with
  | publishing row job' id =>
    simp at hanswered
    subst hanswered
    exact ⟨row, by simp, id.symm, by simp⟩
  | published row job' id =>
    simp at hanswered
    subst hanswered
    exact ⟨row, by simp, id.symm, by simp⟩
  | _ => simp at hanswered

/-- A call with a request that has inserted a row has been told so, or will be. -/
theorem inserted_asked {row : Job} {key : Option String} (h : Story c session events)
    (hinserted : .inserted c row ∈ events) (hasked : .requested c key ∈ events) :
    row.idempotencyKey = key ∧ (session = .inserted row.id ∨
      ∃ job, .answered c job false ∈ events ∧ job.id = row.id) ∧
      ∀ row', .inserted c row' ∈ events → row' = row := by
  cases h with
  | process rows => simp at hasked
  | inserted row₂ =>
    simp at hinserted hasked
    subst hinserted
    exact ⟨hasked.symm, Or.inl rfl, by simp⟩
  | publishing row₂ job id =>
    simp at hinserted hasked
    subst hinserted
    exact ⟨hasked.symm, Or.inr ⟨job, by simp, id⟩, by simp⟩
  | published row₂ job id =>
    simp at hinserted hasked
    subst hinserted
    exact ⟨hasked.symm, Or.inr ⟨job, by simp, id⟩, by simp⟩
  | _ => simp at hinserted

/-- A row with a key was asked for by the call that inserted it. -/
theorem inserted_keyed {row : Job} (h : Story c session events)
    (hinserted : .inserted c row ∈ events) :
    .requested c row.idempotencyKey ∈ events ∨ row.idempotencyKey = none := by
  cases h with
  | process rows _ _ unkeyed =>
    simp at hinserted
    exact Or.inr (unkeyed row hinserted)
  | inserted | publishing | published =>
    simp at hinserted
    subst hinserted
    exact Or.inl (by simp)
  | _ => simp at hinserted

/-- A publication is of the row the call has just inserted. -/
theorem published_new {jobId : UUID} (h : Story c session events)
    (hpublished : .published c jobId ∈ events) :
    ∃ row, .inserted c row ∈ events ∧ row.id = jobId ∧
      .requested c row.idempotencyKey ∈ events := by
  cases h with
  | published row job id =>
    simp at hpublished
    exact ⟨row, by simp, by rw [hpublished, id], by simp⟩
  | process rows => simp at hpublished
  | _ => simp at hpublished

theorem returned {job : JobRecord} {replay : Bool} (h : Story c (.submitted job replay) events) :
    .answered c job replay ∈ events := by
  cases h with
  | process rows unasked => exact absurd (unasked trivial) (by simp)
  | replayed key => simp
  | published row job' id after =>
    rcases after with heq | ⟨exc, heq⟩
    · cases heq
      simp
    · cases heq

end Story

namespace State

variable {s s' : State} {c d : CallId} {call : Option CallId} {session : Session}

/-- What the call has said. -/
def talks (s : State) (c : CallId) : List Event := s.history.filter fun e => e.speaker = some c

theorem mem_talks {e : Event} (hspeaker : e.speaker = some c) : e ∈ s.talks c ↔ e ∈ s.history := by
  simp [talks, hspeaker]

theorem talks_same (h : s'.history = s.history) (d : CallId) : s'.talks d = s.talks d := by
  simp only [talks, h]

theorem talks_own {e : Event} (h : s'.history = e :: s.history) (hspeaker : e.speaker = some c) :
    s'.talks c = e :: s.talks c := by
  simp [talks, h, hspeaker]

theorem talks_other {e : Event} (h : s'.history = e :: s.history) (hspeaker : e.speaker ≠ some d) :
    s'.talks d = s.talks d := by
  simp [talks, h, hspeaker]

theorem Talk.others (h : Talk s s' c session) (hne : d ≠ c) : s'.talks d = s.talks d := by
  have hne' : c ≠ d := Ne.symm hne
  cases h with
  | silent _ _ _ _ _ history => exact talks_same history d
  | draw _ _ _ _ _ _ _ history => exact talks_same history d
  | refuse _ _ _ _ _ _ history => exact talks_other history (by simpa [Event.speaker] using hne')
  | replay _ _ _ _ _ _ _ history => simp [talks, history, Event.speaker, hne']
  | ask _ _ _ _ _ _ history => exact talks_other history (by simpa [Event.speaker] using hne')
  | conflict _ _ _ _ _ history => exact talks_same history d
  | abort _ _ _ _ history => exact talks_same history d
  | lost _ _ _ _ _ history => exact talks_same history d
  | reread _ _ _ _ _ history => exact talks_other history (by simpa [Event.speaker] using hne')
  | answer _ _ _ _ _ history => exact talks_other history (by simpa [Event.speaker] using hne')
  | publish _ _ _ _ history => exact talks_other history (by simpa [Event.speaker] using hne')

/-- A call that moves on continues its story. -/
theorem Talk.story (talk : Talk s s' c session)
    (hstored : ∀ jobId, s.sessions c = .inserted jobId → ∃ row, s.db.jobs.get? jobId = some row)
    (hkeyed : ∀ id row, s.db.jobs.get? id = some row → row.id = id)
    (h : Story c (s.sessions c) (s.talks c)) : Story c session (s'.talks c) := by
  cases talk with
  | silent before after started pending _ history =>
    obtain ⟨rows, heq, -, hunkeyed, -⟩ := h.of_unasked before
    rw [talks_same history, heq]
    exact .process rows after (fun hidle => absurd hidle started) hunkeyed (by simp [pending])
  | draw nextJobId before after started _ row _ history =>
    obtain ⟨rows, heq, -, hunkeyed, -⟩ := h.of_unasked before
    rw [talks_same history, heq]
    exact .process rows (fun hsubmits => absurd hsubmits after) (fun hidle => absurd hidle started)
      hunkeyed (fun row' hrow => (row row' hrow).2)
  | refuse request jobId exc before _ _ history =>
    rw [before] at h
    rw [talks_own history rfl, h.of_idle]
    exact .refused _ exc
  | replay request jobId existing before _ _ _ history =>
    rw [before] at h
    have htalks : s'.talks c = .answered c (recordFromModel existing) true ::
        .requested c request.idempotencyKey :: s.talks c := by
      simp [talks, history, Event.speaker]
    rw [htalks, h.of_idle]
    exact .replayed _ _
  | ask request jobId now before _ _ history =>
    rw [before] at h
    rw [talks_own history rfl, h.of_idle]
    exact .inserting (.submittedRow request jobId now)
  | conflict row before _ _ _ history =>
    rw [before] at h
    rw [talks_same history, h.of_inserting]
    exact .conflicted row
  | abort exc row before _ history =>
    have hevents : s.talks c = [.requested c row.idempotencyKey] := by
      rcases before with before | before
      · rw [before] at h
        exact h.of_inserting
      · rw [before] at h
        exact h.of_conflicted
    rw [talks_same history, hevents]
    exact .refused _ exc
  | lost exc jobId before missing =>
    obtain ⟨row, hrow⟩ := hstored jobId before
    rw [missing] at hrow
    cases hrow
  | reread row existing before _ _ history =>
    rw [before] at h
    rw [talks_own history rfl, h.of_conflicted]
    exact .replayed _ _
  | answer jobId row before stored _ history =>
    rw [before] at h
    obtain ⟨created, hid, hevents⟩ := h.of_inserted
    rw [talks_own history rfl, hevents]
    exact .publishing created (recordFromModel row) ((hkeyed jobId row stored).trans hid)
  | publish job before after _ history =>
    rw [before] at h
    obtain ⟨created, hid, hevents⟩ := h.of_publishing
    rw [talks_own history rfl, hevents]
    exact .published created job hid after

/-- **Every step continues the story of its call and leaves the others alone.** -/
theorem Effect.story (he : Effect s s' call)
    (hstored : ∀ c jobId, s.sessions c = .inserted jobId → ∃ row, s.db.jobs.get? jobId = some row)
    (hkeyed : ∀ id row, s.db.jobs.get? id = some row → row.id = id)
    (h : Story d (s.sessions d) (s.talks d)) : Story d (s'.sessions d) (s'.talks d) := by
  -- A call that does not submit goes on in silence.
  have hsilent : ∀ {c : CallId} {session : Session}, Moves s s' c session →
      s'.talks d = s.talks d → (d = c → ¬ (s.sessions c).Submits) → ¬ session.Submits →
      session ≠ .idle → session.pendingRow = none → Story d (s'.sessions d) (s'.talks d) := by
    intro c session hmoves htalks hbefore hafter hstarted hpending
    rw [htalks]
    rcases session_cases hmoves d with ⟨hdc, heq⟩ | ⟨-, heq⟩
    · obtain ⟨rows, hrows, -, hunkeyed, -⟩ := h.of_unasked (hdc ▸ hbefore hdc)
      rw [heq, hrows]
      exact .process rows (fun hsubmits => absurd hsubmits hafter)
        (fun hidle => absurd hidle hstarted) hunkeyed (by simp [hpending])
    · rwa [heq]
  cases he with
  | idle tables sessions history => rwa [sessions, talks_same history]
  | quiet c session tables moves read held attempting unstarted pending raised talk =>
    rcases session_cases moves d with ⟨hdc, heq⟩ | ⟨hne, heq⟩
    · subst hdc
      rw [heq]
      exact talk.story (hstored d) hkeyed h
    · rwa [heq, talk.others hne]
  | reads c session row tables moves read stored claimable owner held attempting history drawn
      unasked =>
    obtain ⟨hafter, hstarted, hpending⟩ := Session.unasked_of_read read
    exact hsilent moves (talks_same history d) (fun _ => unasked) hafter hstarted hpending
  | start c job tables moves before history =>
    exact hsilent moves (talks_other history (by simp [Event.speaker]))
      (fun _ => by rw [before]; exact id) id (by simp) rfl
  | insert c row payload session jobs attempts fresh new moves read held pending history raised
      drawn unkeyed before after =>
    rcases session_cases moves d with ⟨hdc, heq⟩ | ⟨hne, heq⟩
    · subst hdc
      rw [heq, talks_own history rfl]
      rcases after with ⟨hinserting, rfl⟩ | ⟨hbefore, hafter, hstarted⟩
      · rw [hinserting] at h
        rw [h.of_inserting]
        exact .inserted row
      · obtain ⟨rows, hrows, -, hunkeyed, hpending⟩ := h.of_unasked hbefore
        rw [hrows, ← List.map_cons]
        refine .process (row :: rows) (fun hsubmits => absurd hsubmits hafter)
          (fun hidle => absurd hidle hstarted) ?_ (by simp [pending])
        intro row' hrow'
        rcases List.mem_cons.mp hrow' with rfl | hrow'
        · exact hpending row' before
        · exact hunkeyed row' hrow'
    · rwa [heq, talks_other history (by simpa [Event.speaker] using Ne.symm hne)]
  | claim c row workerId now before fits free jobs attempts moves history =>
    exact hsilent moves (talks_other history (by simp [Event.speaker]))
      (fun _ => by rw [before]; exact id) id (by simp) rfl
  | succeed c job row result stored now before jobs attempts moves history =>
    exact hsilent moves (talks_same history d) (fun _ => by rw [before]; exact id) id (by simp) rfl
  | fail c job succeeded row error now before fits jobs attempts moves history =>
    exact hsilent moves (talks_same history d) (fun _ => by rw [before]; exact id) id (by simp) rfl
  | cancel c row now before jobs attempts moves history =>
    exact hsilent moves (talks_other history (by simp [Event.speaker]))
      (fun _ => by rw [before]; exact id) id (by simp) rfl

end State

end Sql

end JobPipeline
