import JobPipeline.Sql.Stories

/-!
# Submissions under one key

Two calls with the same idempotency key may both miss it in the first `select`. The unique
constraint lets one `INSERT` through; the others roll back and look again, and as a row is never
deleted and its key never changed they cannot miss it a second time. `Registry` is the shared part
of that argument, the stories of the calls are the local part.
-/

set_option autoImplicit false

namespace JobPipeline

namespace Sql

namespace State

open Transition

variable {settings : Settings} {jsonb : Jsonb} {s s' : State} {c d : CallId} {jobId : UUID}
  {call : Option CallId} {key : String}

/-! ## Keys in the table -/

/-- A row with this key is stored under this identifier. -/
def HasKey (s : State) (jobId : UUID) (key : String) : Prop :=
  ∃ row, s.db.jobs.get? jobId = some row ∧ row.idempotencyKey = some key

theorem findByKey_none (h : s.db.findByKey key = none) : ¬ s.HasKey jobId key := by
  intro hkey
  obtain ⟨row, hrow, hkey⟩ := hkey
  exact Database.findByKey_none h hrow hkey

/-- Keys are never changed, and a new one comes with its `INSERT`. -/
theorem Effect.hasKey (he : Effect s s' call) (h : s.HasKey jobId key) : s'.HasKey jobId key := by
  obtain ⟨row, hrow, hkey⟩ := h
  obtain ⟨row', hrow', hkeeps⟩ := he.persist hrow
  exact ⟨row', hrow', hkeeps.idempotencyKey.trans hkey⟩

/-! ## Identifiers -/

/-- Identifiers are drawn before they are stored, and each for one row. -/
structure Identifiers (s : State) : Prop where
  drawn : ∀ jobId row, s.db.jobs.get? jobId = some row → jobId ∈ s.drawn
  pending_drawn : ∀ c row, (s.sessions c).pendingRow = some row → row.id ∈ s.drawn
  pending_fresh : ∀ c row, (s.sessions c).pendingRow = some row → s.db.jobs.get? row.id = none
  pending_apart : ∀ c d row row', (s.sessions c).pendingRow = some row →
    (s.sessions d).pendingRow = some row' → row.id = row'.id → c = d

/-- A row is pending since before the step, or its identifier is drawn in it. -/
theorem Effect.pendingRow (he : Effect s s' call) {row : Job}
    (h : (s'.sessions c).pendingRow = some row) :
    (s.sessions c).pendingRow = some row ∨
      call = some c ∧ row.id ∉ s.drawn ∧ row.id ∈ s'.drawn := by
  have hmoved : ∀ {d : CallId} {session : Session}, Moves s s' d session →
      session.pendingRow = none → (s.sessions c).pendingRow = some row := by
    intro d session hmoves hnone
    rcases session_cases hmoves c with ⟨-, heq⟩ | ⟨-, heq⟩
    · rw [heq, hnone] at h
      cases h
    · exact heq ▸ h
  cases he with
  | idle tables sessions => exact Or.inl (sessions ▸ h)
  | quiet d session tables moves read held attempting unstarted pending raised talk =>
    rcases session_cases moves c with ⟨hcd, heq⟩ | ⟨-, heq⟩
    · subst hcd
      rw [heq] at h
      cases talk with
      | silent _ _ _ hnone =>
        rw [hnone] at h
        cases h
      -- Only these two draw an identifier.
      | draw nextJobId _ _ _ fresh hrow drawn =>
        obtain ⟨hid, -⟩ := hrow row h
        exact Or.inr ⟨rfl, hid ▸ fresh, by rw [drawn, hid]; exact List.mem_cons_self⟩
      | ask request jobId now _ fresh drawn =>
        cases h
        exact Or.inr ⟨rfl, fresh, by rw [drawn]; exact List.mem_cons_self⟩
      | publish job _ after =>
        rcases after with rfl | ⟨exc, rfl⟩ <;> cases h
      | _ => cases h
    · exact Or.inl (heq ▸ h)
  | reads d session read tables moves reads =>
    exact Or.inl (hmoved moves (Session.unasked_of_read reads).2.2)
  | start d job tables moves => exact Or.inl (hmoved moves rfl)
  | insert d created payload session jobs attempts fresh new moves read held pending =>
    exact Or.inl (hmoved moves pending)
  | claim d read workerId now before fits free jobs attempts moves => exact Or.inl (hmoved moves rfl)
  | succeed d job read result stored now before jobs attempts moves => exact Or.inl (hmoved moves rfl)
  | fail d job succeeded read error now before fits jobs attempts moves =>
    exact Or.inl (hmoved moves rfl)
  | cancel d read now before jobs attempts moves => exact Or.inl (hmoved moves rfl)

theorem Effect.drawn (he : Effect s s' call) : ∀ jobId ∈ s.drawn, jobId ∈ s'.drawn := by
  intro jobId h
  cases he with
  | idle _ _ _ drawn => rwa [drawn]
  | quiet _ _ _ _ _ _ _ _ _ _ talk =>
    cases talk with
    | silent _ _ _ _ drawn | conflict _ _ _ _ drawn | abort _ _ _ drawn | lost _ _ _ _ drawn
    | reread _ _ _ _ drawn | answer _ _ _ _ drawn | publish _ _ _ drawn => rwa [drawn]
    | draw _ _ _ _ _ _ drawn | refuse _ _ _ _ _ drawn | replay _ _ _ _ _ _ drawn
    | ask _ _ _ _ _ drawn =>
      rw [drawn]
      exact List.mem_cons_of_mem _ h
  | reads _ _ _ _ _ _ _ _ _ _ _ _ drawn => rwa [drawn]
  | start _ _ _ _ _ _ drawn => rwa [drawn]
  | insert _ _ _ _ _ _ _ _ _ _ _ _ _ _ drawn => rwa [drawn]
  | claim _ _ _ _ _ _ _ _ _ _ _ drawn => rwa [drawn]
  | succeed _ _ _ _ _ _ _ _ _ _ _ drawn => rwa [drawn]
  | fail _ _ _ _ _ _ _ _ _ _ _ _ drawn => rwa [drawn]
  | cancel _ _ _ _ _ _ _ _ drawn => rwa [drawn]

/-- A row that is new was pending. -/
theorem Effect.inserted (he : Effect s s' call) {row' : Job} (hnone : s.db.jobs.get? jobId = none)
    (h : s'.db.jobs.get? jobId = some row') :
    ∃ c row, call = some c ∧ (s.sessions c).pendingRow = some row ∧ row.id = jobId ∧
      row'.idempotencyKey = row.idempotencyKey ∧ s'.history = .inserted c row :: s.history ∧
      (s'.sessions c).pendingRow = none ∧ ∀ key ∈ row.idempotencyKey, s.db.findByKey key = none := by
  have hupdate : ∀ {id : UUID} {assign : Job → Job}, s'.db.jobs = s.db.jobs.modify id assign →
      s'.db.jobs.get? jobId = none := by
    intro id assign hjobs
    rw [hjobs, Dict.get?_modify, hnone]
    simp
  cases he with
  | idle tables => simp [tables.1, hnone] at h
  | quiet _ _ tables => simp [tables.1, hnone] at h
  | reads _ _ _ tables => simp [tables.1, hnone] at h
  | start _ _ tables => simp [tables.1, hnone] at h
  | insert c row payload session jobs attempts fresh new moves read held pending history raised
      drawn unkeyed before =>
    by_cases hid : jobId = row.id
    · subst hid
      rw [jobs, Dict.get?_insert_self] at h
      cases h
      refine ⟨c, row, rfl, before, rfl, rfl, history, ?_, unkeyed⟩
      rw [show s'.sessions = Function.update s.sessions c session from moves, Function.update_self]
      exact pending
    · rw [jobs, Dict.get?_insert_of_ne _ _ hid, hnone] at h
      cases h
  | claim _ _ _ _ _ _ _ jobs => simp [hupdate jobs] at h
  | succeed _ _ _ _ _ _ _ jobs => simp [hupdate jobs] at h
  | fail _ _ _ _ _ _ _ _ jobs => simp [hupdate jobs] at h
  | cancel _ _ _ _ jobs => simp [hupdate jobs] at h

theorem Identifiers.step (h : s.Identifiers) (he : Effect s s' call) : s'.Identifiers := by
  -- A row that is stored after the step was stored before, or pending.
  have hrows : ∀ {jobId : UUID} {row' : Job}, s'.db.jobs.get? jobId = some row' →
      (∃ row, s.db.jobs.get? jobId = some row) ∨ ∃ c row, (s.sessions c).pendingRow = some row ∧
        row.id = jobId ∧ (s'.sessions c).pendingRow = none := by
    intro jobId row' hrow'
    cases hrow : s.db.jobs.get? jobId with
    | some row => exact Or.inl ⟨row, rfl⟩
    | none =>
      obtain ⟨c, row, -, hpending, hid, -, -, hafter, -⟩ := he.inserted hrow hrow'
      exact Or.inr ⟨c, row, hpending, hid, hafter⟩
  constructor
  · intro jobId row' hrow'
    rcases hrows hrow' with ⟨row, hrow⟩ | ⟨c, row, hpending, rfl, -⟩
    · exact he.drawn jobId (h.drawn jobId row hrow)
    · exact he.drawn row.id (h.pending_drawn c row hpending)
  · intro c row hpending
    rcases he.pendingRow hpending with hbefore | ⟨-, -, hdrawn⟩
    · exact he.drawn row.id (h.pending_drawn c row hbefore)
    · exact hdrawn
  · intro c row hpending
    cases hrow' : s'.db.jobs.get? row.id with
    | none => rfl
    | some row' =>
      exfalso
      rcases he.pendingRow hpending with hbefore | ⟨-, hundrawn, -⟩
      · rcases hrows hrow' with ⟨stored, hstored⟩ | ⟨d, created, hcreated, hid, hafter⟩
        · rw [h.pending_fresh c row hbefore] at hstored
          cases hstored
        · rw [h.pending_apart d c created row hcreated hbefore hid, hpending] at hafter
          cases hafter
      · rcases hrows hrow' with ⟨stored, hstored⟩ | ⟨d, created, hcreated, hid, -⟩
        · exact hundrawn (h.drawn row.id stored hstored)
        · exact hundrawn (hid ▸ h.pending_drawn d created hcreated)
  · intro c d row row' hc hd hid
    rcases he.pendingRow hc with hbefore | ⟨hcall, hundrawn, -⟩
    · rcases he.pendingRow hd with hbefore' | ⟨-, hundrawn', -⟩
      · exact h.pending_apart c d row row' hbefore hbefore' hid
      · exact absurd (hid ▸ h.pending_drawn c row hbefore) hundrawn'
    · rcases he.pendingRow hd with hbefore' | ⟨hcall', -, -⟩
      · exact absurd (hid ▸ h.pending_drawn d row' hbefore') hundrawn
      · rw [hcall] at hcall'
        exact Option.some.inj hcall'

/-! ## Keys, rows and calls -/

/-- What the tables and the calls have in common. -/
structure Registry (s : State) : Prop extends Identifiers s where
  key_unique : ∀ i j key, s.HasKey i key → s.HasKey j key → i = j
  created : ∀ c row, .inserted c row ∈ s.history →
    ∃ stored, s.db.jobs.get? row.id = some stored ∧ stored.idempotencyKey = row.idempotencyKey
  creator : ∀ jobId stored, s.db.jobs.get? jobId = some stored →
    ∃ c row, .inserted c row ∈ s.history ∧ row.id = jobId ∧
      row.idempotencyKey = stored.idempotencyKey
  created_once : ∀ c d row row', .inserted c row ∈ s.history → .inserted d row' ∈ s.history →
    row.id = row'.id → c = d ∧ row = row'
  inserting_key : ∀ c row, s.sessions c = .inserting row → row.idempotencyKey ≠ some ""
  /-- A conflict is over a key, and whose key it is stays in the table. -/
  conflicted_key : ∀ c row, s.sessions c = .conflicted row →
    ∃ key jobId, row.idempotencyKey = some key ∧ key ≠ "" ∧ s.HasKey jobId key
  replayed : ∀ c job, .answered c job true ∈ s.history →
    ∃ key, .requested c (some key) ∈ s.history ∧ s.HasKey job.id key
  story : ∀ c, Story c (s.sessions c) (s.talks c)

theorem Effect.hasKey_cases (he : Effect s s' call) (h : s'.HasKey jobId key) :
    s.HasKey jobId key ∨ s.db.findByKey key = none ∧ ∃ c row, call = some c ∧
      (s.sessions c).pendingRow = some row ∧ row.id = jobId := by
  obtain ⟨row', hrow', hkey⟩ := h
  rcases he.stored hrow' with ⟨row, hrow, hkeeps⟩ | ⟨hnone, -⟩
  · exact Or.inl ⟨row, hrow, hkeeps.idempotencyKey.symm.trans hkey⟩
  · obtain ⟨c, row, hcall, hpending, hid, hkeys, -, -, hunkeyed⟩ := he.inserted hnone hrow'
    exact Or.inr ⟨hunkeyed key (hkeys.symm.trans hkey), c, row, hcall, hpending, hid⟩

/-- The key of a request as the code tests it: an accepted key is not empty. -/
theorem filter_key {key : Option String} (h : key ≠ some "") : key.filter (· ≠ "") = key := by
  cases key with
  | none => rfl
  | some key =>
    have hne : key ≠ "" := fun heq => h (by rw [heq])
    simp [hne]

/-- How a call of `submit_job` comes to where it stands. -/
theorem Effect.submits (he : Effect s s' call) (h : (s'.sessions c).Submits) :
    s'.sessions c = s.sessions c ∨ Talk s s' c (s'.sessions c) ∨
      ∃ row, s.sessions c = .inserting row ∧ s'.sessions c = .inserted row.id := by
  have hunasked : ∀ {d : CallId} {session : Session}, Moves s s' d session → ¬ session.Submits →
      s'.sessions c = s.sessions c := by
    intro d session hmoves hsession
    rcases session_cases hmoves c with ⟨-, heq⟩ | ⟨-, heq⟩
    · rw [heq] at h
      exact absurd h hsession
    · exact heq
  cases he with
  | idle tables sessions => exact Or.inl (by rw [sessions])
  | quiet d session tables moves read held attempting unstarted pending raised talk =>
    rcases session_cases moves c with ⟨hcd, heq⟩ | ⟨-, heq⟩
    · subst hcd
      exact Or.inr (Or.inl (heq ▸ talk))
    · exact Or.inl heq
  | reads d session read tables moves reads =>
    exact Or.inl (hunasked moves (Session.unasked_of_read reads).1)
  | insert d created payload session jobs attempts fresh new moves read held pending history raised
      drawn unkeyed before after =>
    rcases session_cases moves c with ⟨hcd, heq⟩ | ⟨-, heq⟩
    · subst hcd
      rcases after with ⟨hbefore, rfl⟩ | ⟨-, hafter, -⟩
      · exact Or.inr (Or.inr ⟨created, hbefore, heq⟩)
      · exact absurd (heq ▸ h) hafter
    · exact Or.inl heq
  | start d job tables moves => exact Or.inl (hunasked moves id)
  | claim d read workerId now before fits free jobs attempts moves => exact Or.inl (hunasked moves id)
  | succeed d job read result stored now before jobs attempts moves =>
    exact Or.inl (hunasked moves id)
  | fail d job succeeded read error now before fits jobs attempts moves =>
    exact Or.inl (hunasked moves id)
  | cancel d read now before jobs attempts moves => exact Or.inl (hunasked moves id)

/-- A call comes to its `INSERT` from a request. -/
theorem Effect.inserting (he : Effect s s' call) {row : Job} (h : s'.sessions c = .inserting row) :
    s.sessions c = .inserting row ∨ row.idempotencyKey ≠ some "" := by
  rcases he.submits (c := c) (by rw [h]; trivial) with heq | htalk | ⟨_, -, heq⟩
  · exact Or.inl (heq ▸ h)
  · rw [h] at htalk
    cases htalk with
    | silent _ after => exact absurd (after trivial) (by simp)
    | draw _ _ after => exact absurd trivial after
    | ask request => exact Or.inr request.key_ne_empty
    | publish _ _ after => simp at after
  · rw [h] at heq
    cases heq

/-- A call comes to its second `select` from a key that is stored. -/
theorem Effect.conflicted (he : Effect s s' call) (hreg : s.Registry) {row : Job}
    (h : s'.sessions c = .conflicted row) :
    s.sessions c = .conflicted row ∨
      ∃ key jobId, row.idempotencyKey = some key ∧ key ≠ "" ∧ s.HasKey jobId key := by
  rcases he.submits (c := c) (by rw [h]; trivial) with heq | htalk | ⟨_, -, heq⟩
  · exact Or.inl (heq ▸ h)
  · rw [h] at htalk
    cases htalk with
    | silent _ after => exact absurd (after trivial) (by simp)
    | draw _ _ after => exact absurd trivial after
    | conflict _ before keyed conflict =>
      have hne := hreg.inserting_key c row before
      rw [filter_key hne] at keyed
      obtain ⟨key, hkey⟩ := Option.isSome_iff_exists.mp keyed
      refine Or.inr ⟨key, ?_⟩
      rcases conflict with hstored | hfound
      · -- The identifier is a fresh one, so the conflict is over the key.
        rw [Dict.contains, hreg.pending_fresh c row (by rw [before]; rfl)] at hstored
        cases hstored
      · rw [hkey] at hfound
        obtain ⟨existing, hexisting⟩ := Option.isSome_iff_exists.mp hfound
        obtain ⟨jobId, hrow, hrowKey⟩ := Database.findByKey_some hexisting
        exact ⟨jobId, hkey, fun hempty => hne (by rw [hkey, hempty]), existing, hrow, hrowKey⟩
    | publish _ _ after => simp at after
  · rw [h] at heq
    cases heq

/-- The `select` by key of a request finds a row with its key. -/
theorem filter_found {key : Option String} {existing : Job} (hne : key ≠ some "")
    (h : (key.filter (· ≠ "") >>= s.db.findByKey) = some existing) :
    ∃ k jobId, key = some k ∧ s.db.jobs.get? jobId = some existing ∧
      existing.idempotencyKey = some k := by
  rw [filter_key hne] at h
  obtain ⟨k, hkey, hfound⟩ := Option.bind_eq_some_iff.mp h
  obtain ⟨jobId, hrow, hrowKey⟩ := Database.findByKey_some hfound
  exact ⟨k, jobId, hkey, hrow, hrowKey⟩

/-- A call is answered with a row that has its key, or with the one it has inserted. -/
theorem Talk.replayed {session : Session} (talk : Talk s s' c session) (hreg : s.Registry)
    (hkeyed : ∀ id row, s.db.jobs.get? id = some row → row.id = id) {job : JobRecord}
    (h : .answered d job true ∈ s'.history) :
    .answered d job true ∈ s.history ∨
      ∃ k, .requested d (some k) ∈ s'.history ∧ s.HasKey job.id k := by
  cases talk with
  | silent _ _ _ _ _ history => exact Or.inl (history ▸ h)
  | draw _ _ _ _ _ _ _ history => exact Or.inl (history ▸ h)
  | refuse _ _ _ _ _ _ history => exact Or.inl (by simpa [history] using h)
  | ask _ _ _ _ _ _ history => exact Or.inl (by simpa [history] using h)
  | conflict _ _ _ _ _ history => exact Or.inl (history ▸ h)
  | abort _ _ _ _ history => exact Or.inl (history ▸ h)
  | lost _ _ _ _ _ history => exact Or.inl (history ▸ h)
  | answer _ _ _ _ _ history => exact Or.inl (by simpa [history] using h)
  | publish _ _ _ _ history => exact Or.inl (by simpa [history] using h)
  | replay request jobId existing before found _ _ history =>
    have hmem := h
    simp only [history, List.mem_cons] at hmem
    rcases hmem with hmem | hmem | hmem
    · cases hmem
      obtain ⟨k, id, hkey, hrow, hrowKey⟩ := filter_found request.key_ne_empty found
      obtain rfl := hkeyed id existing hrow
      exact Or.inr ⟨k, by simp [history, hkey], existing, hrow, hrowKey⟩
    · cases hmem
    · exact Or.inl hmem
  | reread row existing before found _ history =>
    have hmem := h
    simp only [history, List.mem_cons] at hmem
    rcases hmem with hmem | hmem
    · cases hmem
      obtain ⟨key, _, hkey, hne, -⟩ := hreg.conflicted_key c row before
      obtain ⟨k, id, hk, hrow, hrowKey⟩ := filter_found (by simpa [hkey] using hne) found
      obtain rfl := hkeyed id existing hrow
      -- The key of the conflict is that of the call's own request.
      have hasked : .requested c row.idempotencyKey ∈ s.talks c := by
        have hstory := hreg.story c
        rw [before] at hstory
        rw [hstory.of_conflicted]
        exact List.mem_cons_self
      rw [hk, mem_talks rfl] at hasked
      exact Or.inr ⟨k, by rw [history]; exact List.mem_cons_of_mem _ hasked, existing, hrow, hrowKey⟩
    · exact Or.inl hmem

/-- Requests and answers are new only by what a call says. -/
theorem Effect.said (he : Effect s s' call) {e : Event}
    (hsaid : (∃ c key, e = .requested c key) ∨ ∃ c job replay, e = .answered c job replay)
    (h : e ∈ s'.history) : e ∈ s.history ∨ ∃ d session, Talk s s' d session := by
  have hother : ∀ {e'}, s'.history = e' :: s.history → e ≠ e' → e ∈ s.history := by
    intro e' history hne
    rw [history, List.mem_cons] at h
    exact h.resolve_left hne
  cases he with
  | idle _ _ history => exact Or.inl (history ▸ h)
  | quiet d session _ _ _ _ _ _ _ _ talk => exact Or.inr ⟨d, session, talk⟩
  | reads _ _ _ _ _ _ _ _ _ _ _ history => exact Or.inl (history ▸ h)
  | start _ _ _ _ _ history =>
    exact Or.inl (hother history (by rcases hsaid with ⟨_, _, rfl⟩ | ⟨_, _, _, rfl⟩ <;> simp))
  | insert _ _ _ _ _ _ _ _ _ _ _ _ history =>
    exact Or.inl (hother history (by rcases hsaid with ⟨_, _, rfl⟩ | ⟨_, _, _, rfl⟩ <;> simp))
  | claim _ _ _ _ _ _ _ _ _ _ history =>
    exact Or.inl (hother history (by rcases hsaid with ⟨_, _, rfl⟩ | ⟨_, _, _, rfl⟩ <;> simp))
  | succeed _ _ _ _ _ _ _ _ _ _ history => exact Or.inl (history ▸ h)
  | fail _ _ _ _ _ _ _ _ _ _ _ history => exact Or.inl (history ▸ h)
  | cancel _ _ _ _ _ _ _ history =>
    exact Or.inl (hother history (by rcases hsaid with ⟨_, _, rfl⟩ | ⟨_, _, _, rfl⟩ <;> simp))

theorem Effect.replayed (he : Effect s s' call) (hreg : s.Registry)
    (hkeyed : ∀ id row, s.db.jobs.get? id = some row → row.id = id) {job : JobRecord}
    (h : .answered c job true ∈ s'.history) :
    .answered c job true ∈ s.history ∨
      ∃ k, .requested c (some k) ∈ s'.history ∧ s.HasKey job.id k := by
  rcases he.said (Or.inr ⟨c, job, true, rfl⟩) h with h | ⟨d, session, talk⟩
  · exact Or.inl h
  · exact talk.replayed hreg hkeyed h

/-- A call that has inserted its row finds it again. -/
theorem Registry.refreshed (h : s.Registry) (hsession : s.sessions c = .inserted jobId) :
    ∃ row, s.db.jobs.get? jobId = some row := by
  have hstory := h.story c
  rw [hsession] at hstory
  obtain ⟨row, rfl, hevents⟩ := hstory.of_inserted
  have hmem : .inserted c row ∈ s.talks c := by
    rw [hevents]
    exact List.mem_cons_self
  obtain ⟨stored, hstored, -⟩ := h.created c row ((mem_talks rfl).mp hmem)
  exact ⟨stored, hstored⟩

/-- **Every step keeps the registry.** -/
theorem Registry.step (h : s.Registry) (he : Effect s s' call)
    (hkeyed : ∀ id row, s.db.jobs.get? id = some row → row.id = id) : s'.Registry := by
  refine ⟨h.toIdentifiers.step he, ?_, ?_, ?_, ?_, ?_, ?_, ?_, ?_⟩
  · intro i j key hi hj
    rcases he.hasKey_cases hi with hi | ⟨hnone, c, row, hcall, hpending, rfl⟩
    · rcases he.hasKey_cases hj with hj | ⟨hnone, -⟩
      · exact h.key_unique i j key hi hj
      · exact absurd hi (findByKey_none hnone)
    · rcases he.hasKey_cases hj with hj | ⟨-, d, row', hcall', hpending', rfl⟩
      · exact absurd hj (findByKey_none hnone)
      · -- A step is by one call, and that has one row pending.
        rw [hcall] at hcall'
        cases hcall'
        rw [hpending] at hpending'
        cases hpending'
        rfl
  · intro c row hmem
    rcases he.created hmem with hmem | ⟨payload, hstored, -⟩
    · obtain ⟨stored, hstored, hkey⟩ := h.created c row hmem
      obtain ⟨stored', hstored', hkeeps⟩ := he.persist hstored
      exact ⟨stored', hstored', hkeeps.idempotencyKey.trans hkey⟩
    · exact ⟨_, hstored, rfl⟩
  · intro jobId stored' hstored'
    rcases he.stored hstored' with ⟨stored, hstored, hkeeps⟩ | ⟨hnone, -⟩
    · obtain ⟨c, row, hmem, hid, hkey⟩ := h.creator jobId stored hstored
      exact ⟨c, row, he.history_mem hmem, hid, hkey.trans hkeeps.idempotencyKey.symm⟩
    · obtain ⟨c, row, -, -, hid, hkey, hhistory, -⟩ := he.inserted hnone hstored'
      exact ⟨c, row, by rw [hhistory]; exact List.mem_cons_self, hid, hkey.symm⟩
  · intro c d row row' hc hd hid
    -- A row that was inserted before the step is stored, so its identifier is taken.
    have hold : ∀ {c : CallId} {row : Job}, .inserted c row ∈ s.history →
        s.db.jobs.get? row.id ≠ none := by
      intro c row hmem hnone
      obtain ⟨stored, hstored, -⟩ := h.created c row hmem
      rw [hnone] at hstored
      cases hstored
    rcases he.created hc with hc | ⟨_, -, hnone, hhistory⟩
    · rcases he.created hd with hd | ⟨_, -, hnone, -⟩
      · exact h.created_once c d row row' hc hd hid
      · exact absurd (hid ▸ hnone) (hold hc)
    · rcases he.created hd with hd | ⟨_, -, -, hhistory'⟩
      · exact absurd (hid ▸ hnone) (hold hd)
      · rw [hhistory] at hhistory'
        cases hhistory'
        exact ⟨rfl, rfl⟩
  · intro c row hsession
    rcases he.inserting hsession with hbefore | hne
    · exact h.inserting_key c row hbefore
    · exact hne
  · intro c row hsession
    rcases he.conflicted h hsession with hbefore | ⟨key, jobId, hkey, hne, hstored⟩
    · obtain ⟨key, jobId, hkey, hne, hstored⟩ := h.conflicted_key c row hbefore
      exact ⟨key, jobId, hkey, hne, he.hasKey hstored⟩
    · exact ⟨key, jobId, hkey, hne, he.hasKey hstored⟩
  · intro c job hmem
    rcases he.replayed h hkeyed hmem with hmem | ⟨key, hasked, hstored⟩
    · obtain ⟨key, hasked, hstored⟩ := h.replayed c job hmem
      exact ⟨key, he.history_mem hasked, he.hasKey hstored⟩
    · exact ⟨key, hasked, he.hasKey hstored⟩
  · intro c
    exact he.story (fun d jobId hsession => h.refreshed hsession) hkeyed (h.story c)

theorem registry_initial : State.initial.Registry := by
  refine ⟨⟨?_, ?_, ?_, ?_⟩, ?_, ?_, ?_, ?_, ?_, ?_, ?_, ?_⟩
  · intro jobId row hrow
    exact absurd hrow (by simp [State.initial, Database.empty])
  · intro c row hpending
    cases hpending
  · intro c row hpending
    cases hpending
  · intro c d row row' hpending
    cases hpending
  · intro i j key hi
    obtain ⟨row, hrow, -⟩ := hi
    exact absurd hrow (by simp [State.initial, Database.empty])
  · intro c row hmem
    cases hmem
  · intro jobId row hrow
    exact absurd hrow (by simp [State.initial, Database.empty])
  · intro c d row row' hmem
    cases hmem
  · intro c row hsession
    cases hsession
  · intro c row hsession
    cases hsession
  · intro c job hmem
    cases hmem
  · intro c
    exact .process [] (fun h => absurd h id) (fun _ => rfl) (by simp)
      (by simp [State.initial, Session.pendingRow])

theorem registry_of_reachable (h : (Sql.sessions settings jsonb).Reachable Any s) : s.Registry := by
  apply h.invariant_of_reachable (I := Registry)
  · intro s hs
    have hs : s = State.initial := hs
    subst hs
    exact registry_initial
  · intro s label s' hreach hreg _ hs
    have hinv := inv_of_reachable hreach
    exact hreg.step (act_effect hinv.toKnown hs) hinv.keyed

/-! ## Conflicts -/

/-- A request is made by a call that has not begun. -/
theorem Talk.requested {session : Session} (ht : Talk s s' d session) {key : Option String}
    (h : .requested c key ∈ s'.history) : .requested c key ∈ s.history ∨ s.sessions c = .idle := by
  cases ht with
  | silent _ _ _ _ _ history => exact Or.inl (history ▸ h)
  | draw _ _ _ _ _ _ _ history => exact Or.inl (history ▸ h)
  | refuse _ _ _ before _ _ history | ask _ _ _ before _ _ history =>
    rw [history, List.mem_cons] at h
    rcases h with h | h
    · cases h
      exact Or.inr before
    · exact Or.inl h
  | replay _ _ _ before _ _ _ history =>
    simp only [history, List.mem_cons] at h
    rcases h with h | h | h
    · cases h
    · cases h
      exact Or.inr before
    · exact Or.inl h
  | conflict _ _ _ _ _ history => exact Or.inl (history ▸ h)
  | abort _ _ _ _ history => exact Or.inl (history ▸ h)
  | lost _ _ _ _ _ history => exact Or.inl (history ▸ h)
  | reread _ _ _ _ _ history => exact Or.inl (by simpa [history] using h)
  | answer _ _ _ _ _ history => exact Or.inl (by simpa [history] using h)
  | publish _ _ _ _ history => exact Or.inl (by simpa [history] using h)

theorem Effect.requested (he : Effect s s' call) {key : Option String}
    (h : .requested c key ∈ s'.history) : .requested c key ∈ s.history ∨ s.sessions c = .idle := by
  rcases he.said (Or.inl ⟨c, key, rfl⟩) h with h | ⟨d, session, talk⟩
  · exact Or.inl h
  · exact talk.requested h

/-- A request stays in the story of its call. -/
theorem Registry.asked (h : s.Registry) {key : Option String}
    (hasked : .requested c key ∈ s.history) :
    (s.sessions c).Submits ∧ ∀ key', .requested c key' ∈ s.history → key' = key := by
  obtain ⟨hsubmits, honce⟩ := (h.story c).asked ((mem_talks rfl).mpr hasked)
  exact ⟨hsubmits, fun key' hkey' => honce key' ((mem_talks rfl).mpr hkey')⟩

/-- A call of `create_job` that conflicts does not raise. -/
theorem Registry.not_raises (h : s.Registry) {constraint : String}
    (hsubmits : (s.sessions c).Submits) : ¬ Raises s c (.integrityError constraint) := by
  intro hraises
  cases hraises with
  | plain plain => exact plain
  | claim read workerId now before => exact absurd hsubmits (by rw [before]; exact id)
  | insert row before _ conflict unkeyed =>
    rw [filter_key (h.inserting_key c row before)] at unkeyed
    rcases conflict with hstored | hfound
    · rw [Dict.contains, h.pending_fresh c row (by rw [before]; rfl)] at hstored
      cases hstored
    · rw [unkeyed] at hfound
      cases hfound
  | reselect row before _ missing =>
    obtain ⟨key, jobId, hkey, hne, hstored⟩ := h.conflicted_key c row before
    rw [filter_key (by simpa [hkey] using hne), hkey] at missing
    exact findByKey_none missing hstored
  | drain enabled now before => exact absurd hsubmits (by rw [before]; exact id)

theorem unraised_of_reachable (h : (Sql.sessions settings jsonb).Reachable Any s) :
    ∀ c key constraint, .requested c key ∈ s.history →
      s.sessions c ≠ .raised (.integrityError constraint) := by
  refine h.invariant_of_reachable (I := fun s => ∀ c key constraint, .requested c key ∈ s.history →
      s.sessions c ≠ .raised (.integrityError constraint)) ?_ ?_
  · intro s hs
    have hs : s = State.initial := hs
    subst hs
    intro c key constraint hasked
    cases hasked
  · intro s label s' hreach hunraised _ hs c key constraint hasked hraised
    have hreg := registry_of_reachable hreach
    have he := act_effect (inv_of_reachable hreach).toKnown hs
    rcases he.raised hraised with hbefore | ⟨-, hraises⟩
    · rcases he.requested hasked with hasked | hidle
      · exact hunraised c key constraint hasked hbefore
      · rw [hidle] at hbefore
        cases hbefore
    · rcases he.requested hasked with hasked | hidle
      · exact hreg.not_raises (hreg.asked hasked).1 hraises
      · cases hraises with
        | plain plain => exact plain
        | claim _ _ _ before | insert _ before | reselect _ before | drain _ _ before =>
          rw [hidle] at before
          cases before

/-! ## The law -/

/-- The call `w` has created the row of the key, and this is what the calls with the key are told:
    the row's identifier, that it is new if they are `w`, and to publish it if they are. -/
structure Owner (s : State) (key : String) (w : CallId) (row : Job) : Prop where
  inserted : .inserted w row ∈ s.history
  keyed : row.idempotencyKey = some key
  only : ∀ d row', .inserted d row' ∈ s.history → row'.idempotencyKey = some key →
    d = w ∧ row' = row
  same : ∀ d job replay, .requested d (some key) ∈ s.history → .answered d job replay ∈ s.history →
    job.id = row.id
  told : ∀ d job, .requested d (some key) ∈ s.history → .answered d job false ∈ s.history → d = w
  /-- It was told so, or comes to it next. -/
  telling : (∃ job, .answered w job false ∈ s.history) ∨
    s.sessions w = .inserted row.id ∧ ∃ stored, s.refresh row.id = .ok stored
  published : ∀ d, .published d row.id ∈ s.history → d = w

/-- What a call with a key is answered is a row with that key. -/
theorem Registry.answered (h : s.Registry) {job : JobRecord} {replay : Bool}
    (hasked : .requested c (some key) ∈ s.history) (hanswered : .answered c job replay ∈ s.history) :
    ∃ w row, .inserted w row ∈ s.history ∧ row.id = job.id ∧ row.idempotencyKey = some key ∧
      (replay = false → w = c) := by
  cases replay with
  | false =>
    obtain ⟨row, hinserted, hid, hkey⟩ := (h.story c).answered_new ((mem_talks rfl).mpr hanswered)
    rw [mem_talks rfl] at hinserted hkey
    exact ⟨c, row, hinserted, hid, (h.asked hasked).2 _ hkey, fun _ => rfl⟩
  | true =>
    obtain ⟨k, hk, stored, hstored, hkey⟩ := h.replayed c job hanswered
    have heq := (h.asked hasked).2 _ hk
    obtain ⟨w, row, hinserted, hid, hrowKey⟩ := h.creator job.id stored hstored
    exact ⟨w, row, hinserted, hid, hrowKey.trans (hkey.trans heq), by simp⟩

theorem Registry.owner (h : s.Registry) {row : Job} (hinserted : .inserted c row ∈ s.history)
    (hkey : row.idempotencyKey = some key) : s.Owner key c row := by
  have hasKey : ∀ {d : CallId} {row' : Job}, .inserted d row' ∈ s.history →
      row'.idempotencyKey = some key → s.HasKey row'.id key := by
    intro d row' hmem hkey'
    obtain ⟨stored, hstored, hstoredKey⟩ := h.created d row' hmem
    exact ⟨stored, hstored, hstoredKey.trans hkey'⟩
  have honly : ∀ d row', .inserted d row' ∈ s.history → row'.idempotencyKey = some key →
      d = c ∧ row' = row := by
    intro d row' hmem hkey'
    exact h.created_once d c row' row hmem hinserted
      (h.key_unique row'.id row.id key (hasKey hmem hkey') (hasKey hinserted hkey))
  refine ⟨hinserted, hkey, honly, ?_, ?_, ?_, ?_⟩
  · intro d job replay hasked hanswered
    obtain ⟨w, row', hmem, hid, hkey', -⟩ := h.answered hasked hanswered
    rw [← hid, (honly w row' hmem hkey').2]
  · intro d job hasked hanswered
    obtain ⟨w, row', hmem, -, hkey', hw⟩ := h.answered hasked hanswered
    rw [← hw rfl]
    exact (honly w row' hmem hkey').1
  · have hmem := (mem_talks (s := s) (c := c) rfl).mpr hinserted
    rcases (h.story c).inserted_keyed hmem with hasked | hnone
    · obtain ⟨-, hsession | ⟨job, hanswered, -⟩, -⟩ := (h.story c).inserted_asked hmem hasked
      · obtain ⟨stored, hstored⟩ := h.refreshed hsession
        exact Or.inr ⟨hsession, stored, by simp [refresh, Database.getJob?, hstored]⟩
      · exact Or.inl ⟨job, (mem_talks rfl).mp hanswered⟩
    · rw [hkey] at hnone
      cases hnone
  · intro d hpublished
    obtain ⟨row', hmem, hid, -⟩ := (h.story d).published_new ((mem_talks rfl).mpr hpublished)
    exact (h.created_once d c row' row ((mem_talks rfl).mp hmem) hinserted hid).1

/-- **Submission is idempotent.** A key has one row at most; once a call with the key has got
    through `create_job`, one call has created the row and all calls with the key are told of it;
    no call fails over a conflict; and a call without a key is told of a row of its own. -/
theorem submissions_idempotent (h : (Sql.sessions settings jsonb).Reachable Any s) :
    (∀ i j key, s.HasKey i key → s.HasKey j key → i = j) ∧
      (∀ c key job replay, .requested c (some key) ∈ s.history →
        .answered c job replay ∈ s.history → ∃ w row, s.Owner key w row) ∧
      (∀ c job replay, s.sessions c = .submitted job replay → .answered c job replay ∈ s.history) ∧
      (∀ c key constraint, .requested c key ∈ s.history →
        s.sessions c ≠ .raised (.integrityError constraint)) ∧
      ∀ c job replay, .requested c none ∈ s.history → .answered c job replay ∈ s.history →
        replay = false ∧ ∃ row, .inserted c row ∈ s.history ∧ row.id = job.id ∧
          (∃ stored, s.db.jobs.get? job.id = some stored ∧ stored.idempotencyKey = none) ∧
          ∀ d row', .inserted d row' ∈ s.history → row'.id = job.id → d = c := by
  have hreg := registry_of_reachable h
  refine ⟨hreg.key_unique, ?_, ?_, unraised_of_reachable h, ?_⟩
  · intro c key job replay hasked hanswered
    obtain ⟨w, row, hinserted, -, hkey, -⟩ := hreg.answered hasked hanswered
    exact ⟨w, row, hreg.owner hinserted hkey⟩
  · intro c job replay hsession
    have hstory := hreg.story c
    rw [hsession] at hstory
    exact (mem_talks rfl).mp hstory.returned
  · intro c job replay hasked hanswered
    cases replay with
    | true =>
      obtain ⟨key, hkey, -⟩ := hreg.replayed c job hanswered
      have := (hreg.asked hasked).2 _ hkey
      cases this
    | false =>
      obtain ⟨row, hinserted, hid, hkey⟩ :=
        (hreg.story c).answered_new ((mem_talks rfl).mpr hanswered)
      rw [mem_talks rfl] at hinserted hkey
      obtain ⟨stored, hstored, hstoredKey⟩ := hreg.created c row hinserted
      refine ⟨rfl, row, hinserted, hid, ⟨stored, hid ▸ hstored, ?_⟩, ?_⟩
      · rw [hstoredKey]
        exact (hreg.asked hasked).2 _ hkey
      · intro d row' hmem hid'
        exact (hreg.created_once d c row' row hmem hinserted (hid'.trans hid.symm)).1

/-- Two calls that both miss the key in the first `select`; the second loses the `INSERT`. -/
def submitRace : List Label :=
  [⟨0, .submit 0 (Sample.request.keyed "key-1" (by decide)) Sample.jobId⟩,
    ⟨0, .submit 1 (Sample.request.keyed "key-1" (by decide)) Sample.nextJobId⟩,
    ⟨0, .insertCommit 0⟩, ⟨0, .insertCommit 1⟩, ⟨0, .reselect 1⟩, ⟨0, .insertRefresh 0⟩,
    ⟨0, .publish 0⟩]

theorem submissions_idempotent_of_submitRace : ∃ s job w row,
    (Sql.sessions {} some).Reachable Any s ∧ s.sessions 1 = .submitted job true ∧
      job.id = Sample.jobId ∧ s.Owner "key-1" w row := by
  have hrun : ∃ s job, System.replay (State.step {} some) State.initial submitRace = some s ∧
      s.sessions 1 = .submitted job true ∧ job.id = Sample.jobId ∧
      s.history[4]? = some (.requested 1 (some "key-1")) ∧
      s.history[2]? = some (.answered 1 job true) := ⟨_, _, rfl, rfl, rfl, rfl, rfl⟩
  obtain ⟨s, job, hs, hsession, hid, hasked, hanswered⟩ := hrun
  have hreach : (Sql.sessions {} some).Reachable Any s :=
    ⟨State.initial, rfl, System.Steps.of_replay hs fun _ _ _ => trivial⟩
  obtain ⟨w, row, howner⟩ := (submissions_idempotent hreach).2.1 1 "key-1" job true
    (List.mem_of_getElem? hasked) (List.mem_of_getElem? hanswered)
  exact ⟨s, job, w, row, hreach, hsession, hid, howner⟩

end State

end Sql

end JobPipeline
