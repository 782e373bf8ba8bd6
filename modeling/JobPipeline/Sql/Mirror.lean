import JobPipeline.Sql.Operations

/-!
# Tables that mirror the dictionaries of the memory repository

`Mirrors r db` relates the two stores. Equal records are not enough to go on with: the memory
repository finds a key through its own dictionary and clears `processed_at` with every failed
attempt, and PostgreSQL has constraints that the memory repository has not, so the relation says
why the lookups agree, why the field was clear already and why the constraints hold.
-/

set_option autoImplicit false

namespace JobPipeline

/-- The record of a row, with its objects in canonical form. -/
def Job.view (row : Job) : JobRecord := (recordFromModel row).canonical

structure Mirrors (r : InMemoryJobRepository) (db : Database) : Prop where
  jobs : r.jobs.map JobRecord.canonical = db.jobs.map Job.view
  keyed : ∀ {jobId row}, db.jobs.get? jobId = some row → row.id = jobId
  /-- The dictionary of keys is what the column holds. -/
  idempotency : ∀ key jobId, r.idempotency.get? key = some jobId ↔
    ∃ row, db.jobs.get? jobId = some row ∧ row.idempotencyKey = some key
  drain : r.drainEnabled = db.getDrain
  /-- The attempts are those the rows have counted. -/
  numbered : ∀ attempt ∈ db.jobAttempts, ∃ row, db.jobs.get? attempt.jobId = some row ∧
    attempt.attemptNumber ≤ row.attemptCount
  /-- `processed_at` is set in terminal rows only. -/
  unprocessed : ∀ {jobId row}, db.jobs.get? jobId = some row → row.status.isTerminal = false →
    row.processedAt = none

namespace Mirrors

variable {r : InMemoryJobRepository} {db : Database} {jobId : UUID} {job : JobRecord} {row : Job}

theorem empty : Mirrors .empty .empty where
  jobs := rfl
  keyed := by intro _ _ h; exact absurd h (by simp [Database.empty])
  idempotency := by intro key jobId; simp [InMemoryJobRepository.empty, Database.empty]
  drain := rfl
  numbered := by intro _ h; exact absurd h (by simp [Database.empty])
  unprocessed := by intro _ _ h; exact absurd h (by simp [Database.empty])

/-! ## Lookups -/

/-- A job is stored in both or in neither. -/
theorem lookup (h : Mirrors r db) (jobId : UUID) :
    (r.jobs.get? jobId = none ∧ db.jobs.get? jobId = none) ∨
      ∃ job row, r.jobs.get? jobId = some job ∧ db.jobs.get? jobId = some row ∧
        job.canonical = row.view := by
  have hget : (r.jobs.get? jobId).map JobRecord.canonical = (db.jobs.get? jobId).map Job.view := by
    rw [← Dict.get?_map, h.jobs, Dict.get?_map]
  cases hjob : r.jobs.get? jobId with
  | none =>
    rw [hjob] at hget
    exact Or.inl ⟨rfl, by simpa using hget.symm⟩
  | some job =>
    rw [hjob] at hget
    obtain ⟨row, hrow, hview⟩ := Option.map_eq_some_iff.mp hget.symm
    exact Or.inr ⟨job, row, rfl, hrow, hview.symm⟩

theorem sameRecords (h : Mirrors r db) : SameRecords r db := by
  intro jobId
  rcases h.lookup jobId with ⟨hjob, hrow⟩ | ⟨job, row, hjob, hrow, hview⟩
  · rw [hjob, hrow]
    exact Option.Rel.none
  · rw [hjob, hrow]
    exact Option.Rel.some hview

theorem values (h : Mirrors r db) :
    r.jobs.values.map JobRecord.canonical = db.jobs.values.map Job.view := by
  rw [← Dict.values_map, h.jobs, Dict.values_map]

/-- The `select` by key finds the job the dictionary names. -/
theorem findByKey (h : Mirrors r db) (key : String) :
    (r.idempotency.get? key = none ∧ db.findByKey key = none) ∨
      ∃ jobId job row, r.idempotency.get? key = some jobId ∧ r.jobs.get? jobId = some job ∧
        db.findByKey key = some row ∧ job.canonical = row.view := by
  cases hfind : db.findByKey key with
  | none =>
    refine Or.inl ⟨Option.eq_none_iff_forall_ne_some.mpr fun jobId hkey => ?_, rfl⟩
    obtain ⟨row, hrow, hrowKey⟩ := (h.idempotency key jobId).mp hkey
    exact Database.findByKey_none hfind hrow hrowKey
  | some row =>
    obtain ⟨jobId, hrow, hrowKey⟩ := Database.findByKey_some hfind
    rcases h.lookup jobId with ⟨-, hnone⟩ | ⟨job, row', hjob, hrow', hview⟩
    · exact absurd (hrow.symm.trans hnone) (by simp)
    · cases hrow.symm.trans hrow'
      exact Or.inr ⟨jobId, job, row, (h.idempotency key jobId).mpr ⟨row, hrow, hrowKey⟩, hjob, rfl,
        hview⟩

/-- The number of the next attempt is free. -/
theorem hasAttempt (h : Mirrors r db) (hrow : db.jobs.get? jobId = some row) :
    db.hasAttempt row.id (row.attemptCount + 1) = false := by
  refine List.any_eq_false.mpr fun attempt hmem hhas => ?_
  obtain ⟨row', hrow', hle⟩ := h.numbered attempt hmem
  simp only [Bool.and_eq_true, decide_eq_true_eq] at hhas
  rw [hhas.1, h.keyed hrow, hrow] at hrow'
  cases hrow'
  omega

/-! ## Updates -/

/-- A job rewritten in both stores. -/
theorem update (h : Mirrors r db) (hrow : db.jobs.get? jobId = some row) {assign : Job → Job}
    (hview : job.canonical = (assign row).view) (hid : (assign row).id = row.id)
    (hkey : (assign row).idempotencyKey = row.idempotencyKey)
    (hcount : row.attemptCount ≤ (assign row).attemptCount)
    (hprocessed : (assign row).status.isTerminal = false → (assign row).processedAt = none) :
    Mirrors { r with jobs := r.jobs.insert jobId job } (db.update jobId assign) := by
  have hget : ∀ x, (db.update jobId assign).jobs.get? x =
      if x = jobId then some (assign row) else db.jobs.get? x := by
    intro x
    rw [Database.update, Dict.modify_eq_insert assign hrow, Dict.get?_insert]
  constructor
  · show (r.jobs.insert jobId job).map _ = (db.jobs.modify jobId assign).map _
    rw [Dict.modify_eq_insert assign hrow, Dict.insert_map, Dict.insert_map, h.jobs, hview]
  · intro x row' hrow'
    rw [hget] at hrow'
    split at hrow'
    · rename_i hx
      cases hrow'
      rw [hid, h.keyed hrow, hx]
    · exact h.keyed hrow'
  · intro key x
    rw [hget]
    split
    · rename_i hx
      subst hx
      rw [h.idempotency key x]
      simp [hrow, hkey]
    · exact h.idempotency key x
  · exact h.drain
  · intro attempt hmem
    obtain ⟨row', hrow', hle⟩ := h.numbered attempt hmem
    rw [hget]
    split
    · rename_i hx
      rw [hx, hrow] at hrow'
      cases hrow'
      exact ⟨assign row, rfl, hle.trans hcount⟩
    · exact ⟨row', hrow', hle⟩
  · intro x row' hrow' hterminal
    rw [hget] at hrow'
    split at hrow'
    · cases hrow'
      exact hprocessed hterminal
    · exact h.unprocessed hrow' hterminal

/-- The attempts rewritten. -/
theorem withAttempts (h : Mirrors r db) {attempts : List JobAttempt}
    (hnumbered : ∀ attempt ∈ attempts, ∃ row, db.jobs.get? attempt.jobId = some row ∧
      attempt.attemptNumber ≤ row.attemptCount) :
    Mirrors r { db with jobAttempts := attempts } :=
  ⟨h.jobs, h.keyed, h.idempotency, h.drain, hnumbered, h.unprocessed⟩

theorem finishAttempt (h : Mirrors r db) (attemptNumber : Nat) (status : AttemptStatus)
    (error : Option String) (now : Int) :
    Mirrors r (db.finishAttempt jobId attemptNumber status error now) := by
  refine h.withAttempts fun attempt hmem => ?_
  obtain ⟨old, hold, rfl⟩ := List.mem_map.mp hmem
  split
  · exact h.numbered old hold
  · exact h.numbered old hold

/-- A job added to both stores. -/
theorem insert (h : Mirrors r db) (hfresh : db.jobs.get? row.id = none)
    (hview : job.canonical = row.view) (hprocessed : row.processedAt = none)
    (hkey : ∀ key ∈ row.idempotencyKey, key ≠ "" ∧ r.idempotency.get? key = none) :
    Mirrors ((r.store job).remember row.idempotencyKey row.id)
      { db with jobs := db.jobs.insert row.id row } := by
  have hid : job.id = row.id := congrArg JobRecord.id hview
  constructor
  · rw [InMemoryJobRepository.remember_jobs]
    show (r.jobs.insert job.id job).map _ = (db.jobs.insert row.id row).map _
    rw [Dict.insert_map, Dict.insert_map, h.jobs, hview, hid]
  · intro x row' hrow'
    rw [Dict.get?_insert] at hrow'
    split at hrow'
    · rename_i hx
      cases hrow'
      exact hx.symm
    · exact h.keyed hrow'
  · intro key x
    have hne : row.idempotencyKey ≠ some "" := fun heq => (hkey "" heq).1 rfl
    rw [InMemoryJobRepository.get?_remember _ hne, Dict.get?_insert]
    have hold : r.idempotency.get? key = some x ↔ _ := h.idempotency key x
    by_cases hrowKey : row.idempotencyKey = some key
    · -- The key is new: no other row has it.
      have hnone := (hkey key hrowKey).2
      rw [hnone] at hold
      by_cases hx : x = row.id
      · simp [hx, hrowKey]
      · simp [hx, Ne.symm hx, hrowKey, ← hold]
    · rw [if_neg hrowKey]
      by_cases hx : x = row.id
      · subst hx
        simpa [hfresh, hrowKey, InMemoryJobRepository.store] using hold
      · rw [if_neg hx]
        exact hold
  · rw [InMemoryJobRepository.remember_drainEnabled]
    exact h.drain
  · intro attempt hmem
    obtain ⟨row', hrow', hle⟩ := h.numbered attempt hmem
    have hne : attempt.jobId ≠ row.id := (Dict.ne_of_get?_eq_none hfresh hrow').symm
    exact ⟨row', (Dict.get?_insert_of_ne _ _ hne).trans hrow', hle⟩
  · intro x row' hrow' hterminal
    rw [Dict.get?_insert] at hrow'
    split at hrow'
    · cases hrow'
      exact hprocessed
    · exact h.unprocessed hrow' hterminal

end Mirrors

end JobPipeline
