import JobPipeline.Lib.Paging
import JobPipeline.Sql.Repository

/-!
# Listing jobs page by page

`GET /jobs` in `main.py`, `JobService.list_jobs`, and a client that asks for one page after another
until one is empty. The repository answers each query from the same table. PostgreSQL may visit the
rows in another order every time, and `ORDER BY created_at DESC` leaves jobs created at the same
instant in the order visited; the in-memory repository sorts one dictionary, so its listing is
always the same.
-/

set_option autoImplicit false

namespace JobPipeline

/-- `list_jobs` of a repository: the status, the handler, the limit and the offset. -/
abbrev ListJobs := Option JobStatus → Option String → Nat → Nat → List JobRecord

structure JobListItem where
  id : UUID
  handler : String
  status : JobStatus
  attemptCount : Nat
  createdAt : Int
deriving DecidableEq

structure JobListResponse where
  items : List JobListItem
  limit : Nat
  offset : Nat

/-- `ensure_supported_handler`. -/
def ensureSupportedHandler (name : String) : Except Exc Unit :=
  match getHandler name with
  | .ok _ => .ok ()
  | .error e => .error e

/-- `if handler: ensure_supported_handler(handler)`. -/
def checkHandlerFilter : Option String → Except Exc Unit
  | none => .ok ()
  | some handler => if handler = "" then .ok () else ensureSupportedHandler handler

/-- `JobService.list_jobs`. -/
def serviceListJobs (settings : Settings) (listJobs : ListJobs) (status : Option JobStatus)
    (handler : Option String) (limit offset : Nat) : Except Exc (List JobRecord) :=
  match checkHandlerFilter handler with
  | .error e => .error e
  | .ok _ => .ok (listJobs status handler (min limit settings.maxPageSize) offset)

def JobListItem.ofRecord (job : JobRecord) : JobListItem where
  id := job.id
  handler := job.handler
  status := job.status
  attemptCount := job.attemptCount
  createdAt := job.createdAt

/-- `GET /jobs`. -/
def routeListJobs (settings : Settings) (listJobs : ListJobs) (status : Option JobStatus)
    (handler : Option String) (limit offset : Nat) : Except Exc JobListResponse :=
  match serviceListJobs settings listJobs status handler limit offset with
  | .error e => .error e
  | .ok jobs => .ok
    { items := jobs.map .ofRecord, limit := min limit settings.maxPageSize, offset := offset }

/-- The client: it advances by the `limit` of each response and stops at an empty page. Query
    `i` is answered by `listJobs i`; the answer is `none` while there are pages left to fetch. -/
def fetchPages (settings : Settings) (listJobs : Nat → ListJobs) (status : Option JobStatus)
    (handler : Option String) (limit : Nat) :
    Nat → Nat → Nat → Except Exc (Option (List JobListItem))
  | 0, _, _ => .ok none
  | fuel + 1, query, offset =>
    match routeListJobs settings (listJobs query) status handler limit offset with
    | .error e => .error e
    | .ok response =>
      if response.items.isEmpty then .ok (some [])
      else
        (fetchPages settings listJobs status handler limit fuel (query + 1)
          (offset + response.limit)).map (Option.map (response.items ++ ·))

/-- A page after the other lists exactly these jobs, each once, latest first. -/
def ListsOnce (settings : Settings) (listJobs : Nat → ListJobs) (status : Option JobStatus)
    (handler : Option String) (limit : Nat) (jobs : List JobRecord) : Prop :=
  ∃ fuel items, fetchPages settings listJobs status handler limit fuel 0 0 = .ok (some items) ∧
    items.Perm (jobs.map .ofRecord) ∧ items.Pairwise fun a b => b.createdAt ≤ a.createdAt

/-- The service lists by this handler: there is no filter, or the registry knows it. -/
def AcceptsFilter (handler : Option String) : Prop := ∀ h ∈ handler, h = "" ∨ Supported h

/-! ## What the client collects -/

section Client

open Paging

universe u

variable {settings : Settings} {listJobs : Nat → ListJobs} {status : Option JobStatus}
  {handler : Option String} {limit : Nat} {n : Nat}
  {α : Type u} {record : α → JobRecord} {listing : Nat → List α}

theorem acceptsFilter_iff : checkHandlerFilter handler = .ok () ↔ AcceptsFilter handler := by
  unfold AcceptsFilter Supported
  cases handler with
  | none => simp [checkHandlerFilter]
  | some h =>
    by_cases hempty : h = ""
    · simp [checkHandlerFilter, hempty]
    · cases hget : getHandler h <;>
        simp [checkHandlerFilter, hempty, ensureSupportedHandler, hget]

/-- What is not accepted is refused, whatever the page. -/
theorem routeListJobs_refused (settings : Settings) (h : ¬ AcceptsFilter handler) (list : ListJobs)
    (status : Option JobStatus) (limit offset : Nat) :
    ∃ e, routeListJobs settings list status handler limit offset = .error e := by
  cases hcheck : checkHandlerFilter handler with
  | ok u => exact absurd (acceptsFilter_iff.mp hcheck) h
  | error e => exact ⟨e, by simp only [routeListJobs, serviceListJobs, hcheck]⟩

theorem routeListJobs_accepted (settings : Settings) (h : AcceptsFilter handler) (list : ListJobs)
    (status : Option JobStatus) (limit offset : Nat) :
    routeListJobs settings list status handler limit offset = .ok
      { items := (list status handler (min limit settings.maxPageSize) offset).map .ofRecord
        limit := min limit settings.maxPageSize
        offset := offset } := by
  simp only [routeListJobs, serviceListJobs, acceptsFilter_iff.mpr h]

/-- **The client collects the pages**, when the repository cuts each out of a listing of `n` rows:
    it stops after the last page that is not empty. -/
theorem fetchPages_eq (hfilter : AcceptsFilter handler) (hsize : 1 ≤ min limit settings.maxPageSize)
    (hlength : ∀ i, (listing i).length = n)
    (hlist : ∀ i offset, listJobs i status handler (min limit settings.maxPageSize) offset =
      (((listing i).drop offset).take (min limit settings.maxPageSize)).map record) :
    ∀ (fuel : Nat) {query : Nat}, query ≤ pageCount n (min limit settings.maxPageSize) →
      fetchPages settings listJobs status handler limit fuel query
          (query * min limit settings.maxPageSize) =
        .ok (if pageCount n (min limit settings.maxPageSize) - query < fuel then
          some (((List.range' query (pageCount n (min limit settings.maxPageSize) - query)).flatMap
            fun i => page (listing i) (min limit settings.maxPageSize) i).map
              fun row => .ofRecord (record row))
        else none) := by
  intro fuel
  generalize hL : min limit settings.maxPageSize = size at *
  induction fuel with
  | zero => intro query _; rfl
  | succ fuel ih =>
    intro query hquery
    have hroute := routeListJobs_accepted settings hfilter (listJobs query) status limit
      (query * size)
    rw [hL, hlist query (query * size)] at hroute
    rw [fetchPages, hroute]
    dsimp only
    by_cases hlast : query = pageCount n size
    · -- The page after the last is empty.
      have hover : (listing query).length ≤ query * size := by
        have := (not_congr (lt_pageCount_iff hsize (n := n))).mp (not_lt.mpr (le_of_eq hlast.symm))
        rw [hlength]
        omega
      rw [List.drop_eq_nil_of_le hover, hlast]
      simp
    · have hmore : query < pageCount n size := lt_of_le_of_ne hquery hlast
      have hsome : query * size < (listing query).length := by
        rw [hlength]
        exact (lt_pageCount_iff hsize).mp hmore
      have hne : (((((listing query).drop (query * size)).take size).map record).map
          JobListItem.ofRecord).isEmpty = false := by
        rw [List.isEmpty_eq_false_iff, ← List.length_pos_iff, List.length_map, List.length_map,
          List.length_take, List.length_drop]
        omega
      have hoffset : query * size + size = (query + 1) * size := by ring
      obtain ⟨k, hk⟩ : ∃ k, pageCount n size - query = k + 1 :=
        ⟨pageCount n size - query - 1, by omega⟩
      have hk' : pageCount n size - (query + 1) = k := by omega
      rw [hne, hoffset, ih hmore, hk, hk']
      simp only [Bool.false_eq_true, if_false, Nat.add_lt_add_iff_right]
      by_cases hfuel : k < fuel
      · simp only [hfuel, if_true, Except.map, Option.map_some, List.range'_succ,
          List.flatMap_cons, List.map_append, List.map_map, Function.comp_def, page]
      · simp only [hfuel, if_false, Except.map, Option.map_none]

/-- **What it is to list once**: the pages are the rows. -/
theorem listsOnce_iff {rows : List α} (hfilter : AcceptsFilter handler)
    (hsize : 1 ≤ min limit settings.maxPageSize)
    (hlisting : ∀ i, Lists (fun row => (record row).createdAt) rows (listing i))
    (hlist : ∀ i offset, listJobs i status handler (min limit settings.maxPageSize) offset =
      (((listing i).drop offset).take (min limit settings.maxPageSize)).map record) :
    ListsOnce settings listJobs status handler limit (rows.map record) ↔
      ((pages listing (min limit settings.maxPageSize) (pageCount rows.length
        (min limit settings.maxPageSize))).map fun row => JobListItem.ofRecord (record row)).Perm
          (rows.map fun row => .ofRecord (record row)) := by
  have hfetch : ∀ fuel, fetchPages settings listJobs status handler limit fuel 0 0 =
      .ok (if pageCount rows.length (min limit settings.maxPageSize) < fuel then
        some ((pages listing (min limit settings.maxPageSize) (pageCount rows.length
          (min limit settings.maxPageSize))).map fun row => .ofRecord (record row)) else none) := by
    intro fuel
    have h := fetchPages_eq hfilter hsize (fun i => (hlisting i).length_eq) hlist fuel
      (Nat.zero_le _)
    rw [Nat.zero_mul, Nat.sub_zero, ← List.range_eq_range'] at h
    exact h
  generalize min limit settings.maxPageSize = size at hfetch ⊢
  have hjobs : (rows.map record).map JobListItem.ofRecord =
      rows.map fun row => .ofRecord (record row) := by
    rw [List.map_map]
    rfl
  constructor
  · intro h
    obtain ⟨fuel, items, hitems, hperm, -⟩ := h
    rw [hfetch fuel] at hitems
    split at hitems
    · cases hitems
      exact hjobs ▸ hperm
    · cases hitems
  · intro hperm
    refine ⟨pageCount rows.length size + 1, _, by rw [hfetch, if_pos (Nat.lt_succ_self _)],
      hjobs ▸ hperm, ?_⟩
    have hkeys : (pages listing size (pageCount rows.length size)).Pairwise
        fun a b => (record b).createdAt ≤ (record a).createdAt := by
      rw [← List.pairwise_map (f := fun row => (record row).createdAt) (R := fun a b => b ≤ a),
        map_key_pages hlisting]
      exact (List.pairwise_insertionSort (fun a b : Int => b ≤ a) _).sublist (List.take_sublist _ _)
    exact List.pairwise_map.mpr hkeys

/-- A refused filter lists nothing. -/
theorem not_listsOnce_of_refused {jobs : List JobRecord} (h : ¬ AcceptsFilter handler) :
    ¬ ListsOnce settings listJobs status handler limit jobs := by
  intro hlists
  obtain ⟨fuel, items, hitems, -⟩ := hlists
  cases fuel with
  | zero => cases hitems
  | succ fuel =>
    obtain ⟨e, he⟩ := routeListJobs_refused settings h (listJobs 0) status limit 0
    rw [fetchPages, he] at hitems
    cases hitems

end Client

/-! ## Over PostgreSQL -/

section Sql

open Paging

variable {settings : Settings} {table : List Job} {visits : Nat → List Job}
  {status : Option JobStatus} {handler : Option String} {limit : Nat}

/-- The rows that the filters let through. -/
def matchingRows (table : List Job) (status : Option JobStatus) (handler : Option String) :
    List Job :=
  table.filter (SqlAlchemyJobRepository.matchesFilters status handler)

/-- `ORDER BY created_at DESC` over the rows as visited. -/
def sqlListing (status : Option JobStatus) (handler : Option String) (rows : List Job) :
    List Job :=
  (matchingRows rows status handler).insertionSort fun a b => b.createdAt ≤ a.createdAt

/-- No two jobs created at the same instant stand on the two sides of the end of a page. -/
def NoTieAcrossPages (rows : List Job) (size : Nat) : Prop :=
  ∀ i, ¬ TieAt (sortedKeys Job.createdAt rows) (i * size)

/-- Each query is answered from the table, its rows in the order in which it visits them. -/
def sqlListJobs (visits : Nat → List Job) : Nat → ListJobs :=
  fun query => SqlAlchemyJobRepository.listJobs (visits query)

instance : Std.Total fun a b : Job => b.createdAt ≤ a.createdAt :=
  ⟨fun a b => le_total b.createdAt a.createdAt⟩

instance : IsTrans Job fun a b => b.createdAt ≤ a.createdAt :=
  ⟨fun _ _ _ hab hbc => le_trans hbc hab⟩

theorem lists_sqlListing {rows : List Job} (h : rows.Perm table) :
    Lists Job.createdAt (matchingRows table status handler) (sqlListing status handler rows) where
  perm := (List.perm_insertionSort _ _).trans (h.filter _)
  sorted := List.pairwise_insertionSort _ _

/-- Any sorted arrangement of the matching rows is listed, if the table is visited in it. -/
theorem exists_visit {l : List Job}
    (h : Lists Job.createdAt (matchingRows table status handler) l) :
    ∃ rows : List Job, rows.Perm table ∧ sqlListing status handler rows = l := by
  let p := SqlAlchemyJobRepository.matchesFilters status handler
  have hmatch : ∀ row ∈ l, p row = true := fun row hrow =>
    (List.mem_filter.mp (h.perm.mem_iff.mp hrow)).2
  refine ⟨l ++ table.filter fun row => !p row, ?_, ?_⟩
  · exact (h.perm.append_right _).trans (List.filter_append_perm p table)
  · have hfirst : l.filter p = l := List.filter_eq_self.mpr hmatch
    have hrest : (table.filter fun row => !p row).filter p = [] := by
      rw [List.filter_filter, List.filter_eq_nil_iff]
      intro row _
      simp
    unfold sqlListing matchingRows
    rw [List.filter_append, hfirst, hrest, List.append_nil]
    exact h.sorted.insertionSort_eq

theorem listsOnce_sql_iff (hfilter : AcceptsFilter handler)
    (hsize : 1 ≤ min limit settings.maxPageSize) (hvisits : ∀ i, (visits i).Perm table) :
    ListsOnce settings (sqlListJobs visits) status handler limit
        ((matchingRows table status handler).map recordFromModel) ↔
      ((pages (fun i => sqlListing status handler (visits i)) (min limit settings.maxPageSize)
        (pageCount (matchingRows table status handler).length
          (min limit settings.maxPageSize))).map fun row => .ofRecord (recordFromModel row)).Perm
            ((matchingRows table status handler).map fun row =>
              JobListItem.ofRecord (recordFromModel row)) :=
  listsOnce_iff hfilter hsize (fun i => lists_sqlListing (hvisits i)) fun _ _ => rfl

/-- **When paging over PostgreSQL lists every job once**, whatever the order of the visits:
    exactly when the filter is accepted and no two jobs created at the same instant are on the two
    sides of the end of a page. -/
theorem sql_paging_iff (settings : Settings) (hpage : 1 ≤ settings.maxPageSize) (db : Database)
    (primaryKey : (db.jobs.values.map Job.id).Nodup) (status : Option JobStatus)
    (handler : Option String) (limit : Nat) (hlimit : 1 ≤ limit) :
    (∀ visits : Nat → List Job, (∀ i, (visits i).Perm db.jobs.values) →
        ListsOnce settings (sqlListJobs visits) status handler limit
          ((matchingRows db.jobs.values status handler).map recordFromModel)) ↔
      AcceptsFilter handler ∧ NoTieAcrossPages (matchingRows db.jobs.values status handler)
        (min limit settings.maxPageSize) := by
  have hsize : 1 ≤ min limit settings.maxPageSize := le_min hlimit hpage
  constructor
  · intro h
    have hfilter : AcceptsFilter handler := by
      by_contra hrefused
      exact not_listsOnce_of_refused hrefused (h (fun _ => db.jobs.values) fun _ => List.Perm.rfl)
    refine ⟨hfilter, fun i htie => ?_⟩
    obtain ⟨listing, hlisting, hrepeats⟩ :=
      exists_pages_not_nodup hsize (lists_sqlListing (List.Perm.refl _)) htie
    choose visits hvisits hlist using fun j => exists_visit (hlisting j)
    have honce := (listsOnce_sql_iff hfilter hsize hvisits).mp (h visits hvisits)
    simp only [hlist] at honce
    -- The identifiers tell the rows apart.
    have hids := honce.map JobListItem.id
    rw [List.map_map, List.map_map] at hids
    have hnodup : ((matchingRows db.jobs.values status handler).map Job.id).Nodup :=
      primaryKey.sublist (List.filter_sublist.map _)
    exact hrepeats (List.Nodup.of_map Job.id (hids.nodup_iff.mpr hnodup))
  · intro h visits hvisits
    obtain ⟨hfilter, hties⟩ := h
    rw [listsOnce_sql_iff hfilter hsize hvisits]
    have hlists : ∀ i, Lists Job.createdAt (matchingRows db.jobs.values status handler)
        (sqlListing status handler (visits i)) := fun i => lists_sqlListing (hvisits i)
    have hpages := pages_perm hlists hties (hlists 0) (pageCount
      (matchingRows db.jobs.values status handler).length (min limit settings.maxPageSize))
    rw [List.take_of_length_le
      (by rw [(hlists 0).length_eq]; exact length_le_pageCount hsize _)] at hpages
    exact (hpages.trans (hlists 0).perm).map _

/-- Two jobs created at the same instant. -/
def Sample.twins : Database :=
  { Database.empty with
    jobs := (Dict.empty.insert Sample.jobId (.submittedRow Sample.request Sample.jobId 0)).insert
      Sample.nextJobId (.submittedRow Sample.request Sample.nextJobId 0) }

/-- The rows in the order stored at first, and then the other way. -/
def Sample.twinVisits (query : Nat) : List Job :=
  if query = 0 then Sample.twins.jobs.values else Sample.twins.jobs.values.reverse

theorem twinVisits_perm (i : Nat) : (Sample.twinVisits i).Perm Sample.twins.jobs.values := by
  unfold Sample.twinVisits
  split
  · exact List.Perm.rfl
  · exact List.reverse_perm _

/-- On one page the twins are listed once. -/
theorem sql_paging_of_twins : ListsOnce {} (sqlListJobs Sample.twinVisits) none none 2
    ((matchingRows Sample.twins.jobs.values none none).map recordFromModel) := by
  refine (sql_paging_iff {} (by decide) Sample.twins (by decide) none none 2 (by decide)).mpr
    ⟨by simp [AcceptsFilter], fun i htie => ?_⟩ Sample.twinVisits twinVisits_perm
  obtain ⟨hpos, k, -, hfirst⟩ := htie
  have hkeys : sortedKeys Job.createdAt (matchingRows Sample.twins.jobs.values none none) =
      [0, 0] := rfl
  rw [hkeys] at hfirst
  have hlt := (List.getElem?_eq_some_iff.mp hfirst).1
  have hsize : min 2 ({} : Settings).maxPageSize = 2 := rfl
  rw [hsize] at hpos hlt
  simp only [List.length_cons, List.length_nil] at hlt
  omega

/-- **On pages of one job, one twin is listed twice and the other not at all.** -/
theorem sql_paging_repeats : (∀ i, (Sample.twinVisits i).Perm Sample.twins.jobs.values) ∧
    (fetchPages {} (sqlListJobs Sample.twinVisits) none none 1 3 0 0).map
        (Option.map (List.map JobListItem.id)) = .ok (some [Sample.jobId, Sample.jobId]) ∧
      ¬ ListsOnce {} (sqlListJobs Sample.twinVisits) none none 1
        ((matchingRows Sample.twins.jobs.values none none).map recordFromModel) := by
  refine ⟨twinVisits_perm, rfl, fun honce => ?_⟩
  have hperm := (listsOnce_sql_iff (by simp [AcceptsFilter]) (by decide) twinVisits_perm).mp honce
  have hids := hperm.map JobListItem.id
  have hnodup : ([Sample.jobId, Sample.jobId] : List UUID).Nodup :=
    hids.nodup_iff.mpr (by decide)
  exact absurd hnodup (by decide)

end Sql

/-! ## In memory -/

instance : Std.Total fun a b : JobRecord => b.createdAt ≤ a.createdAt :=
  ⟨fun a b => le_total b.createdAt a.createdAt⟩

instance : IsTrans JobRecord fun a b => b.createdAt ≤ a.createdAt :=
  ⟨fun _ _ _ hab hbc => le_trans hbc hab⟩

/-- **The in-memory repository lists every job once**: it has one listing. -/
theorem inMemory_paging (settings : Settings) (hpage : 1 ≤ settings.maxPageSize)
    (r : InMemoryJobRepository) (status : Option JobStatus) (handler : Option String)
    (hfilter : AcceptsFilter handler) (limit : Nat) (hlimit : 1 ≤ limit) :
    ListsOnce settings (fun _ => r.listJobs) status handler limit
      (r.jobs.values.filter (InMemoryJobRepository.passesFilters status handler)) := by
  have hsize : 1 ≤ min limit settings.maxPageSize := le_min hlimit hpage
  let sorted := r.jobs.values.insertionSort fun a b => b.createdAt ≤ a.createdAt
  have hlists : Paging.Lists JobRecord.createdAt
      (r.jobs.values.filter (InMemoryJobRepository.passesFilters status handler))
      (sorted.filter (InMemoryJobRepository.passesFilters status handler)) :=
    { perm := (List.perm_insertionSort _ _).filter _
      sorted := (List.pairwise_insertionSort _ _).filter _ }
  have honce : ListsOnce settings (fun _ => r.listJobs) status handler limit
      ((r.jobs.values.filter (InMemoryJobRepository.passesFilters status handler)).map id) ↔ _ :=
    listsOnce_iff hfilter hsize (fun _ => hlists) fun _ _ => (List.map_id _).symm
  rw [List.map_id] at honce
  rw [honce, Paging.pages_const, List.take_of_length_le
    (by rw [hlists.length_eq]; exact Paging.length_le_pageCount hsize _)]
  exact hlists.perm.map _

end JobPipeline
