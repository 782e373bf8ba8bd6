import Mathlib.Data.Rat.Cast.Order
import Mathlib.Tactic.FieldSimp
import Mathlib.Tactic.Linarith
import JobPipeline.Lib.Sorting
import JobPipeline.Jobs.Metrics

/-!
# What the latency percentiles cover

`_percentile` takes the value at place `round((n - 1) * p)` of the sorted latencies: the nearest
rank, and of two equally near ones the even one. The rank of the value is one more than its
place, so it covers at least `(n - 1) * p + 1/2` of the `n` jobs. For `p = 0.50` that is half of
them. For `p = 0.95` it can be up to 0.45 of a job less than 95%, and `CoversShare` says for which
`n` it is not.
-/

set_option autoImplicit false

namespace JobPipeline

/-! ## Rounding -/

/-- `round` of a fraction, in integers. -/
theorem roundHalfEven_div (a : Int) {d : Nat} (hd : 0 < d) :
    roundHalfEven ((a : ℚ) / d) =
      if 2 * (a % d) < d then a / d
      else if (d : Int) < 2 * (a % d) then a / d + 1
      else if a / d % 2 = 0 then a / d else a / d + 1 := by
  have hpos : (0 : ℚ) < d := by exact_mod_cast hd
  have hfloor : ⌊(a : ℚ) / d⌋ = a / d := Rat.floor_intCast_div_natCast a d
  have hrest : (a : ℚ) / d - ((a / d : Int) : ℚ) = ((a % d : Int) : ℚ) / d := by
    have hsplit : (a : ℚ) = d * ((a / d : Int) : ℚ) + ((a % d : Int) : ℚ) := by
      exact_mod_cast (Int.mul_ediv_add_emod a d).symm
    field_simp
    linarith
  have hlt : ((a % d : Int) : ℚ) / d < 1 / 2 ↔ 2 * (a % d) < d := by
    rw [div_lt_div_iff₀ hpos two_pos, one_mul, mul_comm]
    exact_mod_cast Iff.rfl
  have hgt : (1 : ℚ) / 2 < ((a % d : Int) : ℚ) / d ↔ (d : Int) < 2 * (a % d) := by
    rw [div_lt_div_iff₀ two_pos hpos, one_mul, mul_comm _ (2 : ℚ)]
    exact_mod_cast Iff.rfl
  simp only [roundHalfEven, hfloor, hrest, hlt, hgt]

/-- The place that `_percentile` looks up. -/
def percentileIndex (n : Nat) (percentile : ℚ) : Nat :=
  (max (min (roundHalfEven ((n - 1 : Int) * percentile)) (n - 1)) 0).toNat

theorem percentile_eq (values : List ℚ) (p : ℚ) :
    percentile values p = values.getD (percentileIndex values.length p) 0 := rfl

/-- The sizes at which rounding to the nearest rank does not fall short of 95%. -/
def CoversShare (n : Nat) : Prop := n % 20 ≤ 11 ∧ n % 40 ≠ 31

instance (n : Nat) : Decidable (CoversShare n) := by unfold CoversShare; infer_instance

/-- Between the ends the clamp does nothing. -/
theorem percentileIndex_of_round {n : Nat} {p : ℚ} {r : Int}
    (hround : roundHalfEven ((n - 1 : Int) * p) = r) (hzero : 0 ≤ r) (hlast : r ≤ n - 1) :
    (percentileIndex n p : Int) = r := by
  rw [percentileIndex, hround, min_eq_left hlast, max_eq_left hzero, Int.toNat_of_nonneg hzero]

/-- The median's place is in the middle. -/
theorem percentileIndex_half {n : Nat} (hn : 1 ≤ n) :
    2 * percentileIndex n (1 / 2) ≤ n ∧ n ≤ 2 * (percentileIndex n (1 / 2) + 1) := by
  have hfraction : ((n - 1 : Int) : ℚ) * (1 / 2) = ((n - 1 : Int) : ℚ) / (2 : Nat) := by
    push_cast
    ring
  have hround := roundHalfEven_div (n - 1 : Int) two_pos
  rw [← hfraction] at hround
  obtain ⟨r, hr⟩ : ∃ r, r = roundHalfEven (((n - 1 : Int) : ℚ) * (1 / 2)) := ⟨_, rfl⟩
  rw [← hr] at hround
  have hnear : 2 * r ≤ n ∧ n ≤ 2 * (r + 1) := by
    push_cast at hround
    split_ifs at hround <;> omega
  have hindex := percentileIndex_of_round hr.symm (by omega) (by omega)
  omega

/-- The 95th percentile's place, and when it is far enough up. -/
theorem percentileIndex_p95 {n : Nat} (hn : 1 ≤ n) :
    20 * percentileIndex n (19 / 20) + 9 ≤ 19 * n ∧
      19 * n ≤ 20 * (percentileIndex n (19 / 20) + 1) + 9 ∧
      (19 * n ≤ 20 * (percentileIndex n (19 / 20) + 1) ↔ CoversShare n) := by
  have hfraction : ((n - 1 : Int) : ℚ) * (19 / 20) =
      ((19 * (n - 1) : Int) : ℚ) / (20 : Nat) := by
    push_cast
    ring
  -- Nineteen twentieths of `n - 1` are `n - 1` less a twentieth of it.
  have hquot : 19 * ((n : Int) - 1) / 20 = n - 1 + (1 - n) / 20 := by omega
  have hrem : 19 * ((n : Int) - 1) % 20 = (1 - n) % 20 := by omega
  have hround := roundHalfEven_div (19 * (n - 1) : Int) (show 0 < 20 by decide)
  rw [← hfraction] at hround
  obtain ⟨r, hr⟩ : ∃ r, r = roundHalfEven (((n - 1 : Int) : ℚ) * (19 / 20)) := ⟨_, rfl⟩
  rw [← hr] at hround
  have hnear : 20 * r + 9 ≤ 19 * n ∧ 19 * n ≤ 20 * (r + 1) + 9 ∧
      (19 * n ≤ 20 * (r + 1) ↔ CoversShare n) := by
    unfold CoversShare
    push_cast at hround
    rw [hquot, hrem] at hround
    split_ifs at hround <;> omega
  have hindex := percentileIndex_of_round hr.symm (by omega) (by omega)
  rw [← hindex] at hnear
  exact_mod_cast hnear

theorem percentileIndex_le {n : Nat} (hn : 1 ≤ n) :
    percentileIndex n (1 / 2) ≤ percentileIndex n (19 / 20) := by
  have hhalf := percentileIndex_half hn
  have hp95 := percentileIndex_p95 hn
  omega

/-! ## The latencies -/

section Latencies

variable {jobs : List JobRecord} {v : ℚ}

/-- The jobs that have been processed. -/
def processedCount (jobs : List JobRecord) : Nat := jobs.countP fun job => job.processedAt.isSome

/-- The processed jobs with a latency of at most `v`. -/
def withinLatency (jobs : List JobRecord) (v : ℚ) : Nat :=
  jobs.countP fun job => job.latency?.any (· ≤ v)

theorem latencies_perm (jobs : List JobRecord) :
    (latencies jobs).Perm (jobs.filterMap JobRecord.latency?) :=
  List.perm_insertionSort _ _

theorem latencies_sorted (jobs : List JobRecord) : (latencies jobs).Pairwise (· ≤ ·) :=
  List.pairwise_insertionSort _ _

theorem mem_latencies : v ∈ latencies jobs ↔ ∃ job ∈ jobs, job.latency? = some v := by
  rw [(latencies_perm jobs).mem_iff, List.mem_filterMap]

theorem length_latencies (jobs : List JobRecord) :
    (latencies jobs).length = processedCount jobs := by
  rw [(latencies_perm jobs).length_eq, List.length_filterMap_eq_countP, processedCount]
  simp [JobRecord.latency?]

theorem countP_latencies (jobs : List JobRecord) (v : ℚ) :
    (latencies jobs).countP (· ≤ v) = withinLatency jobs v := by
  rw [(latencies_perm jobs).countP_eq, List.countP_filterMap, withinLatency]
  refine List.countP_congr fun job _ => ?_
  cases job.latency? <;> simp

/-- The order of the jobs does not matter. -/
theorem latencies_eq_of_perm {jobs' : List JobRecord} (h : jobs'.Perm jobs) :
    latencies jobs' = latencies jobs :=
  Sorting.insertionSort_eq_of_perm (fun _ _ _ _ => le_antisymm) (h.filterMap _)

theorem latencyPercentiles_eq (hn : 1 ≤ processedCount jobs) :
    latencyPercentiles jobs =
      (percentile (latencies jobs) (1 / 2), percentile (latencies jobs) (19 / 20)) := by
  unfold latencyPercentiles
  split
  · rename_i hnil
    rw [← length_latencies, hnil] at hn
    cases hn
  · rfl

/-- A percentile is one of the values. -/
theorem exists_percentile {p : ℚ}
    (hi : percentileIndex (processedCount jobs) p < processedCount jobs) :
    ∃ h : percentileIndex (processedCount jobs) p < (latencies jobs).length,
      percentile (latencies jobs) p =
        (latencies jobs)[percentileIndex (processedCount jobs) p] := by
  rw [← length_latencies] at hi ⊢
  exact ⟨hi, by rw [percentile_eq, List.getElem_eq_getD 0]⟩

/-- A percentile covers the jobs up to its place. -/
theorem percentile_covers {p : ℚ}
    (hi : percentileIndex (processedCount jobs) p < processedCount jobs) :
    percentileIndex (processedCount jobs) p + 1 ≤
      withinLatency jobs (percentile (latencies jobs) p) := by
  obtain ⟨hlt, heq⟩ := exists_percentile hi
  rw [heq, ← countP_latencies]
  exact Sorting.succ_le_countP_of_sorted (latencies_sorted jobs) hlt

/-- … and no more, when no two latencies are equal. -/
theorem percentile_covers_eq {p : ℚ} (hnodup : (jobs.filterMap JobRecord.latency?).Nodup)
    (hi : percentileIndex (processedCount jobs) p < processedCount jobs) :
    withinLatency jobs (percentile (latencies jobs) p) =
      percentileIndex (processedCount jobs) p + 1 := by
  obtain ⟨hlt, heq⟩ := exists_percentile hi
  rw [heq, ← countP_latencies]
  have hstrict : (latencies jobs).Pairwise (· < ·) :=
    ((latencies_sorted jobs).and ((latencies_perm jobs).nodup_iff.mpr hnodup)).imp
      fun h => lt_of_le_of_ne h.1 h.2
  exact Sorting.countP_eq_succ_of_sorted hstrict hlt

/-- The two reported values are latencies in order, or both zero. -/
theorem latencyPercentiles_mem (jobs : List JobRecord) :
    latencyPercentiles jobs = (0, 0) ∨
      (latencyPercentiles jobs).1 ∈ latencies jobs ∧ (latencyPercentiles jobs).2 ∈ latencies jobs ∧
        (latencyPercentiles jobs).1 ≤ (latencyPercentiles jobs).2 := by
  rcases Nat.eq_zero_or_pos (processedCount jobs) with hnone | hn
  · left
    rw [← length_latencies, List.length_eq_zero_iff] at hnone
    rw [latencyPercentiles, hnone]
  · right
    have hhalf := percentileIndex_half hn
    have hp95 := percentileIndex_p95 hn
    have hplaces := percentileIndex_le hn
    have hhalf_lt : percentileIndex (processedCount jobs) (1 / 2) < processedCount jobs := by omega
    have hp95_lt : percentileIndex (processedCount jobs) (19 / 20) < processedCount jobs := by omega
    obtain ⟨hi, hmedian⟩ := exists_percentile hhalf_lt
    obtain ⟨hj, htail⟩ := exists_percentile hp95_lt
    rw [latencyPercentiles_eq hn, hmedian, htail]
    refine ⟨List.getElem_mem hi, List.getElem_mem hj, ?_⟩
    rcases Nat.eq_or_lt_of_le hplaces with hsame | hlt
    · simp only [hsame, le_refl]
    · exact List.pairwise_iff_getElem.mp (latencies_sorted jobs) _ _ hi hj hlt

/-- … so they lie where all latencies lie, and zero. -/
theorem latencyPercentiles_within {lo hi : ℚ} (hlo : lo ≤ 0) (hhi : 0 ≤ hi)
    (h : ∀ v ∈ latencies jobs, lo ≤ v ∧ v ≤ hi) :
    lo ≤ (latencyPercentiles jobs).1 ∧ (latencyPercentiles jobs).1 ≤ (latencyPercentiles jobs).2 ∧
      (latencyPercentiles jobs).2 ≤ hi := by
  rcases latencyPercentiles_mem jobs with heq | ⟨hmedian, htail, hle⟩
  · rw [heq]
    exact ⟨hlo, le_refl 0, hhi⟩
  · exact ⟨(h _ hmedian).1, hle, (h _ htail).2⟩

/-- In integers, what it is to cover 95%. -/
theorem share_le_iff (n covered : Nat) :
    (19 / 20 : ℚ) * n ≤ covered ↔ 19 * n ≤ 20 * covered := by
  rw [div_mul_eq_mul_div, div_le_iff₀ (by norm_num), mul_comm (covered : ℚ)]
  exact_mod_cast Iff.rfl

/-- **Different latencies leave no slack**: the 95th percentile covers its share at the sizes of
    `CoversShare` only. -/
theorem p95_covers_iff (hn : 1 ≤ processedCount jobs)
    (hnodup : (jobs.filterMap JobRecord.latency?).Nodup) :
    (19 / 20 : ℚ) * processedCount jobs ≤ withinLatency jobs (latencyPercentiles jobs).2 ↔
      CoversShare (processedCount jobs) := by
  have hplace := percentileIndex_p95 hn
  have hcovers := percentile_covers_eq (p := 19 / 20) hnodup (by omega)
  rw [latencyPercentiles_eq hn, share_le_iff, hcovers]
  exact hplace.2.2

end Latencies

/-- What the two reported values are. -/
structure PercentilesCover (jobs : List JobRecord) : Prop where
  p50_mem : ∃ job ∈ jobs, job.latency? = some (latencyPercentiles jobs).1
  p95_mem : ∃ job ∈ jobs, job.latency? = some (latencyPercentiles jobs).2
  unordered : ∀ jobs', jobs'.Perm jobs → latencyPercentiles jobs' = latencyPercentiles jobs
  p50_le_p95 : (latencyPercentiles jobs).1 ≤ (latencyPercentiles jobs).2
  p50_covers : (1 / 2 : ℚ) * processedCount jobs ≤ withinLatency jobs (latencyPercentiles jobs).1
  p95_covers : CoversShare (processedCount jobs) →
    (19 / 20 : ℚ) * processedCount jobs ≤ withinLatency jobs (latencyPercentiles jobs).2
  p95_nearly : (19 / 20 : ℚ) * processedCount jobs ≤
    withinLatency jobs (latencyPercentiles jobs).2 + 9 / 20

/-- **The percentiles cover the nearest rank**: half of the jobs, and 95% of them up to the
    rounding of the rank. -/
theorem latencyPercentiles_cover (jobs : List JobRecord) (hn : 1 ≤ processedCount jobs) :
    PercentilesCover jobs := by
  have hhalf := percentileIndex_half hn
  have hp95 := percentileIndex_p95 hn
  have hhalf_lt : percentileIndex (processedCount jobs) (1 / 2) < processedCount jobs := by omega
  have hp95_lt : percentileIndex (processedCount jobs) (19 / 20) < processedCount jobs := by omega
  obtain ⟨hi, hmedian⟩ := exists_percentile hhalf_lt
  obtain ⟨hj, htail⟩ := exists_percentile hp95_lt
  have hcover50 := percentile_covers hhalf_lt
  have hcover95 := percentile_covers hp95_lt
  have heq := latencyPercentiles_eq hn
  refine ⟨?_, ?_, fun jobs' hperm => ?_, ?_, ?_, fun hsize => ?_, ?_⟩
  · rw [heq, ← mem_latencies, hmedian]
    exact List.getElem_mem hi
  · rw [heq, ← mem_latencies, htail]
    exact List.getElem_mem hj
  · unfold latencyPercentiles
    rw [latencies_eq_of_perm hperm]
  · rw [heq, hmedian, htail]
    rcases Nat.eq_or_lt_of_le (percentileIndex_le hn) with hsame | hlt
    · simp only [hsame, le_refl]
    · exact List.pairwise_iff_getElem.mp (latencies_sorted jobs) _ _ hi hj hlt
  · rw [heq, div_mul_eq_mul_div, one_mul, div_le_iff₀ two_pos]
    have : processedCount jobs ≤
        withinLatency jobs (percentile (latencies jobs) (1 / 2)) * 2 := by omega
    exact_mod_cast this
  · rw [heq, share_le_iff]
    have := hp95.2.2.mpr hsize
    dsimp only
    omega
  · rw [heq]
    have : 19 * processedCount jobs ≤
        20 * withinLatency jobs (percentile (latencies jobs) (19 / 20)) + 9 := by omega
    have : (19 : ℚ) * processedCount jobs ≤
        20 * withinLatency jobs (percentile (latencies jobs) (19 / 20)) + 9 := by
      exact_mod_cast this
    linarith

/-- The sample job, processed `t` microseconds after its submission. -/
def Sample.processedAfter (t : Int) : JobRecord :=
  (JobRecord.submitted Sample.request Sample.jobId 0).succeed [] t

theorem latencyPercentiles_cover_twelve :
    PercentilesCover ((List.range 12).map fun k : Nat => Sample.processedAfter k) :=
  latencyPercentiles_cover _ (by decide)

/-- **The 95th percentile of twelve different latencies covers eleven of them.** -/
theorem p95_misses_share : ¬ ∀ jobs : List JobRecord, 1 ≤ processedCount jobs →
    (19 / 20 : ℚ) * processedCount jobs ≤ withinLatency jobs (latencyPercentiles jobs).2 := by
  intro h
  have hcount : processedCount ((List.range 12).map fun k : Nat => Sample.processedAfter k) = 12 :=
    by decide
  have hnodup : (((List.range 12).map fun k : Nat => Sample.processedAfter k).filterMap
      JobRecord.latency?).Nodup := by
    have hlatency : ((List.range 12).map fun k : Nat => Sample.processedAfter k).filterMap
        JobRecord.latency? = (List.range 12).map fun k : Nat => (k : ℚ) / 1000000 := by
      rw [List.filterMap_map, ← List.filterMap_eq_map]
      refine List.filterMap_congr fun k _ => ?_
      simp [Sample.processedAfter, JobRecord.latency?, JobRecord.succeed, JobRecord.submitted]
    rw [hlatency]
    refine List.nodup_range.map fun a b hab => ?_
    have : (a : ℚ) / 1000000 = (b : ℚ) / 1000000 := hab
    field_simp at this
    exact_mod_cast this
  have hcovers := (p95_covers_iff (by rw [hcount]; decide) hnodup).mp
    (h _ (by rw [hcount]; decide))
  rw [hcount] at hcovers
  exact absurd hcovers (by decide)

end JobPipeline
