import JobPipeline.Jobs.Scheduling

/-!
# When cron expressions run

`next_cron_run` against the calendar: it answers the first whole minute after `after` that
matches, if there is one among the next 366 days (`nextCronRun_earliest`); an expression that
admits every weekday always has one exactly when it names a date that every year has
(`nextCronRun_total_iff`); and it agrees with the meaning cron gives the same five fields exactly
when it admits every weekday (`nextCronRun_standard_iff`).
-/

set_option autoImplicit false

namespace JobPipeline

/-- Zero seconds and microseconds. -/
def WholeMinute (t : Int) : Prop := t % minutes 1 = 0

/-- `r` is the first whole minute after `after` of which `P` holds. -/
structure IsNextRun (P : Int → Prop) (after r : Int) : Prop where
  wholeMinute : WholeMinute r
  later : after < r
  holds : P r
  earliest : ∀ t, WholeMinute t → after < t → t < r → ¬ P t

theorem IsNextRun.unique {P : Int → Prop} {after r r' : Int} (h : IsNextRun P after r)
    (h' : IsNextRun P after r') : r = r' := by
  rcases lt_trichotomy r r' with hlt | heq | hlt
  · exact absurd h.holds (h'.earliest r h.wholeMinute h.later hlt)
  · exact heq
  · exact absurd h'.holds (h.earliest r' h'.wholeMinute h'.later hlt)

/-! ## The candidates -/

/-- The candidates are the whole minutes after `after`. -/
theorem exists_cronCandidate {after t : Int} (hminute : WholeMinute t) (hlater : after < t) :
    ∃ k : Nat, t = cronCandidate after k := by
  unfold WholeMinute at hminute
  unfold cronCandidate floorMinute minutes seconds at *
  exact ⟨((t - (after / (1 * 60 * 1000000) * 60 * 1000000 + 1 * 60 * 1000000)) /
    (1 * 60 * 1000000)).toNat, by omega⟩

theorem cronCandidate_lt_iff {after : Int} {j k : Nat} :
    cronCandidate after j < cronCandidate after k ↔ j < k := by
  unfold cronCandidate minutes seconds
  omega

/-- The first whole minute strictly after `after`. -/
theorem cronCandidate_of_first {after first : Int} (hminute : WholeMinute first)
    (hlater : after < first) (hfirst : first ≤ after + minutes 1) (k : Nat) :
    cronCandidate after k = first + k * minutes 1 := by
  unfold WholeMinute at hminute
  unfold cronCandidate floorMinute minutes seconds at *
  omega

/-! ## Accepted expressions -/

section Accepted

variable {s n : String} {c : CronSchedule}

/-- An accepted expression has five readable fields. -/
theorem exists_reads (hv : validateCronExpression s = .ok n) : ∃ c : CronSchedule, c.Reads s := by
  obtain ⟨-, hsplit, c, minute, hour, day, month, weekday, hparts, hreads⟩ :=
    validateCronExpression_ok hv
  exact ⟨c, minute, hour, day, month, weekday, hsplit ▸ hparts, hreads⟩

/-- `next_cron_run` works on the normalised expression. -/
theorem nextCronRun_normalised (hv : validateCronExpression s = .ok n) (after : Int) :
    nextCronRun s after = nextCronRun n after := by
  simp only [nextCronRun, hv, validateCronExpression_idem hv]

theorem reads_normalised (hv : validateCronExpression s = .ok n) (hc : c.Reads s) : c.Reads n := by
  obtain ⟨-, hsplit, -⟩ := validateCronExpression_ok hv
  obtain ⟨minute, hour, day, month, weekday, hparts, hreads⟩ := hc
  exact ⟨minute, hour, day, month, weekday, hsplit.trans hparts, hreads⟩

theorem nextCronRun_ok_iff (hv : validateCronExpression s = .ok n) (hc : c.Reads s)
    {after r : Int} :
    nextCronRun s after = .ok r ↔ ∃ k < cronHorizon, r = cronCandidate after k ∧ c.Matches r ∧
      ∀ j < k, ¬ c.Matches (cronCandidate after j) := by
  rw [nextCronRun_normalised hv]
  exact nextCronRun_eq_ok_iff (validateCronExpression_idem hv) (reads_normalised hv hc)

/-- **A run is found at the next matching minute**, if that is not beyond the horizon. -/
theorem nextCronRun_ok_iff_isNextRun (hv : validateCronExpression s = .ok n) (hc : c.Reads s)
    {after r : Int} :
    nextCronRun s after = .ok r ↔
      IsNextRun c.Matches after r ∧ r < cronCandidate after cronHorizon := by
  rw [nextCronRun_ok_iff hv hc]
  constructor
  · intro h
    obtain ⟨k, hk, rfl, hmatch, hfirst⟩ := h
    obtain ⟨hlater, hminute⟩ := cronCandidate_spec after k
    refine ⟨⟨hminute, hlater, hmatch, fun t ht hlater hlt => ?_⟩, cronCandidate_lt_iff.mpr hk⟩
    obtain ⟨j, rfl⟩ := exists_cronCandidate ht hlater
    exact hfirst j (cronCandidate_lt_iff.mp hlt)
  · intro h
    obtain ⟨⟨hminute, hlater, hmatch, hearliest⟩, hhorizon⟩ := h
    obtain ⟨k, rfl⟩ := exists_cronCandidate hminute hlater
    refine ⟨k, cronCandidate_lt_iff.mp hhorizon, rfl, hmatch, fun j hj => ?_⟩
    obtain ⟨hlater, hminute⟩ := cronCandidate_spec after j
    exact hearliest _ hminute hlater (cronCandidate_lt_iff.mpr hj)

/-- A run is later than the time it is computed from. -/
theorem lt_nextCronRun {cron : String} {after r : Int} (h : nextCronRun cron after = .ok r) :
    after < r := by
  cases hvalid : validateCronExpression cron with
  | error e =>
    rw [nextCronRun, hvalid] at h
    cases h
  | ok n =>
    obtain ⟨c, hc⟩ := exists_reads hvalid
    exact ((nextCronRun_ok_iff_isNextRun hvalid hc).mp h).1.later

/-- What an accepted expression raises is a `BadRequestError`, when no candidate matches. -/
theorem nextCronRun_error_iff (hv : validateCronExpression s = .ok n) (hc : c.Reads s)
    {after : Int} :
    (∃ e, nextCronRun s after = .error e ∧ e.className = "BadRequestError") ↔
      ∀ k < cronHorizon, ¬ c.Matches (cronCandidate after k) := by
  have hvn := validateCronExpression_idem hv
  have hcn := reads_normalised hv hc
  have hhas : CronHasRun n after ↔ ∃ k < cronHorizon, c.Matches (cronCandidate after k) := by
    constructor
    · intro h
      obtain ⟨c', hc', k, hk, hmatch⟩ := h
      cases hc'.unique hcn
      exact ⟨k, hk, hmatch⟩
    · intro h
      exact ⟨c, hcn, h⟩
  rw [nextCronRun_normalised hv]
  constructor
  · intro h k hk hmatch
    obtain ⟨e, he, -⟩ := h
    obtain ⟨r, hr⟩ := nextCronRun_ok_of_hasRun hvn (hhas.mpr ⟨k, hk, hmatch⟩)
    rw [hr] at he
    cases he
  · intro hnone
    have hno : ¬ CronHasRun n after := by
      rw [hhas]
      push Not
      exact hnone
    exact ⟨_, nextCronRun_error_of_not_hasRun hvn hno, rfl⟩

end Accepted

/-- **`next_cron_run` returns the earliest match** of an accepted expression, and raises when none
of the minutes it tries matches. -/
theorem nextCronRun_earliest {s n : String} (hv : validateCronExpression s = .ok n) (after : Int) :
    ∃ c : CronSchedule, c.Reads s ∧
      (∀ r, nextCronRun s after = .ok r → WholeMinute r ∧ after < r ∧ c.Matches r ∧
        ∀ t, WholeMinute t → after < t → t < r → ¬ c.Matches t) ∧
      ∀ first, WholeMinute first → after < first → first ≤ after + minutes 1 →
        ((∃ e, nextCronRun s after = .error e ∧ e.className = "BadRequestError") ↔
          ∀ k : Nat, k < 366 * 24 * 60 → ¬ c.Matches (first + k * minutes 1)) := by
  obtain ⟨c, hc⟩ := exists_reads hv
  refine ⟨c, hc, fun r hr => ?_, fun first hminute hlater hfirst => ?_⟩
  · obtain ⟨⟨hminute, hlater, hmatch, hearliest⟩, -⟩ := (nextCronRun_ok_iff_isNextRun hv hc).mp hr
    exact ⟨hminute, hlater, hmatch, hearliest⟩
  · rw [nextCronRun_error_iff hv hc]
    simp only [cronCandidate_of_first hminute hlater hfirst]
    rfl

/-- A job every five minutes, asked from the third minute of the first day on. -/
theorem nextCronRun_earliest_of_fiveMinutes :
    nextCronRun "*/5 * * * *" (minutes 3) = .ok (minutes 5) ∧
    ∃ c : CronSchedule, c.Reads "*/5 * * * *" ∧ WholeMinute (minutes 5) ∧
      c.Matches (minutes 5) ∧ ∀ t, WholeMinute t → minutes 3 < t → t < minutes 5 → ¬ c.Matches t := by
  have hrun : nextCronRun "*/5 * * * *" (minutes 3) = .ok (minutes 5) := by rfl
  obtain ⟨c, hc, hok, -⟩ := nextCronRun_earliest (s := "*/5 * * * *") (n := "*/5 * * * *") rfl
    (minutes 3)
  obtain ⟨hminute, -, hmatch, hearliest⟩ := hok _ hrun
  exact ⟨hrun, c, hc, hminute, hmatch, hearliest⟩

/-! ## The sets of the five fields -/

theorem mem_cronRange {minimum maximum step v : Nat} (hle : minimum ≤ maximum)
    (hv : v ∈ cronRange minimum maximum step) : minimum ≤ v ∧ v ≤ maximum := by
  unfold cronRange at hv
  rw [List.mem_range'] at hv
  obtain ⟨i, hi, rfl⟩ := hv
  have hmul : step * i ≤ maximum - minimum := by
    calc step * i ≤ step * ((maximum - minimum) / step) := Nat.mul_le_mul_left _ (by omega)
      _ ≤ maximum - minimum := Nat.mul_div_le _ _
  omega

/-- A field that parses admits a value, and only values of its range. -/
theorem parseCronPart_spec {part : String} {minimum maximum : Nat} {values : List Nat}
    (hle : minimum ≤ maximum) (h : parseCronPart part minimum maximum = .ok values) :
    values ≠ [] ∧ ∀ v ∈ values, minimum ≤ v ∧ v ≤ maximum := by
  have hrange : ∀ step, cronRange minimum maximum step ≠ [] := by
    intro step
    simp [cronRange]
  unfold parseCronPart at h
  split at h
  · cases h
    exact ⟨hrange 1, fun v hv => mem_cronRange hle hv⟩
  · split at h
    · cases h
    · split at h
      · cases h
      · cases h
        exact ⟨hrange _, fun v hv => mem_cronRange hle hv⟩
  · split at h
    · cases h
    · rename_i value _
      split at h
      · cases h
      · cases h
        rename_i hin
        refine ⟨by simp, fun v hv => ?_⟩
        rw [List.mem_singleton] at hv
        omega

/-! ## Instants of a day -/

/-- This minute of this hour of a day. -/
def onDay (day : Int) (hour minute : Nat) : Int := minutes ((day * 24 + hour) * 60 + minute)

namespace Instant

/-- The year of an instant. -/
def year (t : Int) : Int := (Calendar.ofDay (dayNumber t)).year

variable {day : Int} {hour minute : Nat}

theorem wholeMinute_onDay (day : Int) (hour minute : Nat) : WholeMinute (onDay day hour minute) := by
  unfold WholeMinute onDay minutes seconds
  omega

theorem dayNumber_onDay (hhour : hour < 24) (hminute : minute < 60) :
    dayNumber (onDay day hour minute) = day := by
  unfold dayNumber onDay minutes seconds
  omega

theorem hour_onDay (hhour : hour < 24) (hminute : minute < 60) :
    Instant.hour (onDay day hour minute) = hour := by
  unfold Instant.hour onDay minutes seconds
  omega

theorem minute_onDay (hminute : minute < 60) :
    Instant.minute (onDay day hour minute) = minute := by
  unfold Instant.minute onDay minutes seconds
  omega

/-- A day is 1440 minutes after the one before. -/
theorem onDay_le_onDay {day' : Int} {n : Nat} (h : day' ≤ day + n) :
    onDay day' hour minute ≤ onDay day hour minute + minutes (n * 1440) := by
  unfold onDay minutes seconds
  omega

/-- A date of an earlier year is past. -/
theorem onDay_le_of_year_lt {date : Calendar.Date} (hdate : date.Valid) {t : Int} (hhour : hour < 24)
    (hminute : minute < 60) (hyear : date.year < year t) :
    onDay (Calendar.toDay date) hour minute ≤ t := by
  have hdays : Calendar.toDay date < dayNumber t := by
    have hend := (Calendar.yearStart_le_day (Calendar.toDay date)).2
    have hstart := (Calendar.yearStart_le_day (dayNumber t)).1
    rw [Calendar.ofDay_toDay hdate] at hend
    have := Calendar.yearStart_le (show date.year + 1 ≤ (Calendar.ofDay (dayNumber t)).year from hyear)
    omega
  unfold onDay
  unfold dayNumber at hdays
  unfold minutes seconds at *
  omega

/-- A date of a later year is to come. -/
theorem lt_onDay_of_year_lt {date : Calendar.Date} (hdate : date.Valid) {t : Int}
    (hyear : year t < date.year) : t < onDay (Calendar.toDay date) hour minute := by
  have hdays : dayNumber t < Calendar.toDay date := by
    have hend := (Calendar.yearStart_le_day (dayNumber t)).2
    have hstart := (Calendar.yearStart_le_day (Calendar.toDay date)).1
    rw [Calendar.ofDay_toDay hdate] at hstart
    have := Calendar.yearStart_le (show (Calendar.ofDay (dayNumber t)).year + 1 ≤ date.year from hyear)
    omega
  unfold onDay
  unfold dayNumber at hdays
  unfold minutes seconds at *
  omega

end Instant

theorem WholeMinute.le_floorMinute {t t' : Int} (h : WholeMinute t) (hle : t ≤ t') :
    t ≤ floorMinute t' := by
  unfold WholeMinute at h
  unfold floorMinute minutes seconds at *
  omega

section Runs

open Calendar (Date)

variable {s n : String} {c : CronSchedule}

/-- A match within the horizon is enough for an answer, which comes no later. -/
theorem exists_nextCronRun (hv : validateCronExpression s = .ok n) (hc : c.Reads s) {after t : Int}
    (hminute : WholeMinute t) (hlater : after < t) (hhorizon : t < cronCandidate after cronHorizon)
    (hmatch : c.Matches t) : ∃ r, nextCronRun s after = .ok r ∧ r ≤ t := by
  obtain ⟨k, rfl⟩ := exists_cronCandidate hminute hlater
  have hk := cronCandidate_lt_iff.mp hhorizon
  have hn := nextCronRun_normalised hv after
  obtain ⟨r, hr⟩ := nextCronRun_ok_of_hasRun (validateCronExpression_idem hv)
    ⟨c, reads_normalised hv hc, k, hk, hmatch⟩
  refine ⟨r, hn.trans hr, ?_⟩
  obtain ⟨hnext, -⟩ := (nextCronRun_ok_iff_isNextRun hv hc).mp (hn.trans hr)
  by_contra hlt
  exact hnext.earliest _ hminute hlater (lt_of_not_ge hlt) hmatch

/-- The sets of an accepted expression lie in the ranges, and none is empty. -/
theorem reads_spec (hc : c.Reads s) :
    (∃ minute ∈ c.minute, minute < 60) ∧ (∃ hour ∈ c.hour, hour < 24) ∧
      (c.weekday ≠ [] ∧ ∀ w ∈ c.weekday, w < 7) ∧ ∀ month ∈ c.month, month < 13 := by
  obtain ⟨_, _, _, _, _, -, hreads⟩ := hc
  obtain ⟨hminute, hminutes⟩ := parseCronPart_spec (by omega) hreads.minute
  obtain ⟨hhour, hhours⟩ := parseCronPart_spec (by omega) hreads.hour
  obtain ⟨hweekday, hweekdays⟩ := parseCronPart_spec (by omega) hreads.weekday
  obtain ⟨-, hmonths⟩ := parseCronPart_spec (by omega) hreads.month
  obtain ⟨minute, hmem⟩ := List.exists_mem_of_ne_nil _ hminute
  obtain ⟨hour, hmem'⟩ := List.exists_mem_of_ne_nil _ hhour
  refine ⟨⟨minute, hmem, ?_⟩, ⟨hour, hmem', ?_⟩, ⟨hweekday, fun w hw => ?_⟩, fun month hm => ?_⟩
  · have := hminutes minute hmem
    omega
  · have := hhours hour hmem'
    omega
  · have := hweekdays w hw
    omega
  · have := hmonths month hm
    omega

/-- Matching, on a day of the calendar. -/
theorem matches_onDay {date : Date} (hdate : date.Valid) {hour minute : Nat} (hhour : hour < 24)
    (hminute : minute < 60) :
    c.Matches (onDay (Calendar.toDay date) hour minute) ↔
      minute ∈ c.minute ∧ hour ∈ c.hour ∧ date.day ∈ c.day ∧ date.month ∈ c.month ∧
        Calendar.weekday (Calendar.toDay date) ∈ c.weekday := by
  unfold CronSchedule.Matches Instant.day Instant.month Instant.weekday
  rw [Instant.dayNumber_onDay hhour hminute, Instant.hour_onDay hhour hminute,
    Instant.minute_onDay hminute, Calendar.ofDay_toDay hdate]

/-! ## Which expressions always have a next run -/

/-- The expression names a date that every year has. -/
def CronSchedule.NamesYearlyDate (c : CronSchedule) : Prop :=
  ∃ month ∈ c.month, ∃ day ∈ c.day, Calendar.EveryYear month day

/-- **A yearly date comes up within the horizon**, whenever one asks. -/
theorem nextCronRun_of_yearlyDate (hv : validateCronExpression s = .ok n) (hc : c.Reads s)
    (hweekday : ∀ w < 7, w ∈ c.weekday) (hyearly : c.NamesYearlyDate) (after : Int) :
    ∃ r, nextCronRun s after = .ok r := by
  obtain ⟨month, hmonth, day, hday, hevery⟩ := hyearly
  obtain ⟨⟨minute, hminute, hminute'⟩, ⟨hour, hhour, hhour'⟩, -, hmonths⟩ := reads_spec hc
  -- The date at that time of day, in each year.
  let occurrence (year : Int) : Int := onDay (Calendar.toDay ⟨year, month, day⟩) hour minute
  have hmatch : ∀ year, c.Matches (occurrence year) := by
    intro year
    rw [matches_onDay (hevery year) hhour' hminute']
    exact ⟨hminute, hhour, hday, hmonth, hweekday _ (by unfold Calendar.weekday; omega)⟩
  have hgap : ∀ year, occurrence (year + 1) ≤ occurrence year + minutes (366 * 1440) := fun year =>
    Instant.onDay_le_onDay (Calendar.toDay_next_year year _ (hmonths month hmonth)).2
  -- One of them is the last that is not after `after`.
  obtain ⟨year, hpast, hnext⟩ : ∃ year, occurrence year ≤ after ∧ after < occurrence (year + 1) := by
    have hbefore : occurrence (Instant.year after - 1) ≤ after :=
      Instant.onDay_le_of_year_lt (hevery _) hhour' hminute' (by dsimp only; omega)
    have hafter : after < occurrence (Instant.year after + 1) :=
      Instant.lt_onDay_of_year_lt (hevery _) (by dsimp only; omega)
    by_cases hpast : occurrence (Instant.year after) ≤ after
    · exact ⟨_, hpast, hafter⟩
    · exact ⟨_, hbefore, by rw [Int.sub_add_cancel]; exact lt_of_not_ge hpast⟩
  have hhorizon : occurrence (year + 1) < cronCandidate after cronHorizon := by
    have hlast := hgap year
    have hwhole := Instant.wholeMinute_onDay (Calendar.toDay ⟨year, month, day⟩) hour minute
    have hfloor : occurrence year ≤ floorMinute after := hwhole.le_floorMinute hpast
    unfold cronCandidate cronHorizon
    unfold minutes seconds at *
    omega
  obtain ⟨r, hr, -⟩ := exists_nextCronRun hv hc (Instant.wholeMinute_onDay _ _ _) hnext hhorizon
    (hmatch (year + 1))
  exact ⟨r, hr⟩

/-- Without a yearly date, nothing matches in two common years. -/
theorem CronSchedule.not_matches_of_common_year (hyearly : ¬ c.NamesYearlyDate) {t : Int}
    (hcommon : Calendar.isLeap (Instant.year t) = false) : ¬ c.Matches t := by
  intro hmatch
  apply hyearly
  exact ⟨_, hmatch.2.2.2.1, _, hmatch.2.2.1,
    Calendar.everyYear_iff.mpr ⟨_, hcommon, Calendar.ofDay_valid (Instant.dayNumber t)⟩⟩

/-- **Which schedules can fail to reschedule**: an expression that admits every weekday has a next
run from everywhere exactly when it names a date that every year has. -/
theorem nextCronRun_total_iff (hv : validateCronExpression s = .ok n) (hc : c.Reads s)
    (hweekday : ∀ w < 7, w ∈ c.weekday) :
    (∀ after, 1 ≤ Instant.year after → Instant.year after ≤ 9997 →
        ∃ r, nextCronRun s after = .ok r) ↔
      ∃ month ∈ c.month, ∃ day ∈ c.day, Calendar.EveryYear month day := by
  constructor
  · intro hall
    by_contra hyearly
    -- The first of March before two common years.
    obtain ⟨r, hr⟩ := hall (onDay (Calendar.toDay ⟨2001, 3, 1⟩) 0 0) (by decide) (by decide)
    obtain ⟨hnext, hhorizon⟩ := (nextCronRun_ok_iff_isNextRun hv hc).mp hr
    have hyear : 2001 ≤ Instant.year r ∧ Instant.year r < 2003 := by
      unfold Instant.year
      rw [Calendar.year_mem_iff]
      have hlater := hnext.later
      have hday : Calendar.toDay ⟨2001, 3, 1⟩ = 730544 := by decide
      have hstart : Calendar.yearStart 2001 = 730485 ∧ Calendar.yearStart 2003 = 731215 := by decide
      rw [hstart.1, hstart.2]
      rw [hday] at hlater hhorizon
      unfold cronCandidate floorMinute onDay cronHorizon at hhorizon
      unfold onDay at hlater
      unfold Instant.dayNumber
      unfold minutes seconds at *
      omega
    have hcommon : Calendar.isLeap (Instant.year r) = false := by
      obtain h | h : Instant.year r = 2001 ∨ Instant.year r = 2002 := by omega
      · rw [h]; decide
      · rw [h]; decide
    exact CronSchedule.not_matches_of_common_year hyearly hcommon hnext.holds
  · intro hyearly after _ _
    exact nextCronRun_of_yearlyDate hv hc hweekday hyearly after

/-- A daily job always has a next run: every year has a first of January. -/
theorem nextCronRun_total_of_daily :
    (∀ after, 1 ≤ Instant.year after → Instant.year after ≤ 9997 →
      ∃ r, nextCronRun "0 0 * * *" after = .ok r) ∧ ∃ c : CronSchedule, c.Reads "0 0 * * *" := by
  have hv : validateCronExpression "0 0 * * *" = .ok "0 0 * * *" := by rfl
  have hc : (⟨[0], [0], cronRange 1 31 1, cronRange 1 12 1, cronRange 0 6 1⟩ :
      CronSchedule).Reads "0 0 * * *" := ⟨"0", "0", "*", "*", "*", rfl, rfl, rfl, rfl, rfl, rfl⟩
  have hfirst : Calendar.EveryYear 1 1 := Calendar.everyYear_iff.mpr
    ⟨2001, by decide, 31, by decide, by decide, by decide, by decide⟩
  exact ⟨(nextCronRun_total_iff hv hc (by decide)).mpr ⟨1, by decide, 1, by decide, hfirst⟩, _, hc⟩

end Runs

/-! ## What cron means by the same fields -/

/-- Cron counts the days of the week from Sunday, which is `0`. -/
def Instant.cronWeekday (t : Int) : Nat := (Instant.weekday t + 1) % 7

/-- The field is a number, neither `*` nor `*/n`. -/
def isExact (part : String) : Bool := part.toList.head? ≠ some '*'

/-- The rule of cron for the date: when both day fields are numbers, either will do. -/
def CronSchedule.StandardDate (c : CronSchedule) (day weekday : String) (t : Int) : Prop :=
  if isExact day ∧ isExact weekday then
    Instant.day t ∈ c.day ∨ Instant.cronWeekday t ∈ c.weekday
  else Instant.day t ∈ c.day ∧ Instant.cronWeekday t ∈ c.weekday

/-- The instant matches the expression as cron reads it. -/
def StandardMatches (expression : String) (t : Int) : Prop :=
  ∃ (c : CronSchedule) (minute hour day month weekday : String),
    PyStr.split expression = [minute, hour, day, month, weekday] ∧
      c.ReadsParts minute hour day month weekday ∧
      Instant.minute t ∈ c.minute ∧ Instant.hour t ∈ c.hour ∧ Instant.month t ∈ c.month ∧
      c.StandardDate day weekday t

section Standard

open Calendar (Date)

variable {s n : String} {c : CronSchedule} {minute hour day month weekday : String}

theorem standardMatches_iff (hparts : PyStr.split s = [minute, hour, day, month, weekday])
    (hreads : c.ReadsParts minute hour day month weekday) (t : Int) :
    StandardMatches s t ↔ Instant.minute t ∈ c.minute ∧ Instant.hour t ∈ c.hour ∧
      Instant.month t ∈ c.month ∧ c.StandardDate day weekday t := by
  constructor
  · intro h
    obtain ⟨c', minute', hour', day', month', weekday', hparts', hreads', h⟩ := h
    have hc : c' = c := CronSchedule.Reads.unique ⟨_, _, _, _, _, hparts', hreads'⟩
      ⟨_, _, _, _, _, hparts, hreads⟩
    rw [hparts] at hparts'
    cases hparts'
    rwa [← hc]
  · intro h
    exact ⟨c, minute, hour, day, month, weekday, hparts, hreads, h⟩

/-- An exact field admits one value. -/
theorem parseCronPart_exact {part : String} {minimum maximum : Nat} {values : List Nat}
    (hexact : isExact part = true) (h : parseCronPart part minimum maximum = .ok values) :
    ∃ v, values = [v] := by
  unfold parseCronPart at h
  split at h
  · rename_i hpart
    simp [isExact, hpart] at hexact
  · rename_i hpart
    simp [isExact, hpart] at hexact
  · split at h
    · cases h
    · split at h
      · cases h
      · cases h
        exact ⟨_, rfl⟩

/-- With every weekday admitted, cron and `next_cron_run` match the same minutes. -/
theorem standardMatches_of_weekdays (hparts : PyStr.split s = [minute, hour, day, month, weekday])
    (hreads : c.ReadsParts minute hour day month weekday) (hweekday : ∀ w < 7, w ∈ c.weekday)
    (t : Int) : StandardMatches s t ↔ c.Matches t := by
  have hnot : isExact weekday = false := by
    rw [← Bool.not_eq_true]
    intro hexact
    obtain ⟨v, hv⟩ := parseCronPart_exact hexact hreads.weekday
    rw [hv] at hweekday
    have h0 := hweekday 0 (by omega)
    have h1 := hweekday 1 (by omega)
    simp at h0 h1
    omega
  have hcron : Instant.cronWeekday t ∈ c.weekday :=
    hweekday _ (by unfold Instant.cronWeekday; omega)
  have hpython : Instant.weekday t ∈ c.weekday :=
    hweekday _ (by unfold Instant.weekday Calendar.weekday; omega)
  rw [standardMatches_iff hparts hreads]
  simp only [CronSchedule.StandardDate, hnot, Bool.false_eq_true, and_false, if_false, hcron, hpython,
    and_true, CronSchedule.Matches]
  tauto

/-- Some admitted weekday is followed by one that is not. -/
theorem exists_weekday_boundary {weekdays : List Nat} (hne : weekdays ≠ [])
    (hlt : ∀ w ∈ weekdays, w < 7) (hnot : ¬ ∀ w < 7, w ∈ weekdays) :
    ∃ w ∈ weekdays, (w + 1) % 7 ∉ weekdays := by
  by_contra hall
  push Not at hall
  obtain ⟨w, hw⟩ := List.exists_mem_of_ne_nil _ hne
  apply hnot
  have hsteps : ∀ i, (w + i) % 7 ∈ weekdays := by
    intro i
    induction i with
    | zero => rw [Nat.add_zero, Nat.mod_eq_of_lt (hlt w hw)]; exact hw
    | succ i ih =>
      have hnext := hall _ ih
      rwa [show ((w + i) % 7 + 1) % 7 = (w + (i + 1)) % 7 by omega] at hnext
  intro v hv
  have hmem := hsteps (v + 7 - w % 7)
  have := hlt w hw
  rwa [show (w + (v + 7 - w % 7)) % 7 = v by omega] at hmem

/-- Asked one minute before a match, `next_cron_run` answers the match. -/
theorem nextCronRun_before (hv : validateCronExpression s = .ok n) (hc : c.Reads s) {t : Int}
    (hminute : WholeMinute t) (hmatch : c.Matches t) :
    nextCronRun s (t - minutes 1) = .ok t := by
  rw [nextCronRun_ok_iff_isNextRun hv hc]
  refine ⟨⟨hminute, by unfold minutes seconds; omega, hmatch, fun t' ht' hlater hlt => ?_⟩, ?_⟩
  · unfold WholeMinute minutes seconds at *
    omega
  · unfold cronCandidate floorMinute cronHorizon
    unfold WholeMinute minutes seconds at *
    omega

/-- The dates below are dates of our time. -/
theorem Instant.year_before_onDay (day : Int) {hour minute : Nat} (hhour : hour < 24)
    (hminute : minute < 60) (hfirst : Calendar.yearStart 1999 ≤ day)
    (hlast : day < Calendar.yearStart 2025) :
    1 ≤ Instant.year (onDay day hour minute - minutes 1) ∧
      Instant.year (onDay day hour minute - minutes 1) ≤ 9997 := by
  have hyears : 1 ≤ Instant.year (onDay day hour minute - minutes 1) ∧
      Instant.year (onDay day hour minute - minutes 1) < 9998 := by
    have hbounds : Calendar.yearStart 1 = 0 ∧ Calendar.yearStart 1999 = 729754 ∧
        Calendar.yearStart 2025 = 739251 ∧ Calendar.yearStart 9998 = 3651329 := by decide
    unfold Instant.year
    rw [Calendar.year_mem_iff, hbounds.1, hbounds.2.2.2]
    rw [hbounds.2.1] at hfirst
    rw [hbounds.2.2.1] at hlast
    unfold Instant.dayNumber onDay minutes seconds
    omega
  omega

/-- **The weekdays are one day apart**: unless every weekday is admitted, there is a run that cron
would not make. -/
theorem exists_wrong_weekday (hv : validateCronExpression s = .ok n)
    (hparts : PyStr.split s = [minute, hour, day, month, weekday])
    (hreads : c.ReadsParts minute hour day month weekday) (hnot : ¬ ∀ w < 7, w ∈ c.weekday)
    (hexact : ¬ (isExact day = true ∧ isExact weekday = true)) {date : Date} (hdate : date.Valid)
    (hmonth : date.month ∈ c.month) (hday : date.day ∈ c.day) :
    ∃ after r, 1 ≤ Instant.year after ∧ Instant.year after ≤ 9997 ∧ nextCronRun s after = .ok r ∧
      ¬ StandardMatches s r := by
  have hc : c.Reads s := ⟨_, _, _, _, _, hparts, hreads⟩
  obtain ⟨⟨m, hm, hm'⟩, ⟨h, hh, hh'⟩, ⟨hne, hlt⟩, -⟩ := reads_spec hc
  obtain ⟨w, hw, hnext⟩ := exists_weekday_boundary hne hlt hnot
  obtain ⟨year, hfirst, hlast, hvalid, hweekday⟩ :=
    Calendar.exists_year_weekday (w := w) hdate (hlt w hw)
  have hmatch : c.Matches (onDay (Calendar.toDay ⟨year, date.month, date.day⟩) h m) := by
    rw [matches_onDay hvalid hh' hm', hweekday]
    exact ⟨hm, hh, hday, hmonth, hw⟩
  have hminute := Instant.wholeMinute_onDay (Calendar.toDay ⟨year, date.month, date.day⟩) h m
  have hyears := Calendar.year_mem_iff.mp (show 1999 ≤ (Calendar.ofDay (Calendar.toDay
    ⟨year, date.month, date.day⟩)).year ∧ (Calendar.ofDay (Calendar.toDay
      ⟨year, date.month, date.day⟩)).year < 2025 by
    rw [Calendar.ofDay_toDay hvalid]; dsimp only; omega)
  obtain ⟨hpast, hfuture⟩ := Instant.year_before_onDay _ hh' hm' hyears.1 hyears.2
  refine ⟨_, _, hpast, hfuture, nextCronRun_before hv hc hminute hmatch, fun hstandard => ?_⟩
  rw [standardMatches_iff hparts hreads, CronSchedule.StandardDate, if_neg hexact] at hstandard
  apply hnext
  have hcron := hstandard.2.2.2.2
  unfold Instant.cronWeekday Instant.weekday at hcron
  rwa [Instant.dayNumber_onDay hh' hm', hweekday] at hcron

/-- **Either day will do for cron**: when both day fields are numbers, cron runs on a day between
two runs of `next_cron_run`. -/
theorem exists_missed_run (hv : validateCronExpression s = .ok n)
    (hparts : PyStr.split s = [minute, hour, day, month, weekday])
    (hreads : c.ReadsParts minute hour day month weekday)
    (hexact : isExact day = true ∧ isExact weekday = true) {date : Date} (hdate : date.Valid)
    (hmonth : date.month ∈ c.month) (hday : date.day ∈ c.day) :
    ∃ after r t, 1 ≤ Instant.year after ∧ Instant.year after ≤ 9997 ∧
      nextCronRun s after = .ok r ∧ WholeMinute t ∧ after < t ∧ t < r ∧ StandardMatches s t := by
  have hc : c.Reads s := ⟨_, _, _, _, _, hparts, hreads⟩
  obtain ⟨⟨m, hm, hm'⟩, ⟨h, hh, hh'⟩, ⟨-, hlt⟩, -⟩ := reads_spec hc
  obtain ⟨d, hd⟩ := parseCronPart_exact hexact.1 hreads.day
  obtain ⟨w, hw⟩ := parseCronPart_exact hexact.2 hreads.weekday
  rw [hd, List.mem_singleton] at hday
  obtain ⟨year, hfirst, hlast, hvalid, hweekday⟩ :=
    Calendar.exists_year_weekday (w := w) hdate (hlt w (by simp [hw]))
  obtain ⟨other, hnear, hbefore, hother, hothermonth, hotherday⟩ := Calendar.exists_other_day hvalid
  have hmatch : c.Matches (onDay (Calendar.toDay ⟨year, date.month, date.day⟩) h m) := by
    rw [matches_onDay hvalid hh' hm', hweekday, hd, hw]
    exact ⟨hm, hh, by simp [hday], hmonth, by simp⟩
  have hyears := Calendar.year_mem_iff.mp (show year ≤ (Calendar.ofDay (Calendar.toDay
    ⟨year, date.month, date.day⟩)).year ∧ (Calendar.ofDay (Calendar.toDay
      ⟨year, date.month, date.day⟩)).year < year + 1 by
    rw [Calendar.ofDay_toDay hvalid]; dsimp only; omega)
  have hstart := Calendar.yearStart_le hfirst
  have hend := Calendar.yearStart_le (show year + 1 ≤ 2025 by omega)
  have hbounds : Calendar.yearStart 1999 = 729754 ∧ Calendar.yearStart 2000 = 730119 := by decide
  generalize Calendar.toDay ⟨year, date.month, date.day⟩ = D at *
  -- One minute before the day that only cron takes.
  have hminute := Instant.wholeMinute_onDay other h m
  obtain ⟨hpast, hfuture⟩ := Instant.year_before_onDay other hh' hm' (by omega) (by omega)
  obtain ⟨r, hr, -⟩ : ∃ r, nextCronRun s (onDay other h m - minutes 1) = .ok r ∧ r ≤ onDay D h m :=
    exists_nextCronRun hv hc (Instant.wholeMinute_onDay D h m)
      (by unfold onDay minutes seconds; omega)
      (by unfold cronCandidate floorMinute cronHorizon onDay minutes seconds; omega) hmatch
  obtain ⟨hnext, -⟩ := (nextCronRun_ok_iff_isNextRun hv hc).mp hr
  have hne : r ≠ onDay other h m := by
    intro heq
    have hmatch' := hnext.holds
    rw [heq, ← Calendar.toDay_ofDay other,
      matches_onDay (Calendar.ofDay_valid other) hh' hm', hd, List.mem_singleton] at hmatch'
    exact hotherday (hmatch'.2.2.1.trans hday.symm)
  refine ⟨_, r, onDay other h m, hpast, hfuture, hr, hminute, by unfold minutes seconds; omega, ?_, ?_⟩
  · have hwhole := hnext.wholeMinute
    have hlater := hnext.later
    unfold WholeMinute minutes seconds at *
    omega
  · rw [standardMatches_iff hparts hreads, CronSchedule.StandardDate, if_pos hexact,
      Instant.minute_onDay hm', Instant.hour_onDay hh' hm']
    unfold Instant.month Instant.cronWeekday Instant.weekday
    rw [Instant.dayNumber_onDay hh' hm', hothermonth, hw, List.mem_singleton]
    refine ⟨hm, hh, hmonth, Or.inr ?_⟩
    unfold Calendar.weekday at *
    omega

/-- **Where the two agree**: every answer of `next_cron_run` is cron's next run exactly when the
weekday field admits every weekday, or no date has the month and the day. -/
theorem nextCronRun_standard_iff (hv : validateCronExpression s = .ok n) (hc : c.Reads s) :
    (∀ after r, 1 ≤ Instant.year after → Instant.year after ≤ 9997 → nextCronRun s after = .ok r →
        IsNextRun (StandardMatches s) after r) ↔
      (∀ w < 7, w ∈ c.weekday) ∨
        ∀ date : Date, date.month ∈ c.month → date.day ∈ c.day → ¬ date.Valid := by
  obtain ⟨minute, hour, day, month, weekday, hparts, hreads⟩ := hc
  have hc : c.Reads s := ⟨_, _, _, _, _, hparts, hreads⟩
  constructor
  · intro hagree
    by_contra hcond
    push Not at hcond
    obtain ⟨⟨w, hw, hnot⟩, date, hmonth, hday, hdate⟩ := hcond
    have hweekday : ¬ ∀ w < 7, w ∈ c.weekday := fun hall => hnot (hall w hw)
    by_cases hexact : isExact day = true ∧ isExact weekday = true
    · obtain ⟨after, r, t, hpast, hfuture, hr, hminute, hlater, hlt, hstandard⟩ :=
        exists_missed_run hv hparts hreads hexact hdate hmonth hday
      exact (hagree after r hpast hfuture hr).earliest t hminute hlater hlt hstandard
    · obtain ⟨after, r, hpast, hfuture, hr, hstandard⟩ :=
        exists_wrong_weekday hv hparts hreads hweekday hexact hdate hmonth hday
      exact hstandard (hagree after r hpast hfuture hr).holds
  · intro hcond after r _ _ hr
    obtain ⟨hnext, -⟩ := (nextCronRun_ok_iff_isNextRun hv hc).mp hr
    rcases hcond with hweekday | hnone
    · have hsame := standardMatches_of_weekdays hparts hreads hweekday
      exact ⟨hnext.wholeMinute, hnext.later, (hsame r).mpr hnext.holds,
        fun t ht hlater hlt => (hsame t).not.mpr (hnext.earliest t ht hlater hlt)⟩
    · have hmatch := hnext.holds
      exact absurd (Calendar.ofDay_valid (Instant.dayNumber r))
        (hnone _ hmatch.2.2.2.1 hmatch.2.2.1)

end Standard

/-- Every five minutes means the same to both. -/
theorem nextCronRun_standard_of_fiveMinutes :
    (∀ after r, 1 ≤ Instant.year after → Instant.year after ≤ 9997 →
      nextCronRun "*/5 * * * *" after = .ok r →
        IsNextRun (StandardMatches "*/5 * * * *") after r) ∧
      nextCronRun "*/5 * * * *" (minutes 3) = .ok (minutes 5) := by
  have hv : validateCronExpression "*/5 * * * *" = .ok "*/5 * * * *" := by rfl
  have hc : (⟨cronRange 0 59 5, cronRange 0 23 1, cronRange 1 31 1, cronRange 1 12 1,
      cronRange 0 6 1⟩ : CronSchedule).Reads "*/5 * * * *" :=
    ⟨"*/5", "*", "*", "*", "*", rfl, rfl, rfl, rfl, rfl, rfl⟩
  exact ⟨(nextCronRun_standard_iff hv hc).mpr (Or.inl (by decide)), by rfl⟩

/-- **A weekly job runs on the wrong day**: `0` is Sunday for cron, and the answer is a Monday. -/
theorem nextCronRun_not_standard : ∃ after r, nextCronRun "0 0 * * 0" after = .ok r ∧
    Instant.weekday r = 0 ∧ ¬ IsNextRun (StandardMatches "0 0 * * 0") after r := by
  have hparts : PyStr.split "0 0 * * 0" = ["0", "0", "*", "*", "0"] := by rfl
  have hreads : (⟨[0], [0], cronRange 1 31 1, cronRange 1 12 1, [0]⟩ : CronSchedule).ReadsParts
      "0" "0" "*" "*" "0" := ⟨rfl, rfl, rfl, rfl, rfl⟩
  refine ⟨onDay 6 23 59, onDay 7 0 0, by rfl, by decide, fun h => ?_⟩
  have hdate := ((standardMatches_iff hparts hreads _).mp h.holds).2.2.2
  have hexact : ¬ (isExact "*" = true ∧ isExact "0" = true) := by decide
  rw [CronSchedule.StandardDate, if_neg hexact] at hdate
  have hsunday : Instant.cronWeekday (onDay 7 0 0) = 1 := by decide
  rw [hsunday] at hdate
  exact absurd hdate.2 (by decide)

end JobPipeline
