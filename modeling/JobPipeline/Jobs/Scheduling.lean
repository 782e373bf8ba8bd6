import JobPipeline.Core.Errors
import JobPipeline.Lib.PyStr
import JobPipeline.Lib.Calendar

/-!
# Cron expressions (`jobs/scheduling.py`)

`next_cron_run` walks at most 366 days minute by minute and parses the five fields again at
every candidate. The proofs below separate the two concerns: a `CronSchedule` is what the five
fields mean, read once, and `nextCronRun_eq_ok_iff` says that the walk finds the first matching
minute of the window.
-/

set_option autoImplicit false

namespace JobPipeline

/-! ## The fields of a `datetime` -/

/-- `t.replace(second=0, microsecond=0)`. -/
def floorMinute (t : Int) : Int := minutes (t / minutes 1)

def Instant.minute (t : Int) : Nat := (t / minutes 1 % 60).toNat

def Instant.hour (t : Int) : Nat := (t / minutes 60 % 24).toNat

/-- The day of an instant, as the calendar counts days. -/
def Instant.dayNumber (t : Int) : Int := t / minutes (24 * 60)

def Instant.day (t : Int) : Nat := (Calendar.ofDay (Instant.dayNumber t)).day

def Instant.month (t : Int) : Nat := (Calendar.ofDay (Instant.dayNumber t)).month

def Instant.weekday (t : Int) : Nat := Calendar.weekday (Instant.dayNumber t)

/-! ## Translated functions -/

/-- `set(range(minimum, maximum + 1, step))`. -/
def cronRange (minimum maximum step : Nat) : List Nat :=
  List.range' minimum ((maximum - minimum) / step + 1) step

def parseCronPart (part : String) (minimum maximum : Nat) : Except Exc (List Nat) :=
  match part.toList with
  | ['*'] => .ok (cronRange minimum maximum 1)
  | '*' :: '/' :: rest =>
    match PyStr.int rest with
    | none =>
      .error (.service (badRequestError "Cron step must be an integer" [("part", .str part)]))
    | some step =>
      if step ≤ 0 then
        .error (.service (badRequestError "Cron step must be positive" [("part", .str part)]))
      else .ok (cronRange minimum maximum step.toNat)
  | cs =>
    match PyStr.int cs with
    | none =>
      .error (.service (badRequestError "Cron field must be '*', '*/n', or an integer"
        [("part", .str part)]))
    | some value =>
      if value < minimum ∨ maximum < value then
        .error (.service (badRequestError "Cron value out of range"
          [("part", .str part), ("minimum", .num (toString minimum)),
           ("maximum", .num (toString maximum))]))
      else .ok [value.toNat]

/-- The ranges of the five fields: minute, hour, day, month, weekday. -/
def cronRanges : List (Nat × Nat) := [(0, 59), (0, 23), (1, 31), (1, 12), (0, 6)]

/-- The loop of `validate_cron_expression`: parse every part for its errors. -/
def checkCronParts : List (String × (Nat × Nat)) → Except Exc Unit
  | [] => .ok ()
  | (part, (minimum, maximum)) :: rest =>
    match parseCronPart part minimum maximum with
    | .ok _ => checkCronParts rest
    | .error e => .error e

def validateCronExpression (expression : String) : Except Exc String :=
  let parts := PyStr.split (PyStr.strip expression)
  if parts.length ≠ 5 then
    .error (.service (badRequestError "Cron expression must have five fields"
      [("cron", .str expression)]))
  else
    match checkCronParts (parts.zip cronRanges) with
    | .ok _ => .ok (PyStr.joinSpace parts)
    | .error e => .error e

/-- `value in _parse_cron_part(part, minimum, maximum)`, then `and`: the next conjunct is only
    evaluated when this one is true. -/
def cronIn (part : String) (minimum maximum value : Nat) (next : Except Exc Bool) :
    Except Exc Bool :=
  match parseCronPart part minimum maximum with
  | .ok values => if value ∈ values then next else .ok false
  | .error e => .error e

/-- The condition of the loop of `next_cron_run`. -/
def cronMatches (minute hour day month weekday : String) (candidate : Int) : Except Exc Bool :=
  cronIn minute 0 59 (Instant.minute candidate) <|
    cronIn hour 0 23 (Instant.hour candidate) <|
      cronIn day 1 31 (Instant.day candidate) <|
        cronIn month 1 12 (Instant.month candidate) <|
          cronIn weekday 0 6 (Instant.weekday candidate) (.ok true)

/-- `for _ in range(fuel)`: the first candidate that matches, or the error after the loop. -/
def cronSearch (expression minute hour day month weekday : String) :
    Nat → Int → Except Exc Int
  | 0, _ => .error (.service (badRequestError "Cron expression has no run in the next year"
      [("cron", .str expression)]))
  | fuel + 1, candidate =>
    match cronMatches minute hour day month weekday candidate with
    | .ok true => .ok candidate
    | .ok false =>
      cronSearch expression minute hour day month weekday fuel (candidate + minutes 1)
    | .error e => .error e

/-- The candidates tried: one for every minute of 366 days. -/
def cronHorizon : Nat := 366 * 24 * 60

/-- `next_cron_run(expression, after)` for an `after` in UTC. -/
def nextCronRun (expression : String) (after : Int) : Except Exc Int :=
  match validateCronExpression expression with
  | .error e => .error e
  | .ok expression =>
    match PyStr.split expression with
    | [minute, hour, day, month, weekday] =>
      cronSearch expression minute hour day month weekday cronHorizon
        (floorMinute after + minutes 1)
    | _ => .error (.valueError "not enough values to unpack")

/-! ## What an expression denotes -/

/-- The five sets of values an expression admits. -/
structure CronSchedule where
  minute : List Nat
  hour : List Nat
  day : List Nat
  month : List Nat
  weekday : List Nat

namespace CronSchedule

/-- An instant's five fields lie in the five sets. -/
def Matches (c : CronSchedule) (t : Int) : Prop :=
  Instant.minute t ∈ c.minute ∧ Instant.hour t ∈ c.hour ∧ Instant.day t ∈ c.day ∧
    Instant.month t ∈ c.month ∧ Instant.weekday t ∈ c.weekday

instance (c : CronSchedule) (t : Int) : Decidable (c.Matches t) := by
  unfold Matches; infer_instance

/-- The sets are what `_parse_cron_part` makes of these five parts. -/
structure ReadsParts (c : CronSchedule) (minute hour day month weekday : String) : Prop where
  minute : parseCronPart minute 0 59 = .ok c.minute
  hour : parseCronPart hour 0 23 = .ok c.hour
  day : parseCronPart day 1 31 = .ok c.day
  month : parseCronPart month 1 12 = .ok c.month
  weekday : parseCronPart weekday 0 6 = .ok c.weekday

/-- The sets are those of the five fields of the expression. -/
def Reads (c : CronSchedule) (expression : String) : Prop :=
  ∃ minute hour day month weekday,
    PyStr.split expression = [minute, hour, day, month, weekday] ∧
      c.ReadsParts minute hour day month weekday

end CronSchedule

theorem cronMatches_eq {c : CronSchedule} {minute hour day month weekday : String}
    (h : c.ReadsParts minute hour day month weekday) (t : Int) :
    cronMatches minute hour day month weekday t = .ok (decide (c.Matches t)) := by
  simp only [cronMatches, cronIn, h.minute, h.hour, h.day, h.month, h.weekday,
    CronSchedule.Matches]
  by_cases h₁ : Instant.minute t ∈ c.minute <;> by_cases h₂ : Instant.hour t ∈ c.hour <;>
    by_cases h₃ : Instant.day t ∈ c.day <;> by_cases h₄ : Instant.month t ∈ c.month <;>
      by_cases h₅ : Instant.weekday t ∈ c.weekday <;> simp [h₁, h₂, h₃, h₄, h₅]

/-- The `k`-th candidate of `next_cron_run`, from zero. -/
def cronCandidate (after : Int) (k : Nat) : Int :=
  floorMinute after + minutes 1 + k * minutes 1

/-- The walk finds the first matching candidate. -/
theorem cronSearch_eq_ok_iff {c : CronSchedule} {e minute hour day month weekday : String}
    (h : c.ReadsParts minute hour day month weekday) {r : Int} :
    ∀ {fuel : Nat} {t : Int},
      cronSearch e minute hour day month weekday fuel t = .ok r ↔
        ∃ k < fuel, r = t + k * minutes 1 ∧ c.Matches r ∧
          ∀ j < k, ¬ c.Matches (t + j * minutes 1) := by
  intro fuel
  induction fuel with
  | zero => intro t; simp [cronSearch]
  | succ fuel ih =>
    intro t
    rw [cronSearch, cronMatches_eq h]
    by_cases ht : c.Matches t
    · simp only [ht, decide_true, Except.ok.injEq]
      constructor
      · intro heq
        subst heq
        exact ⟨0, by omega, by simp, ht, by simp⟩
      · intro h
        obtain ⟨k, -, rfl, -, hfirst⟩ := h
        cases k with
        | zero => simp
        | succ k => exact absurd (by simpa using ht) (hfirst 0 (by omega))
    · simp only [ht, decide_false, ih]
      have hshift : ∀ j : Nat, t + minutes 1 + j * minutes 1 = t + (j + 1 : Nat) * minutes 1 := by
        intro j; push_cast; ring
      constructor
      · intro h
        obtain ⟨k, hk, rfl, hm, hfirst⟩ := h
        refine ⟨k + 1, by omega, hshift k, hm, fun j hj => ?_⟩
        cases j with
        | zero => simpa using ht
        | succ j => rw [← hshift j]; exact hfirst j (by omega)
      · intro h
        obtain ⟨k, hk, rfl, hm, hfirst⟩ := h
        cases k with
        | zero => exact absurd (by simpa using hm) ht
        | succ k =>
          refine ⟨k, by omega, (hshift k).symm, hm, fun j hj => ?_⟩
          rw [hshift j]; exact hfirst (j + 1) (by omega)

/-- When no candidate matches, the walk ends in its own error. -/
theorem cronSearch_eq_error {c : CronSchedule} {e minute hour day month weekday : String}
    (h : c.ReadsParts minute hour day month weekday) :
    ∀ {fuel : Nat} {t : Int}, (∀ k < fuel, ¬ c.Matches (t + k * minutes 1)) →
      cronSearch e minute hour day month weekday fuel t =
        .error (.service (badRequestError "Cron expression has no run in the next year"
          [("cron", .str e)])) := by
  intro fuel
  induction fuel with
  | zero => intro t _; rfl
  | succ fuel ih =>
    intro t hnone
    have ht : ¬ c.Matches t := by simpa using hnone 0 (by omega)
    rw [cronSearch, cronMatches_eq h]
    simp only [ht, decide_false]
    refine ih fun k hk => ?_
    have := hnone (k + 1) (by omega)
    rwa [show t + ((k + 1 : Nat) : Int) * minutes 1 = t + minutes 1 + k * minutes 1 by
      push_cast; ring] at this

/-! ## What validation accepts -/

theorem checkCronParts_ok {parts : List (String × (Nat × Nat))}
    (h : checkCronParts parts = .ok ()) (part : String) (minimum maximum : Nat)
    (hmem : (part, (minimum, maximum)) ∈ parts) :
    ∃ values, parseCronPart part minimum maximum = .ok values := by
  induction parts with
  | nil => exact absurd hmem (by simp)
  | cons p rest ih =>
    obtain ⟨part', minimum', maximum'⟩ := p
    simp only [checkCronParts] at h
    cases hp : parseCronPart part' minimum' maximum' with
    | error e => rw [hp] at h; exact absurd h (by simp)
    | ok values =>
      rw [hp] at h
      rcases List.mem_cons.mp hmem with heq | hmem
      · cases heq; exact ⟨values, hp⟩
      · exact ih h hmem

/-- **What acceptance gives**: the result has the fields of the input, and they parse. -/
theorem validateCronExpression_ok {s n : String} (h : validateCronExpression s = .ok n) :
    n = PyStr.joinSpace (PyStr.split s) ∧ PyStr.split n = PyStr.split s ∧
      ∃ c : CronSchedule, c.Reads n := by
  unfold validateCronExpression at h
  simp only [PyStr.split_strip] at h
  split at h
  · exact absurd h (by simp)
  rename_i hlen
  cases hcheck : checkCronParts ((PyStr.split s).zip cronRanges) with
  | error e => rw [hcheck] at h; exact absurd h (by simp)
  | ok u =>
    rw [hcheck] at h
    simp only [Except.ok.injEq] at h
    subst h
    refine ⟨rfl, PyStr.split_joinSpace_split s, ?_⟩
    obtain ⟨minute, hour, day, month, weekday, hparts⟩ :
        ∃ a b c d e, PyStr.split s = [a, b, c, d, e] := by
      match hs : PyStr.split s with
      | [a, b, c, d, e] => exact ⟨a, b, c, d, e, rfl⟩
      | [] | [_] | [_, _] | [_, _, _] | [_, _, _, _] | _ :: _ :: _ :: _ :: _ :: _ :: _ =>
        rw [hs] at hlen; simp at hlen
    rw [hparts] at hcheck
    obtain ⟨m, hm⟩ := checkCronParts_ok hcheck minute 0 59 (by simp [cronRanges])
    obtain ⟨h', hh⟩ := checkCronParts_ok hcheck hour 0 23 (by simp [cronRanges])
    obtain ⟨d, hd⟩ := checkCronParts_ok hcheck day 1 31 (by simp [cronRanges])
    obtain ⟨mo, hmo⟩ := checkCronParts_ok hcheck month 1 12 (by simp [cronRanges])
    obtain ⟨w, hw⟩ := checkCronParts_ok hcheck weekday 0 6 (by simp [cronRanges])
    exact ⟨⟨m, h', d, mo, w⟩, minute, hour, day, month, weekday,
      by rw [PyStr.split_joinSpace_split, hparts], hm, hh, hd, hmo, hw⟩

/-- Validation normalises: what it returned it accepts unchanged. -/
theorem validateCronExpression_idem {s n : String} (h : validateCronExpression s = .ok n) :
    validateCronExpression n = .ok n := by
  obtain ⟨hn, hsplit, -⟩ := validateCronExpression_ok h
  unfold validateCronExpression at h ⊢
  simp only [PyStr.split_strip] at h ⊢
  rw [hsplit]
  split at h
  · exact absurd h (by simp)
  rename_i hlen
  rw [if_neg hlen]
  cases hcheck : checkCronParts ((PyStr.split s).zip cronRanges) with
  | error e => rw [hcheck] at h; exact absurd h (by simp)
  | ok u => simp [← hn]

/-- The text of a field that parses is written with `*`, `/` and the characters of integers. -/
theorem parseCronPart_mem {part : String} {minimum maximum : Nat} {values : List Nat}
    (h : parseCronPart part minimum maximum = .ok values) {c : Char} (hc : c ∈ part.toList) :
    c = '*' ∨ c = '/' ∨ PyStr.isSpace c = true ∨ c = '-' ∨ c = '+' ∨ c = '_' ∨
      (PyStr.decimal c).isSome := by
  unfold parseCronPart at h
  split at h
  · rename_i hpart
    rw [hpart, List.mem_singleton] at hc
    exact Or.inl hc
  · rename_i rest hpart
    cases hint : PyStr.int rest with
    | none => rw [hint] at h; exact absurd h (by simp)
    | some step =>
      rw [hpart] at hc
      rcases List.mem_cons.mp hc with hstar | hc
      · exact Or.inl hstar
      · rcases List.mem_cons.mp hc with hslash | hc
        · exact Or.inr (Or.inl hslash)
        · exact Or.inr (Or.inr (PyStr.int_mem hint hc))
  · cases hint : PyStr.int part.toList with
    | none => rw [hint] at h; exact absurd h (by simp)
    | some value => exact Or.inr (Or.inr (PyStr.int_mem hint hc))

/-- An accepted expression is no longer than its input, and has no NUL. -/
theorem validateCronExpression_text {s n : String} (h : validateCronExpression s = .ok n) :
    n.length ≤ s.length ∧ Char.ofNat 0 ∉ n.toList := by
  obtain ⟨hn, hsplit, c, minute, hour, day, month, weekday, hparts, hreads⟩ :=
    validateCronExpression_ok h
  refine ⟨hn ▸ PyStr.length_joinSpace_split_le s, fun hnul => ?_⟩
  have hsep : n.toList = [' '].intercalate ((PyStr.split n).map String.toList) := by
    rw [hsplit, hn, PyStr.joinSpace, String.toList_ofList]
  have hpart : ∃ part ∈ PyStr.split n, Char.ofNat 0 ∈ part.toList := by
    rw [hsep, hparts] at hnul
    simpa [hparts] using hnul
  obtain ⟨part, hmem, hnul⟩ := hpart
  have habsurd : ∀ {minimum maximum : Nat} {values : List Nat},
      parseCronPart part minimum maximum = .ok values → False :=
    fun hp => absurd (parseCronPart_mem hp hnul) (by decide)
  rw [hparts] at hmem
  simp only [List.mem_cons, List.not_mem_nil, or_false] at hmem
  rcases hmem with rfl | rfl | rfl | rfl | rfl
  · exact habsurd hreads.minute
  · exact habsurd hreads.hour
  · exact habsurd hreads.day
  · exact habsurd hreads.month
  · exact habsurd hreads.weekday

/-! ## `next_cron_run` -/

/-- **The next run is the first matching minute of the window.** -/
theorem nextCronRun_eq_ok_iff {e : String} {c : CronSchedule}
    (hv : validateCronExpression e = .ok e) (hc : c.Reads e) {after r : Int} :
    nextCronRun e after = .ok r ↔
      ∃ k < cronHorizon, r = cronCandidate after k ∧ c.Matches r ∧
        ∀ j < k, ¬ c.Matches (cronCandidate after j) := by
  obtain ⟨minute, hour, day, month, weekday, hparts, hreads⟩ := hc
  simp only [nextCronRun, hv, hparts, cronCandidate]
  exact cronSearch_eq_ok_iff hreads

/-- An accepted expression has a run in the 366 days after `after`. -/
def CronHasRun (e : String) (after : Int) : Prop :=
  ∃ c : CronSchedule, c.Reads e ∧ ∃ k < cronHorizon, c.Matches (cronCandidate after k)

/-- The sets of an expression are determined by it. -/
theorem CronSchedule.Reads.unique {e : String} {c c' : CronSchedule} (h : c.Reads e)
    (h' : c'.Reads e) : c = c' := by
  obtain ⟨m, h₁, d, mo, w, hs, hr⟩ := h
  obtain ⟨m', h₁', d', mo', w', hs', hr'⟩ := h'
  rw [hs] at hs'
  cases hs'
  cases c; cases c'
  simp only [CronSchedule.mk.injEq]
  exact ⟨Except.ok.inj (hr.minute.symm.trans hr'.minute),
    Except.ok.inj (hr.hour.symm.trans hr'.hour), Except.ok.inj (hr.day.symm.trans hr'.day),
    Except.ok.inj (hr.month.symm.trans hr'.month),
    Except.ok.inj (hr.weekday.symm.trans hr'.weekday)⟩

theorem nextCronRun_ok_of_hasRun {e : String} (hv : validateCronExpression e = .ok e)
    {after : Int} (h : CronHasRun e after) : ∃ r, nextCronRun e after = .ok r := by
  obtain ⟨c, hc, hk⟩ := h
  have hfirst := Nat.find_spec hk
  refine ⟨cronCandidate after (Nat.find hk), (nextCronRun_eq_ok_iff hv hc).mpr
    ⟨Nat.find hk, hfirst.1, rfl, hfirst.2, fun j hj hm => ?_⟩⟩
  exact Nat.find_min hk hj ⟨by omega, hm⟩

theorem cronHasRun_of_ok {e : String} (hv : validateCronExpression e = .ok e) {after r : Int}
    (h : nextCronRun e after = .ok r) : CronHasRun e after := by
  obtain ⟨-, -, c, hc⟩ := validateCronExpression_ok hv
  obtain ⟨k, hk, rfl, hmatches, -⟩ := (nextCronRun_eq_ok_iff hv hc).mp h
  exact ⟨c, hc, k, hk, hmatches⟩

theorem nextCronRun_error_of_not_hasRun {e : String} (hv : validateCronExpression e = .ok e)
    {after : Int} (h : ¬ CronHasRun e after) :
    nextCronRun e after = .error (.service
      (badRequestError "Cron expression has no run in the next year" [("cron", .str e)])) := by
  obtain ⟨-, -, c, hc⟩ := validateCronExpression_ok hv
  have hnone : ∀ k < cronHorizon, ¬ c.Matches (cronCandidate after k) :=
    fun k hk hm => h ⟨c, hc, k, hk, hm⟩
  obtain ⟨minute, hour, day, month, weekday, hparts, hreads⟩ := hc
  simp only [nextCronRun, hv, hparts]
  exact cronSearch_eq_error hreads hnone

/-- An expression for the days after the 29th of February is accepted and never has a run. -/
theorem not_cronHasRun_of_february {e : String} {c : CronSchedule} (hc : c.Reads e)
    (month : ∀ m ∈ c.month, m = 2) (day : ∀ d ∈ c.day, 29 < d) (after : Int) :
    ¬ CronHasRun e after := by
  intro h
  obtain ⟨c', hc', k, -, hm⟩ := h
  cases hc.unique hc'
  have hday := day _ hm.2.2.1
  have hmonth := month _ hm.2.2.2.1
  exact absurd hday (not_lt.mpr (Calendar.day_le_of_february hmonth))

/-- The candidates are whole minutes strictly after `after`. -/
theorem cronCandidate_spec (after : Int) (k : Nat) :
    after < cronCandidate after k ∧ cronCandidate after k % minutes 1 = 0 := by
  unfold cronCandidate floorMinute minutes seconds
  constructor <;> omega

end JobPipeline
