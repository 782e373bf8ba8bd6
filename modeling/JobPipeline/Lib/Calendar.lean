import Mathlib.Data.Nat.Basic
import Mathlib.Tactic.Ring

/-!
# The proleptic Gregorian calendar

Days are counted from 0001-01-01, day `0`, which is a Monday; the count may be negative. The
year of a day is found by splitting off 400-, 100-, 4- and 1-year cycles, and the month by
walking the month lengths of that year, so that a day never exceeds the length of its month by
construction (`day_le_length`). `toDay` goes the other way, and the two are inverse to each other
(`toDay_ofDay`, `ofDay_toDay`).
-/

set_option autoImplicit false

namespace Calendar

def isLeap (year : Int) : Bool := year % 4 == 0 && (year % 100 != 0 || year % 400 == 0)

/-- The lengths of the months, January first. -/
def monthLengths (leap : Bool) : List Nat :=
  [31, if leap then 29 else 28, 31, 30, 31, 30, 31, 31, 30, 31, 30, 31]

def daysInYear (leap : Bool) : Nat := if leap then 366 else 365

/-- A calendar date; months and days count from one, as `datetime.date` counts them. -/
structure Date where
  year : Int
  month : Nat
  day : Nat
deriving DecidableEq, Repr

/-- The year of a day, and the number of days since that year's first. -/
def yearDay (n : Int) : Int × Nat :=
  let n400 := n / 146097
  let r400 := n % 146097
  let n100 := r400 / 36524
  let r100 := r400 % 36524
  let n4 := r100 / 1461
  let r4 := r100 % 1461
  let n1 := r4 / 365
  let r1 := r4 % 365
  let year := n400 * 400 + n100 * 100 + n4 * 4 + n1 + 1
  -- The last day of a 4- or 400-year cycle is the 366th of a leap year.
  if n1 = 4 ∨ n100 = 4 then (year - 1, 365) else (year, r1.toNat)

/-- The month and day of the `r`-th day (from zero) of a year with these month lengths. -/
def monthDay : List Nat → Nat → Nat × Nat
  | [], r => (1, r + 1)
  | len :: rest, r =>
    if r < len then (1, r + 1)
    else ((monthDay rest (r - len)).1 + 1, (monthDay rest (r - len)).2)

/-- The date of a day. -/
def ofDay (n : Int) : Date :=
  let (year, r) := yearDay n
  let (month, day) := monthDay (monthLengths (isLeap year)) r
  ⟨year, month, day⟩

/-- `datetime.weekday()`: Monday is `0`. -/
def weekday (n : Int) : Nat := (n % 7).toNat

/-! ## Every date names a day of its month -/

/-- Walking the months ends inside the month it names. -/
theorem monthDay_spec : ∀ (lens : List Nat) (r : Nat), r < lens.sum →
    ∃ len, lens[(monthDay lens r).1 - 1]? = some len ∧ 1 ≤ (monthDay lens r).1 ∧
      1 ≤ (monthDay lens r).2 ∧ (monthDay lens r).2 ≤ len
  | [], r, h => absurd h (by simp)
  | len :: rest, r, h => by
    by_cases hr : r < len
    · exact ⟨len, by simp [monthDay, hr], by simp [monthDay, hr], by simp [monthDay, hr],
        by simp [monthDay, hr, Nat.succ_le_of_lt hr]⟩
    · have hrest : r - len < rest.sum := by
        simp only [List.sum_cons] at h; omega
      obtain ⟨l, hl, hm, hd, hle⟩ := monthDay_spec rest (r - len) hrest
      refine ⟨l, ?_, by simp [monthDay, hr], by simpa [monthDay, hr] using hd,
        by simpa [monthDay, hr] using hle⟩
      have hsucc : (monthDay rest (r - len)).1 + 1 - 1 = (monthDay rest (r - len)).1 - 1 + 1 := by
        omega
      simp only [monthDay, if_neg hr, hsucc, List.getElem?_cons_succ]
      exact hl

theorem sum_monthLengths (leap : Bool) : (monthLengths leap).sum = daysInYear leap := by
  cases leap <;> rfl

/-- The day of the year is smaller than the number of days of the year. -/
theorem yearDay_lt (n : Int) : (yearDay n).2 < daysInYear (isLeap (yearDay n).1) := by
  unfold yearDay
  dsimp only
  generalize hq : n / 146097 = q
  have h400 : 0 ≤ n % 146097 ∧ n % 146097 < 146097 := by omega
  generalize n % 146097 = r400 at h400 ⊢
  split
  · rename_i hlast
    -- The year before the one computed closes a cycle, so it is a leap year.
    have hleap : isLeap (q * 400 + r400 / 36524 * 100 + r400 % 36524 / 1461 * 4 +
        r400 % 36524 % 1461 / 365 + 1 - 1) = true := by
      simp only [isLeap, Bool.and_eq_true, Bool.or_eq_true, beq_iff_eq, bne_iff_ne, ne_eq]
      omega
    show 365 < daysInYear (isLeap _)
    rw [hleap]
    decide
  · unfold daysInYear
    split <;> simp only <;> omega

/-- **A date's day lies in its month.** -/
theorem day_le_length (n : Int) :
    ∃ len, (monthLengths (isLeap (ofDay n).year))[(ofDay n).month - 1]? = some len ∧
      1 ≤ (ofDay n).month ∧ 1 ≤ (ofDay n).day ∧ (ofDay n).day ≤ len :=
  monthDay_spec _ _ (by rw [sum_monthLengths]; exact yearDay_lt n)

/-- No February has a thirtieth day. -/
theorem day_le_of_february {n : Int} (h : (ofDay n).month = 2) : (ofDay n).day ≤ 29 := by
  obtain ⟨len, hlen, -, -, hle⟩ := day_le_length n
  rw [h] at hlen
  have : len ≤ 29 := by
    cases hl : isLeap (ofDay n).year <;> rw [hl] at hlen <;>
      simp [monthLengths] at hlen <;> omega
  omega

/-! ## The day of a date -/

/-- The days before the first of January of a year. -/
def yearStart (year : Int) : Int :=
  365 * (year - 1) + (year - 1) / 4 - (year - 1) / 100 + (year - 1) / 400

/-- The days of a year before the first of a month. -/
def monthStart (lens : List Nat) (month : Nat) : Nat := (lens.take (month - 1)).sum

/-- The day on which a date falls. -/
def toDay (date : Date) : Int :=
  yearStart date.year + monthStart (monthLengths (isLeap date.year)) date.month + (date.day - 1)

/-- The month has this day in this year. -/
def Date.Valid (date : Date) : Prop :=
  ∃ len, (monthLengths (isLeap date.year))[date.month - 1]? = some len ∧ 1 ≤ date.month ∧
    1 ≤ date.day ∧ date.day ≤ len

theorem isLeap_iff (year : Int) :
    isLeap year = true ↔ year % 4 = 0 ∧ (year % 100 ≠ 0 ∨ year % 400 = 0) := by
  simp [isLeap]

theorem yearStart_succ (year : Int) :
    yearStart (year + 1) = yearStart year + daysInYear (isLeap year) := by
  unfold yearStart daysInYear
  by_cases h : isLeap year = true
  · rw [if_pos h]
    rw [isLeap_iff] at h
    omega
  · rw [if_neg h]
    rw [isLeap_iff] at h
    omega

/-- The year with these cycles of 400, 100, 4 and 1 years behind it. -/
theorem yearStart_cycles {q a b c : Int} (ha : 0 ≤ a ∧ a ≤ 3) (hb : 0 ≤ b ∧ b ≤ 24)
    (hc : 0 ≤ c ∧ c ≤ 3) :
    yearStart (q * 400 + a * 100 + b * 4 + c + 1) = q * 146097 + a * 36524 + b * 1461 + c * 365 := by
  have h4 : (q * 400 + a * 100 + b * 4 + c + 1 - 1) / 4 = q * 100 + a * 25 + b := by omega
  have h100 : (q * 400 + a * 100 + b * 4 + c + 1 - 1) / 100 = q * 4 + a := by omega
  have h400 : (q * 400 + a * 100 + b * 4 + c + 1 - 1) / 400 = q := by omega
  unfold yearStart
  rw [h4, h100, h400]
  omega

theorem yearStart_yearDay (n : Int) : yearStart (yearDay n).1 + (yearDay n).2 = n := by
  have h₁ : 0 ≤ n % 146097 ∧ n % 146097 < 146097 := by omega
  have h₂ : 0 ≤ n % 146097 % 36524 ∧ n % 146097 % 36524 < 36524 := by omega
  have h₃ : 0 ≤ n % 146097 % 36524 % 1461 ∧ n % 146097 % 36524 % 1461 < 1461 := by omega
  have hn : n = n / 146097 * 146097 + n % 146097 / 36524 * 36524 +
      n % 146097 % 36524 / 1461 * 1461 + n % 146097 % 36524 % 1461 / 365 * 365 +
      n % 146097 % 36524 % 1461 % 365 := by omega
  unfold yearDay
  dsimp only
  generalize hq : n / 146097 = q at *
  generalize ha : n % 146097 / 36524 = a at *
  generalize hb : n % 146097 % 36524 / 1461 = b at *
  generalize hc : n % 146097 % 36524 % 1461 / 365 = c at *
  generalize hr : n % 146097 % 36524 % 1461 % 365 = r at *
  split
  · rename_i hlast
    -- The year meant is the last one of its 4- or 400-year cycle.
    rcases hlast with rfl | rfl
    · have hcycles := yearStart_cycles (q := q) (a := a) (b := b) (c := 3) (by omega) (by omega)
        (by omega)
      rw [show q * 400 + a * 100 + b * 4 + 4 + 1 - 1 = q * 400 + a * 100 + b * 4 + 3 + 1 by ring,
        hcycles]
      dsimp only
      omega
    · have hcycles := yearStart_cycles (q := q) (a := 3) (b := 24) (c := 3) (by omega) (by omega)
        (by omega)
      rw [show q * 400 + 4 * 100 + b * 4 + c + 1 - 1 = q * 400 + 3 * 100 + 24 * 4 + 3 + 1 by omega,
        hcycles]
      dsimp only
      omega
  · rename_i hlast
    rw [yearStart_cycles (by omega) (by omega) (by omega)]
    dsimp only
    omega

theorem yearStart_le {year year' : Int} (h : year ≤ year') : yearStart year ≤ yearStart year' := by
  unfold yearStart
  omega

theorem yearDay_eq {n year : Int} {r : Nat} (hn : n = yearStart year + r)
    (hr : r < daysInYear (isLeap year)) : yearDay n = (year, r) := by
  have hlt := yearDay_lt n
  have hday := yearStart_yearDay n
  generalize yearDay n = p at hlt hday
  obtain ⟨year', r'⟩ := p
  dsimp only at hlt hday
  have hsucc := yearStart_succ year
  have hsucc' := yearStart_succ year'
  have hyear : year' = year := by
    by_contra hne
    rcases lt_or_gt_of_ne hne with h | h
    · have := yearStart_le (show year' + 1 ≤ year by omega)
      omega
    · have := yearStart_le (show year + 1 ≤ year' by omega)
      omega
  subst hyear
  simp only [Prod.mk.injEq, true_and]
  omega

/-- Walking the months finds the day the walk came from. -/
theorem monthStart_monthDay : ∀ (lens : List Nat) (r : Nat), r < lens.sum →
    monthStart lens (monthDay lens r).1 + (monthDay lens r).2 = r + 1
  | [], r, h => absurd h (by simp)
  | len :: rest, r, h => by
    by_cases hr : r < len
    · simp [monthDay, hr, monthStart]
    · have hrest : r - len < rest.sum := by
        simp only [List.sum_cons] at h; omega
      have ih := monthStart_monthDay rest (r - len) hrest
      obtain ⟨-, -, hmonth, -, -⟩ := monthDay_spec rest (r - len) hrest
      have htake : monthStart (len :: rest) ((monthDay rest (r - len)).1 + 1) =
          len + monthStart rest (monthDay rest (r - len)).1 := by
        obtain ⟨k, hk⟩ : ∃ k, (monthDay rest (r - len)).1 = k + 1 :=
        ⟨(monthDay rest (r - len)).1 - 1, by omega⟩
        simp [monthStart, hk]
      simp only [monthDay, if_neg hr, htake]
      omega

theorem monthDay_monthStart : ∀ (lens : List Nat) (month day len : Nat), 1 ≤ month → 1 ≤ day →
    lens[month - 1]? = some len → day ≤ len →
    monthDay lens (monthStart lens month + (day - 1)) = (month, day)
  | [], month, day, len, _, _, hlen, _ => absurd hlen (by simp)
  | first :: rest, month, day, len, hmonth, hday, hlen, hle => by
    obtain ⟨k, rfl⟩ : ∃ k, month = k + 1 := ⟨month - 1, by omega⟩
    cases k with
    | zero =>
      simp only [Nat.zero_add, Nat.sub_self, List.getElem?_cons_zero, Option.some.injEq] at hlen
      have hr : day - 1 < first := by omega
      simp [monthStart, monthDay, hr]
      omega
    | succ k =>
      have ih := monthDay_monthStart rest (k + 1) day len (by omega) hday
        (by simpa using hlen) hle
      have hstart : monthStart (first :: rest) (k + 1 + 1) = first + monthStart rest (k + 1) := by
        simp [monthStart]
      have hr : ¬ first + monthStart rest (k + 1) + (day - 1) < first := by omega
      have hsub : first + monthStart rest (k + 1) + (day - 1) - first =
          monthStart rest (k + 1) + (day - 1) := by omega
      rw [hstart, monthDay, if_neg hr, hsub, ih]

theorem monthStart_le (lens : List Nat) {month len : Nat} (h : lens[month - 1]? = some len) :
    monthStart lens month + len ≤ lens.sum := by
  have hsplit : (lens.take (month - 1)).sum + (lens.drop (month - 1)).sum = lens.sum := by
    rw [← List.sum_append, List.take_append_drop]
  obtain ⟨rest, hrest⟩ : ∃ rest, lens.drop (month - 1) = len :: rest := by
    obtain ⟨hlt, rfl⟩ := List.getElem?_eq_some_iff.mp h
    exact ⟨_, List.drop_eq_getElem_cons hlt⟩
  rw [hrest, List.sum_cons] at hsplit
  unfold monthStart
  omega

theorem ofDay_valid (n : Int) : (ofDay n).Valid := day_le_length n

/-- **Every day is the day of its date.** -/
theorem toDay_ofDay (n : Int) : toDay (ofDay n) = n := by
  have hday := yearStart_yearDay n
  have hmonth := monthStart_monthDay (monthLengths (isLeap (yearDay n).1)) (yearDay n).2
    (by rw [sum_monthLengths]; exact yearDay_lt n)
  obtain ⟨-, -, -, hfirst, -⟩ := ofDay_valid n
  unfold toDay ofDay at *
  dsimp only at *
  omega

/-- **Every valid date is the date of its day.** -/
theorem ofDay_toDay {date : Date} (h : date.Valid) : ofDay (toDay date) = date := by
  obtain ⟨year, month, day⟩ := date
  obtain ⟨len, hlen, hmonth, hday, hle⟩ := h
  dsimp only at hlen hmonth hday hle
  have hwalk := monthDay_monthStart _ month day len hmonth hday hlen hle
  have hsum : monthStart (monthLengths (isLeap year)) month + (day - 1) <
      daysInYear (isLeap year) := by
    have hend := monthStart_le _ hlen
    rw [sum_monthLengths] at hend
    omega
  have hyear : yearDay (toDay ⟨year, month, day⟩) =
      (year, monthStart (monthLengths (isLeap year)) month + (day - 1)) :=
    yearDay_eq (by unfold toDay; dsimp only; omega) hsum
  simp only [ofDay, hyear, hwalk]

theorem yearStart_le_day (n : Int) : yearStart (ofDay n).year ≤ n ∧
    n < yearStart ((ofDay n).year + 1) := by
  have hlt := yearDay_lt n
  have hday := yearStart_yearDay n
  rw [yearStart_succ]
  change yearStart (yearDay n).1 ≤ n ∧ n < yearStart (yearDay n).1 + daysInYear _
  change _ ∧ n < _ + (daysInYear (isLeap (yearDay n).1) : Int)
  omega

/-- The days of a range of years. -/
theorem year_mem_iff {n first last : Int} :
    first ≤ (ofDay n).year ∧ (ofDay n).year < last ↔ yearStart first ≤ n ∧ n < yearStart last := by
  obtain ⟨hle, hlt⟩ := yearStart_le_day n
  constructor
  · intro h
    have hfirst := yearStart_le h.1
    have hlast := yearStart_le (show (ofDay n).year + 1 ≤ last by omega)
    omega
  · intro h
    by_contra hout
    rcases lt_or_ge (ofDay n).year first with hbefore | hnot
    · have := yearStart_le (show (ofDay n).year + 1 ≤ first by omega)
      omega
    · have := yearStart_le (show last ≤ (ofDay n).year by omega)
      omega

/-! ## The same date in another year -/

/-- The calendar has this date in every year. -/
def EveryYear (month day : Nat) : Prop := ∀ year, Date.Valid ⟨year, month, day⟩

/-- The leap day aside, a year is as good as another. -/
theorem valid_of_isLeap_eq {year year' : Int} {month day : Nat} (h : Date.Valid ⟨year, month, day⟩)
    (hleap : isLeap year' = isLeap year) : Date.Valid ⟨year', month, day⟩ := by
  unfold Date.Valid at h ⊢
  dsimp only at h ⊢
  rwa [hleap]

theorem monthStart_mono_leap : ∀ month < 13, monthStart (monthLengths false) month ≤
    monthStart (monthLengths true) month ∧
      monthStart (monthLengths true) month ≤ monthStart (monthLengths false) month + 1 := by
  decide

theorem monthLengths_mono_leap : ∀ i < 12, ∀ len ∈ (monthLengths false)[i]?,
    ∃ len' ∈ (monthLengths true)[i]?, len ≤ len' := by
  decide

/-- **What a common year has every year has.** -/
theorem everyYear_iff {month day : Nat} : EveryYear month day ↔
    ∃ year, isLeap year = false ∧ Date.Valid ⟨year, month, day⟩ := by
  constructor
  · intro h
    exact ⟨2001, by decide, h 2001⟩
  · intro h year
    obtain ⟨common, hcommon, len, hlen, hmonth, hday, hle⟩ := h
    dsimp only at hlen hmonth hday hle
    rw [hcommon] at hlen
    cases hyear : isLeap year with
    | false => exact ⟨len, by dsimp only; rw [hyear]; exact hlen, hmonth, hday, hle⟩
    | true =>
      have hindex : month - 1 < 12 := (List.getElem?_eq_some_iff.mp hlen).1
      obtain ⟨len', hlen', hle'⟩ := monthLengths_mono_leap _ hindex len hlen
      exact ⟨len', by dsimp only; rw [hyear]; exact hlen', hmonth, hday, le_trans hle hle'⟩

/-- A date comes back after 365 or 366 days. -/
theorem toDay_next_year (year : Int) {month : Nat} (day : Nat) (hmonth : month < 13) :
    toDay ⟨year, month, day⟩ + 365 ≤ toDay ⟨year + 1, month, day⟩ ∧
      toDay ⟨year + 1, month, day⟩ ≤ toDay ⟨year, month, day⟩ + 366 := by
  have hsucc := yearStart_succ year
  obtain ⟨h₁, h₂⟩ := monthStart_mono_leap month hmonth
  unfold toDay
  dsimp only
  rw [hsucc]
  cases isLeap year <;> cases isLeap (year + 1) <;> simp only [daysInYear] <;> simp <;> omega

/-- Common and leap years begin on every day of the week. -/
theorem exists_year_beginning (leap : Bool) : ∀ w < 7, ∃ i < 25,
    isLeap (2000 + (i : Nat)) = leap ∧ yearStart (2000 + (i : Nat)) % 7 = (w : Nat) := by
  cases leap <;> decide

/-- **A date falls on every day of the week**, in some year from 2000 to 2024. -/
theorem exists_year_weekday {year : Int} {month day w : Nat}
    (h : Date.Valid ⟨year, month, day⟩) (hw : w < 7) :
    ∃ year', 2000 ≤ year' ∧ year' ≤ 2024 ∧ Date.Valid ⟨year', month, day⟩ ∧
      weekday (toDay ⟨year', month, day⟩) = w := by
  -- The year has to begin this many days before the weekday that is asked for.
  generalize hoffset : (monthStart (monthLengths (isLeap year)) month : Int) + ((day : Int) - 1) =
    offset
  have hbegin : ((w - offset) % 7).toNat < 7 := by omega
  obtain ⟨i, hi, hleap, hstart⟩ := exists_year_beginning (isLeap year) _ hbegin
  refine ⟨2000 + i, by omega, by omega, valid_of_isLeap_eq h hleap, ?_⟩
  unfold weekday toDay
  dsimp only
  rw [hleap]
  omega

theorem monthLengths_le : ∀ leap, ∀ i < 12, ∀ len ∈ (monthLengths leap)[i]?, 28 ≤ len := by
  decide

theorem month_lt_of_valid {date : Date} (h : date.Valid) : date.month < 13 := by
  obtain ⟨len, hlen, -⟩ := h
  have hindex := (List.getElem?_eq_some_iff.mp hlen).1
  have hlength : (monthLengths (isLeap date.year)).length = 12 := rfl
  omega

/-- Every month has its first 28 days. -/
theorem valid_of_le {year : Int} {month day day' : Nat} (h : Date.Valid ⟨year, month, day⟩)
    (hfirst : 1 ≤ day') (hle : day' ≤ 28) (year' : Int) : Date.Valid ⟨year', month, day'⟩ := by
  have hmonth := month_lt_of_valid h
  obtain ⟨-, -, hpos, -⟩ := h
  dsimp only at hmonth hpos
  have hindex : month - 1 < (monthLengths (isLeap year')).length := by
    show month - 1 < 12
    omega
  exact ⟨_, List.getElem?_eq_getElem hindex, hpos, hfirst, le_trans hle (monthLengths_le _ (month - 1)
    (by omega) _ (List.getElem?_eq_getElem hindex))⟩

/-- In the year before a date, another day of its month falls on the weekday before it. -/
theorem exists_other_day {year : Int} {month day : Nat} (h : Date.Valid ⟨year, month, day⟩) :
    ∃ n, toDay ⟨year, month, day⟩ - 344 ≤ n ∧ n < toDay ⟨year, month, day⟩ ∧
      (n + 1) % 7 = toDay ⟨year, month, day⟩ % 7 ∧ (ofDay n).month = month ∧ (ofDay n).day ≠ day := by
  have hmonth := month_lt_of_valid h
  dsimp only at hmonth
  by_cases hfirst : day = 1
  · -- The 22nd or the 23rd of that month, a year earlier.
    obtain ⟨hgap, hgap'⟩ := toDay_next_year (year - 1) 1 hmonth
    rw [Int.sub_add_cancel] at hgap hgap'
    subst hfirst
    have hlater : ∀ k : Nat, 22 ≤ k → k ≤ 23 →
        toDay ⟨year, month, 1⟩ - 344 = toDay ⟨year - 1, month, k⟩ →
          ∃ n, toDay ⟨year, month, 1⟩ - 344 ≤ n ∧ n < toDay ⟨year, month, 1⟩ ∧
            (n + 1) % 7 = toDay ⟨year, month, 1⟩ % 7 ∧ (ofDay n).month = month ∧
            (ofDay n).day ≠ 1 := by
      intro k hk hk' heq
      refine ⟨toDay ⟨year - 1, month, k⟩, by omega, by omega, by omega, ?_⟩
      rw [ofDay_toDay (valid_of_le h (by omega) (by omega) _)]
      exact ⟨rfl, by dsimp only; omega⟩
    have hday : ∀ k : Nat, toDay ⟨year - 1, month, k⟩ = toDay ⟨year - 1, month, 1⟩ + (k - 1) := by
      intro k
      unfold toDay
      dsimp only
      omega
    by_cases hexact : toDay ⟨year, month, 1⟩ = toDay ⟨year - 1, month, 1⟩ + 365
    · exact hlater 22 (by omega) (by omega) (by rw [hday]; omega)
    · exact hlater 23 (by omega) (by omega) (by rw [hday]; omega)
  · -- The day before.
    obtain ⟨len, hlen, hpos, hpos', hle⟩ := h
    dsimp only at hlen hpos hpos' hle
    have hvalid : Date.Valid ⟨year, month, day - 1⟩ :=
      ⟨len, hlen, hpos, by dsimp only; omega, by dsimp only; omega⟩
    have hday : toDay ⟨year, month, day - 1⟩ = toDay ⟨year, month, day⟩ - 1 := by
      unfold toDay
      dsimp only
      omega
    refine ⟨toDay ⟨year, month, day - 1⟩, by omega, by omega, by omega, ?_⟩
    rw [ofDay_toDay hvalid]
    exact ⟨rfl, by dsimp only; omega⟩

end Calendar
