import JobPipeline.Lib.IntLiteral
import JobPipeline.Jobs.CronRuns

/-!
# The grammar of cron expressions

`_parse_cron_part` reads a field with `int`, so its grammar is that of `PyStr.IntLiteral` and not
the decimal digits the README speaks of. `CronField` is the grammar the parser has,
`DocumentedField` the one it is documented to have: `validateCronExpression_grammar` is the
first, and `cron_grammar_is_wider` an expression of the first that is none of the second.

What is accepted is normalised: `NormalForm` collects what holds of the text that is stored on a
job, which `next_cron_run` reads again for every successor.
-/

set_option autoImplicit false

namespace JobPipeline

open PyStr (IntLiteral)

/-- A field as the parser reads it. -/
inductive CronField (minimum maximum : Nat) : List Char → Prop where
  | any : CronField minimum maximum ['*']
  | step (n : IntLiteral) (positive : 0 < n.value) :
      CronField minimum maximum ('*' :: '/' :: n.text)
  | value (n : IntLiteral) (inRange : (minimum : Int) ≤ n.value ∧ n.value ≤ maximum) :
      CronField minimum maximum n.text

/-- A field as the README describes it. -/
inductive DocumentedField (minimum maximum : Nat) : List Char → Prop where
  | any : DocumentedField minimum maximum ['*']
  | step (ds : List Char) (digits : PyStr.IsAsciiDigits ds) (positive : 0 < PyStr.asciiNumber ds) :
      DocumentedField minimum maximum ('*' :: '/' :: ds)
  | value (ds : List Char) (digits : PyStr.IsAsciiDigits ds)
      (inRange : minimum ≤ PyStr.asciiNumber ds ∧ PyStr.asciiNumber ds ≤ maximum) :
      DocumentedField minimum maximum ds

/-- A documented field that `int` is willing to convert. -/
def ShortField (minimum maximum : Nat) (cs : List Char) : Prop :=
  DocumentedField minimum maximum cs ∧ cs.length ≤ PyStr.maxStrDigits

/-- Five parts, each a `field` of its own range. -/
def FiveFields (field : Nat → Nat → List Char → Prop) (s : String) : Prop :=
  ∃ minute hour day month weekday,
    PyStr.split s = [minute, hour, day, month, weekday] ∧
      field 0 59 minute.toList ∧ field 0 23 hour.toList ∧ field 1 31 day.toList ∧
        field 1 12 month.toList ∧ field 0 6 weekday.toList

theorem FiveFields.mono {field field' : Nat → Nat → List Char → Prop}
    (himp : ∀ lo hi cs, field lo hi cs → field' lo hi cs) {s : String} (h : FiveFields field s) :
    FiveFields field' s := by
  obtain ⟨minute, hour, day, month, weekday, hsplit, h₁, h₂, h₃, h₄, h₅⟩ := h
  exact ⟨minute, hour, day, month, weekday, hsplit, himp _ _ _ h₁, himp _ _ _ h₂, himp _ _ _ h₃,
    himp _ _ _ h₄, himp _ _ _ h₅⟩

/-! ## One field -/

section Field

variable {minimum maximum : Nat}

/-- An integer literal does not start with the star of the other two forms. -/
theorem text_ne_star (n : IntLiteral) (rest : List Char) : n.text ≠ '*' :: rest := by
  intro h
  have hstar : '*' ∈ n.text := by rw [h]; exact List.mem_cons_self
  obtain ⟨c, cs, hc, -, -⟩ := n.exists_unsigned
  have hdigit : (PyStr.decimal c).isSome = true := by
    obtain ⟨d, first, hfirst⟩ := List.exists_cons_of_ne_nil n.first_run.1
    have hd : c = d := by
      have := hc
      rw [IntLiteral.unsigned, hfirst, List.cons_append] at this
      exact (List.cons.inj this).1.symm
    exact hd ▸ n.first_run.2 d (by rw [hfirst]; exact List.mem_cons_self)
  rw [IntLiteral.text, hc] at h
  cases hsign : n.sign with
  | plain =>
    rw [hsign, PyStr.Sign.text, List.nil_append, List.cons.injEq] at h
    rw [h.1] at hdigit
    exact absurd hdigit (by decide)
  | plus =>
    rw [hsign] at h
    exact absurd (List.cons.inj h).1 (by decide)
  | minus =>
    rw [hsign] at h
    exact absurd (List.cons.inj h).1 (by decide)

/-- **The grammar of a field**, for a part that a split produced. -/
theorem parseCronPart_ok_iff {part : String}
    (hspace : ∀ c ∈ part.toList, PyStr.isSpace c = false) :
    (∃ values, parseCronPart part minimum maximum = .ok values) ↔
      CronField minimum maximum part.toList := by
  constructor
  · intro h
    obtain ⟨values, hvalues⟩ := h
    unfold parseCronPart at hvalues
    split at hvalues
    · rename_i hpart
      rw [hpart]
      exact .any
    · rename_i rest hpart
      have hrest : ∀ c ∈ rest, PyStr.isSpace c = false := fun c hc =>
        hspace c (by rw [hpart]; exact List.mem_cons_of_mem _ (List.mem_cons_of_mem _ hc))
      split at hvalues
      · cases hvalues
      · rename_i step hint
        split at hvalues
        · cases hvalues
        · rename_i hpositive
          obtain ⟨n, hn, hvalue⟩ := (PyStr.int_eq_some_iff hrest).mp hint
          rw [hpart, ← hn]
          exact .step n (by omega)
    · split at hvalues
      · cases hvalues
      · rename_i value hint
        split at hvalues
        · cases hvalues
        · rename_i hrange
          obtain ⟨n, hn, hvalue⟩ := (PyStr.int_eq_some_iff hspace).mp hint
          rw [← hn]
          exact .value n (by omega)
  · intro h
    unfold parseCronPart
    generalize hpart : part.toList = cs at h hspace
    cases h with
    | any => exact ⟨_, rfl⟩
    | step n positive =>
      have hrest : ∀ c ∈ n.text, PyStr.isSpace c = false := fun c hc =>
        hspace c (List.mem_cons_of_mem _ (List.mem_cons_of_mem _ hc))
      have hint := (PyStr.int_eq_some_iff hrest).mpr ⟨n, rfl, rfl⟩
      simp only [hint, if_neg (not_le.mpr positive)]
      exact ⟨_, rfl⟩
    | value n inRange =>
      have hint := (PyStr.int_eq_some_iff hspace).mpr ⟨n, rfl, rfl⟩
      split
      · rename_i heq
        exact absurd heq (text_ne_star n _)
      · rename_i heq
        exact absurd heq (text_ne_star n _)
      · rw [hint]
        dsimp only
        rw [if_neg (by omega)]
        exact ⟨_, rfl⟩

/-- Whatever a field is refused for is a `BadRequestError`. -/
theorem parseCronPart_error {part : String} {e : Exc}
    (h : parseCronPart part minimum maximum = .error e) : e.className = "BadRequestError" := by
  unfold parseCronPart at h
  split at h
  · cases h
  · split at h
    · cases h
      rfl
    · split at h
      · cases h
        rfl
      · cases h
  · split at h
    · cases h
      rfl
    · split at h
      · cases h
        rfl
      · cases h

/-- What is documented is accepted, as long as `int` converts it. -/
theorem ShortField.cronField {cs : List Char} (h : ShortField minimum maximum cs) :
    CronField minimum maximum cs := by
  obtain ⟨hfield, hshort⟩ := h
  cases hfield with
  | any => exact .any
  | step ds digits positive =>
    have hds : ds.length ≤ PyStr.maxStrDigits := by
      simp only [List.length_cons] at hshort
      omega
    have hstep : CronField minimum maximum _ :=
      .step (IntLiteral.ofAscii ds digits hds) (by simpa using positive)
    rwa [IntLiteral.ofAscii_text] at hstep
  | value ds digits inRange =>
    have hvalue : CronField minimum maximum _ :=
      .value (IntLiteral.ofAscii cs digits hshort) (by simpa using inRange)
    rwa [IntLiteral.ofAscii_text] at hvalue

end Field

/-! ## The expression -/

section Expression

variable {s n : String}

theorem checkCronParts_error {parts : List (String × (Nat × Nat))} {e : Exc}
    (h : checkCronParts parts = .error e) : e.className = "BadRequestError" := by
  induction parts with
  | nil => cases h
  | cons p rest ih =>
    obtain ⟨part, minimum, maximum⟩ := p
    simp only [checkCronParts] at h
    split at h
    · exact ih h
    · rename_i hp
      cases h
      exact parseCronPart_error hp

theorem validateCronExpression_error {e : Exc} (h : validateCronExpression s = .error e) :
    e.className = "BadRequestError" := by
  unfold validateCronExpression at h
  dsimp only at h
  split at h
  · cases h
    rfl
  · split at h
    · cases h
    · rename_i hcheck
      cases h
      exact checkCronParts_error hcheck

/-- The parts of a split are words. -/
theorem isWord_of_mem_split {part : String} (h : part ∈ PyStr.split s) :
    PyStr.IsWord part.toList := by
  obtain ⟨w, hw, rfl⟩ := List.mem_map.mp h
  rw [String.toList_ofList]
  exact PyStr.isWord_of_mem_words hw

/-- **The grammar of expressions.** -/
theorem validateCronExpression_ok_iff :
    (∃ n, validateCronExpression s = .ok n) ↔ FiveFields CronField s := by
  constructor
  · intro h
    obtain ⟨n, hn⟩ := h
    obtain ⟨c, minute, hour, day, month, weekday, hsplit, hreads⟩ := exists_reads hn
    have hfield : ∀ {part minimum maximum values}, part ∈ PyStr.split s →
        parseCronPart part minimum maximum = .ok values → CronField minimum maximum part.toList :=
      fun hmem hp => (parseCronPart_ok_iff (isWord_of_mem_split hmem).2).mp ⟨_, hp⟩
    exact ⟨minute, hour, day, month, weekday, hsplit,
      hfield (by simp [hsplit]) hreads.minute, hfield (by simp [hsplit]) hreads.hour,
      hfield (by simp [hsplit]) hreads.day, hfield (by simp [hsplit]) hreads.month,
      hfield (by simp [hsplit]) hreads.weekday⟩
  · intro h
    obtain ⟨minute, hour, day, month, weekday, hsplit, hminute, hhour, hday, hmonth, hweekday⟩ := h
    have hparse : ∀ {part minimum maximum}, part ∈ PyStr.split s →
        CronField minimum maximum part.toList →
          ∃ values, parseCronPart part minimum maximum = .ok values :=
      fun hmem hp => (parseCronPart_ok_iff (isWord_of_mem_split hmem).2).mpr hp
    obtain ⟨_, h₁⟩ := hparse (by simp [hsplit]) hminute
    obtain ⟨_, h₂⟩ := hparse (by simp [hsplit]) hhour
    obtain ⟨_, h₃⟩ := hparse (by simp [hsplit]) hday
    obtain ⟨_, h₄⟩ := hparse (by simp [hsplit]) hmonth
    obtain ⟨_, h₅⟩ := hparse (by simp [hsplit]) hweekday
    have hcheck : checkCronParts ((PyStr.split s).zip cronRanges) = .ok () := by
      simp only [hsplit, cronRanges, List.zip_cons_cons, List.zip_nil_left, checkCronParts, h₁, h₂,
        h₃, h₄, h₅]
    have hlength : (PyStr.split s).length = 5 := by rw [hsplit]; rfl
    exact ⟨PyStr.joinSpace (PyStr.split s), by
      simp only [validateCronExpression, PyStr.split_strip, hcheck, hlength, ne_eq,
        not_true_eq_false, if_false]⟩

end Expression

/-- **What `validate_cron_expression` accepts**: five fields of the parser's grammar, which has the
    documented one in it; anything else raises `BadRequestError`. -/
theorem validateCronExpression_grammar (s : String) :
    ((∃ n, validateCronExpression s = .ok n) ↔ FiveFields CronField s) ∧
      ((∃ e, validateCronExpression s = .error e ∧ e.className = "BadRequestError") ↔
        ¬ FiveFields CronField s) ∧
      (FiveFields ShortField s → FiveFields CronField s) := by
  refine ⟨validateCronExpression_ok_iff, ?_, FiveFields.mono fun _ _ _ => ShortField.cronField⟩
  rw [← validateCronExpression_ok_iff]
  cases hv : validateCronExpression s with
  | ok n => simp
  | error e => simpa using validateCronExpression_error hv

/-- **The documented grammar is not the one accepted**: `int` reads a sign. -/
theorem cron_grammar_is_wider :
    ¬ ∀ s, ((∃ n, validateCronExpression s = .ok n) ↔ FiveFields DocumentedField s) := by
  intro h
  obtain ⟨minute, hour, day, month, weekday, hsplit, hminute, -⟩ :=
    (h "+5 * * * *").mp ⟨"+5 * * * *", rfl⟩
  have hparts : PyStr.split "+5 * * * *" = ["+5", "*", "*", "*", "*"] := rfl
  rw [hparts] at hsplit
  obtain ⟨rfl, -⟩ := List.cons.inj hsplit
  have hplus : ("+5" : String).toList = ['+', '5'] := rfl
  rw [hplus] at hminute
  cases hminute with
  | value ds digits inRange =>
    have := digits.2 '+' (by simp)
    exact absurd this (by decide)

/-! ## What is stored -/

/-- The five sets are not empty and lie in their ranges. -/
structure CronSchedule.InRanges (c : CronSchedule) : Prop where
  minute : c.minute ≠ [] ∧ ∀ v ∈ c.minute, v ≤ 59
  hour : c.hour ≠ [] ∧ ∀ v ∈ c.hour, v ≤ 23
  day : c.day ≠ [] ∧ ∀ v ∈ c.day, 1 ≤ v ∧ v ≤ 31
  month : c.month ≠ [] ∧ ∀ v ∈ c.month, 1 ≤ v ∧ v ≤ 12
  weekday : c.weekday ≠ [] ∧ ∀ v ∈ c.weekday, v ≤ 6

theorem CronSchedule.Reads.inRanges {c : CronSchedule} {s : String} (h : c.Reads s) :
    c.InRanges := by
  obtain ⟨_, _, _, _, _, -, hreads⟩ := h
  obtain ⟨hminute, hminutes⟩ := parseCronPart_spec (by omega) hreads.minute
  obtain ⟨hhour, hhours⟩ := parseCronPart_spec (by omega) hreads.hour
  obtain ⟨hweekday, hweekdays⟩ := parseCronPart_spec (by omega) hreads.weekday
  exact {
    minute := ⟨hminute, fun v hv => (hminutes v hv).2⟩
    hour := ⟨hhour, fun v hv => (hhours v hv).2⟩
    day := parseCronPart_spec (by omega) hreads.day
    month := parseCronPart_spec (by omega) hreads.month
    weekday := ⟨hweekday, fun v hv => (hweekdays v hv).2⟩ }

/-- The error of `next_cron_run` when its loop ends without a match. -/
def noRunError (cron : String) : Exc :=
  .service (badRequestError "Cron expression has no run in the next year" [("cron", .str cron)])

/-- `n` is the normal form of `s`: five words, single spaces, the same sets, and nothing about it
    is ever refused again. -/
structure NormalForm (s n : String) : Prop where
  fields : ∃ minute hour day month weekday : String,
    (∀ part ∈ [minute, hour, day, month, weekday], PyStr.IsWord part.toList) ∧
      n = minute ++ " " ++ hour ++ " " ++ day ++ " " ++ month ++ " " ++ weekday
  no_longer : n.length ≤ s.length
  accepted : validateCronExpression n = .ok n
  sets : ∃ c : CronSchedule, c.Reads s ∧ c.Reads n ∧ c.InRanges
  next_run : ∀ after, (∃ r, nextCronRun n after = .ok r) ∨
    nextCronRun n after = .error (noRunError n)

theorem joinSpace_five (a b c d e : String) :
    PyStr.joinSpace [a, b, c, d, e] = a ++ " " ++ b ++ " " ++ c ++ " " ++ d ++ " " ++ e := by
  apply String.toList_inj.mp
  simp [PyStr.joinSpace]

/-- **Validation returns a normal form.** -/
theorem normalForm_of_validateCronExpression {s n : String}
    (h : validateCronExpression s = .ok n) : NormalForm s n := by
  obtain ⟨hn, -, -⟩ := validateCronExpression_ok h
  have hvalid := validateCronExpression_idem h
  obtain ⟨c, hc⟩ := exists_reads h
  refine ⟨?_, (validateCronExpression_text h).1, hvalid,
    ⟨c, hc, reads_normalised h hc, hc.inRanges⟩, fun after => ?_⟩
  · obtain ⟨minute, hour, day, month, weekday, hsplit, -⟩ := hc
    refine ⟨minute, hour, day, month, weekday, fun part hpart => ?_, ?_⟩
    · exact isWord_of_mem_split (s := s) (by rw [hsplit]; exact hpart)
    · rw [hn, hsplit, joinSpace_five]
  · by_cases hrun : CronHasRun n after
    · exact Or.inl (nextCronRun_ok_of_hasRun hvalid hrun)
    · exact Or.inr (nextCronRun_error_of_not_hasRun hvalid hrun)

end JobPipeline
