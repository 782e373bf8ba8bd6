import Mathlib.Data.List.Basic
import JobPipeline.Lib.PyStr

/-!
# The integers that `int` reads

`PyStr.int` is a scanner; what it accepts is a grammar:

```
literal ::= ["+" | "-"] run ("_" run)*        run ::= digit+
```

where a digit is a decimal digit of any script, and a literal has at most `maxStrDigits` of
them. An `IntLiteral` is a text of that grammar with its derivation, and `int_eq_some_iff` says
that a text without whitespace is read as `v` exactly when it is a literal of value `v`.
-/

set_option autoImplicit false

namespace PyStr

/-- A run of decimal digits. -/
def IsRun (run : List Char) : Prop := run ≠ [] ∧ ∀ c ∈ run, (decimal c).isSome = true

/-- The value of a character as a digit. -/
def digitValue (c : Char) : Nat := (decimal c).getD 0

/-- The number that digits denote. -/
def number (ds : List Char) : Nat := ds.foldl (fun n c => 10 * n + digitValue c) 0

inductive Sign where
  | plain
  | plus
  | minus
deriving DecidableEq, Repr

namespace Sign

def text : Sign → List Char
  | plain => []
  | plus => ['+']
  | minus => ['-']

def apply : Sign → Nat → Int
  | minus, n => -(n : Int)
  | _, n => n

end Sign

structure IntLiteral where
  sign : Sign
  first : List Char
  more : List (List Char)
  first_run : IsRun first
  more_runs : ∀ run ∈ more, IsRun run
  short : (first ++ more.flatten).length ≤ maxStrDigits

namespace IntLiteral

/-- The literal without its sign. -/
def unsigned (l : IntLiteral) : List Char := l.first ++ l.more.flatMap ('_' :: ·)

def text (l : IntLiteral) : List Char := l.sign.text ++ l.unsigned

def value (l : IntLiteral) : Int := l.sign.apply (number (l.first ++ l.more.flatten))

end IntLiteral

/-! ## The scanner -/

theorem decimal_underscore : decimal '_' = none := by decide

/-- Digits and underscores can be told apart by the first character. -/
theorem eq_nil_of_not_digit {c : Char} {cs first rest : List Char}
    (hdigits : ∀ x ∈ first, (decimal x).isSome = true) (hc : decimal c = none)
    (h : c :: cs = first ++ rest) : first = [] := by
  cases first with
  | nil => rfl
  | cons d ds =>
    rw [List.cons_append, List.cons.injEq] at h
    have hd := hdigits d List.mem_cons_self
    rw [← h.1, hc] at hd
    cases hd

/-- **What the scanner accepts.** After a digit the first run may be empty. -/
theorem digits_eq_some_iff {afterDigit : Bool} {cs : List Char} {ds : List Nat} :
    digits afterDigit cs = some ds ↔
      ∃ (first : List Char) (more : List (List Char)), (afterDigit = false → first ≠ []) ∧
        (∀ c ∈ first, (decimal c).isSome = true) ∧ (∀ run ∈ more, IsRun run) ∧
        cs = first ++ more.flatMap ('_' :: ·) ∧ ds = (first ++ more.flatten).map digitValue := by
  induction cs generalizing afterDigit ds with
  | nil =>
    constructor
    · intro h
      cases afterDigit with
      | false => cases h
      | true =>
        cases h
        exact ⟨[], [], by simp⟩
    · intro h
      obtain ⟨first, more, hfirst, -, -, hcs, hds⟩ := h
      obtain ⟨rfl, hmore⟩ := List.append_eq_nil_iff.mp hcs.symm
      have hmore : more = [] := by
        cases more with
        | nil => rfl
        | cons run rest => simp at hmore
      subst hmore
      cases afterDigit with
      | false => exact absurd rfl (hfirst rfl)
      | true => rw [hds]; rfl
  | cons c cs ih =>
    by_cases hc : c = '_'
    · -- An underscore: it ends the run that stands before it.
      subst hc
      simp only [digits, if_true]
      constructor
      · intro h
        split at h
        · rename_i hafter
          obtain ⟨run, more, hne, hrun, hmore, hcs, hds⟩ := ih.mp h
          refine ⟨[], run :: more, by simp [hafter], by simp, ?_, by simp [hcs], by simp [hds]⟩
          intro x hx
          rcases List.mem_cons.mp hx with rfl | hx
          · exact ⟨hne rfl, hrun⟩
          · exact hmore x hx
        · cases h
      · intro h
        obtain ⟨first, more, hne, hfirst, hmore, hcs, hds⟩ := h
        obtain rfl := eq_nil_of_not_digit hfirst decimal_underscore hcs
        cases more with
        | nil => cases hcs
        | cons run more =>
          have hafter : afterDigit = true := by
            cases afterDigit with
            | false => exact absurd rfl (hne rfl)
            | true => rfl
          rw [if_pos hafter]
          have hrun := hmore run List.mem_cons_self
          have hcs : cs = run ++ more.flatMap ('_' :: ·) := by simpa using hcs
          exact ih.mpr ⟨run, more, fun _ => hrun.1, hrun.2,
            fun x hx => hmore x (List.mem_cons_of_mem _ hx), hcs, by simpa using hds⟩
    · simp only [digits, if_neg hc]
      cases hd : decimal c with
      | none =>
        constructor
        · intro h
          cases h
        · intro h
          obtain ⟨first, more, -, hfirst, -, hcs, -⟩ := h
          obtain rfl := eq_nil_of_not_digit hfirst hd hcs
          cases more with
          | nil => cases hcs
          | cons run more => exact absurd (by simpa using congrArg List.head? hcs) hc
      | some d =>
        have hvalue : digitValue c = d := by simp [digitValue, hd]
        simp only [Option.map_eq_some_iff]
        constructor
        · intro h
          obtain ⟨rest, hrest, rfl⟩ := h
          obtain ⟨first, more, -, hfirst, hmore, hcs, hds⟩ := ih.mp hrest
          refine ⟨c :: first, more, by simp, ?_, hmore, by simp [hcs], by simp [hds, hvalue]⟩
          intro x hx
          rcases List.mem_cons.mp hx with rfl | hx
          · simp [hd]
          · exact hfirst x hx
        · intro h
          obtain ⟨first, more, -, hfirst, hmore, hcs, hds⟩ := h
          cases first with
          | nil =>
            cases more with
            | nil => cases hcs
            | cons run more => exact absurd (by simpa using congrArg List.head? hcs) hc
          | cons x first =>
            obtain ⟨rfl, htail⟩ := List.cons.inj hcs
            refine ⟨(first ++ more.flatten).map digitValue, ih.mpr ⟨first, more, by simp,
              fun y hy => hfirst y (List.mem_cons_of_mem _ hy), hmore, htail, rfl⟩, ?_⟩
            rw [hds, ← hvalue]
            rfl

/-- An unsigned literal is read as the number of its digits. -/
theorem natLiteral_eq_some_iff {cs : List Char} {n : Nat} :
    natLiteral cs = some n ↔
      ∃ (first : List Char) (more : List (List Char)), IsRun first ∧ (∀ run ∈ more, IsRun run) ∧
        cs = first ++ more.flatMap ('_' :: ·) ∧ (first ++ more.flatten).length ≤ maxStrDigits ∧
        n = number (first ++ more.flatten) := by
  have hnumber : ∀ x : List Char,
      (x.map digitValue).foldl (fun n d => 10 * n + d) 0 = number x := by
    intro x
    rw [List.foldl_map]
    rfl
  constructor
  · intro h
    unfold natLiteral at h
    split at h
    · rename_i ds hds
      obtain ⟨first, more, hne, hfirst, hmore, hcs, rfl⟩ := digits_eq_some_iff.mp hds
      split at h
      · rename_i hshort
        rw [List.length_map] at hshort
        rw [Option.some.injEq, hnumber] at h
        exact ⟨first, more, ⟨hne rfl, hfirst⟩, hmore, hcs, hshort, h.symm⟩
      · cases h
    · cases h
  · intro h
    obtain ⟨first, more, hfirst, hmore, hcs, hshort, rfl⟩ := h
    have hds : digits false cs = some ((first ++ more.flatten).map digitValue) :=
      digits_eq_some_iff.mpr ⟨first, more, fun _ => hfirst.1, hfirst.2, hmore, hcs, rfl⟩
    simp only [natLiteral, hds, List.length_map, if_pos hshort, hnumber]

/-! ## The sign -/

/-- A literal without its sign starts with a digit. -/
theorem IntLiteral.exists_unsigned (l : IntLiteral) :
    ∃ c cs, l.unsigned = c :: cs ∧ c ≠ '+' ∧ c ≠ '-' := by
  obtain ⟨c, first, hfirst⟩ := List.exists_cons_of_ne_nil l.first_run.1
  have hc : (decimal c).isSome = true := l.first_run.2 c (by rw [hfirst]; exact List.mem_cons_self)
  refine ⟨c, first ++ l.more.flatMap ('_' :: ·), by rw [unsigned, hfirst]; rfl, ?_, ?_⟩
  · rintro rfl
    exact absurd hc (by decide)
  · rintro rfl
    exact absurd hc (by decide)

theorem natLiteral_unsigned (l : IntLiteral) :
    natLiteral l.unsigned = some (number (l.first ++ l.more.flatten)) :=
  natLiteral_eq_some_iff.mpr ⟨l.first, l.more, l.first_run, l.more_runs, rfl, l.short, rfl⟩

/-- **`int` reads the literals**, when there is no whitespace to strip. -/
theorem int_eq_some_iff {cs : List Char} (hspace : ∀ c ∈ cs, isSpace c = false) {v : Int} :
    int cs = some v ↔ ∃ l : IntLiteral, l.text = cs ∧ l.value = v := by
  unfold int
  rw [stripBy_eq_self fun c hc => by simp [isIntSpace, hspace c hc]]
  constructor
  · intro h
    -- The sign that was matched, and the literal that was read after it.
    obtain ⟨sign, rest, n, hcs, hn, hv⟩ : ∃ (sign : Sign) (rest : List Char) (n : Nat),
        cs = sign.text ++ rest ∧ natLiteral rest = some n ∧ v = sign.apply n := by
      split at h <;> simp only [Option.map_eq_some_iff, Option.bind_eq_bind,
        Option.bind_eq_some_iff, Option.pure_def, Option.some.injEq] at h
      · obtain ⟨_, ⟨n, hn, rfl⟩, rfl⟩ := h
        exact ⟨.minus, _, n, rfl, hn, rfl⟩
      · obtain ⟨_, ⟨n, hn, rfl⟩, rfl⟩ := h
        exact ⟨.plus, _, n, rfl, hn, rfl⟩
      · obtain ⟨_, ⟨n, hn, rfl⟩, rfl⟩ := h
        exact ⟨.plain, cs, n, rfl, hn, rfl⟩
    obtain ⟨first, more, hfirst, hmore, rfl, hshort, rfl⟩ := natLiteral_eq_some_iff.mp hn
    exact ⟨⟨sign, first, more, hfirst, hmore, hshort⟩, hcs.symm, hv.symm⟩
  · intro h
    obtain ⟨l, rfl, rfl⟩ := h
    have hliteral := natLiteral_unsigned l
    have hvalue : l.value = l.sign.apply (number (l.first ++ l.more.flatten)) := rfl
    rw [hvalue]
    unfold IntLiteral.text
    cases l.sign with
    | minus => simp only [Sign.text, List.singleton_append, hliteral]; rfl
    | plus => simp only [Sign.text, List.singleton_append, hliteral]; rfl
    | plain =>
      obtain ⟨c, rest, hc, hplus, hminus⟩ := l.exists_unsigned
      rw [Sign.text, List.nil_append]
      rw [hc] at hliteral ⊢
      split
      · rename_i heq
        exact absurd (List.cons.inj heq).1 hminus
      · rename_i heq
        exact absurd (List.cons.inj heq).1 hplus
      · rw [hliteral]
        rfl

/-! ## ASCII digits -/

/-- One or more of the characters `0` to `9`. -/
def IsAsciiDigits (ds : List Char) : Prop := ds ≠ [] ∧ ∀ c ∈ ds, '0' ≤ c ∧ c ≤ '9'

/-- The number that ASCII digits denote. -/
def asciiNumber (ds : List Char) : Nat := ds.foldl (fun n c => 10 * n + (c.toNat - 48)) 0

theorem decimal_ascii {c : Char} (h : '0' ≤ c ∧ c ≤ '9') : decimal c = some (c.toNat - 48) := by
  have hle : 48 ≤ c.toNat := h.1
  have hlt : c.toNat < 48 + 10 := Nat.lt_succ_of_le h.2
  have hfind : digitZeros.find? (fun z => z ≤ c.toNat && c.toNat < z + 10) = some 48 := by
    unfold digitZeros
    rw [List.find?_cons_of_pos]
    simp only [Bool.and_eq_true, decide_eq_true_eq]
    exact ⟨hle, hlt⟩
  rw [decimal, hfind]
  rfl

theorem number_ascii {ds : List Char} (h : ∀ c ∈ ds, '0' ≤ c ∧ c ≤ '9') :
    number ds = asciiNumber ds := by
  unfold number asciiNumber
  refine List.foldl_ext _ _ _ fun n c hc => ?_
  rw [digitValue, decimal_ascii (h c hc), Option.getD_some]

/-- ASCII digits are a literal. -/
def IntLiteral.ofAscii (ds : List Char) (h : IsAsciiDigits ds) (short : ds.length ≤ maxStrDigits) :
    IntLiteral where
  sign := .plain
  first := ds
  more := []
  first_run := ⟨h.1, fun c hc => by rw [decimal_ascii (h.2 c hc)]; rfl⟩
  more_runs := by simp
  short := by simpa using short

@[simp] theorem IntLiteral.ofAscii_text {ds : List Char} (h : IsAsciiDigits ds)
    (short : ds.length ≤ maxStrDigits) : (ofAscii ds h short).text = ds := by
  simp [ofAscii, text, unsigned, Sign.text]

@[simp] theorem IntLiteral.ofAscii_value {ds : List Char} (h : IsAsciiDigits ds)
    (short : ds.length ≤ maxStrDigits) : (ofAscii ds h short).value = asciiNumber ds := by
  simp [ofAscii, value, Sign.apply, number_ascii h.2]

end PyStr
