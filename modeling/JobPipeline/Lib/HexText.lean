import Mathlib.Data.List.Induction
import Mathlib.Tactic.IntervalCases
import JobPipeline.Lib.PyStr

/-!
# Python's `int` to the base 16

`str.replace` with nothing, `str.strip` of given characters, and `int(s, 16)`, which reads a sign,
a prefix `0x`, single underscores between digits, and the decimal digits of every script. A text
of lower-case hexadecimal digits is written by its number, `hexText`, and read back as it.
-/

set_option autoImplicit false

namespace PyStr

/-- `s.replace(pattern, "")`, with `skip` characters of an occurrence still to be left out. -/
def removeFrom (pattern : List Char) : Nat → List Char → List Char
  | _, [] => []
  | skip + 1, _ :: cs => removeFrom pattern skip cs
  | 0, c :: cs =>
    if pattern.isPrefixOf (c :: cs) then removeFrom pattern (pattern.length - 1) cs
    else c :: removeFrom pattern 0 cs

/-- `s.replace(pattern, "")`. -/
def removeAll (pattern s : List Char) : List Char := removeFrom pattern 0 s

/-- `s.strip(chars)`. -/
def stripOf (chars s : List Char) : List Char := stripBy chars.contains s

/-- The value of a digit to the base 16. -/
def hexDecimal (c : Char) : Option Nat :=
  match decimal c with
  | some d => some d
  | none =>
    if 'a' ≤ c ∧ c ≤ 'f' then some (c.toNat - 87)
    else if 'A' ≤ c ∧ c ≤ 'F' then some (c.toNat - 55)
    else none

/-- The digits of a literal, as `digits` reads those to the base 10. -/
def hexDigits (afterDigit : Bool) : List Char → Option (List Nat)
  | [] => if afterDigit then some [] else none
  | c :: cs =>
    if c = '_' then (if afterDigit then hexDigits false cs else none)
    else match hexDecimal c with
      | some d => (hexDigits true cs).map (d :: ·)
      | none => none

/-- A literal after its prefix `0x`, which one underscore may follow; without the prefix the text
    itself. -/
def dropHexPrefix : List Char → List Char
  | c :: x :: cs =>
    if decimal c = some 0 ∧ (x = 'x' ∨ x = 'X') then
      match cs with
      | '_' :: rest => rest
      | _ => cs
    else c :: x :: cs
  | cs => cs

/-- The number that digits to the base 16 denote. -/
def hexNumber (ds : List Nat) : Nat := ds.foldl (fun n d => 16 * n + d) 0

/-- The value of an unsigned literal. Literals to the base 16 may be of any length. -/
def hexLiteral (cs : List Char) : Option Nat := (hexDigits false (dropHexPrefix cs)).map hexNumber

/-- `int(s, 16)`; `none` is `ValueError`. -/
def int16 (s : List Char) : Option Int :=
  match stripBy isIntSpace s with
  | '-' :: cs => (hexLiteral cs).map fun n => -(n : Int)
  | '+' :: cs => (hexLiteral cs).map fun n => (n : Int)
  | cs => (hexLiteral cs).map fun n => (n : Int)

/-- A lower-case digit to the base 16. -/
def hexChar (d : Nat) : Char := if d < 10 then Char.ofNat (48 + d) else Char.ofNat (87 + d)

/-- `"%0wx" % n`, for a number of at most `w` digits. -/
def hexText : Nat → Nat → List Char
  | 0, _ => []
  | w + 1, n => hexText w (n / 16) ++ [hexChar (n % 16)]

/-! ## Leaving characters out -/

/-- A pattern whose first character a text does not have does not occur in it. -/
theorem removeAll_of_not_mem {p : Char} {pattern s : List Char} (h : p ∉ s) :
    removeAll (p :: pattern) s = s := by
  unfold removeAll
  induction s with
  | nil => rfl
  | cons c cs ih =>
    obtain ⟨hne, hmem⟩ := not_or.mp (List.mem_cons.not.mp h)
    have hprefix : (p :: pattern).isPrefixOf (c :: cs) = false := by
      simp [List.isPrefixOf, hne]
    simp only [removeFrom, hprefix, Bool.false_eq_true, if_false, ih hmem]

theorem removeAll_singleton (p : Char) (s : List Char) : removeAll [p] s = s.filter (· != p) := by
  unfold removeAll
  induction s with
  | nil => rfl
  | cons c cs ih =>
    by_cases hc : c = p
    · subst hc
      simpa [removeFrom, List.isPrefixOf] using ih
    · have hc' : p ≠ c := fun h => hc h.symm
      simpa [removeFrom, List.isPrefixOf, hc, hc'] using ih

/-! ## Digits -/

theorem hexDecimal_hexChar {d : Nat} (h : d < 16) : hexDecimal (hexChar d) = some d := by
  interval_cases d <;> rfl

/-- What a digit is not. -/
theorem hexChar_ne {d : Nat} (h : d < 16) : hexChar d ≠ '_' ∧ hexChar d ≠ '-' ∧ hexChar d ≠ '+' ∧
    hexChar d ≠ 'x' ∧ hexChar d ≠ 'X' ∧ isIntSpace (hexChar d) = false := by
  interval_cases d <;> decide

theorem length_hexText (w n : Nat) : (hexText w n).length = w := by
  induction w generalizing n with
  | zero => rfl
  | succ w ih => simp [hexText, ih]

theorem mem_hexText {w n : Nat} {c : Char} (h : c ∈ hexText w n) : ∃ d < 16, c = hexChar d := by
  induction w generalizing n with
  | zero => cases h
  | succ w ih =>
    rw [hexText, List.mem_append, List.mem_singleton] at h
    rcases h with h | h
    · exact ih h
    · exact ⟨n % 16, Nat.mod_lt _ (by decide), h⟩

theorem hexNumber_append (ds : List Nat) (d : Nat) :
    hexNumber (ds ++ [d]) = 16 * hexNumber ds + d := by
  simp [hexNumber]

/-- **A text of digits is the text of its number.** -/
theorem hexText_hexNumber {ds : List Nat} (h : ∀ d ∈ ds, d < 16) :
    hexText ds.length (hexNumber ds) = ds.map hexChar := by
  induction ds using List.reverseRecOn with
  | nil => rfl
  | append_singleton ds d ih =>
    have hd : d < 16 := h d (by simp)
    have hdiv : (16 * hexNumber ds + d) / 16 = hexNumber ds := by omega
    have hmod : (16 * hexNumber ds + d) % 16 = d := by omega
    rw [List.length_append, List.length_singleton, hexText, hexNumber_append, hdiv, hmod,
      ih fun d hd => h d (List.mem_append_left _ hd), List.map_append, List.map_singleton]

theorem hexNumber_lt {ds : List Nat} (h : ∀ d ∈ ds, d < 16) : hexNumber ds < 16 ^ ds.length := by
  induction ds using List.reverseRecOn with
  | nil => exact Nat.one_pos
  | append_singleton ds d ih =>
    have hd : d < 16 := h d (by simp)
    have hds := ih fun d hd => h d (List.mem_append_left _ hd)
    rw [hexNumber_append, List.length_append, List.length_singleton, Nat.pow_succ]
    omega

theorem hexDigits_map {ds : List Nat} (h : ∀ d ∈ ds, d < 16) {afterDigit : Bool}
    (hne : afterDigit = false → ds ≠ []) : hexDigits afterDigit (ds.map hexChar) = some ds := by
  induction ds generalizing afterDigit with
  | nil =>
    cases afterDigit with
    | true => rfl
    | false => exact absurd rfl (hne rfl)
  | cons d ds ih =>
    have hd := h d List.mem_cons_self
    have hrest : hexDigits true (ds.map hexChar) = some ds :=
      ih (fun d hd => h d (List.mem_cons_of_mem _ hd)) (by simp)
    rw [List.map_cons, hexDigits, if_neg (hexChar_ne hd).1, hexDecimal_hexChar hd]
    simp only [hrest, Option.map_some]

theorem dropHexPrefix_map {ds : List Nat} (h : ∀ d ∈ ds, d < 16) :
    dropHexPrefix (ds.map hexChar) = ds.map hexChar := by
  match ds with
  | [] => rfl
  | [_] => rfl
  | _ :: x :: _ =>
    obtain ⟨-, -, -, hx, hX, -⟩ := hexChar_ne (h x (by simp))
    simp [dropHexPrefix, hx, hX]

/-- **`int` reads a text of digits as its number.** -/
theorem int16_map {ds : List Nat} (h : ∀ d ∈ ds, d < 16) (hne : ds ≠ []) :
    int16 (ds.map hexChar) = some (hexNumber ds : Int) := by
  have hliteral : hexLiteral (ds.map hexChar) = some (hexNumber ds) := by
    rw [hexLiteral, dropHexPrefix_map h, hexDigits_map h fun _ => hne, Option.map_some]
  have hspace : ∀ c ∈ ds.map hexChar, isIntSpace c = false := by
    intro c hc
    obtain ⟨d, hd, rfl⟩ := List.mem_map.mp hc
    exact (hexChar_ne (h d hd)).2.2.2.2.2
  unfold int16
  rw [stripBy_eq_self hspace]
  cases ds with
  | nil => exact absurd rfl hne
  | cons d ds =>
    obtain ⟨-, hminus, hplus, -⟩ := hexChar_ne (h d List.mem_cons_self)
    rw [List.map_cons] at hliteral ⊢
    split
    · rename_i heq
      exact absurd (List.cons.inj heq).1 hminus
    · rename_i heq
      exact absurd (List.cons.inj heq).1 hplus
    · rw [hliteral]
      rfl

end PyStr
