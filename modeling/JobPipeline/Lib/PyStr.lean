import Mathlib.Algebra.GroupWithZero.Nat
import Mathlib.Data.List.TakeWhile

/-!
# Python's `str.split`, `str.strip` and `int`

The three text functions whose accepted inputs are wider than they look: `str.split()` breaks
at every character `str.isspace` accepts, and `int` reads a sign, single underscores between
digits, and the decimal digits of every script. The tables below are those of the Unicode
database of Python 3.12 (Unicode 15.0).
-/

set_option autoImplicit false

namespace PyStr

/-- `c.isspace()`. -/
def isSpace (c : Char) : Bool :=
  let n := c.toNat
  (9 ≤ n && n ≤ 13) || (28 ≤ n && n ≤ 32) || n == 0x85 || n == 0xa0 || n == 0x1680 ||
    (0x2000 ≤ n && n ≤ 0x200a) || n == 0x2028 || n == 0x2029 || n == 0x202f || n == 0x205f ||
    n == 0x3000

/-- The whitespace that `int` ignores around a literal: the separators 28 to 31 are not. -/
def isIntSpace (c : Char) : Bool := isSpace c && !(28 ≤ c.toNat && c.toNat ≤ 31)

/-- What is left when `space` is taken off both ends. -/
def stripBy (space : Char → Bool) (s : List Char) : List Char :=
  ((s.dropWhile space).reverse.dropWhile space).reverse

/-- `s.strip()`, on the characters of `s`. -/
def stripChars (s : List Char) : List Char := stripBy isSpace s

/-- `s.strip()`. -/
def strip (s : String) : String := String.ofList (stripChars s.toList)

/-- The words of a text: what stands between runs of whitespace. -/
def words (s : List Char) : List (List Char) :=
  (s.splitOnP isSpace).filter fun w => !w.isEmpty

/-- `s.split()`. -/
def split (s : String) : List String := (words s.toList).map String.ofList

/-- `" ".join(parts)`. -/
def joinSpace (parts : List String) : String :=
  String.ofList ([' '].intercalate (parts.map String.toList))

/-- The zero of every run of ten decimal digits (general category `Nd`). -/
def digitZeros : List Nat :=
  [0x30, 0x660, 0x6f0, 0x7c0, 0x966, 0x9e6, 0xa66, 0xae6, 0xb66, 0xbe6, 0xc66, 0xce6, 0xd66,
   0xde6, 0xe50, 0xed0, 0xf20, 0x1040, 0x1090, 0x17e0, 0x1810, 0x1946, 0x19d0, 0x1a80, 0x1a90,
   0x1b50, 0x1bb0, 0x1c40, 0x1c50, 0xa620, 0xa8d0, 0xa900, 0xa9d0, 0xa9f0, 0xaa50, 0xabf0,
   0xff10, 0x104a0, 0x10d30, 0x11066, 0x110f0, 0x11136, 0x111d0, 0x112f0, 0x11450, 0x114d0,
   0x11650, 0x116c0, 0x11730, 0x118e0, 0x11950, 0x11c50, 0x11d50, 0x11da0, 0x11f50, 0x16a60,
   0x16ac0, 0x16b50, 0x1d7ce, 0x1d7d8, 0x1d7e2, 0x1d7ec, 0x1d7f6, 0x1e140, 0x1e2f0, 0x1e4f0,
   0x1e950, 0x1fbf0]

/-- The value of a decimal digit. -/
def decimal (c : Char) : Option Nat :=
  (digitZeros.find? fun z => z ≤ c.toNat && c.toNat < z + 10).map fun z => c.toNat - z

/-- The digits of a literal. `afterDigit` records whether the character before was a digit: an
    underscore may only follow one, and the literal may only end after one. -/
def digits (afterDigit : Bool) : List Char → Option (List Nat)
  | [] => if afterDigit then some [] else none
  | c :: cs =>
    if c = '_' then (if afterDigit then digits false cs else none)
    else match decimal c with
      | some d => (digits true cs).map (d :: ·)
      | none => none

/-- `sys.get_int_max_str_digits()`: longer literals raise `ValueError`. -/
def maxStrDigits : Nat := 4300

/-- The value of an unsigned literal. -/
def natLiteral (cs : List Char) : Option Nat :=
  match digits false cs with
  | some ds => if ds.length ≤ maxStrDigits then some (ds.foldl (fun n d => 10 * n + d) 0) else none
  | none => none

/-- `int(s)`; `none` is `ValueError`. -/
def int (s : List Char) : Option Int :=
  match stripBy isIntSpace s with
  | '-' :: cs => (natLiteral cs).map fun n => -(n : Int)
  | '+' :: cs => (natLiteral cs).map fun n => (n : Int)
  | cs => (natLiteral cs).map fun n => (n : Int)

/-! ## Splitting and joining -/

/-- A word: not empty, and free of whitespace. -/
def IsWord (w : List Char) : Prop := w ≠ [] ∧ ∀ c ∈ w, isSpace c = false

/-- No piece of a split contains a separator. -/
theorem not_space_of_mem_splitOnP : ∀ {t w : List Char}, w ∈ t.splitOnP isSpace →
    ∀ c ∈ w, isSpace c = false
  | [], w, hw => by
    rw [List.splitOnP_nil, List.mem_singleton] at hw
    subst hw
    simp
  | x :: xs, w, hw => by
    rw [List.splitOnP_cons_eq_if_modifyHead] at hw
    split at hw
    · rcases List.mem_cons.mp hw with rfl | hw
      · simp
      · exact not_space_of_mem_splitOnP hw
    · rename_i hx
      obtain ⟨r, rs, hr⟩ := List.exists_cons_of_ne_nil (List.splitOnP_ne_nil isSpace xs)
      rw [hr, List.modifyHead_cons] at hw
      rcases List.mem_cons.mp hw with rfl | hw
      · intro c hc
        rcases List.mem_cons.mp hc with rfl | hc
        · simpa using hx
        · exact not_space_of_mem_splitOnP (hr ▸ List.mem_cons_self) c hc
      · exact not_space_of_mem_splitOnP (hr ▸ List.mem_cons_of_mem _ hw)

theorem isWord_of_mem_words {t w : List Char} (h : w ∈ words t) : IsWord w := by
  obtain ⟨hmem, hne⟩ := List.mem_filter.mp h
  exact ⟨by simpa using hne, not_space_of_mem_splitOnP hmem⟩

/-- A word is its own only word. -/
theorem words_of_isWord {w : List Char} (h : IsWord w) : words w = [w] := by
  unfold words
  rw [List.splitOnP_eq_singleton h.2]
  simp [h.1]

/-- The words around a separator are the words on its two sides. -/
theorem words_append_space {c : Char} (hc : isSpace c = true) (x y : List Char) :
    words (x ++ c :: y) = words x ++ words y := by
  unfold words
  rw [List.splitOnP_append_cons x y hc, List.filter_append]

theorem words_nil : words [] = [] := by simp [words, List.splitOnP_nil]

/-- Whitespace at the front of a text belongs to no word. -/
theorem words_dropWhile : ∀ s : List Char, words (s.dropWhile isSpace) = words s
  | [] => rfl
  | c :: cs => by
    by_cases hc : isSpace c = true
    · have hw : words (c :: cs) = words cs := by
        simpa [words_nil] using words_append_space hc [] cs
      rw [List.dropWhile_cons_of_pos hc, words_dropWhile cs, hw]
    · rw [List.dropWhile_cons_of_neg hc]

/-- … nor does whitespace at its end. -/
theorem words_append_spaces (x : List Char) : ∀ sp : List Char,
    (∀ c ∈ sp, isSpace c = true) → words (x ++ sp) = words x
  | [], _ => by rw [List.append_nil]
  | c :: cs, h => by
    have hcs := words_append_spaces [] cs fun d hd => h d (List.mem_cons_of_mem _ hd)
    rw [words_append_space (h c (by simp)), ← List.nil_append cs, hcs, words_nil, List.append_nil]

theorem words_stripChars (s : List Char) : words (stripChars s) = words s := by
  have hsplit : s.dropWhile isSpace =
      stripChars s ++ ((s.dropWhile isSpace).reverse.takeWhile isSpace).reverse := by
    rw [stripChars, stripBy, ← List.reverse_append, List.takeWhile_append_dropWhile,
      List.reverse_reverse]
  calc words (stripChars s)
      = words (stripChars s ++ ((s.dropWhile isSpace).reverse.takeWhile isSpace).reverse) :=
        (words_append_spaces _ _ fun c hc => by
          rw [List.mem_reverse] at hc
          exact List.mem_takeWhile_imp hc).symm
    _ = words (s.dropWhile isSpace) := by rw [← hsplit]
    _ = words s := words_dropWhile s

/-- `s.strip().split() == s.split()`. -/
theorem split_strip (s : String) : split (strip s) = split s := by
  rw [split, strip, String.toList_ofList, words_stripChars, split]

/-- **Joining words with a space and splitting again gives the words back.** -/
theorem words_intercalate : ∀ ws : List (List Char), (∀ w ∈ ws, IsWord w) →
    words ([' '].intercalate ws) = ws
  | [], _ => by simp [words, List.splitOnP_nil]
  | [w], h => by simpa using words_of_isWord (h w (by simp))
  | w :: w' :: rest, h => by
    have ih := words_intercalate (w' :: rest) fun x hx => h x (List.mem_cons_of_mem _ hx)
    rw [List.intercalate_cons_cons, List.append_assoc, List.singleton_append,
      words_append_space (by decide), words_of_isWord (h w (by simp)), ih]
    rfl

/-- `" ".join(s.split()).split() == s.split()`. -/
theorem split_joinSpace_split (s : String) : split (joinSpace (split s)) = split s := by
  have hchars : (split s).map String.toList = words s.toList := by simp [split]
  show (words (joinSpace (split s)).toList).map String.ofList = split s
  rw [joinSpace, hchars, String.toList_ofList,
    words_intercalate _ fun w hw => isWord_of_mem_words hw]
  rfl

/-! ## Lengths -/

/-- The characters of some words, each with one separator. -/
def spacedLength (ws : List (List Char)) : Nat := (ws.map fun w => w.length + 1).sum

theorem spacedLength_splitOnP : ∀ t : List Char, spacedLength (t.splitOnP isSpace) = t.length + 1
  | [] => rfl
  | x :: xs => by
    have ih := spacedLength_splitOnP xs
    rw [List.splitOnP_cons_eq_if_modifyHead]
    split
    · simp only [spacedLength, List.map_cons, List.sum_cons, List.length_nil] at ih ⊢
      rw [ih, List.length_cons]
      omega
    · obtain ⟨w, ws, hw⟩ := List.exists_cons_of_ne_nil (List.splitOnP_ne_nil isSpace xs)
      rw [hw] at ih ⊢
      simp only [spacedLength, List.modifyHead_cons, List.map_cons, List.sum_cons,
        List.length_cons] at ih ⊢
      omega

theorem spacedLength_filter_le (p : List Char → Bool) : ∀ ws : List (List Char),
    spacedLength (ws.filter p) ≤ spacedLength ws
  | [] => by simp
  | w :: rest => by
    have ih := spacedLength_filter_le p rest
    cases hw : p w <;> simp [spacedLength, hw] at ih ⊢ <;> omega

theorem length_intercalate_le : ∀ ws : List (List Char),
    ([' '].intercalate ws).length ≤ spacedLength ws - 1
  | [] => by simp
  | [w] => by simp [spacedLength]
  | w :: w' :: rest => by
    have ih := length_intercalate_le (w' :: rest)
    rw [List.intercalate_cons_cons]
    simp only [spacedLength, List.map_cons, List.sum_cons, List.length_append, List.length_cons,
      List.length_nil] at ih ⊢
    omega

theorem length_words_le (t : List Char) : ([' '].intercalate (words t)).length ≤ t.length := by
  have hfilter : spacedLength (words t) ≤ spacedLength (t.splitOnP isSpace) :=
    spacedLength_filter_le _ _
  have hle := length_intercalate_le (words t)
  rw [spacedLength_splitOnP] at hfilter
  omega

/-- `len(" ".join(s.split())) <= len(s)`. -/
theorem length_joinSpace_split_le (s : String) : (joinSpace (split s)).length ≤ s.length := by
  have hchars : (split s).map String.toList = words s.toList := by simp [split]
  rw [joinSpace, hchars, String.length_ofList, ← String.length_toList]
  exact length_words_le s.toList

/-- `len(s.strip()) <= len(s)`. -/
theorem length_strip_le (s : String) : (strip s).length ≤ s.length := by
  have hfront := List.length_dropWhile_le isSpace s.toList
  have hback := List.length_dropWhile_le isSpace (s.toList.dropWhile isSpace).reverse
  rw [List.length_reverse] at hback
  rw [strip, String.length_ofList, stripChars, stripBy, List.length_reverse, ← String.length_toList]
  exact hback.trans hfront

/-! ## The characters of a literal -/

theorem digits_mem {afterDigit : Bool} {cs : List Char} {ds : List Nat}
    (h : digits afterDigit cs = some ds) {c : Char} (hc : c ∈ cs) :
    c = '_' ∨ (decimal c).isSome := by
  induction cs generalizing afterDigit ds with
  | nil => exact absurd hc (by simp)
  | cons d rest ih =>
    simp only [digits] at h
    split at h
    · rename_i hd
      split at h
      · rcases List.mem_cons.mp hc with rfl | hc
        · exact Or.inl hd
        · exact ih h hc
      · exact absurd h (by simp)
    · split at h
      · rename_i hd
        obtain ⟨ds', hrest, -⟩ := Option.map_eq_some_iff.mp h
        rcases List.mem_cons.mp hc with rfl | hc
        · exact Or.inr (by simp [hd])
        · exact ih hrest hc
      · exact absurd h (by simp)

theorem natLiteral_mem {cs : List Char} {n : Nat} (h : natLiteral cs = some n) {c : Char}
    (hc : c ∈ cs) : c = '_' ∨ (decimal c).isSome := by
  unfold natLiteral at h
  split at h
  · rename_i hds
    exact digits_mem hds hc
  · exact absurd h (by simp)

/-! ## Stripping -/

theorem stripBy_eq_self {space : Char → Bool} {s : List Char} (h : ∀ c ∈ s, space c = false) :
    stripBy space s = s := by
  have hself : ∀ {t : List Char}, (∀ c ∈ t, space c = false) → t.dropWhile space = t := by
    intro t ht
    cases t with
    | nil => rfl
    | cons c cs => exact List.dropWhile_cons_of_neg (by simp [ht c List.mem_cons_self])
  rw [stripBy, hself h, hself fun c hc => h c (List.mem_reverse.mp hc), List.reverse_reverse]

/-- What is not whitespace survives. -/
theorem mem_stripBy {space : Char → Bool} {t : List Char} {c : Char} (hc : c ∈ t)
    (hspace : space c = false) : c ∈ stripBy space t := by
  have hkeep : ∀ l : List Char, c ∈ l → c ∈ l.dropWhile space := by
    intro l hl
    induction l with
    | nil => exact hl
    | cons d rest ih =>
      by_cases hd : space d = true
      · rw [List.dropWhile_cons_of_pos hd]
        rcases List.mem_cons.mp hl with rfl | hl
        · exact absurd hd (by simp [hspace])
        · exact ih hl
      · rwa [List.dropWhile_cons_of_neg hd]
  rw [stripBy, List.mem_reverse]
  exact hkeep _ (List.mem_reverse.mpr (hkeep t hc))

/-- An integer is a literal, with or without a sign. -/
theorem int_literal {t : List Char} {n : Int} (h : int t = some n) :
    ∃ cs m, natLiteral cs = some m ∧
      (stripBy isIntSpace t = '-' :: cs ∨ stripBy isIntSpace t = '+' :: cs ∨
        stripBy isIntSpace t = cs) := by
  unfold int at h
  split at h <;> rename_i hstrip <;> simp only [Option.map_eq_some_iff, Option.bind_eq_bind,
    Option.bind_eq_some_iff] at h
  · obtain ⟨_, ⟨m, hm, -⟩, -⟩ := h
    exact ⟨_, m, hm, Or.inl hstrip⟩
  · obtain ⟨_, ⟨m, hm, -⟩, -⟩ := h
    exact ⟨_, m, hm, Or.inr (Or.inl hstrip)⟩
  · obtain ⟨_, ⟨m, hm, -⟩, -⟩ := h
    exact ⟨_, m, hm, Or.inr (Or.inr rfl)⟩

/-- The text of an integer: whitespace, one sign, underscores and decimal digits. -/
theorem int_mem {t : List Char} {n : Int} (h : int t = some n) {c : Char} (hc : c ∈ t) :
    isSpace c = true ∨ c = '-' ∨ c = '+' ∨ c = '_' ∨ (decimal c).isSome := by
  by_cases hspace : isIntSpace c = true
  · exact Or.inl (Bool.and_eq_true_iff.mp hspace).1
  · have hmem := mem_stripBy hc (by simpa using hspace)
    obtain ⟨cs, m, hm, hstrip⟩ := int_literal h
    have hsign : c = '-' ∨ c = '+' ∨ c ∈ cs := by
      rcases hstrip with hstrip | hstrip | hstrip <;> rw [hstrip] at hmem
      · rcases List.mem_cons.mp hmem with heq | hmem
        · exact Or.inl heq
        · exact Or.inr (Or.inr hmem)
      · rcases List.mem_cons.mp hmem with heq | hmem
        · exact Or.inr (Or.inl heq)
        · exact Or.inr (Or.inr hmem)
      · exact Or.inr (Or.inr hmem)
    rcases hsign with hminus | hplus | hcs
    · exact Or.inr (Or.inl hminus)
    · exact Or.inr (Or.inr (Or.inl hplus))
    · exact Or.inr (Or.inr (Or.inr (natLiteral_mem hm hcs)))

end PyStr
