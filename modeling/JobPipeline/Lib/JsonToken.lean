import JobPipeline.Lib.HexText

/-!
# JSON strings and numbers

How Python's `json` writes a string with `ensure_ascii`, and how it scans strings and numbers. A
character outside printable ASCII is written by its UTF-16 code units, so one beyond U+FFFF takes two
escapes, and the scanner has to put such a pair together again. A `Char` is never a surrogate: a text
that escapes half a pair, which Python would accept, is refused here.

The scanner's errors are the messages of `JSONDecodeError`, without the position.
-/

set_option autoImplicit false

namespace JsonToken

/-! ## Writing a string -/

/-- `\uXXXX`. -/
def codeUnit (n : Nat) : List Char := '\\' :: 'u' :: PyStr.hexText 4 n

/-- `ESCAPE_DCT`: the character that stands after the backslash. -/
def shortEscape (c : Char) : Option Char :=
  if c = '"' ∨ c = '\\' then some c
  else if c = '\n' then some 'n'
  else if c = '\r' then some 'r'
  else if c = '\t' then some 't'
  else if c.toNat = 8 then some 'b'
  else if c.toNat = 12 then some 'f'
  else none

/-- One character as it is written. -/
def escape (c : Char) : List Char :=
  match shortEscape c with
  | some e => ['\\', e]
  | none =>
    if 32 ≤ c.toNat ∧ c.toNat < 127 then [c]
    else if c.toNat < 0x10000 then codeUnit c.toNat
    else codeUnit (0xd800 + (c.toNat - 0x10000) / 1024) ++
      codeUnit (0xdc00 + (c.toNat - 0x10000) % 1024)

/-- `py_encode_basestring_ascii`. -/
def dump (s : List Char) : List Char := '"' :: (s.flatMap escape ++ ['"'])

/-! ## Scanning a string -/

/-- A digit of `[0-9A-Fa-f]`. -/
def hexDigit (c : Char) : Option Nat :=
  if '0' ≤ c ∧ c ≤ '9' then some (c.toNat - 48)
  else if 'a' ≤ c ∧ c ≤ 'f' then some (c.toNat - 87)
  else if 'A' ≤ c ∧ c ≤ 'F' then some (c.toNat - 55)
  else none

/-- `_decode_uXXXX`: four digits, and what follows them. -/
def scanCodeUnit : List Char → Option (Nat × List Char)
  | a :: b :: c :: d :: rest =>
    match hexDigit a, hexDigit b, hexDigit c, hexDigit d with
    | some a, some b, some c, some d => some (PyStr.hexNumber [a, b, c, d], rest)
    | _, _, _, _ => none
  | _ => none

/-- `BACKSLASH`. -/
def backslash (c : Char) : Option Char :=
  if c = '"' ∨ c = '\\' ∨ c = '/' then some c
  else if c = 'b' then some (Char.ofNat 8)
  else if c = 'f' then some (Char.ofNat 12)
  else if c = 'n' then some '\n'
  else if c = 'r' then some '\r'
  else if c = 't' then some '\t'
  else none

/-- The character whose first code unit is `n`, and what follows it. -/
def scanPair (n : Nat) (rest : List Char) : Except String (Char × List Char) :=
  if 0xd800 ≤ n ∧ n ≤ 0xdbff then
    match rest with
    | '\\' :: 'u' :: rest =>
      match scanCodeUnit rest with
      | none => .error "Invalid \\uXXXX escape"
      | some (m, rest) =>
        if 0xdc00 ≤ m ∧ m ≤ 0xdfff then
          .ok (Char.ofNat (0x10000 + ((n - 0xd800) * 1024 + (m - 0xdc00))), rest)
        else .error "Lone surrogate"
    | _ => .error "Lone surrogate"
  else if 0xdc00 ≤ n ∧ n ≤ 0xdfff then .error "Lone surrogate"
  else .ok (Char.ofNat n, rest)

/-- What stands after a backslash. -/
def scanEscape : List Char → Except String (Char × List Char)
  | [] => .error "Unterminated string starting at"
  | 'u' :: rest =>
    match scanCodeUnit rest with
    | none => .error "Invalid \\uXXXX escape"
    | some (n, rest) => scanPair n rest
  | c :: rest =>
    match backslash c with
    | none => .error "Invalid \\escape"
    | some c => .ok (c, rest)

/-- `py_scanstring` after the opening quote: the string, and what follows its closing quote. Every
    step consumes a character, so a text's length is fuel enough. -/
def scan : Nat → List Char → Except String (List Char × List Char)
  | 0, _ => .error "Unterminated string starting at"
  | _ + 1, [] => .error "Unterminated string starting at"
  | fuel + 1, c :: rest =>
    if c = '"' then .ok ([], rest)
    else if c = '\\' then
      match scanEscape rest with
      | .error e => .error e
      | .ok (c, rest) => (scan fuel rest).map fun p => (c :: p.1, p.2)
    else if c.toNat < 32 then .error "Invalid control character at"
    else (scan fuel rest).map fun p => (c :: p.1, p.2)

/-! ### Scanning what was written -/

theorem hexDigit_hexChar {d : Nat} (h : d < 16) : hexDigit (PyStr.hexChar d) = some d := by
  interval_cases d <;> rfl

/-- A code unit is read back. -/
theorem scanCodeUnit_hexText {n : Nat} (h : n < 0x10000) (rest : List Char) :
    scanCodeUnit (PyStr.hexText 4 n ++ rest) = some (n, rest) := by
  have hnumber : PyStr.hexNumber [n / 16 / 16 / 16 % 16, n / 16 / 16 % 16, n / 16 % 16, n % 16] =
      n := by
    simp only [PyStr.hexNumber, List.foldl_cons, List.foldl_nil]
    omega
  simp only [PyStr.hexText, List.nil_append, List.cons_append, scanCodeUnit,
    hexDigit_hexChar (Nat.mod_lt _ (by decide : 16 > 0)), hnumber]

/-- A character of the basic plane is its own code unit. -/
theorem scanPair_of_lt {c : Char} (h : c.toNat < 0x10000) (rest : List Char) :
    scanPair c.toNat rest = .ok (c, rest) := by
  have hvalid : c.toNat < 0xd800 ∨ 0xdfff < c.toNat ∧ c.toNat < 0x110000 := c.valid
  unfold scanPair
  rw [if_neg (by omega), if_neg (by omega), Char.ofNat_toNat]

/-- Two surrogates are put together. -/
theorem scanPair_surrogates {high low : Nat} (hhigh : high < 1024) (hlow : low < 1024)
    (rest : List Char) : scanPair (0xd800 + high) (codeUnit (0xdc00 + low) ++ rest) =
      .ok (Char.ofNat (0x10000 + (high * 1024 + low)), rest) := by
  have hscan := scanCodeUnit_hexText (show 0xdc00 + low < 0x10000 by omega) rest
  unfold scanPair codeUnit
  rw [if_pos (by omega)]
  simp only [List.cons_append, hscan]
  rw [if_pos (by omega), Nat.add_sub_cancel_left, Nat.add_sub_cancel_left]

/-- The code units of a character beyond the basic plane. -/
theorem scanPair_of_ge {c : Char} (h : 0x10000 ≤ c.toNat) (rest : List Char) :
    scanPair (0xd800 + (c.toNat - 0x10000) / 1024)
        (codeUnit (0xdc00 + (c.toNat - 0x10000) % 1024) ++ rest) = .ok (c, rest) := by
  have hvalid : c.toNat < 0xd800 ∨ 0xdfff < c.toNat ∧ c.toNat < 0x110000 := c.valid
  have hsum : 0x10000 + ((c.toNat - 0x10000) / 1024 * 1024 + (c.toNat - 0x10000) % 1024) =
      c.toNat := by omega
  rw [scanPair_surrogates (by omega) (by omega), hsum, Char.ofNat_toNat]

theorem scanEscape_codeUnit {n : Nat} (h : n < 0x10000) (rest : List Char) :
    scanEscape ('u' :: (PyStr.hexText 4 n ++ rest)) = scanPair n rest := by
  simp only [scanEscape, scanCodeUnit_hexText h]

/-- A short escape is read back. -/
theorem scanEscape_short {c e : Char} (h : shortEscape c = some e) (rest : List Char) :
    scanEscape (e :: rest) = .ok (c, rest) := by
  have hchar : ∀ n, c.toNat = n → c = Char.ofNat n := by
    intro n hn
    rw [← hn, Char.ofNat_toNat]
  unfold shortEscape at h
  split at h
  · rename_i hc
    cases h
    rcases hc with rfl | rfl <;> rfl
  split at h
  · rename_i hc; cases h; subst hc; rfl
  split at h
  · rename_i hc; cases h; subst hc; rfl
  split at h
  · rename_i hc; cases h; subst hc; rfl
  split at h
  · rename_i hc; cases h; rw [hchar 8 hc]; rfl
  split at h
  · rename_i hc; cases h; rw [hchar 12 hc]; rfl
  · cases h

theorem scan_escaped {cs rest : List Char} {c : Char} (h : scanEscape cs = .ok (c, rest))
    (fuel : Nat) : scan (fuel + 1) ('\\' :: cs) = (scan fuel rest).map fun p => (c :: p.1, p.2) := by
  simp [scan, h]

/-- **One character is scanned back**, however it was written. -/
theorem scan_escape (c : Char) (fuel : Nat) (rest : List Char) :
    scan (fuel + 1) (escape c ++ rest) = (scan fuel rest).map fun p => (c :: p.1, p.2) := by
  have hvalid : c.toNat < 0xd800 ∨ 0xdfff < c.toNat ∧ c.toNat < 0x110000 := c.valid
  unfold escape
  split
  · rename_i e he
    exact scan_escaped (scanEscape_short he rest) fuel
  · rename_i hnone
    split
    · rename_i hprint
      have hplain : c ≠ '"' ∧ c ≠ '\\' := by
        constructor <;> rintro rfl <;> cases hnone
      simp only [List.singleton_append, scan, if_neg hplain.1, if_neg hplain.2,
        if_neg (not_lt.mpr hprint.1)]
    split
    · rename_i hlt
      apply scan_escaped
      exact (scanEscape_codeUnit hlt rest).trans (scanPair_of_lt hlt rest)
    · rename_i hge
      rw [List.append_assoc]
      apply scan_escaped
      exact (scanEscape_codeUnit (by omega) _).trans (scanPair_of_ge (not_lt.mp hge) rest)

/-- **A string is scanned back**, and the scan ends at its closing quote. -/
theorem scan_dumped (s rest : List Char) {fuel : Nat} (h : s.length < fuel) :
    scan fuel (s.flatMap escape ++ '"' :: rest) = .ok (s, rest) := by
  induction s generalizing fuel with
  | nil =>
    obtain ⟨fuel, rfl⟩ : ∃ k, fuel = k + 1 := ⟨fuel - 1, by simp at h; omega⟩
    rfl
  | cons c s ih =>
    obtain ⟨fuel, rfl⟩ : ∃ k, fuel = k + 1 := ⟨fuel - 1, by simp at h; omega⟩
    rw [List.flatMap_cons, List.append_assoc, scan_escape,
      ih (by simpa using h)]
    rfl

/-! ### What is written -/

/-- The characters that have a short escape. -/
theorem shortEscape_eq_none {c : Char} : shortEscape c = none ↔ ¬ (c = '"' ∨ c = '\\' ∨ c = '\n' ∨
    c = '\r' ∨ c = '\t' ∨ c.toNat = 8 ∨ c.toNat = 12) := by
  unfold shortEscape
  split
  · rename_i hc
    rcases hc with rfl | rfl <;> simp
  · repeat' split
    all_goals simp_all

/-- No escape is empty. -/
theorem length_escape_pos (c : Char) : 0 < (escape c).length := by
  unfold escape codeUnit
  repeat' split
  all_goals simp

theorem length_le_flatMap_escape (s : List Char) : s.length ≤ (s.flatMap escape).length := by
  induction s with
  | nil => exact le_rfl
  | cons c s ih =>
    have hpos := length_escape_pos c
    rw [List.flatMap_cons, List.length_append, List.length_cons]
    omega

/-- Everything written is printable ASCII. -/
theorem ascii_codeUnit (n : Nat) : ∀ c ∈ codeUnit n, c.toNat < 128 := by
  have hdigit : ∀ d < 16, (PyStr.hexChar d).toNat < 128 := by decide
  intro c hc
  simp only [codeUnit, List.mem_cons] at hc
  rcases hc with rfl | rfl | hc
  · decide
  · decide
  · obtain ⟨d, hd, rfl⟩ := PyStr.mem_hexText hc
    exact hdigit d hd

theorem ascii_escape (c : Char) : ∀ c' ∈ escape c, c'.toNat < 128 := by
  have hshort : ∀ e, shortEscape c = some e → e.toNat < 128 := by
    intro e he
    unfold shortEscape at he
    split at he
    · rename_i hc
      cases he
      rcases hc with rfl | rfl <;> decide
    · repeat' split at he
      all_goals cases he
      all_goals decide
  intro c' hc'
  unfold escape at hc'
  split at hc'
  · rename_i e he
    simp only [List.mem_cons, List.not_mem_nil, or_false] at hc'
    rcases hc' with rfl | rfl
    · decide
    · exact hshort _ he
  · repeat' split at hc'
    · rename_i hprint
      rw [List.mem_singleton] at hc'
      subst hc'
      omega
    · exact ascii_codeUnit _ c' hc'
    · rcases List.mem_append.mp hc' with hc' | hc'
      · exact ascii_codeUnit _ c' hc'
      · exact ascii_codeUnit _ c' hc'

theorem ascii_dump (s : List Char) : ∀ c ∈ dump s, c.toNat < 128 := by
  intro c hc
  simp only [dump, List.mem_cons, List.mem_append, List.mem_flatMap, List.not_mem_nil,
    or_false] at hc
  rcases hc with rfl | ⟨c', -, hc⟩ | rfl
  · decide
  · exact ascii_escape c' c hc
  · decide

/-! ## Numbers -/

/-- What the three groups of `NUMBER_RE` match. -/
structure NumberToken where
  integer : List Char
  fraction : List Char
  exponent : List Char

def NumberToken.text (token : NumberToken) : List Char :=
  token.integer ++ (token.fraction ++ token.exponent)

/-- `0|[1-9][0-9]*`. -/
def scanNatural : List Char → Option (List Char × List Char)
  | [] => none
  | c :: cs =>
    if c = '0' then some (['0'], cs)
    else if c.isDigit then some (c :: cs.takeWhile Char.isDigit, cs.dropWhile Char.isDigit)
    else none

/-- `-?(0|[1-9][0-9]*)`. -/
def scanInteger : List Char → Option (List Char × List Char)
  | [] => none
  | c :: cs =>
    if c = '-' then (scanNatural cs).map fun p => ('-' :: p.1, p.2) else scanNatural (c :: cs)

/-- `(\.[0-9]+)?`. -/
def scanFraction : List Char → List Char × List Char
  | [] => ([], [])
  | c :: cs =>
    if c = '.' ∧ cs.takeWhile Char.isDigit ≠ [] then
      ('.' :: cs.takeWhile Char.isDigit, cs.dropWhile Char.isDigit)
    else ([], c :: cs)

/-- `[-+]?`. -/
def scanSign : List Char → List Char × List Char
  | [] => ([], [])
  | c :: cs => if c = '-' ∨ c = '+' then ([c], cs) else ([], c :: cs)

/-- `([eE][-+]?[0-9]+)?`. -/
def scanExponent : List Char → List Char × List Char
  | [] => ([], [])
  | c :: cs =>
    let (sign, rest) := scanSign cs
    if (c = 'e' ∨ c = 'E') ∧ rest.takeWhile Char.isDigit ≠ [] then
      (c :: (sign ++ rest.takeWhile Char.isDigit), rest.dropWhile Char.isDigit)
    else ([], c :: cs)

/-- `NUMBER_RE`, and what follows the match. -/
def scanNumber (cs : List Char) : Option (NumberToken × List Char) :=
  match scanInteger cs with
  | none => none
  | some (integer, rest) =>
    let (fraction, rest) := scanFraction rest
    let (exponent, rest) := scanExponent rest
    some (⟨integer, fraction, exponent⟩, rest)

/-! ### The grammar of numbers -/

def IsDigits (cs : List Char) : Prop := cs ≠ [] ∧ ∀ c ∈ cs, c.isDigit = true

def IsNatural (cs : List Char) : Prop :=
  cs = ['0'] ∨ ∃ c rest, cs = c :: rest ∧ c ≠ '0' ∧ c.isDigit = true ∧ ∀ d ∈ rest, d.isDigit = true

structure NumberToken.WellFormed (token : NumberToken) : Prop where
  integer : IsNatural token.integer ∨ ∃ cs, token.integer = '-' :: cs ∧ IsNatural cs
  fraction : token.fraction = [] ∨ ∃ cs, token.fraction = '.' :: cs ∧ IsDigits cs
  exponent : token.exponent = [] ∨ ∃ c sign cs, token.exponent = c :: (sign ++ cs) ∧
    (c = 'e' ∨ c = 'E') ∧ (sign = [] ∨ sign = ['-'] ∨ sign = ['+']) ∧ IsDigits cs

/-- What a number may be followed by, so that the scan stops there. -/
def EndsNumber (rest : List Char) : Prop :=
  ∀ c ∈ rest.head?, c.isDigit = false ∧ c ≠ '.' ∧ c ≠ 'e' ∧ c ≠ 'E'

/-- The digits end where something else begins. -/
theorem digits_append {ds rest : List Char} (hds : ∀ c ∈ ds, c.isDigit = true)
    (hrest : ∀ c ∈ rest.head?, c.isDigit = false) :
    (ds ++ rest).takeWhile Char.isDigit = ds ∧ (ds ++ rest).dropWhile Char.isDigit = rest := by
  have hstop : rest.takeWhile Char.isDigit = [] ∧ rest.dropWhile Char.isDigit = rest := by
    cases rest with
    | nil => exact ⟨rfl, rfl⟩
    | cons c cs =>
      have hc : c.isDigit = false := hrest c rfl
      simp [hc]
  rw [List.takeWhile_append_of_pos hds, List.dropWhile_append_of_pos hds, hstop.1, hstop.2,
    List.append_nil]
  exact ⟨rfl, rfl⟩

theorem scanNatural_append {cs rest : List Char} (h : IsNatural cs)
    (hrest : ∀ c ∈ rest.head?, c.isDigit = false) : scanNatural (cs ++ rest) = some (cs, rest) := by
  rcases h with rfl | ⟨c, ds, rfl, hzero, hdigit, hds⟩
  · rfl
  · obtain ⟨htake, hdrop⟩ := digits_append hds hrest
    rw [List.cons_append, scanNatural, if_neg hzero, if_pos hdigit, htake, hdrop]

theorem scanInteger_append {cs rest : List Char}
    (h : IsNatural cs ∨ ∃ ds, cs = '-' :: ds ∧ IsNatural ds)
    (hrest : ∀ c ∈ rest.head?, c.isDigit = false) : scanInteger (cs ++ rest) = some (cs, rest) := by
  rcases h with h | ⟨ds, rfl, h⟩
  · have hscan := scanNatural_append h hrest
    have hminus : ∀ c ∈ (cs ++ rest).head?, c ≠ '-' := by
      rcases h with rfl | ⟨c, ds, rfl, -, hdigit, -⟩
      · simp
      · rintro c' hc' rfl
        cases hc'
        exact absurd hdigit (by decide)
    cases hcs : cs ++ rest with
    | nil =>
      rw [hcs] at hscan
      cases hscan
    | cons c tail =>
      rw [hcs] at hscan hminus
      rw [scanInteger, if_neg (hminus c rfl), hscan]
  · rw [List.cons_append, scanInteger, if_pos rfl, scanNatural_append h hrest]
    rfl

theorem scanFraction_append {cs rest : List Char}
    (h : cs = [] ∨ ∃ ds, cs = '.' :: ds ∧ IsDigits ds)
    (hrest : ∀ c ∈ rest.head?, c.isDigit = false ∧ c ≠ '.') :
    scanFraction (cs ++ rest) = (cs, rest) := by
  rcases h with rfl | ⟨ds, rfl, hne, hds⟩
  · cases rest with
    | nil => rfl
    | cons c rest =>
      rw [List.nil_append, scanFraction, if_neg fun h => (hrest c rfl).2 h.1]
  · obtain ⟨htake, hdrop⟩ := digits_append hds fun c hc => (hrest c hc).1
    rw [List.cons_append, scanFraction, htake, hdrop, if_pos ⟨rfl, hne⟩]

theorem scanSign_append {sign cs : List Char} (h : sign = [] ∨ sign = ['-'] ∨ sign = ['+'])
    (hcs : IsDigits cs) (rest : List Char) :
    scanSign (sign ++ (cs ++ rest)) = (sign, cs ++ rest) := by
  rcases h with rfl | rfl | rfl
  · obtain ⟨hne, hds⟩ := hcs
    obtain ⟨c, ds, rfl⟩ := List.exists_cons_of_ne_nil hne
    have hc : ¬ (c = '-' ∨ c = '+') := by
      rintro (rfl | rfl) <;> exact absurd (hds _ List.mem_cons_self) (by decide)
    simp only [List.nil_append, List.cons_append, scanSign, if_neg hc]
  · rfl
  · rfl

theorem scanExponent_append {cs rest : List Char}
    (h : cs = [] ∨ ∃ c sign ds, cs = c :: (sign ++ ds) ∧ (c = 'e' ∨ c = 'E') ∧
      (sign = [] ∨ sign = ['-'] ∨ sign = ['+']) ∧ IsDigits ds)
    (hrest : ∀ c ∈ rest.head?, c.isDigit = false ∧ c ≠ 'e' ∧ c ≠ 'E') :
    scanExponent (cs ++ rest) = (cs, rest) := by
  rcases h with rfl | ⟨c, sign, ds, rfl, hc, hsign, hds⟩
  · cases rest with
    | nil => rfl
    | cons c rest =>
      have hc : ¬ (c = 'e' ∨ c = 'E') := by
        obtain ⟨-, he, hE⟩ := hrest c rfl
        rintro (h | h)
        · exact he h
        · exact hE h
      simp only [List.nil_append, scanExponent, hc, false_and, if_false]
  · obtain ⟨htake, hdrop⟩ := digits_append hds.2 fun c hc => (hrest c hc).1
    rw [List.cons_append, List.append_assoc, scanExponent, scanSign_append hsign hds]
    dsimp only
    rw [htake, hdrop, if_pos ⟨hc, hds.1⟩]

/-- **A number of the grammar is scanned whole.** -/
theorem scanNumber_append {token : NumberToken} (h : token.WellFormed) {rest : List Char}
    (hrest : EndsNumber rest) : scanNumber (token.text ++ rest) = some (token, rest) := by
  obtain ⟨integer, fraction, exponent⟩ := token
  obtain ⟨hinteger, hfraction, hexponent⟩ := h
  have hexp : scanExponent (exponent ++ rest) = (exponent, rest) :=
    scanExponent_append hexponent fun c hc => ⟨(hrest c hc).1, (hrest c hc).2.2⟩
  -- What follows one part is the beginning of the next, or what follows the number.
  have hafterFraction : ∀ c ∈ (exponent ++ rest).head?, c.isDigit = false ∧ c ≠ '.' := by
    intro c hc
    rcases hexponent with rfl | ⟨e, sign, ds, rfl, he, -⟩
    · exact ⟨(hrest c hc).1, (hrest c hc).2.1⟩
    · cases hc
      rcases he with rfl | rfl <;> decide
  have hafterInteger : ∀ c ∈ (fraction ++ (exponent ++ rest)).head?, c.isDigit = false := by
    intro c hc
    rcases hfraction with rfl | ⟨ds, rfl, -⟩
    · exact (hafterFraction c hc).1
    · cases hc
      decide
  simp only [NumberToken.text, List.append_assoc, scanNumber,
    scanInteger_append hinteger hafterInteger, scanFraction_append hfraction hafterFraction, hexp]

/-- A number begins with a digit or a minus sign. -/
theorem NumberToken.WellFormed.head {token : NumberToken} (h : token.WellFormed) :
    ∃ c cs, token.text = c :: cs ∧ (c = '-' ∨ c.isDigit = true) := by
  have hnatural : ∀ {cs : List Char}, IsNatural cs → ∃ c ds, cs = c :: ds ∧ c.isDigit = true := by
    intro cs hcs
    rcases hcs with rfl | ⟨c, ds, rfl, -, hdigit, -⟩
    · exact ⟨'0', [], rfl, by decide⟩
    · exact ⟨c, ds, rfl, hdigit⟩
  unfold NumberToken.text
  rcases h.integer with hinteger | ⟨cs, hcs, -⟩
  · obtain ⟨c, ds, hcs, hdigit⟩ := hnatural hinteger
    exact ⟨c, _, by rw [hcs, List.cons_append], Or.inr hdigit⟩
  · exact ⟨'-', _, by rw [hcs, List.cons_append], Or.inl rfl⟩

/-- A number is written in ASCII. -/
theorem NumberToken.WellFormed.ascii {token : NumberToken} (h : token.WellFormed) :
    ∀ c ∈ token.text, c.toNat < 128 := by
  have hdigit : ∀ {c : Char}, c.isDigit = true → c.toNat < 128 := by
    intro c hc
    simp only [Char.isDigit, Bool.and_eq_true, decide_eq_true_eq] at hc
    have hle : c.toNat ≤ 57 := hc.2
    omega
  have hnatural : ∀ {cs : List Char}, IsNatural cs → ∀ c ∈ cs, c.toNat < 128 := by
    intro cs hcs
    rcases hcs with rfl | ⟨c, ds, rfl, -, hc, hds⟩
    · simp
    · intro d hd
      rcases List.mem_cons.mp hd with rfl | hd
      · exact hdigit hc
      · exact hdigit (hds d hd)
  intro c hc
  simp only [NumberToken.text, List.mem_append] at hc
  rcases hc with hc | hc | hc
  · rcases h.integer with hinteger | ⟨cs, hcs, hinteger⟩
    · exact hnatural hinteger c hc
    · rw [hcs, List.mem_cons] at hc
      rcases hc with rfl | hc
      · decide
      · exact hnatural hinteger c hc
  · rcases h.fraction with hfraction | ⟨cs, hcs, -, hds⟩
    · rw [hfraction] at hc
      cases hc
    · rw [hcs, List.mem_cons] at hc
      rcases hc with rfl | hc
      · decide
      · exact hdigit (hds c hc)
  · rcases h.exponent with hexponent | ⟨e, sign, cs, hcs, he, hsign, -, hds⟩
    · rw [hexponent] at hc
      cases hc
    · rw [hcs, List.mem_cons, List.mem_append] at hc
      rcases hc with rfl | hc | hc
      · rcases he with rfl | rfl <;> decide
      · rcases hsign with rfl | rfl | rfl
        · cases hc
        all_goals
          rw [List.mem_singleton.mp hc]
          decide
      · exact hdigit (hds c hc)

/-- The decimal text of a number. -/
theorem isNatural_repr (n : Nat) : IsNatural n.repr.toList := by
  induction n using Nat.strongRecOn with
  | ind n ih =>
    by_cases hlt : n < 10
    · rw [Nat.toList_repr, Nat.toDigits_of_lt_base hlt]
      interval_cases n
      · exact Or.inl rfl
      all_goals exact Or.inr ⟨_, [], rfl, by decide, by decide, by simp⟩
    · have hdigits : n.repr.toList = (n / 10).repr.toList ++ [(n % 10).digitChar] := by
        rw [Nat.toList_repr, Nat.toList_repr, Nat.toDigits_of_base_le (by decide) (not_lt.mp hlt)]
      have hlast : (n % 10).digitChar.isDigit = true := by
        have hmod : n % 10 < 10 := Nat.mod_lt _ (by decide)
        generalize n % 10 = d at hmod
        interval_cases d <;> decide
      rw [hdigits]
      -- The leading part is not zero, so its first digit is not.
      rcases ih (n / 10) (by omega) with hzero | ⟨c, rest, hcs, hc, hdigit, hrest⟩
      · have hread : Nat.ofDigitChars 10 (Nat.toDigits 10 (n / 10)) 0 = n / 10 :=
          Nat.ofDigitChars_ten_toDigits
        rw [← Nat.toList_repr, hzero] at hread
        have hne : n / 10 = 0 := hread.symm
        omega
      · refine Or.inr ⟨c, rest ++ [(n % 10).digitChar], by rw [hcs, List.cons_append], hc, hdigit, ?_⟩
        intro d hd
        rcases List.mem_append.mp hd with hd | hd
        · exact hrest d hd
        · rw [List.mem_singleton.mp hd]
          exact hlast

end JsonToken
