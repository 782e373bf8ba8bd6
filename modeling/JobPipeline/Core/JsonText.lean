import JobPipeline.Core.Values
import JobPipeline.Lib.Dict
import JobPipeline.Lib.JsonToken

/-!
# JSON texts

`json.dumps` and `json.loads` on the values of `Json`. A text is a list of characters. `dumps` takes
the separators, which differ between the size check of a payload and the messages; `loads` takes what
`repr(float(text))` makes of the text of a number with a fraction or an exponent, since a `Json` number
is the text that `dumps` prints for it.

`Printed` says what a value that came out of `loads`, or that Python can hand to `dumps`, is like:
numbers in their printed form, and objects with distinct keys.
-/

set_option autoImplicit false

namespace JobPipeline

open JsonToken

/-- `[ \t\n\r]`. -/
def isJsonSpace (c : Char) : Bool := c == ' ' || c == '\t' || c == '\n' || c == '\r'

/-- The `separators` of `dumps`: a comma and a colon, each with whitespace after it. -/
structure Separators where
  item : List Char
  key : List Char
  item_space : ∀ c ∈ item, isJsonSpace c = true
  key_space : ∀ c ∈ key, isJsonSpace c = true

/-- `(", ", ": ")`. -/
def Separators.default : Separators :=
  ⟨[' '], [' '], by simp [isJsonSpace], by simp [isJsonSpace]⟩

/-- `(",", ":")`. -/
def Separators.compact : Separators := ⟨[], [], by simp, by simp⟩

/-! ## `dumps` -/

mutual

def Json.dumps (sep : Separators) : Json → List Char
  | .null => ['n', 'u', 'l', 'l']
  | .bool true => ['t', 'r', 'u', 'e']
  | .bool false => ['f', 'a', 'l', 's', 'e']
  | .num text => text.toList
  | .str s => dump s.toList
  | .arr items => '[' :: (dumpsItems sep true items ++ [']'])
  | .obj fields => '\x7b' :: (dumpsFields sep true fields ++ ['\x7d'])

/-- The items of a list, each but the first after a separator. -/
def dumpsItems (sep : Separators) (first : Bool) : List Json → List Char
  | [] => []
  | v :: rest => (if first then [] else ',' :: sep.item) ++ (v.dumps sep ++
      dumpsItems sep false rest)

def dumpsFields (sep : Separators) (first : Bool) : List (String × Json) → List Char
  | [] => []
  | (k, v) :: rest => (if first then [] else ',' :: sep.item) ++ (dump k.toList ++
      (':' :: sep.key ++ (v.dumps sep ++ dumpsFields sep false rest)))

end

/-! ## `loads` -/

section Loads

variable (floatRepr : List Char → List Char)

def skipSpace (cs : List Char) : List Char := cs.dropWhile isJsonSpace

/-- What `dumps` prints for the number a token denotes: `int` reads one without fraction and
    exponent. -/
def numberText (token : NumberToken) : List Char :=
  if token.fraction = [] ∧ token.exponent = [] then
    if token.integer = ['-', '0'] then ['0'] else token.integer
  else floatRepr token.text

/-- `dict(pairs)`. -/
def dictOf (pairs : List (String × Json)) : JsonObject :=
  pairs.foldl (fun d p => Dict.insertEntry p.1 p.2 d) []

/-- What is not a string, an object, an array or a number. -/
def parseConstant (cs : List Char) : Except String (Json × List Char) :=
  if ['n', 'u', 'l', 'l'].isPrefixOf cs then .ok (.null, cs.drop 4)
  else if ['t', 'r', 'u', 'e'].isPrefixOf cs then .ok (.bool true, cs.drop 4)
  else if ['f', 'a', 'l', 's', 'e'].isPrefixOf cs then .ok (.bool false, cs.drop 5)
  else if ['N', 'a', 'N'].isPrefixOf cs then .ok (.num "NaN", cs.drop 3)
  else if "Infinity".toList.isPrefixOf cs then .ok (.num "Infinity", cs.drop 8)
  else if "-Infinity".toList.isPrefixOf cs then .ok (.num "-Infinity", cs.drop 9)
  else .error "Expecting value"

mutual

/-- `_scan_once`. Every call consumes a character, or hands the text on to one that does. -/
def parseValue : Nat → List Char → Except String (Json × List Char)
  | 0, _ => .error "Expecting value"
  | _ + 1, [] => .error "Expecting value"
  | fuel + 1, c :: rest =>
    if c = '"' then (scan rest.length rest).map fun p => (.str (String.ofList p.1), p.2)
    else if c = '\x7b' then
      match skipSpace rest with
      | '\x7d' :: rest => .ok (.obj [], rest)
      | rest => (parseFields fuel rest).map fun p => (.obj (dictOf p.1), p.2)
    else if c = '[' then
      match skipSpace rest with
      | ']' :: rest => .ok (.arr [], rest)
      | rest => (parseItems fuel rest).map fun p => (.arr p.1, p.2)
    else match scanNumber (c :: rest) with
      | some (token, rest) => .ok (.num (String.ofList (numberText floatRepr token)), rest)
      | none => parseConstant (c :: rest)

/-- The loop of `JSONArray`. -/
def parseItems : Nat → List Char → Except String (List Json × List Char)
  | 0, _ => .error "Expecting value"
  | fuel + 1, cs =>
    match parseValue fuel cs with
    | .error e => .error e
    | .ok (v, rest) =>
      match skipSpace rest with
      | ']' :: rest => .ok ([v], rest)
      | ',' :: rest => (parseItems fuel (skipSpace rest)).map fun p => (v :: p.1, p.2)
      | _ => .error "Expecting ',' delimiter"

/-- The loop of `JSONObject`. -/
def parseFields : Nat → List Char → Except String (List (String × Json) × List Char)
  | fuel + 1, '"' :: rest =>
    match scan rest.length rest with
    | .error e => .error e
    | .ok (key, rest) =>
      match skipSpace rest with
      | ':' :: rest =>
        match parseValue fuel (skipSpace rest) with
        | .error e => .error e
        | .ok (v, rest) =>
          match skipSpace rest with
          | '\x7d' :: rest => .ok ([(String.ofList key, v)], rest)
          | ',' :: rest => (parseFields fuel (skipSpace rest)).map fun p =>
              ((String.ofList key, v) :: p.1, p.2)
          | _ => .error "Expecting ',' delimiter"
      | _ => .error "Expecting ':' delimiter"
  | _, _ => .error "Expecting property name enclosed in double quotes"

end

/-- `json.loads(text)`. -/
def loads (text : List Char) : Except String Json :=
  if text.head? = some (Char.ofNat 0xfeff) then
    .error "Unexpected UTF-8 BOM (decode using utf-8-sig)"
  else match parseValue floatRepr (2 * text.length) (skipSpace text) with
    | .error e => .error e
    | .ok (v, rest) =>
      match skipSpace rest with
      | [] => .ok v
      | _ => .error "Extra data"

/-! ## Printed values -/

/-- The text of an `int` or of a `float`, as `dumps` prints it. -/
def PrintedNumber (text : String) : Prop :=
  (∃ token : NumberToken, token.WellFormed ∧ token.text = text.toList ∧
    numberText floatRepr token = text.toList) ∨
  text = "NaN" ∨ text = "Infinity" ∨ text = "-Infinity"

mutual

def Json.Printed : Json → Prop
  | .num text => PrintedNumber floatRepr text
  | .arr items => PrintedItems items
  | .obj fields => (fields.map Prod.fst).Nodup ∧ PrintedFields fields
  | _ => True

def PrintedItems : List Json → Prop
  | [] => True
  | v :: rest => v.Printed ∧ PrintedItems rest

def PrintedFields : List (String × Json) → Prop
  | [] => True
  | (_, v) :: rest => v.Printed ∧ PrintedFields rest

end

/-- The decimal text of a natural number. -/
theorem printedNumber_repr (n : Nat) : PrintedNumber floatRepr (toString n) := by
  have hnatural : IsNatural (toString n).toList := isNatural_repr n
  refine Or.inl ⟨⟨(toString n).toList, [], []⟩, ⟨Or.inl hnatural, Or.inl rfl, Or.inl rfl⟩,
    by simp [NumberToken.text], ?_⟩
  have hminus : (toString n).toList ≠ ['-', '0'] := by
    intro heq
    rw [heq] at hnatural
    rcases hnatural with h | ⟨c, rest, h, -, hdigit, -⟩
    · cases h
    · cases h
      exact absurd hdigit (by decide)
  rw [numberText, if_pos ⟨rfl, rfl⟩, if_neg hminus]

/-! ### What a printed text begins with, and what follows it -/

theorem skipSpace_append {ws cs : List Char} (hws : ∀ c ∈ ws, isJsonSpace c = true)
    (hcs : ∀ c ∈ cs.head?, isJsonSpace c = false) : skipSpace (ws ++ cs) = cs := by
  unfold skipSpace
  rw [List.dropWhile_append_of_pos hws]
  cases cs with
  | nil => rfl
  | cons c cs => exact List.dropWhile_cons_of_neg (by simp [hcs c rfl])

theorem skipSpace_eq_self {cs : List Char} (h : ∀ c ∈ cs.head?, isJsonSpace c = false) :
    skipSpace cs = cs := by
  have hnil : ∀ c ∈ ([] : List Char), isJsonSpace c = true := by simp
  exact skipSpace_append hnil h

theorem skipSpace_of_head {c : Char} {cs : List Char} (h : isJsonSpace c = false) :
    skipSpace (c :: cs) = c :: cs :=
  skipSpace_eq_self (by simpa using h)

/-- A value begins with a character that is no space and no byte order mark, and closes nothing. -/
def Opens (cs : List Char) : Prop :=
  ∃ c rest, cs = c :: rest ∧ isJsonSpace c = false ∧ c ≠ ']' ∧ c ≠ Char.ofNat 0xfeff

theorem opens_of_digit {c : Char} {rest : List Char} (h : c = '-' ∨ c.isDigit = true) :
    Opens (c :: rest) ∧ c ≠ '"' ∧ c ≠ '[' ∧ c ≠ '\x7b' := by
  have hne : ∀ d : Char, d ≠ '-' → d.isDigit = false → c ≠ d := by
    rintro d hd hdigit rfl
    rcases h with h | h
    · exact hd h
    · rw [hdigit] at h
      cases h
  have hspace : isJsonSpace c = false := by
    simp only [isJsonSpace, Bool.or_eq_false_iff, beq_eq_false_iff_ne]
    exact ⟨⟨⟨hne _ (by decide) (by decide), hne _ (by decide) (by decide)⟩,
      hne _ (by decide) (by decide)⟩, hne _ (by decide) (by decide)⟩
  exact ⟨⟨c, rest, rfl, hspace, hne _ (by decide) (by decide), hne _ (by decide) (by decide)⟩,
    hne _ (by decide) (by decide), hne _ (by decide) (by decide), hne _ (by decide) (by decide)⟩

variable {floatRepr}

theorem opens_dumps {v : Json} (h : v.Printed floatRepr) (sep : Separators) :
    Opens (v.dumps sep) := by
  cases v with
  | null => exact ⟨'n', _, rfl, by decide, by decide, by decide⟩
  | bool b => cases b <;> exact ⟨_, _, rfl, by decide, by decide, by decide⟩
  | str s => exact ⟨'"', _, rfl, by decide, by decide, by decide⟩
  | arr items => exact ⟨'[', _, rfl, by decide, by decide, by decide⟩
  | obj fields => exact ⟨'\x7b', _, rfl, by decide, by decide, by decide⟩
  | num text =>
    rcases h with ⟨token, htoken, htext, -⟩ | rfl | rfl | rfl
    · obtain ⟨c, cs, hcs, hc⟩ := htoken.head
      rw [Json.dumps, ← htext, hcs]
      exact (opens_of_digit hc).1
    all_goals exact ⟨_, _, rfl, by decide, by decide, by decide⟩

theorem Opens.head {cs : List Char} (h : Opens cs) (tail : List Char) :
    ∀ c ∈ (cs ++ tail).head?, isJsonSpace c = false := by
  obtain ⟨c, rest, rfl, hspace, -⟩ := h
  rintro _ ⟨⟩
  exact hspace

/-- After an item comes a comma or the closing bracket. -/
theorem endsNumber_items (sep : Separators) (items : List Json) {close : Char}
    (hclose : close = ']' ∨ close = '\x7d') (rest : List Char) :
    EndsNumber (dumpsItems sep false items ++ close :: rest) := by
  cases items with
  | nil => rintro _ ⟨⟩; rcases hclose with rfl | rfl <;> decide
  | cons v items => rintro _ ⟨⟩; decide

theorem endsNumber_fields (sep : Separators) (fields : List (String × Json)) (rest : List Char) :
    EndsNumber (dumpsFields sep false fields ++ '\x7d' :: rest) := by
  cases fields with
  | nil => rintro _ ⟨⟩; decide
  | cons field fields => rintro _ ⟨⟩; decide

/-! ## Reading what was printed -/

/-- A number or a constant is read back. -/
theorem parseValue_num {text : String} (h : PrintedNumber floatRepr text) {rest : List Char}
    (hrest : EndsNumber rest) (fuel : Nat) :
    parseValue floatRepr (fuel + 1) (text.toList ++ rest) = .ok (.num text, rest) := by
  rcases h with ⟨token, htoken, htext, hprinted⟩ | rfl | rfl | rfl
  · have hscan := scanNumber_append htoken hrest
    obtain ⟨c, cs, hcs, hc⟩ := htoken.head
    have hopens : Opens (c :: cs) ∧ c ≠ '"' ∧ c ≠ '[' ∧ c ≠ '\x7b' := opens_of_digit hc
    obtain ⟨-, hquote, hbracket, hbrace⟩ := hopens
    rw [← htext]
    rw [hcs, List.cons_append] at hscan ⊢
    rw [parseValue, if_neg hquote, if_neg hbrace, if_neg hbracket, hscan]
    simp only [hprinted, String.ofList_toList]
  · rfl
  · rfl
  · rfl

theorem parse_string (s : String) (rest : List Char) :
    scan (s.toList.flatMap escape ++ '"' :: rest).length (s.toList.flatMap escape ++ '"' :: rest) =
      .ok (s.toList, rest) := by
  apply scan_dumped
  have hle := length_le_flatMap_escape s.toList
  rw [List.length_append, List.length_cons]
  omega

mutual

/-- **A value is read back**, and the scan ends where its text does. -/
theorem parseValue_dumps (sep : Separators) : ∀ (v : Json), v.Printed floatRepr →
    ∀ (fuel : Nat) (rest : List Char), EndsNumber rest → 2 * (v.dumps sep).length ≤ fuel →
      parseValue floatRepr fuel (v.dumps sep ++ rest) = .ok (v, rest)
  | .null, _, fuel, rest, _, hfuel => by
    obtain ⟨fuel, rfl⟩ : ∃ k, fuel = k + 1 := ⟨fuel - 1, by simp [Json.dumps] at hfuel; omega⟩
    rfl
  | .bool b, _, fuel, rest, _, hfuel => by
    cases b with
    | true =>
      obtain ⟨fuel, rfl⟩ : ∃ k, fuel = k + 1 := ⟨fuel - 1, by simp [Json.dumps] at hfuel; omega⟩
      rfl
    | false =>
      obtain ⟨fuel, rfl⟩ : ∃ k, fuel = k + 1 := ⟨fuel - 1, by simp [Json.dumps] at hfuel; omega⟩
      rfl
  | .num text, h, fuel, rest, hrest, hfuel => by
    obtain ⟨c, cs, hcs, -⟩ := opens_dumps (v := .num text) h sep
    obtain ⟨fuel, rfl⟩ : ∃ k, fuel = k + 1 := ⟨fuel - 1, by rw [hcs] at hfuel; simp at hfuel; omega⟩
    exact parseValue_num h hrest fuel
  | .str s, _, fuel, rest, _, hfuel => by
    obtain ⟨fuel, rfl⟩ : ∃ k, fuel = k + 1 :=
      ⟨fuel - 1, by simp [Json.dumps, dump] at hfuel; omega⟩
    have htext : (Json.str s).dumps sep ++ rest =
        '"' :: (s.toList.flatMap escape ++ '"' :: rest) := by simp [Json.dumps, dump]
    rw [htext, parseValue, if_pos rfl, parse_string]
    simp [Except.map, String.ofList_toList]
  | .arr [], _, fuel, rest, _, hfuel => by
    obtain ⟨fuel, rfl⟩ : ∃ k, fuel = k + 1 :=
      ⟨fuel - 1, by simp [Json.dumps] at hfuel; omega⟩
    rfl
  | .arr (v :: items), h, fuel, rest, _, hfuel => by
    have htext : (Json.arr (v :: items)).dumps sep ++ rest =
        '[' :: (dumpsItems sep true (v :: items) ++ ']' :: rest) := by simp [Json.dumps]
    have hlength : ((Json.arr (v :: items)).dumps sep).length =
        (dumpsItems sep true (v :: items)).length + 2 := by simp [Json.dumps]
    obtain ⟨fuel, rfl⟩ : ∃ k, fuel = k + 1 := ⟨fuel - 1, by omega⟩
    have hopens := opens_dumps h.1 sep
    have hitems := parseItems_dumps sep (v :: items) h (by simp) fuel rest (by omega)
    rw [htext, parseValue, if_neg (by decide), if_neg (by decide), if_pos rfl]
    rw [dumpsItems, if_pos rfl, List.nil_append, List.append_assoc] at hitems ⊢
    have hskip := skipSpace_eq_self (hopens.head (dumpsItems sep false items ++ ']' :: rest))
    obtain ⟨c, cs, hcs, -, hclose, -⟩ := hopens
    rw [hskip, hcs, List.cons_append]
    rw [hcs, List.cons_append] at hitems
    split
    · rename_i heq
      exact absurd (List.cons.inj heq).1 hclose
    · rw [hitems]
      rfl
  | .obj [], _, fuel, rest, _, hfuel => by
    obtain ⟨fuel, rfl⟩ : ∃ k, fuel = k + 1 :=
      ⟨fuel - 1, by simp [Json.dumps] at hfuel; omega⟩
    rfl
  | .obj ((k, v) :: fields), h, fuel, rest, _, hfuel => by
    have htext : (Json.obj ((k, v) :: fields)).dumps sep ++ rest =
        '\x7b' :: (dumpsFields sep true ((k, v) :: fields) ++ '\x7d' :: rest) := by
      simp [Json.dumps]
    have hlength : ((Json.obj ((k, v) :: fields)).dumps sep).length =
        (dumpsFields sep true ((k, v) :: fields)).length + 2 := by simp [Json.dumps]
    obtain ⟨fuel, rfl⟩ : ∃ k, fuel = k + 1 := ⟨fuel - 1, by omega⟩
    have hfields := parseFields_dumps sep ((k, v) :: fields) h.2 (by simp) fuel rest (by omega)
    rw [htext, parseValue, if_neg (by decide), if_pos rfl]
    rw [dumpsFields, if_pos rfl, List.nil_append, dump, List.cons_append, List.cons_append]
      at hfields ⊢
    rw [skipSpace_of_head (by decide)]
    split
    · rename_i heq
      exact absurd (List.cons.inj heq).1 (by decide)
    · have hdict : dictOf ((k, v) :: fields) = (k, v) :: fields := Dict.foldl_insertEntry h.1
      rw [hfields]
      simp only [Except.map, hdict]

theorem parseItems_dumps (sep : Separators) : ∀ (items : List Json), PrintedItems floatRepr items →
    items ≠ [] → ∀ (fuel : Nat) (rest : List Char),
      2 * (dumpsItems sep true items).length + 1 ≤ fuel →
      parseItems floatRepr fuel (dumpsItems sep true items ++ ']' :: rest) = .ok (items, rest)
  | [], _, hne, _, _, _ => absurd rfl hne
  | v :: items, h, _, fuel, rest, hfuel => by
    have hlength : (dumpsItems sep true (v :: items)).length =
        (v.dumps sep).length + (dumpsItems sep false items).length := by simp [dumpsItems]
    obtain ⟨fuel, rfl⟩ : ∃ k, fuel = k + 1 := ⟨fuel - 1, by omega⟩
    have hv := parseValue_dumps sep v h.1 fuel (dumpsItems sep false items ++ ']' :: rest)
      (endsNumber_items sep items (Or.inl rfl) rest) (by omega)
    rw [dumpsItems, if_pos rfl, List.nil_append, List.append_assoc, parseItems, hv]
    dsimp only
    cases items with
    | nil =>
      rw [dumpsItems, List.nil_append, skipSpace_of_head (by decide)]
      rfl
    | cons w items =>
      have hnext : dumpsItems sep false (w :: items) ++ ']' :: rest =
          ',' :: (sep.item ++ (dumpsItems sep true (w :: items) ++ ']' :: rest)) := by
        simp [dumpsItems]
      have hless : (dumpsItems sep false (w :: items)).length =
          (dumpsItems sep true (w :: items)).length + sep.item.length + 1 := by
        simp [dumpsItems]
        omega
      have hhead : ∀ c ∈ (dumpsItems sep true (w :: items) ++ ']' :: rest).head?,
          isJsonSpace c = false := by
        rw [dumpsItems, if_pos rfl, List.nil_append, List.append_assoc]
        exact (opens_dumps h.2.1 sep).head _
      rw [hnext, skipSpace_of_head (by decide)]
      simp only [skipSpace_append sep.item_space hhead]
      rw [parseItems_dumps sep (w :: items) h.2 (by simp) fuel rest (by omega)]
      rfl

theorem parseFields_dumps (sep : Separators) : ∀ (fields : List (String × Json)),
    PrintedFields floatRepr fields → fields ≠ [] → ∀ (fuel : Nat) (rest : List Char),
      2 * (dumpsFields sep true fields).length + 1 ≤ fuel →
      parseFields floatRepr fuel (dumpsFields sep true fields ++ '\x7d' :: rest) =
        .ok (fields, rest)
  | [], _, hne, _, _, _ => absurd rfl hne
  | (k, v) :: fields, h, _, fuel, rest, hfuel => by
    have hlength : (dumpsFields sep true ((k, v) :: fields)).length = (dump k.toList).length + 1 +
        sep.key.length + (v.dumps sep).length + (dumpsFields sep false fields).length := by
      simp [dumpsFields]
      omega
    obtain ⟨fuel, rfl⟩ : ∃ k, fuel = k + 1 := ⟨fuel - 1, by omega⟩
    have htext : dumpsFields sep true ((k, v) :: fields) ++ '\x7d' :: rest =
        '"' :: (k.toList.flatMap escape ++ '"' :: (':' :: (sep.key ++ (v.dumps sep ++
          (dumpsFields sep false fields ++ '\x7d' :: rest))))) := by
      simp [dumpsFields, dump]
    have hv := parseValue_dumps sep v h.1 fuel (dumpsFields sep false fields ++ '\x7d' :: rest)
      (endsNumber_fields sep fields rest) (by omega)
    rw [htext, parseFields, parse_string]
    dsimp only
    rw [skipSpace_of_head (by decide)]
    simp only [skipSpace_append sep.key_space ((opens_dumps h.1 sep).head _), hv,
      String.ofList_toList]
    cases fields with
    | nil =>
      rw [dumpsFields, List.nil_append, skipSpace_of_head (by decide)]
      rfl
    | cons field fields =>
      obtain ⟨k', w⟩ := field
      have hnext : dumpsFields sep false ((k', w) :: fields) ++ '\x7d' :: rest =
          ',' :: (sep.item ++ (dumpsFields sep true ((k', w) :: fields) ++ '\x7d' :: rest)) := by
        simp [dumpsFields]
      have hless : (dumpsFields sep false ((k', w) :: fields)).length =
          (dumpsFields sep true ((k', w) :: fields)).length + sep.item.length + 1 := by
        simp [dumpsFields]
        omega
      have hhead : ∀ c ∈ (dumpsFields sep true ((k', w) :: fields) ++ '\x7d' :: rest).head?,
          isJsonSpace c = false := by
        rintro _ ⟨⟩
        decide
      rw [hnext, skipSpace_of_head (by decide)]
      simp only [skipSpace_append sep.item_space hhead]
      rw [parseFields_dumps sep ((k', w) :: fields) h.2 (by simp) fuel rest (by omega)]
      rfl

end

/-- **What `dumps` prints, `loads` reads back**, with any separators. -/
theorem loads_dumps {v : Json} (h : v.Printed floatRepr) (sep : Separators) :
    loads floatRepr (v.dumps sep) = .ok v := by
  have hopens := opens_dumps h sep
  have hbom : (v.dumps sep).head? ≠ some (Char.ofNat 0xfeff) := by
    obtain ⟨c, rest, hcs, -, -, hne⟩ := hopens
    rw [hcs]
    exact fun heq => hne (Option.some.inj heq)
  have hskip : skipSpace (v.dumps sep) = v.dumps sep :=
    skipSpace_eq_self (by simpa using hopens.head [])
  have hparse := parseValue_dumps sep v h (2 * (v.dumps sep).length) [] (by rintro _ ⟨⟩) le_rfl
  rw [List.append_nil] at hparse
  rw [loads, if_neg hbom, hskip, hparse]
  rfl

/-! ## The size of a text -/

theorem length_escape (c : Char) : (escape c).length = escapedLength c := by
  unfold escape escapedLength
  cases hshort : shortEscape c with
  | some e =>
    have hdct : ¬ shortEscape c = none := by simp [hshort]
    rw [shortEscape_eq_none, not_not] at hdct
    rw [if_pos hdct]
    rfl
  | none =>
    rw [if_neg (shortEscape_eq_none.mp hshort)]
    dsimp only
    repeat' split
    · rfl
    · simp [codeUnit, PyStr.length_hexText]
    · simp [codeUnit, PyStr.length_hexText]

theorem length_dump (s : String) : (dump s.toList).length = dumpsLengthStr s := by
  have hlength : ∀ cs : List Char, (cs.flatMap escape).length = (cs.map escapedLength).sum := by
    intro cs
    induction cs with
    | nil => rfl
    | cons c cs ih => rw [List.flatMap_cons, List.length_append, ih, length_escape]; rfl
  simp only [dump, dumpsLengthStr, List.length_cons, List.length_append, List.length_nil, hlength]

mutual

/-- **The size check counts the characters of the compact text.** -/
theorem length_dumps : ∀ v : Json, (v.dumps .compact).length = v.dumpsLength
  | .null => rfl
  | .bool true => rfl
  | .bool false => rfl
  | .num text => by rw [Json.dumps, Json.dumpsLength, String.length_toList]
  | .str s => length_dump s
  | .arr items => by
    have hitems := length_dumpsItems true items
    simp only [Json.dumps, Json.dumpsLength, List.length_cons, List.length_append, List.length_nil,
      hitems, if_true]
    omega
  | .obj fields => by
    have hfields := length_dumpsFields true fields
    simp only [Json.dumps, Json.dumpsLength, List.length_cons, List.length_append, List.length_nil,
      hfields, if_true]
    omega

theorem length_dumpsItems (first : Bool) : ∀ items : List Json,
    (dumpsItems .compact first items).length =
      (if first then items.length - 1 else items.length) + dumpsLengthItems items
  | [] => by cases first <;> rfl
  | v :: items => by
    have hv := length_dumps v
    have hitems := length_dumpsItems false items
    have hcomma : (',' :: Separators.compact.item).length = 1 := rfl
    cases first <;>
      simp only [dumpsItems, dumpsLengthItems, hv, hitems, hcomma, List.length_append,
        List.length_cons, List.length_nil, if_true, Bool.false_eq_true, if_false] <;> omega

theorem length_dumpsFields (first : Bool) : ∀ fields : List (String × Json),
    (dumpsFields .compact first fields).length =
      (if first then fields.length - 1 else fields.length) + dumpsLengthFields fields
  | [] => by cases first <;> rfl
  | (k, v) :: fields => by
    have hk := length_dump k
    have hv := length_dumps v
    have hfields := length_dumpsFields false fields
    have hcomma : (',' :: Separators.compact.item).length = 1 := rfl
    have hcolon : (':' :: Separators.compact.key).length = 1 := rfl
    cases first <;>
      simp only [dumpsFields, dumpsLengthFields, hk, hv, hfields, hcomma, hcolon, List.length_append,
        List.length_cons, List.length_nil, if_true, Bool.false_eq_true, if_false] <;> omega

end

theorem ascii_space {c : Char} (h : isJsonSpace c = true) : c.toNat < 128 := by
  simp only [isJsonSpace, Bool.or_eq_true, beq_iff_eq] at h
  rcases h with ((rfl | rfl) | rfl) | rfl <;> decide

theorem ascii_comma (sep : Separators) (first : Bool) :
    ∀ c ∈ (if first then [] else ',' :: sep.item), c.toNat < 128 := by
  cases first with
  | true => simp
  | false =>
    intro c hc
    rcases List.mem_cons.mp hc with rfl | hc
    · decide
    · exact ascii_space (sep.item_space c hc)

mutual

/-- A printed value is ASCII. -/
theorem ascii_dumps (sep : Separators) : ∀ v : Json, v.Printed floatRepr →
    ∀ c ∈ v.dumps sep, c.toNat < 128
  | .null, _ => by simp [Json.dumps]
  | .bool true, _ => by simp [Json.dumps]
  | .bool false, _ => by simp [Json.dumps]
  | .num text, h => by
    unfold Json.dumps
    rcases h with ⟨token, htoken, htext, -⟩ | rfl | rfl | rfl
    · rw [← htext]
      exact htoken.ascii
    all_goals simp
  | .str s, _ => ascii_dump s.toList
  | .arr items, h => by
    intro c hc
    simp only [Json.dumps, List.mem_cons, List.mem_append, List.not_mem_nil, or_false] at hc
    rcases hc with rfl | hc | rfl
    · decide
    · exact ascii_dumpsItems sep true items h c hc
    · decide
  | .obj fields, h => by
    intro c hc
    simp only [Json.dumps, List.mem_cons, List.mem_append, List.not_mem_nil, or_false] at hc
    rcases hc with rfl | hc | rfl
    · decide
    · exact ascii_dumpsFields sep true fields h.2 c hc
    · decide

theorem ascii_dumpsItems (sep : Separators) (first : Bool) : ∀ items : List Json,
    PrintedItems floatRepr items → ∀ c ∈ dumpsItems sep first items, c.toNat < 128
  | [], _ => by simp [dumpsItems]
  | v :: items, h => by
    intro c hc
    rw [dumpsItems, List.mem_append, List.mem_append] at hc
    rcases hc with hc | hc | hc
    · exact ascii_comma sep first c hc
    · exact ascii_dumps sep v h.1 c hc
    · exact ascii_dumpsItems sep false items h.2 c hc

theorem ascii_dumpsFields (sep : Separators) (first : Bool) : ∀ fields : List (String × Json),
    PrintedFields floatRepr fields → ∀ c ∈ dumpsFields sep first fields, c.toNat < 128
  | [], _ => by simp [dumpsFields]
  | (k, v) :: fields, h => by
    intro c hc
    simp only [dumpsFields, List.mem_append, List.mem_cons] at hc
    rcases hc with hc | hc | (rfl | hc) | hc | hc
    · exact ascii_comma sep first c hc
    · exact ascii_dump k.toList c hc
    · decide
    · exact ascii_space (sep.key_space c hc)
    · exact ascii_dumps sep v h.1 c hc
    · exact ascii_dumpsFields sep false fields h.2 c hc

end

end Loads

/-! ## Bytes -/

/-- `text.encode("utf-8")`. -/
def encodeUtf8 (text : List Char) : ByteArray :=
  (text.flatMap String.utf8EncodeChar).toByteArray

/-- `bytes.decode("utf-8")`; `none` is `UnicodeDecodeError`. -/
def decodeUtf8 (bytes : ByteArray) : Option (List Char) := bytes.utf8Decode?.map Array.toList

theorem decodeUtf8_encodeUtf8 (text : List Char) : decodeUtf8 (encodeUtf8 text) = some text := by
  have hdecode : (encodeUtf8 text).utf8Decode? = some text.toArray := List.utf8Decode?_utf8Encode
  rw [decodeUtf8, hdecode]
  rfl

theorem size_encodeUtf8_pos {text : List Char} (h : text ≠ []) : 0 < (encodeUtf8 text).size := by
  obtain ⟨c, rest, rfl⟩ := List.exists_cons_of_ne_nil h
  have hpos : 0 < (String.utf8EncodeChar c).length := by
    rw [String.length_utf8EncodeChar]
    exact c.utf8Size_pos
  rw [encodeUtf8, List.size_toByteArray, List.flatMap_cons, List.length_append]
  omega

/-- A text in ASCII takes one byte for each character. -/
theorem size_encodeUtf8 {text : List Char} (h : ∀ c ∈ text, c.toNat < 128) :
    (encodeUtf8 text).size = text.length := by
  have hone : ∀ c ∈ text, (String.utf8EncodeChar c).length = 1 := by
    intro c hc
    have hlt : c.toNat < 128 := h c hc
    rw [String.length_utf8EncodeChar, Char.utf8Size_eq_one_iff, UInt32.le_iff_toNat_le]
    exact Nat.le_of_lt_succ hlt
  rw [encodeUtf8, List.size_toByteArray, List.length_flatMap]
  clear h
  induction text with
  | nil => rfl
  | cons c text ih =>
    rw [List.map_cons, List.sum_cons, hone c List.mem_cons_self,
      ih fun c hc => hone c (List.mem_cons_of_mem _ hc), List.length_cons, Nat.add_comm]

/-- `len(json.dumps(value, separators=(",", ":")).encode("utf-8"))`. -/
theorem size_dumps {floatRepr : List Char → List Char} {v : Json} (h : v.Printed floatRepr) :
    (encodeUtf8 (v.dumps .compact)).size = v.dumpsLength := by
  rw [size_encodeUtf8 (ascii_dumps .compact v h), length_dumps]

end JobPipeline
