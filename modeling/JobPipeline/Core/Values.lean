import Mathlib.Algebra.GroupWithZero.Nat
import Mathlib.Data.List.Sort
import JobPipeline.Lib.Sorting

/-!
# Instants, identifiers and JSON values

The values every other module speaks of. An instant is an `Int`: a UTC `datetime` as the count
of microseconds since 0001-01-01T00:00:00Z. Python compares aware datetimes as instants, so two
aware datetimes with the same instant are the same value. The count is unbounded; `isDatetime` says
which instants Python's `datetime` has, and it is asked where a request can bring another one.
-/

set_option autoImplicit false

namespace JobPipeline

/-- `timedelta(seconds=n)`. -/
def seconds (n : Int) : Int := n * 1000000

/-- `timedelta(minutes=n)`. -/
def minutes (n : Int) : Int := seconds (n * 60)

/-- A `datetime` as a request may carry it: without a time zone, or aware, with what its clock shows
    and how far that is ahead of UTC. -/
inductive DateTime where
  | naive (reading : Int)
  | aware (reading utcOffset : Int)
deriving DecidableEq, Repr

/-- The instant of `repositories.ensure_aware`, which reads a naive datetime as UTC. The offset of an
    aware one is lost here: what prints a record has to say in which time zone it does. -/
def ensureAware : Option DateTime → Option Int
  | none => none
  | some (.naive reading) => some reading
  | some (.aware reading utcOffset) => some (reading - utcOffset)

/-- The years 1 to 9999 in UTC. A `datetime` whose reading is in them may stand for an instant that is
    not, and then has no counterpart in UTC. -/
def isDatetime (instant : Int) : Bool := 0 ≤ instant && instant < 315537897600000000

/-! ## UUIDs -/

/-- The canonical text of a UUID: 8-4-4-4-12 lower-case hexadecimal digits. -/
def isCanonicalUUID (text : String) : Bool :=
  text.toList.length == 36 &&
    text.toList.zipIdx.all fun (c, i) =>
      if i ∈ [8, 13, 18, 23] then c == '-' else c.isDigit || ('a' ≤ c && c ≤ 'f')

/-- A UUID, represented by its canonical text, which is also what `str` answers and what the
    database stores in its `String(36)` columns. -/
structure UUID where
  str : String
  canonical : isCanonicalUUID str = true
deriving DecidableEq

theorem UUID.ext {u v : UUID} (h : u.str = v.str) : u = v := by
  cases u; cases v; cases h; rfl

/-! ## JSON -/

/-- A JSON value as `json.loads` builds it. A number is kept as the text `json.dumps` prints. -/
inductive Json where
  | null
  | bool (b : Bool)
  | num (text : String)
  | str (s : String)
  | arr (items : List Json)
  | obj (fields : List (String × Json))

/-- A `dict[str, Any]` holding JSON values: payloads, results and error details. -/
abbrev JsonObject := List (String × Json)

/-- The characters `json.dumps` (with `ensure_ascii`) writes for one character of a string, by
    their number: the short escapes, `\uXXXX`, or a surrogate pair of them. -/
def escapedLength (c : Char) : Nat :=
  if c = '"' ∨ c = '\\' ∨ c = '\n' ∨ c = '\r' ∨ c = '\t' ∨ c.toNat = 8 ∨ c.toNat = 12 then 2
  else if 32 ≤ c.toNat ∧ c.toNat < 127 then 1
  else if c.toNat < 0x10000 then 6
  else 12

def dumpsLengthStr (s : String) : Nat := (s.toList.map escapedLength).sum + 2

mutual

/-- `len(json.dumps(v, separators=(",", ":")).encode("utf-8"))`; the text is ASCII, so its
    bytes are its characters. -/
def Json.dumpsLength : Json → Nat
  | .null => 4
  | .bool true => 4
  | .bool false => 5
  | .num text => text.length
  | .str s => dumpsLengthStr s
  | .arr items => 2 + (items.length - 1) + dumpsLengthItems items
  | .obj fields => 2 + (fields.length - 1) + dumpsLengthFields fields

def dumpsLengthItems : List Json → Nat
  | [] => 0
  | v :: rest => v.dumpsLength + dumpsLengthItems rest

def dumpsLengthFields : List (String × Json) → Nat
  | [] => 0
  | (k, v) :: rest => dumpsLengthStr k + 1 + v.dumpsLength + dumpsLengthFields rest

end

/-! ## Equality

`==` of two `dict`s does not see the order of their keys. -/

mutual

/-- The value with the keys of every object in order. -/
def Json.canonical : Json → Json
  | .arr items => .arr (canonicalItems items)
  | .obj fields => .obj (canonicalFields fields)
  | value => value

def canonicalItems : List Json → List Json
  | [] => []
  | v :: rest => v.canonical :: canonicalItems rest

def canonicalFields : List (String × Json) → List (String × Json)
  | [] => []
  | (k, v) :: rest =>
    (canonicalFields rest).orderedInsert (fun a b => a.1 ≤ b.1) (k, v.canonical)

end

theorem canonicalFields_eq_insertionSort (fields : List (String × Json)) :
    canonicalFields fields =
      (fields.map fun field => (field.1, field.2.canonical)).insertionSort
        fun a b => a.1 ≤ b.1 := by
  induction fields with
  | nil => rfl
  | cons field rest ih => simp [canonicalFields, ih]

/-- Two objects with the same entries in another order are equal. -/
theorem canonicalFields_perm {fields fields' : JsonObject} (h : fields.Perm fields')
    (distinct : (fields.map Prod.fst).Nodup) :
    canonicalFields fields = canonicalFields fields' := by
  rw [canonicalFields_eq_insertionSort, canonicalFields_eq_insertionSort]
  apply Sorting.insertionSort_eq_of_perm
  · apply Sorting.separates_of_nodup Prod.fst fun a b => String.le_antisymm
    simpa [List.map_map, Function.comp_def] using distinct
  · exact h.map _

end JobPipeline
