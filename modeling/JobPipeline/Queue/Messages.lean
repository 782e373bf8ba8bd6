import JobPipeline.Lib.HexText
import JobPipeline.Queue.Producer

/-!
# The job a message names

`UUID(payload["job_id"])` of `_process_message`, on whatever `json.loads` made of the message: the
value need not be an object, the object need not have the key, and what stands under the key need
not be a text. Of texts, `UUID` accepts more than it writes.
-/

set_option autoImplicit false

namespace JobPipeline

/-- `type(value).__name__`. -/
def Json.typeName : Json → String
  | .null => "NoneType"
  | .bool _ => "bool"
  | .num text => if text.toList.all fun c => c.isDigit || c == '-' then "int" else "float"
  | .str _ => "str"
  | .arr _ => "list"
  | .obj _ => "dict"

namespace UUID

/-- A digit as `str` writes it. -/
def isDigit (c : Char) : Bool := c.isDigit || ('a' ≤ c && c ≤ 'f')

/-- `str`: 32 digits, with hyphens. -/
def hyphenated (hex : List Char) : List Char :=
  hex.take 8 ++ '-' :: ((hex.drop 8).take 4 ++ '-' :: ((hex.drop 12).take 4 ++
    '-' :: ((hex.drop 16).take 4 ++ '-' :: hex.drop 20)))

/-- What `isCanonicalUUID` asks of each character. -/
def places (p : Char × Nat) : Bool := if p.2 ∈ [8, 13, 18, 23] then p.1 == '-' else isDigit p.1

theorem isCanonicalUUID_iff {text : String} : isCanonicalUUID text = true ↔
    text.toList.length = 36 ∧ text.toList.zipIdx.all places = true := by
  unfold isCanonicalUUID
  rw [Bool.and_eq_true, beq_iff_eq]
  rfl

/-- Digits, where no hyphen belongs. -/
theorem all_places {cs : List Char} {k : Nat} (hdigits : ∀ c ∈ cs, isDigit c = true)
    (hk : ∀ i, k ≤ i → i < k + cs.length → i ∉ [8, 13, 18, 23]) :
    (cs.zipIdx k).all places = true := by
  rw [List.all_eq_true]
  intro p hp
  obtain ⟨c, i⟩ := p
  obtain ⟨hle, hlt, hc⟩ := List.mem_zipIdx hp
  unfold places
  rw [if_neg (hk i hle hlt)]
  exact hdigits c (hc ▸ List.getElem_mem _)

theorem canonical_hyphenated {hex : List Char} (hlength : hex.length = 32)
    (hdigits : ∀ c ∈ hex, isDigit c = true) :
    isCanonicalUUID (String.ofList (hyphenated hex)) = true := by
  have hsegment : ∀ (n m : Nat), ∀ c ∈ (hex.drop n).take m, isDigit c = true := by
    intro n m c hc
    exact hdigits c (List.mem_of_mem_drop (List.mem_of_mem_take hc))
  have hfirst : ∀ c ∈ hex.take 8, isDigit c = true := hsegment 0 8
  have hlast : ∀ c ∈ hex.drop 20, isDigit c = true :=
    fun c hc => hdigits c (List.mem_of_mem_drop hc)
  rw [isCanonicalUUID_iff, String.toList_ofList]
  constructor
  · simp [hyphenated, hlength]
  · simp only [hyphenated, List.zipIdx_append, List.zipIdx_cons, List.all_append, List.all_cons,
      List.length_take, List.length_drop, hlength, Bool.and_eq_true]
    refine ⟨all_places hfirst ?_, rfl, all_places (hsegment 8 4) ?_, rfl,
      all_places (hsegment 12 4) ?_, rfl, all_places (hsegment 16 4) ?_, rfl, all_places hlast ?_⟩
    all_goals
      intro i hle hlt
      simp only [List.length_take, List.length_drop, hlength] at hle hlt
      simp only [List.mem_cons, List.not_mem_nil, or_false]
      omega

theorem isDigit_hexChar {d : Nat} (h : d < 16) : isDigit (PyStr.hexChar d) = true := by
  interval_cases d <;> decide

theorem exists_hexChar {c : Char} (h : isDigit c = true) : ∃ d < 16, PyStr.hexChar d = c := by
  unfold isDigit at h
  rw [Bool.or_eq_true, Bool.and_eq_true, decide_eq_true_eq, decide_eq_true_eq] at h
  rcases h with h | ⟨ha, hf⟩
  · simp only [Char.isDigit, Bool.and_eq_true, decide_eq_true_eq] at h
    have hlow : 48 ≤ c.toNat := h.1
    have hhigh : c.toNat ≤ 57 := h.2
    have hd : c.toNat - 48 < 10 := by omega
    refine ⟨c.toNat - 48, by omega, ?_⟩
    rw [PyStr.hexChar, if_pos hd, Nat.add_sub_cancel' hlow, Char.ofNat_toNat]
  · have hlow : 97 ≤ c.toNat := ha
    have hhigh : c.toNat ≤ 102 := hf
    have hd : ¬ c.toNat - 87 < 10 := by omega
    have hsum : 87 + (c.toNat - 87) = c.toNat := by omega
    refine ⟨c.toNat - 87, by omega, ?_⟩
    rw [PyStr.hexChar, if_neg hd, hsum, Char.ofNat_toNat]

theorem exists_map_hexChar {hex : List Char} (h : ∀ c ∈ hex, isDigit c = true) :
    ∃ ds : List Nat, (∀ d ∈ ds, d < 16) ∧ ds.map PyStr.hexChar = hex := by
  induction hex with
  | nil => exact ⟨[], by simp, rfl⟩
  | cons c cs ih =>
    obtain ⟨d, hd, rfl⟩ := exists_hexChar (h c List.mem_cons_self)
    obtain ⟨ds, hds, rfl⟩ := ih fun c hc => h c (List.mem_cons_of_mem _ hc)
    exact ⟨d :: ds, by simpa [hd] using hds, rfl⟩

/-- `UUID(int=n)`, for a number of at most 128 bits. -/
def ofNat (n : Nat) : UUID where
  str := String.ofList (hyphenated (PyStr.hexText 32 n))
  canonical := by
    apply canonical_hyphenated (PyStr.length_hexText 32 n)
    intro c hc
    obtain ⟨d, hd, rfl⟩ := PyStr.mem_hexText hc
    exact isDigit_hexChar hd

/-- `UUID(hex)` of a text. -/
def ofHex (text : String) : Except Exc UUID :=
  let hex := PyStr.removeAll "uuid:".toList (PyStr.removeAll "urn:".toList text.toList)
  let hex := PyStr.removeAll ['-'] (PyStr.stripOf ['\x7b', '\x7d'] hex)
  if hex.length ≠ 32 then .error (.valueError "badly formed hexadecimal UUID string")
  else match PyStr.int16 hex with
    | none => .error (.valueError
        ("invalid literal for int() with base 16: " ++ reprText (String.ofList hex)))
    | some n =>
      if 0 ≤ n ∧ n < 2 ^ 128 then .ok (ofNat n.toNat)
      else .error (.valueError "int is out of range (need a 128-bit value)")

/-! ### Reading what `str` writes -/

theorem hyphenated_append {a b c d e : List Char} (ha : a.length = 8) (hb : b.length = 4)
    (hc : c.length = 4) (hd : d.length = 4) :
    hyphenated (a ++ (b ++ (c ++ (d ++ e)))) =
      a ++ '-' :: (b ++ '-' :: (c ++ '-' :: (d ++ '-' :: e))) := by
  simp [hyphenated, List.drop_append, ha, hb, hc, hd, List.drop_eq_nil_of_le]

/-- A list cut at a place where its element is known. -/
theorem drop_cut {cs : List Char} {x : Char} (n m : Nat) (h : cs[n + m]? = some x) :
    cs.drop n = (cs.drop n).take m ++ x :: cs.drop (n + m + 1) := by
  obtain ⟨hlt, hx⟩ := List.getElem?_eq_some_iff.mp h
  have hrest : (cs.drop n).drop m = x :: cs.drop (n + m + 1) := by
    rw [List.drop_drop, List.drop_eq_getElem_cons hlt, hx]
  rw [← hrest, List.take_append_drop]

/-- The text of a UUID is 32 digits with hyphens. -/
theorem exists_hyphenated (u : UUID) : ∃ hex, hex.length = 32 ∧ (∀ c ∈ hex, isDigit c = true) ∧
    u.str.toList = hyphenated hex := by
  obtain ⟨hlength, hplaces⟩ := isCanonicalUUID_iff.mp u.canonical
  generalize u.str.toList = cs at *
  have hplace : ∀ i (hi : i < cs.length), places (cs[i], i) = true := by
    intro i hi
    exact List.all_eq_true.mp hplaces _ (List.mem_zipIdx_iff_getElem?.mpr (by simp [hi]))
  have hhyphen : ∀ i ∈ [8, 13, 18, 23], cs[i]? = some '-' := by
    intro i hi
    have hlt : i < cs.length := by
      rw [hlength]
      exact (by decide : ∀ i ∈ [8, 13, 18, 23], i < 36) i hi
    have h := hplace i hlt
    unfold places at h
    rw [if_pos hi, beq_iff_eq] at h
    exact List.getElem?_eq_some_iff.mpr ⟨hlt, h⟩
  have hsegment : ∀ n m, (∀ i < m, n + i ∉ [8, 13, 18, 23]) →
      ∀ c ∈ (cs.drop n).take m, isDigit c = true := by
    intro n m hnm c hc
    obtain ⟨i, hi, rfl⟩ := List.mem_iff_getElem.mp hc
    rw [List.length_take, List.length_drop] at hi
    have h := hplace (n + i) (by omega)
    unfold places at h
    rw [if_neg (hnm i (by omega))] at h
    simpa using h
  refine ⟨(cs.drop 0).take 8 ++ ((cs.drop 9).take 4 ++ ((cs.drop 14).take 4 ++
    ((cs.drop 19).take 4 ++ (cs.drop 24).take 12))), by simp [hlength], ?_, ?_⟩
  · intro c hc
    simp only [List.mem_append] at hc
    rcases hc with hc | hc | hc | hc | hc
    · exact hsegment 0 8 (by decide) c hc
    · exact hsegment 9 4 (by decide) c hc
    · exact hsegment 14 4 (by decide) c hc
    · exact hsegment 19 4 (by decide) c hc
    · exact hsegment 24 12 (by decide) c hc
  · have hlast : (cs.drop 24).take 12 = cs.drop 24 := List.take_of_length_le (by simp [hlength])
    rw [hyphenated_append (by simp [hlength]) (by simp [hlength]) (by simp [hlength])
      (by simp [hlength]), hlast, ← drop_cut 19 4 (hhyphen 23 (by decide)),
      ← drop_cut 14 4 (hhyphen 18 (by decide)), ← drop_cut 9 4 (hhyphen 13 (by decide)),
      ← drop_cut 0 8 (hhyphen 8 (by decide)), List.drop_zero]

theorem mem_hyphenated {hex : List Char} {c : Char} (h : c ∈ hyphenated hex) :
    c = '-' ∨ c ∈ hex := by
  simp only [hyphenated, List.mem_append, List.mem_cons] at h
  rcases h with h | rfl | h | rfl | h | rfl | h | rfl | h
  · exact Or.inr (List.mem_of_mem_take h)
  · exact Or.inl rfl
  · exact Or.inr (List.mem_of_mem_drop (List.mem_of_mem_take h))
  · exact Or.inl rfl
  · exact Or.inr (List.mem_of_mem_drop (List.mem_of_mem_take h))
  · exact Or.inl rfl
  · exact Or.inr (List.mem_of_mem_drop (List.mem_of_mem_take h))
  · exact Or.inl rfl
  · exact Or.inr (List.mem_of_mem_drop h)

theorem filter_hyphenated {hex : List Char} (h : '-' ∉ hex) :
    (hyphenated hex).filter (· != '-') = hex := by
  have hparts : hex.take 8 ++ ((hex.drop 8).take 4 ++ ((hex.drop 12).take 4 ++
      ((hex.drop 16).take 4 ++ hex.drop 20))) = hex := by
    have hjoin : ∀ n m, (hex.drop n).take m ++ hex.drop (n + m) = hex.drop n := by
      intro n m
      rw [← List.drop_drop, List.take_append_drop]
    rw [hjoin 16 4, hjoin 12 4, hjoin 8 4, List.take_append_drop]
  have hself : hex.filter (· != '-') = hex := by
    rw [List.filter_eq_self]
    intro c hc
    rw [bne_iff_ne]
    rintro rfl
    exact h hc
  calc (hyphenated hex).filter (· != '-')
      = (hex.take 8 ++ ((hex.drop 8).take 4 ++ ((hex.drop 12).take 4 ++
          ((hex.drop 16).take 4 ++ hex.drop 20)))).filter (· != '-') := by
        simp [hyphenated, List.filter_append]
    _ = hex := by rw [hparts, hself]

/-- **`UUID` reads what `str` writes.** -/
theorem ofHex_str (u : UUID) : ofHex u.str = .ok u := by
  obtain ⟨hex, hlength, hdigits, htext⟩ := u.exists_hyphenated
  obtain ⟨ds, hds, rfl⟩ := exists_map_hexChar hdigits
  have hne : ∀ c ∈ u.str.toList, c ≠ 'u' ∧ c ≠ '\x7b' ∧ c ≠ '\x7d' := by
    intro c hc
    rw [htext] at hc
    rcases mem_hyphenated hc with rfl | hc
    · decide
    · have hc := hdigits c hc
      refine ⟨?_, ?_, ?_⟩ <;> rintro rfl <;> exact absurd hc (by decide)
  have hu : 'u' ∉ u.str.toList := fun hmem => (hne 'u' hmem).1 rfl
  have hstrip : PyStr.stripOf ['\x7b', '\x7d'] u.str.toList = u.str.toList := by
    apply PyStr.stripBy_eq_self
    intro c hc
    obtain ⟨-, hopen, hclose⟩ := hne c hc
    simp [hopen, hclose]
  have hhyphen : '-' ∉ ds.map PyStr.hexChar := fun hmem => absurd (hdigits '-' hmem) (by decide)
  have hremove : PyStr.removeAll ['-'] u.str.toList = ds.map PyStr.hexChar := by
    rw [PyStr.removeAll_singleton, htext, filter_hyphenated hhyphen]
  rw [List.length_map] at hlength
  have hds0 : ds ≠ [] := by
    rintro rfl
    cases hlength
  have hlt : PyStr.hexNumber ds < 16 ^ 32 := hlength ▸ PyStr.hexNumber_lt hds
  have hread : ofNat (PyStr.hexNumber ds) = u := by
    apply UUID.ext
    have htext' := PyStr.hexText_hexNumber hds
    rw [hlength] at htext'
    show String.ofList (hyphenated (PyStr.hexText 32 (PyStr.hexNumber ds))) = u.str
    rw [htext', ← htext, String.ofList_toList]
  unfold ofHex
  have hurn : PyStr.removeAll "urn:".toList u.str.toList = u.str.toList :=
    PyStr.removeAll_of_not_mem hu
  have huuid : PyStr.removeAll "uuid:".toList u.str.toList = u.str.toList :=
    PyStr.removeAll_of_not_mem hu
  simp only [hurn, huuid, hstrip, hremove, List.length_map, hlength, ne_eq, not_true, if_false,
    PyStr.int16_map hds hds0]
  rw [if_pos ⟨by omega, by omega⟩, Int.toNat_natCast, hread]

end UUID

/-- `UUID(payload["job_id"])`. -/
def messageJobId : Json → Except Exc UUID
  | .obj fields =>
    match fields.lookup "job_id" with
    | none => .error (.keyError "job_id")
    | some (.str text) => UUID.ofHex text
    | some .null => .error (.other "TypeError"
        "one of the hex, bytes, bytes_le, fields, or int arguments must be given")
    | some value => .error (.other "AttributeError"
        ("'" ++ value.typeName ++ "' object has no attribute 'replace'"))
  | .arr _ => .error (.other "TypeError" "list indices must be integers or slices, not str")
  | .str _ => .error (.other "TypeError" "string indices must be integers, not 'str'")
  | value => .error (.other "TypeError" ("'" ++ value.typeName ++ "' object is not subscriptable"))

/-- The payload `publish_job` sends; `isoformat` is that of `datetime`. -/
def JobMessage.value (isoformat : Int → String) (message : JobMessage) : Json :=
  .obj [("job_id", .str message.jobId.str), ("handler", .str message.handler),
    ("attempt", .num (toString message.attempt)), ("due_at", .str (isoformat message.dueAt))]

/-- **A message of the producer names its job.** -/
theorem messageJobId_value (isoformat : Int → String) (message : JobMessage) :
    messageJobId (message.value isoformat) = .ok message.jobId :=
  message.jobId.ofHex_str

end JobPipeline
