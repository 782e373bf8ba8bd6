import Mathlib.Algebra.GroupWithZero.Nat
import Mathlib.Data.List.Nodup
import Mathlib.Logic.Function.Basic

/-!
# Insertion-ordered dictionaries

The dictionary of Python: a list of entries with distinct keys, in the order in which the keys
were first inserted. Assigning to a present key replaces the value where it stands; assigning
to a new key appends. That the keys are distinct is a field, so a lookup never has to choose.
-/

set_option autoImplicit false

universe u v w

/-- A dictionary from `κ` to `ν`, in insertion order. -/
structure Dict (κ : Type u) (ν : Type v) where
  entries : List (κ × ν)
  nodupKeys : (entries.map Prod.fst).Nodup

namespace Dict

variable {κ : Type u} {ν : Type v} {μ : Type w}

theorem ext {d d' : Dict κ ν} (h : d.entries = d'.entries) : d = d' := by
  cases d; cases d'; cases h; rfl

/-- The dictionary with no entry. -/
def empty : Dict κ ν := ⟨[], List.nodup_nil⟩

def keys (d : Dict κ ν) : List κ := d.entries.map Prod.fst

/-- The values, in insertion order of their keys. -/
def values (d : Dict κ ν) : List ν := d.entries.map Prod.snd

/-- The entries after `entries[k] = v`. -/
def insertEntry [DecidableEq κ] (k : κ) (v : ν) : List (κ × ν) → List (κ × ν)
  | [] => [(k, v)]
  | (k', v') :: rest => if k' = k then (k, v) :: rest else (k', v') :: insertEntry k v rest

theorem mem_keys_insertEntry [DecidableEq κ] {k x : κ} {v : ν} :
    ∀ {l : List (κ × ν)}, x ∈ (insertEntry k v l).map Prod.fst → x = k ∨ x ∈ l.map Prod.fst
  | [], h => Or.inl (by simpa [insertEntry] using h)
  | (k', v') :: rest, h => by
    by_cases hk : k' = k
    · subst hk
      simp only [insertEntry, if_true] at h
      exact Or.inr (by simpa using h)
    · simp only [insertEntry, if_neg hk, List.map_cons, List.mem_cons] at h ⊢
      rcases h with h | h
      · exact Or.inr (Or.inl h)
      · rcases mem_keys_insertEntry h with h | h
        · exact Or.inl h
        · exact Or.inr (Or.inr h)

theorem nodup_insertEntry [DecidableEq κ] (k : κ) (v : ν) :
    ∀ {l : List (κ × ν)}, (l.map Prod.fst).Nodup → ((insertEntry k v l).map Prod.fst).Nodup
  | [], _ => by simp [insertEntry]
  | (k', v') :: rest, h => by
    by_cases hk : k' = k
    · subst hk; simpa [insertEntry] using h
    · simp only [insertEntry, if_neg hk, List.map_cons, List.nodup_cons] at h ⊢
      refine ⟨fun hmem => ?_, nodup_insertEntry k v h.2⟩
      rcases mem_keys_insertEntry hmem with heq | hmem
      · exact hk heq
      · exact h.1 hmem

/-- A new key goes to the end. -/
theorem insertEntry_of_not_mem [DecidableEq κ] {k : κ} (v : ν) :
    ∀ {l : List (κ × ν)}, k ∉ l.map Prod.fst → insertEntry k v l = l ++ [(k, v)]
  | [], _ => rfl
  | (k', v') :: rest, h => by
    rw [List.map_cons, List.mem_cons, not_or] at h
    rw [insertEntry, if_neg (Ne.symm h.1), insertEntry_of_not_mem v h.2, List.cons_append]

/-- Inserting entries with distinct keys one after another. -/
theorem foldl_insertEntry [DecidableEq κ] {l done : List (κ × ν)}
    (h : ((done ++ l).map Prod.fst).Nodup) :
    l.foldl (fun d e => insertEntry e.1 e.2 d) done = done ++ l := by
  induction l generalizing done with
  | nil => rw [List.foldl_nil, List.append_nil]
  | cons e rest ih =>
    have hnew : e.1 ∉ done.map Prod.fst := by
      rw [List.map_append, List.map_cons, List.nodup_append] at h
      intro hmem
      exact h.2.2 e.1 hmem e.1 List.mem_cons_self rfl
    have hsplit : done ++ e :: rest = done ++ [e] ++ rest := by simp
    rw [List.foldl_cons, insertEntry_of_not_mem e.2 hnew, hsplit, ih (hsplit ▸ h)]

section
variable [DecidableEq κ]

/-- `d.get(k)`. -/
def get? (d : Dict κ ν) (k : κ) : Option ν := d.entries.lookup k

/-- `k in d`. -/
def contains (d : Dict κ ν) (k : κ) : Bool := (d.get? k).isSome

/-- `d[k] = v`. -/
def insert (d : Dict κ ν) (k : κ) (v : ν) : Dict κ ν :=
  ⟨insertEntry k v d.entries, nodup_insertEntry k v d.nodupKeys⟩

/-- Rewrite the value at `k`, if there is one. -/
def modify (d : Dict κ ν) (k : κ) (f : ν → ν) : Dict κ ν :=
  match d.get? k with
  | some v => d.insert k (f v)
  | none => d

/-- `List.lookup` reads with `==`; this is the same step with an equation. -/
theorem lookup_cons_eq (x k : κ) (v : ν) (rest : List (κ × ν)) :
    ((k, v) :: rest).lookup x = if x = k then some v else rest.lookup x := by
  by_cases h : x = k
  · subst h; simp
  · have hb : (x == k) = false := beq_eq_false_iff_ne.mpr h
    simp [List.lookup_cons, hb, h]

@[simp] theorem get?_empty (k : κ) : (empty : Dict κ ν).get? k = none := rfl

theorem lookup_insertEntry (k x : κ) (v : ν) : ∀ l : List (κ × ν),
    (insertEntry k v l).lookup x = if x = k then some v else l.lookup x
  | [] => lookup_cons_eq x k v []
  | (k', v') :: rest => by
    by_cases hk : k' = k
    · subst hk
      by_cases hx : x = k' <;> simp [insertEntry, lookup_cons_eq, hx]
    · by_cases hx : x = k'
      · subst hx; simp [insertEntry, hk]
      · simp [insertEntry, hk, lookup_cons_eq, hx, lookup_insertEntry k x v rest]

theorem get?_insert (d : Dict κ ν) (k x : κ) (v : ν) :
    (d.insert k v).get? x = if x = k then some v else d.get? x :=
  lookup_insertEntry k x v d.entries

@[simp] theorem get?_insert_self (d : Dict κ ν) (k : κ) (v : ν) :
    (d.insert k v).get? k = some v := by simp [get?_insert]

/-- Assignment, read as an update of the lookup function. -/
theorem get?_insert_fun (d : Dict κ ν) (k : κ) (v : ν) :
    (d.insert k v).get? = Function.update d.get? k (some v) := by
  funext x
  rw [get?_insert, Function.update_apply]

theorem get?_insert_of_ne (d : Dict κ ν) {k x : κ} (v : ν) (h : x ≠ k) :
    (d.insert k v).get? x = d.get? x := by simp [get?_insert, h]

/-- Assigning to a key removes none. -/
theorem contains_insert_of_contains {d : Dict κ ν} {x : κ} (k : κ) (v : ν)
    (h : d.contains x = true) : (d.insert k v).contains x = true := by
  rw [contains, get?_insert]
  split
  · rfl
  · exact h

/-- A key that is absent is none of those present. -/
theorem ne_of_get?_eq_none {d : Dict κ ν} {k k' : κ} {v : ν} (hnone : d.get? k = none)
    (hsome : d.get? k' = some v) : k ≠ k' := by
  intro heq
  rw [heq, hsome] at hnone
  cases hnone

theorem modify_eq_insert {d : Dict κ ν} {k : κ} {v : ν} (f : ν → ν) (h : d.get? k = some v) :
    d.modify k f = d.insert k (f v) := by simp [modify, h]

theorem get?_modify (d : Dict κ ν) (k x : κ) (f : ν → ν) :
    (d.modify k f).get? x = if x = k then (d.get? x).map f else d.get? x := by
  unfold modify
  cases hk : d.get? k with
  | none => by_cases hx : x = k <;> simp [hx, hk]
  | some v => by_cases hx : x = k <;> simp [get?_insert, hx, hk]

@[simp] theorem get?_modify_self (d : Dict κ ν) (k : κ) (f : ν → ν) :
    (d.modify k f).get? k = (d.get? k).map f := by simp [get?_modify]

theorem get?_modify_of_ne (d : Dict κ ν) {k x : κ} (f : ν → ν) (h : x ≠ k) :
    (d.modify k f).get? x = d.get? x := by simp [get?_modify, h]

theorem contains_eq_false_iff {d : Dict κ ν} {k : κ} : d.contains k = false ↔ d.get? k = none := by
  simp [contains]

/-- Lookup answers exactly the entries: the keys are distinct. -/
theorem mem_entries_iff {d : Dict κ ν} {k : κ} {v : ν} :
    (k, v) ∈ d.entries ↔ d.get? k = some v := by
  obtain ⟨l, hl⟩ := d
  show (k, v) ∈ l ↔ l.lookup k = some v
  induction l with
  | nil => simp
  | cons e rest ih =>
    obtain ⟨k', v'⟩ := e
    simp only [List.map_cons, List.nodup_cons] at hl
    by_cases hk : k = k'
    · subst hk
      simp only [List.lookup_cons_self, List.mem_cons, Prod.mk.injEq, true_and, Option.some.injEq]
      constructor
      · intro h
        rcases h with h | h
        · exact h.symm
        · exact absurd (List.mem_map_of_mem (f := Prod.fst) h) hl.1
      · intro h; exact Or.inl h.symm
    · simp [lookup_cons_eq, hk, ih hl.2]

theorem mem_values_iff {d : Dict κ ν} {v : ν} : v ∈ d.values ↔ ∃ k, d.get? k = some v := by
  constructor
  · intro h
    obtain ⟨⟨k, v'⟩, hmem, rfl⟩ := List.mem_map.mp h
    exact ⟨k, mem_entries_iff.mp hmem⟩
  · intro h
    obtain ⟨k, h⟩ := h
    exact List.mem_map.mpr ⟨(k, v), mem_entries_iff.mpr h, rfl⟩

end

/-! ## Mapping the values -/

/-- The dictionary with every value sent through `f`. -/
def map (f : ν → μ) (d : Dict κ ν) : Dict κ μ :=
  ⟨d.entries.map fun e => (e.1, f e.2), by simpa [Function.comp_def] using d.nodupKeys⟩

@[simp] theorem values_map (f : ν → μ) (d : Dict κ ν) : (d.map f).values = d.values.map f := by
  simp [map, values]

variable [DecidableEq κ]

@[simp] theorem get?_map (f : ν → μ) (d : Dict κ ν) (k : κ) :
    (d.map f).get? k = (d.get? k).map f := by
  obtain ⟨l, hl⟩ := d
  show (l.map fun e => (e.1, f e.2)).lookup k = (l.lookup k).map f
  clear hl
  induction l with
  | nil => rfl
  | cons e rest ih =>
    obtain ⟨k', v⟩ := e
    by_cases hk : k = k' <;> simp [lookup_cons_eq, hk, ih]

theorem insertEntry_map (f : ν → μ) (k : κ) (v : ν) : ∀ l : List (κ × ν),
    (insertEntry k v l).map (fun e => (e.1, f e.2)) =
      insertEntry k (f v) (l.map fun e => (e.1, f e.2))
  | [] => rfl
  | (k', v') :: rest => by
    by_cases hk : k' = k <;> simp [insertEntry, hk, insertEntry_map f k v rest]

theorem insert_map (f : ν → μ) (d : Dict κ ν) (k : κ) (v : ν) :
    (d.insert k v).map f = (d.map f).insert k (f v) :=
  ext (insertEntry_map f k v d.entries)

/-! ## Adding up the values -/

/-- Dictionaries that answer every lookup alike hold the same values, in some order. -/
theorem values_perm {d d' : Dict κ ν} (h : d'.get? = d.get?) : d'.values.Perm d.values := by
  have hentries : d'.entries.Perm d.entries := by
    rw [List.perm_ext_iff_of_nodup (d'.nodupKeys.of_map _) (d.nodupKeys.of_map _)]
    intro e
    rw [mem_entries_iff, mem_entries_iff, h]
  exact hentries.map Prod.snd

theorem perm_insertEntry {k : κ} {v : ν} {l : List (κ × ν)} (h : l.lookup k = some v) :
    ∃ rest, (l.map Prod.snd).Perm (v :: rest) ∧
      ∀ v', ((insertEntry k v' l).map Prod.snd).Perm (v' :: rest) := by
  induction l with
  | nil => cases h
  | cons e tail ih =>
    obtain ⟨k₀, v₀⟩ := e
    rw [lookup_cons_eq] at h
    by_cases hk : k = k₀
    · subst hk
      rw [if_pos rfl, Option.some.injEq] at h
      subst h
      refine ⟨tail.map Prod.snd, .refl _, fun v' => ?_⟩
      rw [insertEntry, if_pos rfl, List.map_cons]
    · rw [if_neg hk] at h
      obtain ⟨rest, hbefore, hafter⟩ := ih h
      refine ⟨v₀ :: rest, (hbefore.cons v₀).trans (.swap v v₀ rest), fun v' => ?_⟩
      rw [insertEntry, if_neg (Ne.symm hk), List.map_cons]
      exact ((hafter v').cons v₀).trans (.swap v' v₀ rest)

/-- The values with one of them set apart, and those after it is replaced. -/
theorem values_split {d : Dict κ ν} {k : κ} {v : ν} (h : d.get? k = some v) :
    ∃ rest, d.values.Perm (v :: rest) ∧ ∀ v', (d.insert k v').values.Perm (v' :: rest) :=
  perm_insertEntry h

theorem values_insert_fresh {d : Dict κ ν} {k : κ} (v : ν) (h : d.get? k = none) :
    (d.insert k v).values.Perm (v :: d.values) := by
  have hnew : k ∉ d.entries.map Prod.fst := by
    intro hmem
    obtain ⟨⟨k', v'⟩, hentry, rfl⟩ := List.mem_map.mp hmem
    rw [mem_entries_iff.mp hentry] at h
    cases h
  show ((insertEntry k v d.entries).map Prod.snd).Perm (v :: d.values)
  rw [insertEntry_of_not_mem v hnew, List.map_append]
  exact List.perm_append_singleton v _

/-- Where one value is replaced, the sum changes by what replaces it. -/
theorem sum_values_update (f : ν → Nat) {d d' : Dict κ ν} {k : κ} {v v' : ν}
    (h : d.get? k = some v) (h' : d'.get? = Function.update d.get? k (some v')) :
    (d'.values.map f).sum + f v = (d.values.map f).sum + f v' := by
  obtain ⟨rest, hbefore, hafter⟩ := values_split h
  have hperm : d'.values.Perm (v' :: rest) :=
    (values_perm (h'.trans (get?_insert_fun d k v').symm)).trans (hafter v')
  rw [(hperm.map f).sum_nat, (hbefore.map f).sum_nat, List.map_cons, List.map_cons, List.sum_cons,
    List.sum_cons]
  omega

end Dict
