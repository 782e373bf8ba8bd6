import Mathlib.Data.List.Sort
import Mathlib.Data.List.Dedup
import Mathlib.Data.List.Nodup

/-!
# Sorting rows that a key tells apart

Two programs that sort the same rows agree when the order determines the result: when no two
rows precede each other. They may then start from different arrangements of the rows, and sort
before or after they filter.

In a sorted list an element's place says how many elements are not greater
(`succ_le_countP_of_sorted`).
-/

set_option autoImplicit false

universe u v

namespace Sorting

variable {α : Type u} {r : α → α → Prop} {l l' : List α}

/-- No two elements of the list precede each other. -/
def Separates (r : α → α → Prop) (l : List α) : Prop :=
  ∀ a ∈ l, ∀ b ∈ l, r a b → r b a → a = b

theorem Separates.sublist (h : Separates r l) (hsub : ∀ a ∈ l', a ∈ l) : Separates r l' :=
  fun a ha b hb => h a (hsub a ha) b (hsub b hb)

/-- An order whose ties are ties of a key separates a list without repeated keys. -/
theorem separates_of_nodup {κ : Type v} (key : α → κ)
    (hkey : ∀ a b, r a b → r b a → key a = key b) (hnodup : (l.map key).Nodup) :
    Separates r l := by
  intro a ha b hb hab hba
  exact List.inj_on_of_nodup_map hnodup ha hb (hkey a b hab hba)

/-- **Sorting is stable**: elements that all precede each other keep their order. -/
theorem filter_insertionSort_of_ties [DecidableRel r] (p : α → Bool)
    (hties : ∀ a ∈ l, ∀ b ∈ l, p a = true → p b = true → r a b) :
    (l.insertionSort r).filter p = l.filter p := by
  have hpairwise : (l.filter p).Pairwise r := by
    refine List.pairwise_of_forall_mem_list ?_
    intro a ha b hb
    obtain ⟨ha, hpa⟩ := List.mem_filter.mp ha
    obtain ⟨hb, hpb⟩ := List.mem_filter.mp hb
    exact hties a ha b hb hpa hpb
  have hsub : (l.filter p).Sublist ((l.insertionSort r).filter p) := by
    have hfilter := (List.sublist_insertionSort hpairwise List.filter_sublist).filter p
    simpa only [List.filter_filter, Bool.and_self] using hfilter
  have hlength : (l.filter p).length = ((l.insertionSort r).filter p).length :=
    ((List.perm_insertionSort r l).filter p).length_eq.symm
  exact (hsub.eq_of_length hlength).symm

variable [DecidableRel r] [Std.Total r] [IsTrans α r]

/-- A sorted arrangement of the rows is what sorting them gives. -/
theorem eq_insertionSort_of_perm (hsep : Separates r l) (hsorted : l.Pairwise r)
    (hperm : l.Perm l') : l = l'.insertionSort r := by
  have hanti : ∀ a b, a ∈ l → b ∈ l'.insertionSort r → r a b → r b a → a = b := by
    intro a b ha hb hab hba
    have hb' : b ∈ l := hperm.mem_iff.mpr ((List.mem_insertionSort r).mp hb)
    exact hsep a ha b hb' hab hba
  exact List.Perm.eq_of_pairwise hanti hsorted (List.pairwise_insertionSort r l')
    (hperm.trans (List.perm_insertionSort r l').symm)

/-- **Sorting forgets the arrangement.** -/
theorem insertionSort_eq_of_perm (hsep : Separates r l) (hperm : l.Perm l') :
    l.insertionSort r = l'.insertionSort r := by
  apply eq_insertionSort_of_perm
  · exact hsep.sublist fun a ha => (List.mem_insertionSort r).mp ha
  · exact List.pairwise_insertionSort r l
  · exact (List.perm_insertionSort r l).trans hperm

/-- **Sorting and then filtering is filtering and then sorting.** -/
theorem filter_insertionSort_of_perm (p : α → Bool) (hsep : Separates r l) (hperm : l.Perm l') :
    (l.insertionSort r).filter p = (l'.filter p).insertionSort r := by
  apply eq_insertionSort_of_perm
  · exact hsep.sublist fun a ha => (List.mem_insertionSort r).mp (List.mem_of_mem_filter ha)
  · exact (List.pairwise_insertionSort r l).filter p
  · exact ((List.perm_insertionSort r l).trans hperm).filter p

/-! ## Ranks -/

section Rank

variable {κ : Type v} [LinearOrder κ] {values : List κ} {i : Nat}

/-- The first `i + 1` elements are not greater than the one at place `i`. -/
theorem succ_le_countP_of_sorted (hsorted : values.Pairwise (· ≤ ·)) (hi : i < values.length) :
    i + 1 ≤ values.countP (· ≤ values[i]) := by
  have hfirst : (values.take (i + 1)).countP (· ≤ values[i]) = i + 1 := by
    have hlength : (values.take (i + 1)).length = i + 1 := by
      rw [List.length_take]
      omega
    rw [List.countP_eq_length.mpr, hlength]
    intro x hx
    obtain ⟨j, hj, rfl⟩ := List.getElem_of_mem hx
    rw [List.getElem_take, decide_eq_true_eq]
    rcases Nat.lt_succ_iff_lt_or_eq.mp (hlength ▸ hj) with hlt | rfl
    · exact List.pairwise_iff_getElem.mp hsorted j i _ hi hlt
    · exact le_refl _
  exact hfirst.symm.le.trans (List.take_sublist _ _).countP_le

/-- Among different elements there are no more than these. -/
theorem countP_eq_succ_of_sorted (hsorted : values.Pairwise (· < ·)) (hi : i < values.length) :
    values.countP (· ≤ values[i]) = i + 1 := by
  have hrest : (values.drop (i + 1)).countP (· ≤ values[i]) = 0 := by
    rw [List.countP_eq_zero]
    intro x hx
    obtain ⟨j, hj, rfl⟩ := List.getElem_of_mem hx
    rw [List.getElem_drop, decide_eq_true_eq, not_le]
    rw [List.length_drop] at hj
    exact List.pairwise_iff_getElem.mp hsorted i (i + 1 + j) hi (by omega) (by omega)
  have hfirst : (values.take (i + 1)).countP (· ≤ values[i]) ≤ i + 1 :=
    List.countP_le_length.trans (List.length_take_le _ _)
  have hsplit : values.countP (· ≤ values[i]) = (values.take (i + 1)).countP (· ≤ values[i]) +
      (values.drop (i + 1)).countP (· ≤ values[i]) := by
    rw [← List.countP_append, List.take_append_drop]
  have hle := succ_le_countP_of_sorted (hsorted.imp le_of_lt) hi
  omega

end Rank

end Sorting
