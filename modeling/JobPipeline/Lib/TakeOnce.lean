import Mathlib.Data.List.Dedup
import Mathlib.Data.List.Perm.Basic
import Mathlib.Logic.Function.Basic

/-!
# Taking entries out of a table

Keys are asked for one after another, and an entry that was taken is gone. Which entries are
taken depends on which keys are asked for, not on their order or on how often: only the order
in which the entries come out does.
-/

set_option autoImplicit false

universe u v

variable {κ : Type u} {ν : Type v} [DecidableEq κ]

/-- The entries that come out of the table `f` when the keys are asked for in turn. -/
def takeOnce (f : κ → Option ν) : List κ → List ν
  | [] => []
  | k :: rest =>
    match f k with
    | none => takeOnce f rest
    | some v => v :: takeOnce (Function.update f k none) rest

namespace takeOnce

theorem cons_of_none {f : κ → Option ν} {k : κ} (h : f k = none) (rest : List κ) :
    takeOnce f (k :: rest) = takeOnce f rest := by
  simp only [takeOnce, h]

theorem cons_of_some {f : κ → Option ν} {k : κ} {v : ν} (h : f k = some v) (rest : List κ) :
    takeOnce f (k :: rest) = v :: takeOnce (Function.update f k none) rest := by
  simp only [takeOnce, h]

/-- Without the entry of a key, it is as if the key were not asked for. -/
theorem filterMap_update_none (f : κ → Option ν) (k : κ) (keys : List κ) :
    keys.filterMap (Function.update f k none) = (keys.filter (· != k)).filterMap f := by
  induction keys with
  | nil => rfl
  | cons x rest ih =>
    by_cases hx : x = k
    · subst hx
      rw [List.filterMap_cons_none (Function.update_self ..), ih, List.filter_cons_of_neg (by simp)]
    · rw [List.filterMap_cons, Function.update_of_ne hx, List.filter_cons_of_pos (by simpa using hx),
        List.filterMap_cons, ih]

/-- **Each key that has an entry gives it once.** -/
theorem perm_filterMap (f : κ → Option ν) (keys : List κ) :
    (takeOnce f keys).Perm (keys.dedup.filterMap f) := by
  induction keys generalizing f with
  | nil => exact List.Perm.refl _
  | cons k rest ih =>
    cases hk : f k with
    | none =>
      rw [cons_of_none hk]
      by_cases hmem : k ∈ rest
      · rw [List.dedup_cons_of_mem hmem]
        exact ih f
      · rw [List.dedup_cons_of_notMem hmem, List.filterMap_cons_none hk]
        exact ih f
    | some v =>
      rw [cons_of_some hk]
      have hrest := ih (Function.update f k none)
      rw [filterMap_update_none] at hrest
      refine (hrest.cons v).trans ?_
      by_cases hmem : k ∈ rest
      · -- The key is asked for again; its entry comes out the first time.
        have hsplit : rest.dedup.Perm (k :: rest.dedup.filter (· != k)) := by
          rw [← List.Nodup.erase_eq_filter (List.nodup_dedup rest)]
          exact List.perm_cons_erase (List.mem_dedup.mpr hmem)
        rw [List.dedup_cons_of_mem hmem, ← List.filterMap_cons_some hk]
        exact (hsplit.filterMap f).symm
      · have hall : rest.dedup.filter (· != k) = rest.dedup := by
          rw [List.filter_eq_self]
          intro x hx
          rw [bne_iff_ne]
          rintro rfl
          exact hmem (List.mem_dedup.mp hx)
        rw [List.dedup_cons_of_notMem hmem, List.filterMap_cons_some hk, hall]

/-- **The order of the keys does not matter.** -/
theorem perm_of_perm (f : κ → Option ν) {keys keys' : List κ} (h : keys.Perm keys') :
    (takeOnce f keys).Perm (takeOnce f keys') :=
  (perm_filterMap f keys).trans ((h.dedup.filterMap f).trans (perm_filterMap f keys').symm)

end takeOnce
