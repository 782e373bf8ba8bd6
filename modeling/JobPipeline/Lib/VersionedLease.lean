import Mathlib.Logic.Function.Basic

/-!
# Leases granted by version

A resource is taken by whoever still holds a current view of it. It has a version and is open or
closed. A party may look while the resource is open and remembers the version it saw; however
much later, it acquires the resource if that version is still the current one, and acquiring
makes a new version. Anybody may close the resource at any time without a new version. The
holder lets go, and may reopen the resource while the version is within a bound.

Looking and acquiring are separate steps, so nothing makes the look current. What keeps two
parties from holding the resource together is that a view can only be current while nobody
holds it: `Exclusive` is that invariant, and it bounds the version as well.
-/

set_option autoImplicit false

universe u

structure VersionedLease (ι : Type u) where
  version : Nat
  isOpen : Bool
  /-- The version a party saw when it last looked, until it acts on it. -/
  view : ι → Option Nat
  holds : ι → Prop

namespace VersionedLease

variable {ι : Type u} {bound : Nat} {l l' : VersionedLease ι}

/-- Never acquired, and open. -/
def initial : VersionedLease ι := ⟨0, true, fun _ => none, fun _ => False⟩

section
variable [DecidableEq ι]

inductive Step (bound : Nat) : VersionedLease ι → VersionedLease ι → Prop where
  | look {l : VersionedLease ι} (i : ι) (isOpen : l.isOpen = true) :
      Step bound l { l with view := Function.update l.view i (some l.version) }
  | forget {l : VersionedLease ι} (i : ι) :
      Step bound l { l with view := Function.update l.view i none }
  | acquire {l : VersionedLease ι} (i : ι) (current : l.view i = some l.version) :
      Step bound l { version := l.version + 1, isOpen := false,
                     view := Function.update l.view i none,
                     holds := Function.update l.holds i True }
  | close {l : VersionedLease ι} : Step bound l { l with isOpen := false }
  | release {l : VersionedLease ι} (i : ι) (reopen : Bool) (held : l.holds i)
      (within : reopen = true → l.version ≤ bound) :
      Step bound l { l with isOpen := reopen, holds := Function.update l.holds i False }
  /-- The holder lets go and leaves the resource as it is. -/
  | retire {l : VersionedLease ι} (i : ι) :
      Step bound l { l with holds := Function.update l.holds i False }

end

/-- The invariant of a lease. -/
structure Exclusive (bound : Nat) (l : VersionedLease ι) : Prop where
  unique : ∀ i j, l.holds i → l.holds j → i = j
  open_free : l.isOpen = true → ∀ i, ¬ l.holds i
  view_le : ∀ i v, l.view i = some v → v ≤ l.version
  current_free : ∀ i, l.view i = some l.version → ∀ j, ¬ l.holds j
  open_le : l.isOpen = true → l.version ≤ bound
  view_bound : ∀ i v, l.view i = some v → v ≤ bound
  version_le : l.version ≤ bound + 1

theorem exclusive_initial : (initial : VersionedLease ι).Exclusive bound := by
  constructor <;> simp [initial]

variable [DecidableEq ι]

/-- A view of the resource after one party's has been set aside is one from before. -/
theorem view_of_update_none {view : ι → Option Nat} {i j : ι} {v : Nat}
    (h : Function.update view i none j = some v) : view j = some v := by
  by_cases hj : j = i
  · subst hj
    simp at h
  · rwa [Function.update_of_ne hj] at h

theorem holds_of_update_false {holds : ι → Prop} {i j : ι}
    (h : Function.update holds i False j) : j ≠ i ∧ holds j := by
  by_cases hj : j = i
  · subst hj
    simp at h
  · rw [Function.update_of_ne hj] at h
    exact ⟨hj, h⟩

/-- **Every step keeps the lease exclusive.** -/
theorem Exclusive.step (h : l.Exclusive bound) (hs : Step bound l l') : l'.Exclusive bound := by
  cases hs with
  | look i hopen =>
    have hview : ∀ j v, Function.update l.view i (some l.version) j = some v →
        v = l.version ∨ l.view j = some v := by
      intro j v hv
      by_cases hj : j = i
      · subst hj
        rw [Function.update_self, Option.some.injEq] at hv
        exact Or.inl hv.symm
      · rw [Function.update_of_ne hj] at hv
        exact Or.inr hv
    refine ⟨h.unique, h.open_free, ?_, ?_, h.open_le, ?_, h.version_le⟩
    · intro j v hv
      rcases hview j v hv with rfl | hv
      · exact Nat.le_refl _
      · exact h.view_le j v hv
    · intro j _
      exact h.open_free hopen
    · intro j v hv
      rcases hview j v hv with rfl | hv
      · exact h.open_le hopen
      · exact h.view_bound j v hv
  | forget i =>
    refine ⟨h.unique, h.open_free, ?_, ?_, h.open_le, ?_, h.version_le⟩
    · intro j v hv
      exact h.view_le j v (view_of_update_none hv)
    · intro j hj
      exact h.current_free j (view_of_update_none hj)
    · intro j v hv
      exact h.view_bound j v (view_of_update_none hv)
  | acquire i hcurrent =>
    -- Nobody held the resource, so the new holder is the only one.
    have hfree := h.current_free i hcurrent
    have honly : ∀ j, Function.update l.holds i True j → j = i := by
      intro j hj
      by_contra hne
      rw [Function.update_of_ne hne] at hj
      exact hfree j hj
    have hle := h.view_bound i _ hcurrent
    refine ⟨?_, by simp, ?_, ?_, by simp, ?_, by simpa using hle⟩
    · intro j k hj hk
      rw [honly j hj, honly k hk]
    · intro j v hv
      have := h.view_le j v (view_of_update_none hv)
      show v ≤ l.version + 1
      omega
    · intro j hj
      have := h.view_le j _ (view_of_update_none hj)
      exact absurd this (Nat.not_succ_le_self _)
    · intro j v hv
      exact h.view_bound j v (view_of_update_none hv)
  | close =>
    exact ⟨h.unique, by simp, h.view_le, h.current_free, by simp, h.view_bound, h.version_le⟩
  | release i reopen held within =>
    have hnone : ∀ j, ¬ Function.update l.holds i False j := by
      intro j hj
      obtain ⟨hne, hj⟩ := holds_of_update_false hj
      exact hne (h.unique j i hj held)
    exact ⟨fun j _ hj => absurd hj (hnone j), fun _ => hnone, h.view_le, fun _ _ => hnone, within,
      h.view_bound, h.version_le⟩
  | retire i =>
    refine ⟨?_, ?_, h.view_le, ?_, h.open_le, h.view_bound, h.version_le⟩
    · intro j k hj hk
      exact h.unique j k (holds_of_update_false hj).2 (holds_of_update_false hk).2
    · intro hopen j hj
      exact h.open_free hopen j (holds_of_update_false hj).2
    · intro j hv k hk
      exact h.current_free j hv k (holds_of_update_false hk).2

/-- A party sets its view aside or keeps it, and lets go or keeps holding. -/
theorem Exclusive.withdraw (h : l.Exclusive bound) (i : ι) {view : Option Nat} {holds : Prop}
    (hview : view = none ∨ view = l.view i) (hholds : ¬ holds ∨ (holds ↔ l.holds i)) :
    Exclusive bound { l with view := Function.update l.view i view
                             holds := Function.update l.holds i holds } := by
  have hforget : Exclusive bound { l with view := Function.update l.view i view } := by
    rcases hview with rfl | rfl
    · exact h.step (.forget i)
    · rwa [Function.update_eq_self]
  rcases hholds with hnot | hiff
  · rw [eq_false hnot]
    exact hforget.step (.retire i)
  · rw [propext hiff, Function.update_eq_self]
    exact hforget

end VersionedLease
