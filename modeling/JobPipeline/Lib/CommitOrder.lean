import JobPipeline.Lib.Lockstep
import JobPipeline.Lib.Transition

/-!
# Runs in the order of their commits

A system whose calls take many small steps, beside a machine that answers a call at once. Some steps
of the system commit a call. If each of them does to the store what the machine does for the whole
call, and no other step touches the store, then the store is that of a machine that was given the
calls one at a time, in the order of their commits.
-/

set_option autoImplicit false

universe u v w x y

namespace Transition

variable {σ : Type u} {α : Type v} {γ : Type w} {β : Type x} {τ : Type y}

/-- A run whose steps all met the guard, and the calls its steps committed, in order. -/
inductive CommitOrder (sys : System σ α) (ok : σ → α → Prop) (commits : σ → α → γ → Prop) :
    σ → List γ → Prop where
  | init {s : σ} (init : sys.init s) : CommitOrder sys ok commits s []
  | silent {s s' : σ} {a : α} {calls : List γ} (before : CommitOrder sys ok commits s calls)
      (guard : ok s a) (step : sys.step s a s') (silent : ∀ call, ¬ commits s a call) :
      CommitOrder sys ok commits s' calls
  | commit {s s' : σ} {a : α} {calls : List γ} {call : γ}
      (before : CommitOrder sys ok commits s calls) (guard : ok s a) (step : sys.step s a s')
      (committed : commits s a call) : CommitOrder sys ok commits s' (calls ++ [call])

variable {sys : System σ α} {ok : σ → α → Prop} {commits : σ → α → γ → Prop} {s : σ}
  {calls : List γ}

theorem CommitOrder.reachable (h : CommitOrder sys ok commits s calls) : sys.Reachable ok s := by
  induction h with
  | init init => exact .init init
  | silent _ guard step _ ih => exact ih.tail guard step
  | commit _ guard step _ ih => exact ih.tail guard step

theorem CommitOrder.mono {ok' : σ → α → Prop} (himp : ∀ s a, ok s a → ok' s a)
    (h : CommitOrder sys ok commits s calls) : CommitOrder sys ok' commits s calls := by
  induction h with
  | init init => exact .init init
  | silent _ guard step silent ih => exact .silent ih (himp _ _ guard) step silent
  | commit _ guard step committed ih => exact .commit ih (himp _ _ guard) step committed

/-- Every run has its commits. -/
theorem exists_commitOrder (h : sys.Reachable ok s) : ∃ calls, CommitOrder sys ok commits s calls := by
  refine h.invariant (I := fun s => ∃ calls, CommitOrder sys ok commits s calls) ?_ ?_
  · intro s hs
    exact ⟨[], .init hs⟩
  · intro s a s' hbefore hok hs
    obtain ⟨calls, hcalls⟩ := hbefore
    by_cases hcommits : ∃ call, commits s a call
    · obtain ⟨call, hcall⟩ := hcommits
      exact ⟨calls ++ [call], .commit hcalls hok hs hcall⟩
    · exact ⟨calls, .silent hcalls hok hs fun call hcall => hcommits ⟨call, hcall⟩⟩

/-- The steps of the system do to the store what the machine does for the calls they commit. -/
structure Serial (sys : System σ α) (ok : σ → α → Prop) (commits : σ → α → γ → Prop)
    (store : σ → τ) (f : τ → γ → β × τ) (t₀ : τ) : Prop where
  init : ∀ s, sys.init s → store s = t₀
  silent : ∀ s a s', sys.Reachable ok s → ok s a → sys.step s a s' →
    (∀ call, ¬ commits s a call) → store s' = store s
  commit : ∀ s a s' call, sys.Reachable ok s → ok s a → sys.step s a s' → commits s a call →
    store s' = (f (store s) call).2

/-- **The commit order rule.** -/
theorem Serial.store_eq {store : σ → τ} {f : τ → γ → β × τ} {t₀ : τ}
    (h : Serial sys ok commits store f t₀) (hcalls : CommitOrder sys ok commits s calls) :
    (Lockstep.run f t₀ calls).2 = store s := by
  induction hcalls with
  | init init => exact (h.init _ init).symm
  | silent before guard step silent ih =>
    rw [ih, h.silent _ _ _ before.reachable guard step silent]
  | commit before guard step committed ih =>
    rw [Lockstep.run_append, ih, h.commit _ _ _ _ before.reachable guard step committed]
    rfl

end Transition

namespace Lockstep

variable {τ : Type y} {γ : Type w} {β : Type x} {f : τ → γ → β × τ} {t₀ : τ} {calls : List γ}

/-- The call was one of these, and this was its answer. -/
def Answered (f : τ → γ → β × τ) (t₀ : τ) (calls : List γ) (call : γ) (answer : β) : Prop :=
  (call, answer) ∈ calls.zip (run f t₀ calls).1

theorem answered_concat (last : γ) {call : γ} {answer : β} :
    Answered f t₀ (calls ++ [last]) call answer ↔
      Answered f t₀ calls call answer ∨
        call = last ∧ answer = (f (run f t₀ calls).2 last).1 := by
  unfold Answered
  rw [run_append, List.zip_append (length_run f t₀ calls).symm]
  simp [run]

end Lockstep
