import Mathlib.Data.List.Basic

/-!
# Two machines that answer the same calls

A machine is a function from a state and a call to an answer and the next state. Two machines
with different states are compared by running them on the same calls: they stay in lockstep when
a relation between their states is kept by every call that is allowed there, and forces the two
answers to agree.
-/

set_option autoImplicit false

universe u v w x y

namespace Lockstep

variable {σ : Type u} {τ : Type v} {α : Type w} {β : Type x} {γ : Type y}

/-- The answers to a sequence of calls, and the state it ends in. -/
def run (f : σ → α → β × σ) : σ → List α → List β × σ
  | s, [] => ([], s)
  | s, call :: rest =>
    let (answer, s') := f s call
    let (answers, s'') := run f s' rest
    (answer :: answers, s'')

/-- What every call keeps holds after a sequence of calls. -/
theorem run_invariant {f : σ → α → β × σ} {I : σ → Prop} (h : ∀ s call, I s → I (f s call).2) :
    ∀ (calls : List α) {s : σ}, I s → I (run f s calls).2 := by
  intro calls
  induction calls with
  | nil => intro s hs; exact hs
  | cons call rest ih =>
    intro s hs
    exact ih (h s call hs)

/-- Every call has its answer. -/
theorem length_run (f : σ → α → β × σ) (s : σ) (calls : List α) :
    (run f s calls).1.length = calls.length := by
  induction calls generalizing s with
  | nil => rfl
  | cons call rest ih => exact congrArg (· + 1) (ih (f s call).2)

/-- Calls made after others start where those ended. -/
theorem run_append (f : σ → α → β × σ) (s : σ) (calls calls' : List α) :
    run f s (calls ++ calls') = ((run f s calls).1 ++ (run f (run f s calls).2 calls').1,
      (run f (run f s calls).2 calls').2) := by
  induction calls generalizing s with
  | nil => rfl
  | cons call rest ih =>
    simp only [List.cons_append, run]
    rw [ih]

variable (f : σ → α → β × σ) (g : τ → α → γ × τ)

/-- Every call of the sequence is allowed in the pair of states in which it is made. -/
def Allowed (ok : σ → τ → α → Prop) : σ → τ → List α → Prop
  | _, _, [] => True
  | s, t, call :: rest => ok s t call ∧ Allowed ok (f s call).2 (g t call).2 rest

/-- `R` is kept by every allowed call, whose two answers agree. -/
def Keeps (R : σ → τ → Prop) (agree : β → γ → Prop) (ok : σ → τ → α → Prop) : Prop :=
  ∀ s t call, R s t → ok s t call →
    agree (f s call).1 (g t call).1 ∧ R (f s call).2 (g t call).2

variable {f g}

theorem allowed_concat {ok : σ → τ → α → Prop} {calls : List α} {call : α} :
    ∀ {s : σ} {t : τ}, Allowed f g ok s t (calls ++ [call]) ↔
      Allowed f g ok s t calls ∧ ok (run f s calls).2 (run g t calls).2 call := by
  induction calls with
  | nil =>
    intro s t
    simp [Allowed, run]
  | cons first rest ih =>
    intro s t
    show ok s t first ∧ Allowed f g ok (f s first).2 (g t first).2 (rest ++ [call]) ↔ _
    rw [ih, ← and_assoc]
    rfl

/-- **The lockstep rule.** -/
theorem Keeps.run {R : σ → τ → Prop} {agree : β → γ → Prop} {ok : σ → τ → α → Prop}
    (h : Keeps f g R agree ok) :
    ∀ (calls : List α) {s : σ} {t : τ}, R s t → Allowed f g ok s t calls →
      List.Forall₂ agree (run f s calls).1 (run g t calls).1 ∧
        R (run f s calls).2 (run g t calls).2 := by
  intro calls
  induction calls with
  | nil => intro s t hR _; exact ⟨List.Forall₂.nil, hR⟩
  | cons call rest ih =>
    intro s t hR hallowed
    obtain ⟨hagree, hR'⟩ := h s t call hR hallowed.1
    obtain ⟨hrest, hend⟩ := ih hR' hallowed.2
    exact ⟨List.Forall₂.cons hagree hrest, hend⟩

end Lockstep
