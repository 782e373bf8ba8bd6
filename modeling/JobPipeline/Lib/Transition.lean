import Mathlib.Logic.Relation

/-!
# Transition systems, guarded runs and simulations

A system is a set of initial states and a labelled step relation. A *run* is judged step by
step: `sys.Steps ok s s'` says that `s'` is reached from `s` by steps each of which met the
guard `ok`, a predicate of the state before the step and of the label. The unguarded notions
are the guard `Any`.

The guard is what lets one statement cover both "in every run" and "in every run whose steps
all meet this condition", and it is why `Steps.invariant` hands the guard to the step case: an
invariant may hold only of the runs that keep to it.
-/

set_option autoImplicit false

universe u v w

namespace Transition

/-- A transition system with states `σ` and step labels `α`. -/
structure System (σ : Type u) (α : Type v) where
  init : σ → Prop
  step : σ → α → σ → Prop

/-- The guard every step meets. -/
def Any {σ : Type u} {α : Type v} (_ : σ) (_ : α) : Prop := True

namespace System

variable {σ : Type u} {α : Type v} {sys : System σ α} {ok ok' : σ → α → Prop}

/-- A system given by a guarded, executable step function: `f s a = some s'` when the label
    `a` is enabled in `s`. -/
def ofFunction (init : σ → Prop) (f : σ → α → Option σ) : System σ α :=
  ⟨init, fun s a s' => f s a = some s'⟩

/-- `s'` is reached from `s` by steps that all met the guard. -/
def Steps (sys : System σ α) (ok : σ → α → Prop) : σ → σ → Prop :=
  Relation.ReflTransGen fun s s' => ∃ a, ok s a ∧ sys.step s a s'

/-- `s` is reached from an initial state by steps that all met the guard. -/
def Reachable (sys : System σ α) (ok : σ → α → Prop) (s : σ) : Prop :=
  ∃ s₀, sys.init s₀ ∧ sys.Steps ok s₀ s

theorem Steps.refl (s : σ) : sys.Steps ok s s := Relation.ReflTransGen.refl

theorem Steps.trans {s₁ s₂ s₃ : σ} (h : sys.Steps ok s₁ s₂) (h' : sys.Steps ok s₂ s₃) :
    sys.Steps ok s₁ s₃ := Relation.ReflTransGen.trans h h'

theorem Steps.tail {s s' s'' : σ} {a : α} (h : sys.Steps ok s s') (hok : ok s' a)
    (hs : sys.step s' a s'') : sys.Steps ok s s'' :=
  Relation.ReflTransGen.tail h ⟨a, hok, hs⟩

theorem Steps.single {s s' : σ} {a : α} (hok : ok s a) (hs : sys.step s a s') :
    sys.Steps ok s s' := (Steps.refl s).tail hok hs

theorem Steps.mono (himp : ∀ s a, ok s a → ok' s a) {s s' : σ} (h : sys.Steps ok s s') :
    sys.Steps ok' s s' :=
  Relation.ReflTransGen.mono (fun _ _ ⟨a, hok, hs⟩ => ⟨a, himp _ _ hok, hs⟩) _ _ h

/-- **The run rule.** What holds at the start of a run and is preserved by every step that
    meets the guard holds at its end. -/
theorem Steps.invariant {I : σ → Prop} {s s' : σ} (h : sys.Steps ok s s') (h₀ : I s)
    (hstep : ∀ s a s', I s → ok s a → sys.step s a s' → I s') : I s' := by
  induction h with
  | refl => exact h₀
  | tail _ hs ih =>
    obtain ⟨a, hok, hs⟩ := hs
    exact hstep _ a _ ih hok hs

theorem Reachable.init {s : σ} (h : sys.init s) : sys.Reachable ok s := ⟨s, h, Steps.refl s⟩

theorem Reachable.steps {s s' : σ} (h : sys.Reachable ok s) (hs : sys.Steps ok s s') :
    sys.Reachable ok s' :=
  let ⟨s₀, h₀, hr⟩ := h
  ⟨s₀, h₀, hr.trans hs⟩

theorem Reachable.tail {s s' : σ} {a : α} (h : sys.Reachable ok s) (hok : ok s a)
    (hs : sys.step s a s') : sys.Reachable ok s' := h.steps (Steps.single hok hs)

theorem Reachable.mono (himp : ∀ s a, ok s a → ok' s a) {s : σ} (h : sys.Reachable ok s) :
    sys.Reachable ok' s :=
  let ⟨s₀, h₀, hr⟩ := h
  ⟨s₀, h₀, hr.mono himp⟩

/-- A guarded run is a run. -/
theorem Reachable.any {s : σ} (h : sys.Reachable ok s) : sys.Reachable Any s :=
  h.mono fun _ _ _ => trivial

/-- **The invariant rule.** -/
theorem Reachable.invariant {I : σ → Prop} {s : σ} (h : sys.Reachable ok s)
    (hinit : ∀ s, sys.init s → I s)
    (hstep : ∀ s a s', I s → ok s a → sys.step s a s' → I s') : I s :=
  let ⟨_, h₀, hr⟩ := h
  hr.invariant (hinit _ h₀) hstep

/-- The invariant rule for an invariant whose step case needs to know that the states it
    speaks of are reachable (so that invariants already proved may be used there). -/
theorem Reachable.invariant_of_reachable {I : σ → Prop} {s : σ} (h : sys.Reachable ok s)
    (hinit : ∀ s, sys.init s → I s)
    (hstep : ∀ s a s', sys.Reachable ok s → I s → ok s a → sys.step s a s' → I s') : I s := by
  obtain ⟨s₀, h₀, hr⟩ := h
  have key : sys.Reachable ok s ∧ I s := by
    refine hr.invariant (I := fun s => sys.Reachable ok s ∧ I s) ⟨.init h₀, hinit _ h₀⟩ ?_
    intro s a s' h hok hs
    obtain ⟨hreach, hI⟩ := h
    exact ⟨hreach.tail hok hs, hstep s a s' hreach hI hok hs⟩
  exact key.2

/-- No step that meets the guard leads on. -/
def Stuck (sys : System σ α) (ok : σ → α → Prop) (s : σ) : Prop :=
  ∀ a s', ok s a → ¬ sys.step s a s'

/-- No run from `s` by steps that meet the guard goes on for ever. -/
def Halts (sys : System σ α) (ok : σ → α → Prop) : σ → Prop :=
  Acc fun s' s => ∃ a, ok s a ∧ sys.step s a s'

/-- **The measure rule.** -/
theorem halts_of_measure (work : σ → Nat)
    (hstep : ∀ s a s', ok s a → sys.step s a s' → work s' < work s) (s : σ) : sys.Halts ok s := by
  refine Subrelation.accessible ?_ ((measure work).wf.apply s)
  rintro s' s ⟨a, hok, hs⟩
  exact hstep s a s' hok hs

/-- Replaying a list of labels with an executable step function. -/
def replay (f : σ → α → Option σ) (s : σ) (labels : List α) : Option σ := labels.foldlM f s

theorem replay_cons {f : σ → α → Option σ} {s s' : σ} {a : α} {rest : List α} :
    replay f s (a :: rest) = some s' ↔ ∃ s₁, f s a = some s₁ ∧ replay f s₁ rest = some s' := by
  simp only [replay, List.foldlM_cons, Option.bind_eq_bind, Option.bind_eq_some_iff]

/-- **The replay rule.** What each of the labels preserves holds at the end of a replay. -/
theorem replay_invariant {f : σ → α → Option σ} {I : σ → Prop} {labels : List α}
    (hstep : ∀ a ∈ labels, ∀ s s', I s → f s a = some s' → I s') {s s' : σ}
    (h : replay f s labels = some s') (h₀ : I s) : I s' := by
  induction labels generalizing s with
  | nil =>
    cases h
    exact h₀
  | cons a rest ih =>
    obtain ⟨s₁, hs, hrest⟩ := replay_cons.mp h
    exact ih (fun b hb => hstep b (List.mem_cons_of_mem _ hb)) hrest
      (hstep a List.mem_cons_self s s₁ h₀ hs)

/-- A successful replay of labels that meet the guard is a run. -/
theorem Steps.of_replay {init : σ → Prop} {f : σ → α → Option σ} :
    ∀ {labels : List α} {s s' : σ}, replay f s labels = some s' → (∀ a ∈ labels, ∀ s, ok s a) →
      (ofFunction init f).Steps ok s s' := by
  intro labels
  induction labels with
  | nil =>
    intro s s' h _
    simp only [replay, List.foldlM_nil, Option.pure_def, Option.some.injEq] at h
    exact h ▸ Steps.refl _
  | cons a rest ih =>
    intro s s' h hok
    obtain ⟨s₁, hs, hrest⟩ := replay_cons.mp h
    have hfirst : (ofFunction init f).Steps ok s s₁ := Steps.single (hok a (by simp) s) hs
    exact hfirst.trans (ih hrest fun b hb => hok b (by simp [hb]))

end System

/-! ## Simulation

A concrete step is matched by at most one abstract step. The concrete side carries its own
invariant, because the match usually needs it, and each side its own guard. -/

/-- `abs` takes every concrete step from a state satisfying `inv` to an abstract step or to no
    step at all, and steps that meet `ok` to steps that meet `ok'`. -/
structure Simulates {σ : Type u} {α : Type v} {τ : Type w} {β : Type w}
    (conc : System σ α) (ok : σ → α → Prop) (abst : System τ β) (ok' : τ → β → Prop)
    (inv : σ → Prop) (abs : σ → τ) : Prop where
  init : ∀ s, conc.init s → abst.init (abs s)
  step : ∀ s a s', inv s → ok s a → conc.step s a s' →
    abs s' = abs s ∨ ∃ b, ok' (abs s) b ∧ abst.step (abs s) b (abs s')

namespace Simulates

variable {σ : Type u} {α : Type v} {τ : Type w} {β : Type w} {conc : System σ α}
  {abst : System τ β} {inv : σ → Prop} {abs : σ → τ} {ok : σ → α → Prop} {ok' : τ → β → Prop}

/-- The image of a run through states satisfying the invariant is an abstract run. -/
theorem steps (sim : Simulates conc ok abst ok' inv abs) {s s' : σ}
    (hinv : ∀ t, conc.Steps ok s t → inv t) (h : conc.Steps ok s s') :
    abst.Steps ok' (abs s) (abs s') := by
  induction h with
  | refl => exact .refl _
  | tail hpre hs ih =>
    obtain ⟨a, hok, hs⟩ := hs
    rcases sim.step _ a _ (hinv _ hpre) hok hs with heq | ⟨b, hok', hb⟩
    · rw [heq]; exact ih
    · exact ih.tail hok' hb

/-- **Abstract invariants hold of the concrete system.** -/
theorem reachable (sim : Simulates conc ok abst ok' inv abs)
    (hinv : ∀ t, conc.Reachable ok t → inv t) {s : σ} (h : conc.Reachable ok s) :
    abst.Reachable ok' (abs s) := by
  obtain ⟨s₀, h₀, hr⟩ := h
  exact ⟨abs s₀, sim.init s₀ h₀, sim.steps (fun t ht => hinv t ⟨s₀, h₀, ht⟩) hr⟩

end Simulates

end Transition
