/-
CarPi.Foundation.Runs — runs of state machines, with the induction rules
the rest of the development uses.

Two kinds of machine appear. A DETERMINISTIC machine is a function
`f : σ → α → σ` folded over its inputs; `Throughout f P` says that `P`
holds of every input together with the state it meets, and `tally`
adds up a measure along the same run. An `LTS` is a step relation with
labels; `restrict` keeps the steps that meet a condition, so "every run
whose steps all meet the condition" is a run of the restricted system.

`Simulation` is refinement under a mapping of states, each concrete step
being an abstract step or a stutter; what every abstract run keeps, every
concrete run keeps.

Nothing here mentions the repository.
-/
import Mathlib.Data.List.Basic
import Mathlib.Tactic.Common

namespace CarPi.Foundation

universe u v w x

variable {σ : Type u} {α : Type v} {τ : Type w} {β : Type x}

/-! ## Deterministic machines -/

section Deterministic

variable (f : σ → α → σ)

/-- `P` holds of every input of the list, together with the state in which
the machine `f` receives it. -/
def Throughout (P : σ → α → Prop) : σ → List α → Prop
  | _, [] => True
  | s, a :: as => P s a ∧ Throughout P (f s a) as

instance Throughout.decidable (P : σ → α → Prop) [∀ s a, Decidable (P s a)] :
    ∀ (s : σ) (as : List α), Decidable (Throughout f P s as)
  | _, [] => inferInstanceAs (Decidable True)
  | s, a :: as =>
      have := Throughout.decidable P (f s a) as
      inferInstanceAs (Decidable (P s a ∧ Throughout f P (f s a) as))

variable {f}

/-- What holds at the start, and is kept by every step that meets `P`, holds
after a run that meets `P` throughout. -/
theorem Throughout.invariant {P : σ → α → Prop} {I : σ → Prop}
    (hstep : ∀ s a, I s → P s a → I (f s a)) :
    ∀ (as : List α) (s : σ), Throughout f P s as → I s → I (as.foldl f s)
  | [], _, _, hI => hI
  | a :: as, s, h, hI => Throughout.invariant hstep as (f s a) h.2 (hstep s a hI h.1)

/-- Conditions that agree at every state satisfying an invariant, which they keep, agree
along a run. -/
theorem throughout_congr {P Q : σ → α → Prop} {I : σ → Prop}
    (hstep : ∀ s a, I s → Q s a → I (f s a)) (hPQ : ∀ s a, I s → (P s a ↔ Q s a)) :
    ∀ (as : List α) (s : σ), I s → (Throughout f P s as ↔ Throughout f Q s as)
  | [], _, _ => Iff.rfl
  | a :: as, s, hI => by
      rw [Throughout, Throughout, hPQ s a hI]
      exact and_congr_right fun hQ => throughout_congr hstep hPQ as (f s a) (hstep s a hI hQ)

variable (f)

/-- The sum of `m` over the inputs of a run, each taken with the state it meets. -/
def tally (m : σ → α → Nat) : σ → List α → Nat
  | _, [] => 0
  | s, a :: as => m s a + tally m (f s a) as

/-- A tally is zero exactly when the measure is zero throughout. -/
theorem tally_eq_zero_iff (m : σ → α → Nat) :
    ∀ (s : σ) (as : List α),
      tally f m s as = 0 ↔ Throughout f (fun s a => m s a = 0) s as
  | _, [] => by simp [tally, Throughout]
  | s, a :: as => by
      rw [tally, Throughout, Nat.add_eq_zero_iff, tally_eq_zero_iff m (f s a) as]

end Deterministic

/-! ## Partial machines -/

/-- The state a partial machine reaches on a list of labels, if every one of
them is enabled in turn. -/
def exec (step : σ → α → Option σ) : σ → List α → Option σ
  | s, [] => some s
  | s, a :: as => (step s a).bind fun s' => exec step s' as

/-- A component of a larger machine takes a step of its own, or none. -/
def move (step : σ → α → Option σ) (s : σ) : Option α → Option σ
  | none => some s
  | some a => step s a

/-! ## Labelled transition systems -/

/-- A labelled transition system: its initial states and its steps. -/
structure LTS (σ : Type u) (α : Type v) where
  init : σ → Prop
  step : σ → α → σ → Prop

namespace LTS

/-- `Run s₀ as s`: the labels `as`, in order, lead from `s₀` to `s`. -/
inductive Run (M : LTS σ α) (s₀ : σ) : List α → σ → Prop
  | nil : Run M s₀ [] s₀
  | snoc {as : List α} {s s' : σ} {a : α} :
      Run M s₀ as s → M.step s a s' → Run M s₀ (as ++ [a]) s'

/-- Some run from an initial state ends in `s`. -/
def Reachable (M : LTS σ α) (s : σ) : Prop :=
  ∃ s₀ as, M.init s₀ ∧ M.Run s₀ as s

/-- The same system, taking only the steps that meet `ok`. -/
def restrict (M : LTS σ α) (ok : σ → α → Prop) : LTS σ α where
  init := M.init
  step := fun s a s' => ok s a ∧ M.step s a s'

/-- The system of a partial machine started in `s₀`. -/
def ofStep (s₀ : σ) (step : σ → α → Option σ) : LTS σ α where
  init := fun s => s = s₀
  step := fun s a s' => step s a = some s'

variable {M : LTS σ α}

theorem Run.cons {s s' t : σ} {a : α} {as : List α} (hs : M.step s a s') (h : M.Run s' as t) :
    M.Run s (a :: as) t := by
  induction h with
  | nil => exact (Run.nil.snoc hs : M.Run s ([] ++ [a]) s')
  | snoc _ hlast ih => exact .snoc ih hlast

theorem run_of_exec {step : σ → α → Option σ} {s₀ : σ} :
    ∀ {as : List α} {s t : σ}, exec step s as = some t → (ofStep s₀ step).Run s as t := by
  intro as
  induction as with
  | nil =>
    intro s t h
    cases h
    exact .nil
  | cons a as ih =>
    intro s t h
    obtain ⟨s', hs, hrest⟩ := Option.bind_eq_some_iff.mp h
    exact .cons hs (ih hrest)

/-- A state computed by running the machine is reachable. -/
theorem reachable_of_exec {step : σ → α → Option σ} {s₀ s : σ} (as : List α)
    (h : exec step s₀ as = some s) : (ofStep s₀ step).Reachable s :=
  ⟨s₀, as, rfl, run_of_exec h⟩

theorem Reachable.step {s s' : σ} {a : α} (h : M.Reachable s) (hs : M.step s a s') :
    M.Reachable s' := by
  obtain ⟨s₀, as, h₀, hrun⟩ := h
  exact ⟨s₀, as ++ [a], h₀, hrun.snoc hs⟩

theorem Run.invariant {I : σ → Prop} (hstep : ∀ s a s', I s → M.step s a s' → I s')
    {s₀ s : σ} {as : List α} (h : M.Run s₀ as s) (h₀ : I s₀) : I s := by
  induction h with
  | nil => exact h₀
  | snoc _ hs ih => exact hstep _ _ _ ih hs

/-- The rule for safety: an inductive invariant holds of every reachable state. -/
theorem Reachable.invariant {I : σ → Prop} (hinit : ∀ s, M.init s → I s)
    (hstep : ∀ s a s', I s → M.step s a s' → I s') {s : σ} (h : M.Reachable s) : I s := by
  obtain ⟨s₀, as, h₀, hrun⟩ := h
  exact hrun.invariant hstep (hinit s₀ h₀)

/-- Along a run that keeps an invariant one condition on the steps gives
another. -/
theorem Run.restrict_of_invariant {ok ok' : σ → α → Prop} {I : σ → Prop}
    (hstep : ∀ s a s', I s → ok s a → M.step s a s' → I s')
    (hok : ∀ s a, I s → ok s a → ok' s a) {s₀ s : σ} {as : List α} (h₀ : I s₀)
    (h : (M.restrict ok).Run s₀ as s) : (M.restrict ok').Run s₀ as s ∧ I s := by
  induction h with
  | nil => exact ⟨.nil, h₀⟩
  | snoc _ hs ih =>
    obtain ⟨hrun, hI⟩ := ih
    exact ⟨.snoc hrun ⟨hok _ _ hI hs.1, hs.2⟩, hstep _ _ _ hI hs.1 hs.2⟩

/-- What holds behind a step exactly when it held before it and the step met
the condition, holds after a run exactly when every step met it. The steps start from
states that keep an invariant `J`. -/
theorem Run.iff_restrict {ok : σ → α → Prop} {I J : σ → Prop}
    (hstep : ∀ s a s', J s → M.step s a s' → J s' ∧ (I s' ↔ I s ∧ ok s a)) {s₀ s : σ}
    {as : List α} (hJ : J s₀) (h₀ : I s₀) (h : M.Run s₀ as s) :
    I s ↔ (M.restrict ok).Run s₀ as s := by
  constructor
  · suffices hboth : J s ∧ (I s → (M.restrict ok).Run s₀ as s) from hboth.2
    induction h with
    | nil => exact ⟨hJ, fun _ => .nil⟩
    | @snoc as s s' a _ hs ih =>
      obtain ⟨hJ', hiff⟩ := hstep s a s' ih.1 hs
      refine ⟨hJ', fun hI => ?_⟩
      obtain ⟨hbefore, hok⟩ := hiff.mp hI
      exact .snoc (ih.2 hbefore) ⟨hok, hs⟩
  · intro hrun
    have hboth : J s ∧ I s := by
      refine hrun.invariant (I := fun s => J s ∧ I s) (fun s a s' hand hs => ?_) ⟨hJ, h₀⟩
      obtain ⟨hJ', hiff⟩ := hstep s a s' hand.1 hs.2
      exact ⟨hJ', hiff.mpr ⟨hand.2, hs.1⟩⟩
    exact hboth.2

/-- A run either meets the condition at every step, or has a step that does
not meet it, with a run on either side. -/
theorem Run.restrict_or (ok : σ → α → Prop) {s₀ s : σ} {as : List α} (h : M.Run s₀ as s) :
    (M.restrict ok).Run s₀ as s ∨
      ∃ s₁ a s₂ as₁ as₂, M.Run s₀ as₁ s₁ ∧ M.step s₁ a s₂ ∧ ¬ ok s₁ a ∧ M.Run s₂ as₂ s := by
  induction h with
  | nil => exact .inl .nil
  | @snoc as s s' a hrun hs ih =>
    rcases ih with hgood | ⟨s₁, b, s₂, as₁, as₂, h₁, hb, hbad, h₂⟩
    · by_cases hok : ok s a
      · exact .inl (.snoc hgood ⟨hok, hs⟩)
      · exact .inr ⟨s, a, s', as, [], hrun, hs, hok, .nil⟩
    · exact .inr ⟨s₁, b, s₂, as₁, as₂ ++ [a], h₁, hb, hbad, .snoc h₂ hs⟩

/-- A run whose labels meet a condition is one of the system restricted to it. -/
theorem Run.restrict_labels {ok : α → Prop} {s₀ s : σ} {as : List α} (h : M.Run s₀ as s)
    (hok : ∀ a ∈ as, ok a) : (M.restrict fun _ a => ok a).Run s₀ as s := by
  induction h with
  | nil => exact .nil
  | @snoc as s s' a _ hs ih =>
    have hlast : ok a := hok a (by simp)
    exact .snoc (ih fun b hb => hok b (List.mem_append_left _ hb)) ⟨hlast, hs⟩

/-- A measure that every step lowers bounds the length of a run. -/
theorem Run.length_add_le {I : σ → Prop} {m : σ → Nat}
    (hstep : ∀ s a s', I s → M.step s a s' → I s' ∧ m s' < m s) {s₀ s : σ} {as : List α}
    (h₀ : I s₀) (h : M.Run s₀ as s) : I s ∧ as.length + m s ≤ m s₀ := by
  induction h with
  | nil => exact ⟨h₀, by simp⟩
  | snoc _ hs ih =>
    obtain ⟨hI, hle⟩ := ih
    obtain ⟨hI', hlt⟩ := hstep _ _ _ hI hs
    refine ⟨hI', ?_⟩
    rw [List.length_append, List.length_singleton]
    omega

/-- Where every step lowers a measure, and only a state that is done has none,
some run ends in a state that is done. -/
theorem exists_run_of_progress {I done : σ → Prop} {m : σ → Nat}
    (hstep : ∀ s a s', I s → M.step s a s' → I s' ∧ m s' < m s)
    (hprogress : ∀ s, I s → done s ∨ ∃ a s', M.step s a s') :
    ∀ s, I s → ∃ as t, M.Run s as t ∧ I t ∧ done t := by
  intro s hI
  induction hm : m s using Nat.strongRecOn generalizing s with
  | ind n ih =>
    rcases hprogress s hI with hdone | ⟨a, s', hs⟩
    · exact ⟨[], s, .nil, hI, hdone⟩
    · obtain ⟨hI', hlt⟩ := hstep s a s' hI hs
      obtain ⟨as, t, hrun, ht⟩ := ih (m s') (hm ▸ hlt) s' hI' rfl
      exact ⟨a :: as, t, .cons hs hrun, ht⟩

/-- A refinement mapping: initial states go to initial states, and a step
from a reachable state is an abstract step or leaves the image unchanged. -/
structure Simulation (C : LTS σ α) (A : LTS τ β) (f : σ → τ) : Prop where
  init : ∀ s, C.init s → A.init (f s)
  step : ∀ s a s', C.Reachable s → C.step s a s' → (∃ b, A.step (f s) b (f s')) ∨ f s' = f s

/-- Every state the concrete system reaches maps to one the abstract system
reaches. -/
theorem Simulation.reachable {C : LTS σ α} {A : LTS τ β} {f : σ → τ}
    (h : Simulation C A f) {s : σ} (hs : C.Reachable s) : A.Reachable (f s) := by
  obtain ⟨s₀, as, h₀, hrun⟩ := hs
  induction hrun with
  | nil => exact ⟨f s₀, [], h.init s₀ h₀, .nil⟩
  | @snoc as s s' a hrun hstep ih =>
    rcases h.step s a s' ⟨s₀, as, h₀, hrun⟩ hstep with ⟨b, hb⟩ | heq
    · obtain ⟨t₀, bs, ht₀, hbs⟩ := ih
      exact ⟨t₀, bs ++ [b], ht₀, .snoc hbs hb⟩
    · rw [heq]; exact ih

/-- A component that takes part in each step with a step of its own, or with none,
is refined by the whole. -/
theorem Simulation.of_move {C : LTS σ α} {step : τ → β → Option τ} {t₀ : τ} {f : σ → τ}
    (part : σ → α → Option β) (hinit : ∀ s, C.init s → f s = t₀)
    (hstep : ∀ s a s', C.step s a s' → move step (f s) (part s a) = some (f s')) :
    Simulation C (ofStep t₀ step) f := by
  refine ⟨hinit, fun s a s' _ hs => ?_⟩
  have hmove := hstep s a s' hs
  cases hpart : part s a with
  | none =>
    rw [hpart] at hmove
    exact .inr (Option.some.inj hmove).symm
  | some b =>
    rw [hpart] at hmove
    exact .inl ⟨b, hmove⟩

end LTS

end CarPi.Foundation
