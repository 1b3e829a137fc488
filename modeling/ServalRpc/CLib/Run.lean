import Mathlib.Data.List.Basic

/-! # Guarded runs

Runs of a labelled step relation in which every step meets a condition on its event and on the
state before it.  An invariant may look at the events so far; it holds after every run once it
holds at the start and the guarded steps preserve it.
-/

namespace CLib

variable {σ ε : Type}

inductive GuardedRun (step : σ → ε → σ → Prop) (guard : σ → ε → Prop) (start : σ) :
    List ε → σ → Prop where
  | refl : GuardedRun step guard start [] start
  | tail {past : List ε} {state next : σ} {event : ε} :
      GuardedRun step guard start past state → guard state event → step state event next →
      GuardedRun step guard start (past ++ [event]) next

namespace GuardedRun

variable {step : σ → ε → σ → Prop} {guard : σ → ε → Prop} {start : σ}

theorem invariant {holds : List ε → σ → Prop} (initially : holds [] start)
    (preserved : ∀ past state event next, holds past state → guard state event →
      step state event next → holds (past ++ [event]) next)
    {past : List ε} {state : σ} (run : GuardedRun step guard start past state) :
    holds past state := by
  induction run with
  | refl => exact initially
  | tail _ guarded stepped inductionHypothesis =>
    exact preserved _ _ _ _ inductionHypothesis guarded stepped

/-- A simulation takes the guarded runs of one system to guarded runs of the other. -/
theorem map {τ δ : Type} {step' : τ → δ → τ → Prop} {guard' : τ → δ → Prop} (abstraction : σ → τ)
    (label : ε → δ)
    (simulates : ∀ state event next, step state event next →
      step' (abstraction state) (label event) (abstraction next))
    (guards : ∀ state event, guard state event → guard' (abstraction state) (label event))
    {past : List ε} {state : σ} (run : GuardedRun step guard start past state) :
    GuardedRun step' guard' (abstraction start) (past.map label) (abstraction state) := by
  induction run with
  | refl => exact .refl
  | tail _ guarded stepped inductionHypothesis =>
    rw [List.map_append, List.map_singleton]
    exact .tail inductionHypothesis (guards _ _ guarded) (simulates _ _ _ stepped)

end GuardedRun

end CLib
