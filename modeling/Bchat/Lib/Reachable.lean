import Mathlib

/-!
# Reachable states

The states of a transition system that a run can reach, and the rule for invariants.
-/

namespace Bchat

variable {σ : Type*} {init : σ → Prop} {next next' : σ → σ → Prop} {s : σ}

inductive Reachable (init : σ → Prop) (next : σ → σ → Prop) : σ → Prop
  | init {s : σ} : init s → Reachable init next s
  | step {s s' : σ} : Reachable init next s → next s s' → Reachable init next s'

namespace Reachable

lemma invariant (Inv : σ → Prop) (hinit : ∀ s, init s → Inv s)
    (hstep : ∀ s s', Inv s → next s s' → Inv s') (h : Reachable init next s) : Inv s := by
  induction h with
  | init h0 => exact hinit _ h0
  | step _ hn ih => exact hstep _ _ ih hn

end Reachable

end Bchat
