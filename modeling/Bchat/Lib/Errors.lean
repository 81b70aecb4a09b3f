import Mathlib

/-!
# The errors a computation can end with

`ErrorsIn P x` says that `x` fails only with errors that satisfy `P`. It follows the structure of a
program: each function gets one lemma, and a sequence of calls is `ErrorsIn.bind`.
-/

def ErrorsIn {ε α : Type} (P : ε → Prop) (x : Except ε α) : Prop := ∀ e, x = .error e → P e

section

variable {ε α β : Type} {P : ε → Prop}

@[simp] lemma errorsIn_ok (a : α) : ErrorsIn P (.ok a : Except ε α) := by
  intro e h
  cases h

@[simp] lemma errorsIn_error {e : ε} : ErrorsIn P (.error e : Except ε α) ↔ P e := by
  constructor
  · exact fun h => h e rfl
  intro h e' he
  cases he
  exact h

lemma ErrorsIn.bind {x : Except ε α} {f : α → Except ε β} (hx : ErrorsIn P x)
    (hf : ∀ a, x = .ok a → ErrorsIn P (f a)) : ErrorsIn P (x >>= f) := by
  intro e h
  cases x with
  | error e' => exact hx e (by cases h; rfl)
  | ok a => exact hf a rfl e h

end
