import Mathlib

/-!
# Scalars acting on points

A library for key agreement computes with encoded scalars and encoded points. `ScalarAction` says
what the encodings stand for: the scalars for elements of a field, the points for multiples of a
base point, and the operations for the action of the field on them. Only the multiplication of a
point can fail, and it does not where the product is not zero. The laws are about the scalars that
are `Valid`, which products and negatives of such scalars are.
-/

section

variable {S P F : Type} [Field F]

structure ScalarAction (Valid : S → Prop) (mul : S → S → S) (neg : S → S) (base : S → P)
    (mult : S → P → Option P) (val : S → F) (point : F → P) : Prop where
  valid_mul : ∀ a b, Valid a → Valid b → Valid (mul a b)
  valid_neg : ∀ a, Valid a → Valid (neg a)
  val_mul : ∀ a b, Valid a → Valid b → val (mul a b) = val a * val b
  val_neg : ∀ a, Valid a → val (neg a) = -val a
  base_eq : ∀ a, Valid a → base a = point (val a)
  mult_point : ∀ n x, Valid n → val n * x ≠ 0 → mult n (point x) = some (point (val n * x))

end
