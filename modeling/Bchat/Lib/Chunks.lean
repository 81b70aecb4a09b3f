import Mathlib

/-!
# Lists in pieces of one size

`chunks k l` cuts a list into pieces of `k` elements; only the last piece can be shorter. A list of
pieces that are all full but the last is found again from the elements alone.
-/

namespace Chunks

open List

variable {α : Type*}

/-- The pieces of a list. There are none if they would be empty. -/
def chunks (k : Nat) (l : List α) : List (List α) :=
  if _h : k = 0 ∨ l = [] then [] else l.take k :: chunks k (l.drop k)
termination_by l.length
decreasing_by
  have := List.length_pos_of_ne_nil (fun hl => _h (.inr hl))
  rw [List.length_drop]
  omega

@[simp] lemma chunks_nil (k : Nat) : chunks k ([] : List α) = [] := by
  rw [chunks, dif_pos (.inr rfl)]

lemma chunks_cons {k : Nat} (hk : 0 < k) {l : List α} (hl : l ≠ []) :
    chunks k l = l.take k :: chunks k (l.drop k) := by
  rw [chunks, dif_neg (by simp [Nat.pos_iff_ne_zero.mp hk, hl])]

lemma chunks_eq_nil_iff {k : Nat} (hk : 0 < k) {l : List α} : chunks k l = [] ↔ l = [] := by
  constructor
  · intro h
    by_contra hl
    rw [chunks_cons hk hl] at h
    cases h
  · rintro rfl
    exact chunks_nil k

lemma chunks_of_length_le {k : Nat} {l : List α} (hl : l ≠ []) (h : l.length ≤ k) :
    chunks k l = [l] := by
  have hpos := length_pos_of_ne_nil hl
  rw [chunks_cons (by omega) hl, take_of_length_le h, drop_of_length_le h, chunks_nil]

lemma chunks_append {k : Nat} (hk : 0 < k) {c : List α} (hc : c.length = k) (l : List α) :
    chunks k (c ++ l) = c :: chunks k l := by
  have hne : c ++ l ≠ [] := append_ne_nil_of_left_ne_nil (by rintro rfl; simp at hc; omega) l
  rw [chunks_cons hk hne, take_left' hc, drop_left' hc]

lemma flatten_chunks {k : Nat} (hk : 0 < k) (l : List α) : (chunks k l).flatten = l := by
  fun_induction chunks k l with
  | case1 l h => simp [h.resolve_left (by omega)]
  | case2 l h ih => rw [flatten_cons, ih, take_append_drop]

lemma length_le_of_mem_chunks {k : Nat} {l c : List α} (h : c ∈ chunks k l) : c.length ≤ k := by
  fun_induction chunks k l with
  | case1 l _ => cases h
  | case2 l _ ih =>
    rcases mem_cons.mp h with rfl | h
    · exact length_take_le k l
    · exact ih h

lemma ne_nil_of_mem_chunks {k : Nat} {l c : List α} (h : c ∈ chunks k l) : c ≠ [] := by
  fun_induction chunks k l with
  | case1 l _ => cases h
  | case2 l hl ih =>
    rcases mem_cons.mp h with rfl | h
    · rw [ne_eq, take_eq_nil_iff]
      exact hl
    · exact ih h

lemma length_chunks {k : Nat} (hk : 0 < k) (l : List α) :
    (chunks k l).length = (l.length + k - 1) / k := by
  fun_induction chunks k l with
  | case1 l h =>
    rw [h.resolve_left (by omega)]
    exact (Nat.div_eq_of_lt (by simp; omega)).symm
  | case2 l h ih =>
    have hpos := length_pos_of_ne_nil (not_or.mp h).2
    rw [length_cons, ih, length_drop]
    by_cases hle : k ≤ l.length
    · rw [show l.length + k - 1 = l.length - k + k - 1 + k by omega, Nat.add_div_right _ hk]
    rw [show l.length - k + k - 1 = k - 1 by omega, Nat.div_eq_of_lt (by omega : k - 1 < k),
      show l.length + k - 1 = l.length - 1 + k by omega, Nat.add_div_right _ hk,
      Nat.div_eq_of_lt (by omega : l.length - 1 < k)]

end Chunks
