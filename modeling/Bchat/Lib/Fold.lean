import Mathlib

/-!
# Loops

Facts about `List.foldl` as the loop of a program: a state goes through one turn per element.
-/

namespace Loop

variable {σ α : Type} {f : σ → α → σ}

/-- What every turn preserves holds at the end. -/
lemma invariant (Inv : σ → Prop) {l : List α} (hinv : ∀ s, ∀ a ∈ l, Inv s → Inv (f s a)) {s : σ}
    (hs : Inv s) : Inv (l.foldl f s) :=
  List.foldlRecOn (motive := Inv) l f hs fun t ht a ha => hinv t a ha ht

/-- What every turn preserves and the turn of one element brings about holds at the end. -/
lemma establish (Inv Q : σ → Prop) {l : List α} (hinv : ∀ s, ∀ a ∈ l, Inv s → Inv (f s a))
    (hkeep : ∀ s, ∀ a ∈ l, Inv s → Q s → Q (f s a)) {a : α} (ha : a ∈ l)
    (hturn : ∀ s, Inv s → Q (f s a)) {s : σ} (hs : Inv s) : Q (l.foldl f s) := by
  induction l generalizing s with
  | nil => exact absurd ha List.not_mem_nil
  | cons b l ih =>
    have hinv' : ∀ t, ∀ b ∈ l, Inv t → Inv (f t b) :=
      fun t b hb => hinv t b (List.mem_cons_of_mem _ hb)
    have hkeep' : ∀ t, ∀ b ∈ l, Inv t → Q t → Q (f t b) :=
      fun t b hb => hkeep t b (List.mem_cons_of_mem _ hb)
    rcases List.mem_cons.1 ha with rfl | ha
    · -- the rest of the loop keeps what this turn gave
      have hboth : ∀ t, ∀ b ∈ l, Inv t ∧ Q t → Inv (f t b) ∧ Q (f t b) :=
        fun t b hb ht => ⟨hinv' t b hb ht.1, hkeep' t b hb ht.1 ht.2⟩
      exact (invariant (fun t => Inv t ∧ Q t) hboth ⟨hinv s a List.mem_cons_self hs, hturn s hs⟩).2
    · exact ih hinv' hkeep' ha (hinv s b List.mem_cons_self hs)

/-- What relates the states around every turn, and is transitive, relates those around the loop. -/
lemma rel {R : σ → σ → Prop} (hrefl : ∀ s, R s s) (htrans : ∀ s t u, R s t → R t u → R s u)
    (l : List α) (hturn : ∀ s, ∀ a ∈ l, R s (f s a)) (s : σ) : R s (l.foldl f s) :=
  invariant (R s) (fun t a ha ht => htrans s t _ ht (hturn t a ha)) (hrefl s)

end Loop
