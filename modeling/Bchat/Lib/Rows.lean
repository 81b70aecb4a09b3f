import Mathlib

/-!
# Rows with a key

A list whose rows are looked up, changed and removed by a key, as one does with a vector and
`find_if`: only the first row with the key is touched. Where the keys are distinct, each operation
is described by what it does to membership.
-/

namespace Rows

open List

variable {α κ : Type} [DecidableEq κ] (key : α → κ)

def find (k : κ) (rows : List α) : Option α := rows.find? (fun a => key a = k)

def modify (k : κ) (f : α → α) : List α → List α
  | [] => []
  | a :: rows => if key a = k then f a :: rows else a :: modify k f rows

def erase (k : κ) (rows : List α) : List α := rows.eraseP (fun a => key a = k)

variable {key} {k : κ} {f : α → α} {rows : List α} {a b : α}

/-! ## Finding -/

lemma find_mem (h : find key k rows = some a) : a ∈ rows := mem_of_find?_eq_some h

lemma find_key (h : find key k rows = some a) : key a = k := by
  simpa using find?_some h

lemma find_eq_none : find key k rows = none ↔ k ∉ rows.map key := by
  simp [find, find?_eq_none]

omit [DecidableEq κ] in
lemma eq_of_key_eq (hnd : (rows.map key).Nodup) (ha : a ∈ rows) (hb : b ∈ rows)
    (h : key a = key b) : a = b :=
  inj_on_of_nodup_map hnd ha hb h

lemma find_eq_some (hnd : (rows.map key).Nodup) :
    find key k rows = some a ↔ a ∈ rows ∧ key a = k := by
  constructor
  · intro h
    exact ⟨find_mem h, find_key h⟩
  rintro ⟨ha, rfl⟩
  cases hf : find key (key a) rows with
  | none => exact absurd (mem_map_of_mem ha) (find_eq_none.1 hf)
  | some b => rw [eq_of_key_eq hnd (find_mem hf) ha (find_key hf)]

/-! ## Changing -/

lemma modify_of_find_eq_none (h : find key k rows = none) : modify key k f rows = rows := by
  induction rows with
  | nil => rfl
  | cons a rows ih =>
    rw [find_eq_none, map_cons, mem_cons, not_or] at h
    rw [modify, if_neg (Ne.symm h.1), ih (find_eq_none.2 h.2)]

lemma find_cons_of_ne (h : key b ≠ k) : find key k (b :: rows) = find key k rows := by
  rw [find, find?_cons_of_neg (by simpa using h), find]

lemma find_cons_self (h : key b = k) : find key k (b :: rows) = some b := by
  rw [find, find?_cons_of_pos (by simpa using h)]

lemma find_append {rows' : List α} (h : find key k rows = some a) :
    find key k (rows ++ rows') = some a := by
  rw [find] at h
  rw [find, find?_append, h]
  rfl

lemma map_modify {β : Type} (g : α → β) (hg : ∀ a, find key k rows = some a → g (f a) = g a) :
    (modify key k f rows).map g = rows.map g := by
  induction rows with
  | nil => rfl
  | cons a rows ih =>
    rw [modify]
    split
    · rename_i h
      rw [map_cons, map_cons, hg a (find_cons_self h)]
    rename_i h
    rw [find_cons_of_ne h] at hg
    rw [map_cons, map_cons, ih hg]

lemma modify_congr {g : α → α} (h : ∀ a, find key k rows = some a → f a = g a) :
    modify key k f rows = modify key k g rows := by
  induction rows with
  | nil => rfl
  | cons a rows ih =>
    rw [modify, modify]
    split
    · rename_i hk
      rw [h a (find_cons_self hk)]
    rename_i hk
    rw [find_cons_of_ne hk] at h
    rw [ih h]

lemma find_modify (h : find key k rows = some a) (hk : key (f a) = k) :
    find key k (modify key k f rows) = some (f a) := by
  induction rows with
  | nil => cases h
  | cons b rows ih =>
    rw [modify]
    by_cases hb : key b = k
    · rw [find_cons_self hb] at h
      cases h
      rw [if_pos hb, find_cons_self hk]
    · rw [find_cons_of_ne hb] at h
      rw [if_neg hb, find_cons_of_ne hb, ih h]

lemma modify_modify {g : α → α} (hf : ∀ a, find key k rows = some a → key (f a) = k) :
    modify key k g (modify key k f rows) = modify key k (fun a => g (f a)) rows := by
  induction rows with
  | nil => rfl
  | cons a rows ih =>
    by_cases hk : key a = k
    · rw [modify, if_pos hk, modify, if_pos (hf a (find_cons_self hk)), modify, if_pos hk]
    · rw [find_cons_of_ne hk] at hf
      rw [modify, if_neg hk, modify, if_neg hk, modify, if_neg hk, ih hf]

lemma length_modify : (modify key k f rows).length = rows.length := by
  have h : (modify key k f rows).map (fun _ => ()) = rows.map (fun _ => ()) :=
    map_modify _ fun _ _ => rfl
  simpa using congrArg length h

lemma mem_of_mem_modify (h : b ∈ modify key k f rows) :
    b ∈ rows ∨ ∃ a, find key k rows = some a ∧ b = f a := by
  induction rows with
  | nil => exact absurd h not_mem_nil
  | cons a rows ih =>
    rw [modify] at h
    by_cases ha : key a = k
    · rw [if_pos ha] at h
      rcases mem_cons.1 h with rfl | h
      · exact .inr ⟨a, find_cons_self ha, rfl⟩
      · exact .inl (mem_cons_of_mem _ h)
    rw [if_neg ha] at h
    rcases mem_cons.1 h with rfl | h
    · exact .inl mem_cons_self
    · rw [find_cons_of_ne ha]
      exact (ih h).imp_left (mem_cons_of_mem _)

lemma mem_modify (hnd : (rows.map key).Nodup) :
    b ∈ modify key k f rows ↔ (b ∈ rows ∧ key b ≠ k) ∨ ∃ a ∈ rows, key a = k ∧ b = f a := by
  induction rows with
  | nil => simp [modify]
  | cons a rows ih =>
    rw [map_cons, nodup_cons] at hnd
    have ih := ih hnd.2
    rw [modify]
    split
    · rename_i hk
      have hne : ∀ c ∈ rows, key c ≠ k := by
        rintro c hc rfl
        exact hnd.1 (hk ▸ mem_map_of_mem hc)
      constructor
      · intro h
        rcases mem_cons.1 h with rfl | h
        · exact .inr ⟨a, mem_cons_self, hk, rfl⟩
        · exact .inl ⟨mem_cons_of_mem a h, hne b h⟩
      rintro (⟨h, hb⟩ | ⟨c, hc, hck, rfl⟩)
      · rcases mem_cons.1 h with rfl | h
        · exact absurd hk hb
        · exact mem_cons_of_mem _ h
      rcases mem_cons.1 hc with rfl | hc
      · exact mem_cons_self
      · exact absurd hck (hne c hc)
    rename_i hk
    rw [mem_cons, ih]
    constructor
    · rintro (rfl | ⟨h, hb⟩ | ⟨c, hc, hck, rfl⟩)
      · exact .inl ⟨mem_cons_self, hk⟩
      · exact .inl ⟨mem_cons_of_mem a h, hb⟩
      · exact .inr ⟨c, mem_cons_of_mem a hc, hck, rfl⟩
    rintro (⟨h, hb⟩ | ⟨c, hc, hck, rfl⟩)
    · rcases mem_cons.1 h with rfl | h
      · exact .inl rfl
      · exact .inr (.inl ⟨h, hb⟩)
    rcases mem_cons.1 hc with rfl | hc
    · exact absurd hck hk
    · exact .inr (.inr ⟨c, hc, hck, rfl⟩)

/-! ## Removing -/

lemma erase_sublist : (erase key k rows).Sublist rows := eraseP_sublist

lemma mem_erase (hnd : (rows.map key).Nodup) : a ∈ erase key k rows ↔ a ∈ rows ∧ key a ≠ k := by
  induction rows with
  | nil => simp [erase]
  | cons c rows ih =>
    rw [map_cons, nodup_cons] at hnd
    have ih := ih hnd.2
    rw [erase] at ih ⊢
    by_cases hk : key c = k
    · rw [eraseP_cons_of_pos (by simpa using hk)]
      constructor
      · intro h
        refine ⟨mem_cons_of_mem c h, ?_⟩
        rintro rfl
        exact hnd.1 (hk ▸ mem_map_of_mem h)
      rintro ⟨h, hne⟩
      rcases mem_cons.1 h with rfl | h
      · exact absurd hk hne
      · exact h
    rw [eraseP_cons_of_neg (by simpa using hk), mem_cons, ih]
    constructor
    · rintro (rfl | ⟨h, hne⟩)
      · exact ⟨mem_cons_self, hk⟩
      · exact ⟨mem_cons_of_mem c h, hne⟩
    rintro ⟨h, hne⟩
    rcases mem_cons.1 h with rfl | h
    · exact .inl rfl
    · exact .inr ⟨h, hne⟩

lemma erase_modify (hf : ∀ a, find key k rows = some a → key (f a) = k) :
    erase key k (modify key k f rows) = erase key k rows := by
  induction rows with
  | nil => rfl
  | cons a rows ih =>
    rw [modify]
    split
    · rename_i h
      have hfa : key (f a) = k := hf a (find_cons_self h)
      rw [erase, erase, eraseP_cons_of_pos (by simpa using hfa),
        eraseP_cons_of_pos (by simpa using h)]
    rename_i h
    rw [find_cons_of_ne h] at hf
    have ih := ih hf
    rw [erase] at ih
    rw [erase, erase, eraseP_cons_of_neg (by simpa using h),
      eraseP_cons_of_neg (by simpa using h), ih, erase]

lemma erase_of_notMem (h : k ∉ rows.map key) : erase key k rows = rows := by
  refine eraseP_of_forall_not fun a ha hk => h ?_
  rw [← of_decide_eq_true hk]
  exact mem_map_of_mem ha

lemma erase_append_singleton (h : k ∉ rows.map key) (ha : key a = k) :
    erase key k (rows ++ [a]) = rows := by
  rw [erase, eraseP_append_right _ fun b hb hk =>
    h (by rw [← of_decide_eq_true hk]; exact mem_map_of_mem hb)]
  simp [ha]

lemma perm_cons_erase (h : find key k rows = some a) : rows.Perm (a :: erase key k rows) := by
  induction rows with
  | nil => cases h
  | cons c rows ih =>
    rw [find, find?_cons] at h
    rw [erase]
    by_cases hk : key c = k
    · simp only [hk, decide_true, Option.some.injEq] at h
      rw [eraseP_cons_of_pos (by simpa using hk), h]
    simp only [hk, decide_false] at h
    rw [eraseP_cons_of_neg (by simpa using hk)]
    exact ((ih h).cons c).trans (Perm.swap a c _)

end Rows
