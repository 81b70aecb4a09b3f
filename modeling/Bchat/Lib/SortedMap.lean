import Mathlib

/-!
# Sorted association lists

A `std::map` as the list of its key/value pairs in key order. The functions are total on every
list, and the lookup lemmas hold on every list; only extensionality needs the order.

* `insert` is `m[k] = v`, `emplace` keeps the value that is already there, `erase` drops the key
* `Sorted` is the invariant of the container, every operation keeps it
-/

namespace SortedMap

open List

variable {K V : Type*} [LinearOrder K]
variable (k : K) (v : V) (m : List (K × V))

/-! ## Operations -/

/-- The value stored under `k`. -/
def find? (k : K) : List (K × V) → Option V
  | [] => none
  | (k', v) :: rest => if k' = k then some v else find? k rest

/-- `m[k] = v`: replaces the value of `k`, or adds the pair at its place. -/
def insert (k : K) (v : V) : List (K × V) → List (K × V)
  | [] => [(k, v)]
  | (k', v') :: rest =>
    if k < k' then (k, v) :: (k', v') :: rest
    else if k = k' then (k, v) :: rest
    else (k', v') :: insert k v rest

def erase : List (K × V) := m.filter (fun p => p.1 ≠ k)

/-- `m.emplace(k, v)`: a key that is already there keeps its value. -/
def emplace : List (K × V) := if (find? k m).isSome then m else insert k v m

/-- Emplaces pair after pair. -/
def emplaceAll (l m : List (K × V)) : List (K × V) := l.foldl (fun m p => emplace p.1 p.2 m) m

/-- Keys strictly increase. -/
def Sorted : Prop := m.Pairwise (fun a b => a.1 < b.1)

instance (m : List (K × V)) : Decidable (Sorted m) := inferInstanceAs (Decidable (m.Pairwise _))

/-! ## Lookups -/

@[simp] lemma find?_nil : find? k ([] : List (K × V)) = none := rfl

lemma find?_cons (k k' : K) (v : V) (m : List (K × V)) :
    find? k ((k', v) :: m) = if k' = k then some v else find? k m := rfl

@[simp] lemma find?_cons_self : find? k ((k, v) :: m) = some v := by
  rw [find?_cons, if_pos rfl]

lemma find?_cons_ne {k k' : K} (h : k' ≠ k) (v : V) (m : List (K × V)) :
    find? k ((k', v) :: m) = find? k m := by
  rw [find?_cons, if_neg h]

lemma find?_append (m m' : List (K × V)) : find? k (m ++ m') = (find? k m).or (find? k m') := by
  induction m with
  | nil => simp
  | cons p rest ih =>
    obtain ⟨k', v⟩ := p
    rw [cons_append, find?_cons, find?_cons]
    by_cases h : k' = k
    · simp [h]
    · simp [h, ih]

lemma mem_of_find? {k : K} {v : V} {m : List (K × V)} (h : find? k m = some v) : (k, v) ∈ m := by
  induction m with
  | nil => simp at h
  | cons p rest ih =>
    obtain ⟨k', v'⟩ := p
    rw [find?_cons] at h
    by_cases hk : k' = k
    · rw [if_pos hk] at h
      cases h
      rw [hk]
      exact mem_cons_self
    · rw [if_neg hk] at h
      exact mem_cons_of_mem _ (ih h)

lemma find?_eq_none_iff {k : K} {m : List (K × V)} : find? k m = none ↔ ∀ p ∈ m, p.1 ≠ k := by
  induction m with
  | nil => simp
  | cons p rest ih =>
    obtain ⟨k', v⟩ := p
    rw [find?_cons]
    by_cases hk : k' = k
    · simp [hk]
    · simp [hk, ih]

lemma find?_isSome_iff {k : K} {m : List (K × V)} : (find? k m).isSome ↔ ∃ p ∈ m, p.1 = k := by
  cases h : find? k m with
  | none =>
    refine ⟨fun hs => by simp at hs, ?_⟩
    rintro ⟨p, hp, hk⟩
    exact absurd hk (find?_eq_none_iff.mp h p hp)
  | some v => exact ⟨fun _ => ⟨(k, v), mem_of_find? h, rfl⟩, fun _ => rfl⟩

@[simp] lemma find?_insert_self : find? k (insert k v m) = some v := by
  induction m with
  | nil => simp [insert]
  | cons p rest ih =>
    rw [insert]
    split
    · simp
    split
    · simp
    · next hlt hne => rw [find?_cons_ne (Ne.symm hne), ih]

lemma find?_insert_ne {k k' : K} (h : k' ≠ k) (v : V) (m : List (K × V)) :
    find? k (insert k' v m) = find? k m := by
  induction m with
  | nil => simp [insert, find?_cons_ne h]
  | cons p rest ih =>
    rw [insert]
    split
    · rw [find?_cons_ne h]
    split
    · next heq => rw [find?_cons_ne h, find?_cons_ne (heq ▸ h)]
    · rw [find?_cons, find?_cons, ih]

lemma find?_insert (k k' : K) (v : V) (m : List (K × V)) :
    find? k (insert k' v m) = if k' = k then some v else find? k m := by
  by_cases h : k' = k
  · subst h; simp
  · rw [find?_insert_ne h, if_neg h]

@[simp] lemma find?_erase_self : find? k (erase k m) = none := by
  rw [find?_eq_none_iff]
  intro p hp
  simpa using (mem_filter.mp hp).2

lemma find?_erase_ne {k k' : K} (h : k' ≠ k) (m : List (K × V)) :
    find? k (erase k' m) = find? k m := by
  induction m with
  | nil => rfl
  | cons p rest ih =>
    obtain ⟨k'', v⟩ := p
    unfold erase at ih ⊢
    by_cases hk : k'' = k'
    · rw [filter_cons_of_neg (by simp [hk]), ih, find?_cons_ne (hk ▸ h)]
    · rw [filter_cons_of_pos (by simp [hk]), find?_cons, find?_cons, ih]

lemma find?_erase (k k' : K) (m : List (K × V)) :
    find? k (erase k' m) = if k' = k then none else find? k m := by
  by_cases h : k' = k
  · subst h; simp
  · rw [find?_erase_ne h, if_neg h]

lemma find?_emplace (k k' : K) (v : V) (m : List (K × V)) :
    find? k (emplace k' v m) = (find? k m).or (if k' = k then some v else none) := by
  unfold emplace
  by_cases hs : (find? k' m).isSome
  · rw [if_pos hs]
    by_cases h : k' = k
    · subst h
      obtain ⟨w, hw⟩ := Option.isSome_iff_exists.mp hs
      simp [hw]
    · simp [h]
  rw [if_neg hs, find?_insert]
  by_cases h : k' = k
  · subst h
    simp only [Bool.not_eq_true, Option.isSome_eq_false_iff, Option.isNone_iff_eq_none] at hs
    simp [hs]
  · simp [h]

/-! ## Membership and order -/

lemma mem_insert {k : K} {v : V} {p : K × V} {m : List (K × V)} (h : p ∈ insert k v m) :
    p = (k, v) ∨ p ∈ m := by
  induction m with
  | nil => exact .inl (by simpa [insert] using h)
  | cons q rest ih =>
    rw [insert] at h
    split at h
    · simpa using h
    split at h
    · rcases mem_cons.mp h with h | h
      · exact .inl h
      · exact .inr (mem_cons_of_mem _ h)
    rcases mem_cons.mp h with h | h
    · exact .inr (by simp [h])
    rcases ih h with h | h
    · exact .inl h
    · exact .inr (mem_cons_of_mem _ h)

lemma mem_emplace {k : K} {v : V} {p : K × V} {m : List (K × V)} (h : p ∈ emplace k v m) :
    p = (k, v) ∨ p ∈ m := by
  unfold emplace at h
  split at h
  · exact .inr h
  · exact mem_insert h

lemma mem_erase {k : K} {p : K × V} {m : List (K × V)} (h : p ∈ erase k m) : p ∈ m :=
  (mem_filter.mp h).1

lemma sorted_nil : Sorted ([] : List (K × V)) := Pairwise.nil

lemma sorted_cons {k : K} {v : V} {m : List (K × V)} :
    Sorted ((k, v) :: m) ↔ (∀ p ∈ m, k < p.1) ∧ Sorted m := pairwise_cons

lemma Sorted.insert {k : K} {v : V} {m : List (K × V)} (h : Sorted m) :
    Sorted (SortedMap.insert k v m) := by
  induction m with
  | nil => simp [SortedMap.insert, Sorted]
  | cons q rest ih =>
    obtain ⟨hk', hrest⟩ := sorted_cons.mp h
    rw [SortedMap.insert]
    split
    · next hlt =>
      refine sorted_cons.mpr ⟨?_, h⟩
      intro p hp
      rcases mem_cons.mp hp with rfl | hp
      · exact hlt
      · exact hlt.trans (hk' p hp)
    split
    · next heq => exact sorted_cons.mpr ⟨heq ▸ hk', hrest⟩
    rename_i hlt hne
    refine sorted_cons.mpr ⟨?_, ih hrest⟩
    intro p hp
    rcases mem_insert hp with rfl | hp
    · exact lt_of_le_of_ne (not_lt.mp hlt) (Ne.symm hne)
    · exact hk' p hp

lemma Sorted.emplace {k : K} {v : V} {m : List (K × V)} (h : Sorted m) :
    Sorted (SortedMap.emplace k v m) := by
  unfold SortedMap.emplace
  split
  · exact h
  · exact h.insert

lemma Sorted.filter {m : List (K × V)} (q : K × V → Bool) (h : Sorted m) :
    Sorted (m.filter q) := Pairwise.filter q h

lemma Sorted.erase {k : K} {m : List (K × V)} (h : Sorted m) : Sorted (SortedMap.erase k m) :=
  h.filter _

lemma Sorted.find?_of_mem {k : K} {v : V} {m : List (K × V)} (h : Sorted m)
    (hm : (k, v) ∈ m) : find? k m = some v := by
  induction m with
  | nil => simp at hm
  | cons q rest ih =>
    obtain ⟨k', v'⟩ := q
    obtain ⟨hk', hrest⟩ := sorted_cons.mp h
    rcases mem_cons.mp hm with heq | hm
    · cases heq; simp
    · have hlt : k' < k := hk' (k, v) hm
      rw [find?_cons_ne hlt.ne, ih hrest hm]

lemma Sorted.mem_iff {k : K} {v : V} {m : List (K × V)} (h : Sorted m) :
    (k, v) ∈ m ↔ find? k m = some v :=
  ⟨h.find?_of_mem, mem_of_find?⟩

lemma ext {m m' : List (K × V)} (h : Sorted m) (h' : Sorted m')
    (hf : ∀ k, find? k m = find? k m') : m = m' := by
  have hmem : ∀ p, p ∈ m ↔ p ∈ m' := fun p => by
    rw [h.mem_iff (k := p.1) (v := p.2), h'.mem_iff (k := p.1) (v := p.2), hf]
  have nodup : ∀ {l : List (K × V)}, Sorted l → l.Nodup := fun hl =>
    Pairwise.imp (fun hab heq => absurd (congrArg Prod.fst heq) hab.ne) hl
  have hperm : m.Perm m' := (perm_ext_iff_of_nodup (nodup h) (nodup h')).mpr hmem
  exact hperm.eq_of_pairwise (fun a b _ _ hab hba => absurd hab hba.asymm) h h'

lemma insert_eq_append {k : K} {v : V} {m : List (K × V)} (h : ∀ p ∈ m, p.1 < k) :
    insert k v m = m ++ [(k, v)] := by
  induction m with
  | nil => rfl
  | cons q rest ih =>
    obtain ⟨k', v'⟩ := q
    have hlt : k' < k := h (k', v') mem_cons_self
    rw [insert, if_neg hlt.asymm, if_neg hlt.ne', ih fun p hp => h p (mem_cons_of_mem _ hp)]
    rfl

lemma emplace_eq_append {k : K} {v : V} {m : List (K × V)} (h : ∀ p ∈ m, p.1 < k) :
    emplace k v m = m ++ [(k, v)] := by
  have hnone : find? k m = none := find?_eq_none_iff.mpr fun p hp => (h p hp).ne
  simp [emplace, hnone, insert_eq_append h]

lemma sorted_append {m m' : List (K × V)} :
    Sorted (m ++ m') ↔ Sorted m ∧ Sorted m' ∧ ∀ p ∈ m, ∀ q ∈ m', p.1 < q.1 :=
  pairwise_append

/-! ## Emplacing many pairs -/

lemma sorted_emplaceAll {l m : List (K × V)} (h : Sorted m) : Sorted (emplaceAll l m) := by
  induction l generalizing m with
  | nil => exact h
  | cons p l ih => exact ih h.emplace

lemma mem_emplaceAll {l m : List (K × V)} {p : K × V} (h : p ∈ emplaceAll l m) : p ∈ m ∨ p ∈ l := by
  induction l generalizing m with
  | nil => exact .inl h
  | cons q l ih =>
    rcases ih h with h | h
    · rcases mem_emplace h with h | h
      · exact .inr (by simp [h])
      · exact .inl h
    · exact .inr (mem_cons_of_mem _ h)

lemma find?_emplaceAll (l m : List (K × V)) (k : K) :
    find? k (emplaceAll l m) = (find? k m).or (find? k l) := by
  induction l generalizing m with
  | nil => simp [emplaceAll]
  | cons q l ih =>
    obtain ⟨k', v⟩ := q
    show find? k (emplaceAll l (emplace k' v m)) = _
    rw [ih, find?_emplace, find?_cons]
    by_cases h : k' = k
    · simp [h]
    · simp [h]

lemma find?_filter_key (q : K → Bool) (k : K) (m : List (K × V)) :
    find? k (m.filter (fun p => q p.1)) = if q k then find? k m else none := by
  induction m with
  | nil => simp
  | cons p rest ih =>
    obtain ⟨k', v⟩ := p
    by_cases hk : k' = k
    · subst hk
      by_cases hq : q k' = true
      · simp [hq]
      · rw [filter_cons_of_neg (by simpa using hq), ih]
        simp [hq]
    by_cases hq : q k' = true
    · rw [filter_cons_of_pos (by simpa using hq), find?_cons_ne hk, ih, find?_cons_ne hk]
    · rw [filter_cons_of_neg (by simpa using hq), ih, find?_cons_ne hk]

section

variable {m : List (K × V)} (h : Sorted m) {q : K → Bool}

include h

lemma Sorted.dropWhile_eq_filter (hq : ∀ a b, a < b → q b = true → q a = true) :
    m.dropWhile (fun p => q p.1) = m.filter (fun p => !q p.1) := by
  induction m with
  | nil => rfl
  | cons p m ih =>
    obtain ⟨k, v⟩ := p
    obtain ⟨hlt, hm⟩ := sorted_cons.mp h
    by_cases hk : q k = true
    · rw [dropWhile_cons, if_pos hk, filter_cons_of_neg (by simp [hk]), ih hm]
    rw [dropWhile_cons, if_neg hk, filter_cons_of_pos (by simpa using hk)]
    congr 1
    refine (filter_eq_self.mpr fun p hp => ?_).symm
    simpa using fun hqp => hk (hq k p.1 (hlt p hp) hqp)

lemma Sorted.filter_append_filter (hq : ∀ a b, a < b → q b = true → q a = true) :
    m.filter (fun p => q p.1) ++ m.filter (fun p => !q p.1) = m := by
  induction m with
  | nil => rfl
  | cons p m ih =>
    obtain ⟨k, v⟩ := p
    obtain ⟨hlt, hm⟩ := sorted_cons.mp h
    by_cases hk : q k = true
    · rw [filter_cons_of_pos (by simpa using hk), filter_cons_of_neg (by simp [hk]),
        cons_append, ih hm]
    have hnone : ∀ p ∈ m, ¬q p.1 = true := fun p hp hqp => hk (hq k p.1 (hlt p hp) hqp)
    rw [filter_cons_of_neg (by simpa using hk), filter_cons_of_pos (by simpa using hk),
      filter_eq_nil_iff.mpr hnone, nil_append,
      filter_eq_self.mpr fun p hp => by simpa using hnone p hp]

lemma Sorted.rdropWhile_eq_filter (hq : ∀ a b, a < b → q a = true → q b = true) :
    m.rdropWhile (fun p => q p.1) = m.filter (fun p => !q p.1) := by
  induction m using reverseRecOn with
  | nil => rfl
  | append_singleton m p ih =>
    obtain ⟨hm, -, hlt⟩ := sorted_append.mp h
    by_cases hp : q p.1 = true
    · rw [rdropWhile_concat, if_pos hp, ih hm, filter_append]
      simp [hp]
    rw [rdropWhile_concat, if_neg hp, filter_append]
    have hself : m.filter (fun p => !q p.1) = m := by
      refine filter_eq_self.mpr fun r hr => ?_
      simpa using fun hqr => hp (hq r.1 p.1 (hlt r hr p (by simp)) hqr)
    rw [hself]
    simp [hp]

end

/-! ## Changing the values -/

lemma find?_map_value {W : Type*} (f : V → W) (k : K) (m : List (K × V)) :
    find? k (m.map (fun p => (p.1, f p.2))) = (find? k m).map f := by
  induction m with
  | nil => rfl
  | cons q m ih =>
    rw [map_cons, find?_cons, find?_cons, ih]
    split <;> rfl

lemma Sorted.map_value {W : Type*} {m : List (K × V)} (f : K × V → W) (h : Sorted m) :
    Sorted (m.map (fun p => (p.1, f p))) :=
  pairwise_map.mpr h

end SortedMap

/-!
# Sorted lists as sets

A `std::set` as the list of its elements in order.
-/

namespace SortedSet

variable {A : Type*} [LinearOrder A]

/-- `m[k] = v`: replaces the value of `k`, or adds the pair at its place. -/
def insert (a : A) : List A → List A
  | [] => [a]
  | b :: rest => if a < b then a :: b :: rest else if a = b then b :: rest else b :: insert a rest

def erase (a : A) (s : List A) : List A := s.filter (fun b => b ≠ a)

lemma mem_insert {a b : A} {s : List A} : b ∈ insert a s ↔ b = a ∨ b ∈ s := by
  induction s with
  | nil => simp [insert]
  | cons c rest ih =>
    rw [insert]
    split
    · simp
    split
    · next h => simp [h]
    · rw [List.mem_cons, ih, List.mem_cons]
      exact or_left_comm

lemma mem_erase {a b : A} {s : List A} : b ∈ erase a s ↔ b ∈ s ∧ b ≠ a := by
  simp [erase]

lemma pairwise_insert {a : A} {s : List A} (h : s.Pairwise (· < ·)) :
    (insert a s).Pairwise (· < ·) := by
  induction s with
  | nil => simp [insert]
  | cons c rest ih =>
    obtain ⟨hc, hrest⟩ := List.pairwise_cons.mp h
    rw [insert]
    split
    · next hlt =>
      refine List.pairwise_cons.mpr ⟨?_, h⟩
      intro b hb
      rcases List.mem_cons.mp hb with rfl | hb
      · exact hlt
      · exact hlt.trans (hc b hb)
    split
    · exact h
    rename_i hlt hne
    refine List.pairwise_cons.mpr ⟨?_, ih hrest⟩
    intro b hb
    rcases mem_insert.mp hb with rfl | hb
    · exact lt_of_le_of_ne (not_lt.mp hlt) (Ne.symm hne)
    · exact hc b hb

lemma pairwise_erase {a : A} {s : List A} (h : s.Pairwise (· < ·)) :
    (erase a s).Pairwise (· < ·) := List.Pairwise.filter _ h

lemma ext {s t : List A} (hs : s.Pairwise (· < ·)) (ht : t.Pairwise (· < ·))
    (h : ∀ a, a ∈ s ↔ a ∈ t) : s = t := by
  have nodup : ∀ {l : List A}, l.Pairwise (· < ·) → l.Nodup := fun hl => hl.imp ne_of_lt
  have hperm : s.Perm t := (List.perm_ext_iff_of_nodup (nodup hs) (nodup ht)).mpr h
  exact hperm.eq_of_pairwise (fun a b _ _ hab hba => absurd hab hba.asymm) hs ht

end SortedSet
