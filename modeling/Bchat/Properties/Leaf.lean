import Bchat.Config.Types

/-!
# Leaves of config data

Config data as a partial function from leaves to scalars. A leaf is a path of keys together with,
for an element of a set, that element; so assigning, removing and inserting all change one leaf.
-/

namespace Bchat.Config

open List SortedMap Dict DictValue

variable {v : DictValue} {p : List Bytes} {e : Option Scalar} {d : Dict}
variable (k : Bytes)

/-- A place that holds one value: a scalar at a path, or an element of the set at a path. -/
structure Leaf where
  path : List Bytes
  elem : Option Scalar
  deriving DecidableEq

/-- The alternatives of `dict_value`. -/
inductive Kind
  | dict
  | set
  | scalar
  deriving DecidableEq

def DictValue.kind : DictValue → Kind
  | .dict _ => .dict
  | .set _ => .set
  | .scalar _ => .scalar

/-! ## Nodes and leaves -/

def nodeAt : List Bytes → Option DictValue → Option DictValue
  | [], v => v
  | k :: p, some (.dict d) => nodeAt p (SortedMap.find? k d)
  | _ :: _, _ => none

def leafHere : Option Scalar → Option DictValue → Option Scalar
  | none, some (.scalar s) => some s
  | some e, some (.set s) => if e ∈ s then some e else none
  | _, _ => none

def leafAt (p : List Bytes) (e : Option Scalar) (v : Option DictValue) : Option Scalar :=
  leafHere e (nodeAt p v)

def node (d : Dict) (p : List Bytes) : Option DictValue := nodeAt p (some (.dict d))

def leaf (d : Dict) (l : Leaf) : Option Scalar := leafAt l.path l.elem (some (.dict d))

@[simp] lemma nodeAt_nil (v : Option DictValue) : nodeAt [] v = v := by
  rw [nodeAt]

@[simp] lemma nodeAt_none (p : List Bytes) : nodeAt p none = none := by
  cases p <;> rfl

@[simp] lemma nodeAt_cons_dict (p : List Bytes) (d : Dict) :
    nodeAt (k :: p) (some (.dict d)) = nodeAt p (find? k d) := rfl

@[simp] lemma nodeAt_cons_set (p : List Bytes) (s : List Scalar) :
    nodeAt (k :: p) (some (.set s)) = none := rfl

@[simp] lemma nodeAt_cons_scalar (p : List Bytes) (s : Scalar) :
    nodeAt (k :: p) (some (.scalar s)) = none := rfl

@[simp] lemma leafHere_none_right (e : Option Scalar) : leafHere e none = none := by
  cases e <;> rfl

@[simp] lemma leafHere_dict (e : Option Scalar) (d : Dict) :
    leafHere e (some (.dict d)) = none := by
  cases e <;> rfl

@[simp] lemma leafAt_none (p : List Bytes) (e : Option Scalar) : leafAt p e none = none := by
  simp [leafAt]

@[simp] lemma leafAt_nil_dict (e : Option Scalar) (d : Dict) :
    leafAt [] e (some (.dict d)) = none := by
  simp [leafAt]

@[simp] lemma leafAt_nil_scalar (s : Scalar) : leafAt [] none (some (.scalar s)) = some s := rfl

@[simp] lemma leafAt_nil_elem_scalar (e s : Scalar) :
    leafAt [] (some e) (some (.scalar s)) = none := rfl

@[simp] lemma leafAt_nil_none_set (s : List Scalar) : leafAt [] none (some (.set s)) = none := rfl

@[simp] lemma leafAt_nil_elem_set (e : Scalar) (s : List Scalar) :
    leafAt [] (some e) (some (.set s)) = if e ∈ s then some e else none := rfl

@[simp] lemma leafAt_cons_dict (p : List Bytes) (e : Option Scalar) (d : Dict) :
    leafAt (k :: p) e (some (.dict d)) = leafAt p e (find? k d) := rfl

@[simp] lemma leafAt_cons_set (p : List Bytes) (e : Option Scalar) (s : List Scalar) :
    leafAt (k :: p) e (some (.set s)) = none := by
  simp [leafAt]

@[simp] lemma leafAt_cons_scalar (p : List Bytes) (e : Option Scalar) (s : Scalar) :
    leafAt (k :: p) e (some (.scalar s)) = none := by
  simp [leafAt]

lemma nodeAt_append (p q : List Bytes) (v : Option DictValue) :
    nodeAt (p ++ q) v = nodeAt q (nodeAt p v) := by
  induction p generalizing v with
  | nil => simp
  | cons k p ih =>
    cases v with
    | none => simp
    | some v =>
      cases v with
      | dict d => simp [ih]
      | set s | scalar s => simp

lemma leafAt_append (p q : List Bytes) (e : Option Scalar) (v : Option DictValue) :
    leafAt (p ++ q) e v = leafAt q e (nodeAt p v) := by
  unfold leafAt
  rw [nodeAt_append]

/-! ## Pruned data is determined by its leaves -/

lemma exists_leafAt (v : DictValue) (h : v.Pruned) : ∃ p e, (leafAt p e (some v)).isSome := by
  induction v using induct with
  | hs s => exact ⟨[], none, rfl⟩
  | hset s =>
    obtain ⟨e, he⟩ := exists_mem_of_ne_nil s h
    exact ⟨[], some e, by simp [he]⟩
  | hd d ih =>
    cases d with
    | nil => exact absurd rfl h.1
    | cons q rest =>
      obtain ⟨k, v⟩ := q
      obtain ⟨p, e, hp⟩ := ih (k, v) mem_cons_self (pruned_iff.mp h.2 (k, v) mem_cons_self)
      exact ⟨k :: p, e, by simpa using hp⟩

/-- Whether a leaf can be at a value of the given kind, at its end or below. -/
def Kind.Fits : Kind → List Bytes → Option Scalar → Prop
  | .dict, p, _ => p ≠ []
  | .set, p, e => p = [] ∧ e.isSome
  | .scalar, p, e => p = [] ∧ e = none

lemma fits_of_leafAt (h : (leafAt p e (some v)).isSome) : v.kind.Fits p e := by
  cases v with
  | dict d => cases p <;> simp_all [kind, Kind.Fits]
  | set s | scalar s => cases p <;> cases e <;> simp_all [kind, Kind.Fits]

lemma Kind.Fits.unique {κ κ' : Kind} (h : κ.Fits p e) (h' : κ'.Fits p e) : κ = κ' := by
  cases κ <;> cases κ' <;> cases p <;> cases e <;> simp_all [Kind.Fits]

lemma pruned_of_find? (h : Dict.Pruned d) {k : Bytes} (hf : find? k d = some v) : v.Pruned :=
  pruned_iff.mp h (k, v) (mem_of_find? hf)

lemma nodeAt_wf_pruned {w : DictValue} (hv : v.WF) (hp : v.Pruned)
    (h : nodeAt p (some v) = some w) : w.WF ∧ w.Pruned := by
  induction p generalizing v with
  | nil =>
    cases h
    exact ⟨hv, hp⟩
  | cons k p ih =>
    cases v with
    | dict d =>
      rw [nodeAt_cons_dict] at h
      cases hf : find? k d with
      | none => simp [hf] at h
      | some u =>
        rw [hf] at h
        exact ih (wf_of_find? hv hf) (pruned_of_find? hp.2 hf) h
    | set s | scalar s => simp at h

lemma find?_eq_of_leaf_eq {d' : Dict} (hp : Dict.Pruned d) (hp' : Dict.Pruned d') (k : Bytes)
    (heq : ∀ p e, leafAt p e (find? k d) = leafAt p e (find? k d'))
    (ih : ∀ v w, find? k d = some v → find? k d' = some w → v = w) : find? k d = find? k d' := by
  cases hv : find? k d with
  | none =>
    cases hw : find? k d' with
    | none => rfl
    | some w =>
      obtain ⟨p, e, hl⟩ := exists_leafAt w (pruned_of_find? hp' hw)
      rw [← hw, ← heq, hv] at hl
      simp at hl
  | some v =>
    cases hw : find? k d' with
    | none =>
      obtain ⟨p, e, hl⟩ := exists_leafAt v (pruned_of_find? hp hv)
      rw [← hv, heq, hw] at hl
      simp at hl
    | some w => rw [ih v w hv hw]

lemma value_eq_of_leafAt_eq (v : DictValue) : ∀ w : DictValue, v.WF → v.Pruned → w.WF →
    w.Pruned → (∀ p e, leafAt p e (some v) = leafAt p e (some w)) → v = w := by
  induction v using induct with
  | hs s =>
    intro w _ _ _ _ heq
    have h := heq [] none
    cases w with
    | scalar t => simpa using h
    | set t | dict d => simp at h
  | hset s =>
    intro w hv hp hw _ heq
    obtain ⟨e, he⟩ := exists_mem_of_ne_nil s hp
    have h := heq [] (some e)
    cases w with
    | scalar t | dict d => simp [he] at h
    | set t =>
      congr 1
      refine SortedSet.ext hv hw fun a => ?_
      have ha := heq [] (some a)
      simp only [leafAt_nil_elem_set] at ha
      by_cases hs : a ∈ s <;> by_cases ht : a ∈ t <;> simp_all
  | hd d ih =>
    intro w hv hp hw hpw heq
    obtain ⟨p, e, hl⟩ := exists_leafAt (.dict d) hp
    have hkind : (dict d).kind = w.kind :=
      (fits_of_leafAt hl).unique (fits_of_leafAt (heq p e ▸ hl))
    cases w with
    | scalar t | set t => cases hkind
    | dict d' =>
      congr 1
      refine ext (wf_iff.mp hv).1 (wf_iff.mp hw).1 fun k => ?_
      have hk : ∀ p e, leafAt p e (find? k d) = leafAt p e (find? k d') :=
        fun p e => by simpa using heq (k :: p) e
      refine find?_eq_of_leaf_eq hp.2 hpw.2 k hk fun u u' hu hu' => ?_
      refine ih (k, u) (mem_of_find? hu) u' (wf_of_find? hv hu)
        (pruned_of_find? hp.2 hu) (wf_of_find? hw hu') (pruned_of_find? hpw.2 hu') fun p e => ?_
      rw [← hu, ← hu']
      exact hk p e

/-- **Pruned data is determined by its leaves.** -/
lemma eq_of_leaf_eq {d' : Dict} (hd : Dict.WF d) (hp : Dict.Pruned d) (hd' : Dict.WF d')
    (hp' : Dict.Pruned d') (heq : ∀ l, leaf d l = leaf d' l) : d = d' := by
  refine ext (wf_iff.mp hd).1 (wf_iff.mp hd').1 fun k => ?_
  have hk : ∀ p e, leafAt p e (find? k d) = leafAt p e (find? k d') :=
    fun p e => by simpa [leaf] using heq ⟨k :: p, e⟩
  refine find?_eq_of_leaf_eq hp hp' k hk fun v w hv hw => ?_
  refine value_eq_of_leafAt_eq v w (wf_of_find? hd hv) (pruned_of_find? hp hv) (wf_of_find? hd' hw)
    (pruned_of_find? hp' hw) fun p e => ?_
  rw [← hv, ← hw]
  exact hk p e

/-! ## Pruning -/

def prunedEntry (v : DictValue) : Option DictValue :=
  if (pruneValue v).2.1 then none else some (pruneValue v).1

lemma pruneEntries_cons (v : DictValue) (rest : Dict) : (pruneEntries ((k, v) :: rest)).1 =
      match prunedEntry v with
      | none => (pruneEntries rest).1
      | some w => (k, w) :: (pruneEntries rest).1 := by
  rw [pruneEntries]
  unfold prunedEntry
  cases (pruneValue v).2.1 <;> rfl

lemma mem_prune_key {p : Bytes × DictValue} (h : p ∈ (pruneEntries d).1) :
    ∃ v, (p.1, v) ∈ d ∧ prunedEntry v = some p.2 := by
  induction d with
  | nil => simp [pruneEntries] at h
  | cons q rest ih =>
    obtain ⟨k, v⟩ := q
    rw [pruneEntries_cons] at h
    cases hv : prunedEntry v with
    | none =>
      rw [hv] at h
      obtain ⟨w, hw, he⟩ := ih h
      exact ⟨w, mem_cons_of_mem _ hw, he⟩
    | some w =>
      rw [hv] at h
      rcases mem_cons.mp h with rfl | h
      · exact ⟨v, mem_cons_self, hv⟩
      · obtain ⟨w', hw', he⟩ := ih h
        exact ⟨w', mem_cons_of_mem _ hw', he⟩

lemma find?_pruneEntries (h : SortedMap.Sorted d) (k : Bytes) :
    find? k (pruneEntries d).1 = (find? k d).bind prunedEntry := by
  induction d with
  | nil => simp [pruneEntries]
  | cons q rest ih =>
    obtain ⟨k', v⟩ := q
    obtain ⟨hlt, hrest⟩ := sorted_cons.mp h
    rw [pruneEntries_cons, SortedMap.find?_cons]
    by_cases hk : k' = k
    · subst hk
      rw [if_pos rfl, Option.bind_some]
      cases hv : prunedEntry v with
      | none =>
        -- the key is gone, and no later pair has it
        refine find?_eq_none_iff.mpr fun p hp => ?_
        obtain ⟨w, hw, -⟩ := mem_prune_key hp
        exact (hlt (p.1, w) hw).ne'
      | some w => simp
    rw [if_neg hk]
    cases hv : prunedEntry v with
    | none => exact ih hrest
    | some w => rw [find?_cons_ne hk, ih hrest]

lemma sorted_pruneEntries (h : SortedMap.Sorted d) : SortedMap.Sorted (pruneEntries d).1 := by
  induction d with
  | nil => simp [pruneEntries, sorted_nil]
  | cons q rest ih =>
    obtain ⟨k, v⟩ := q
    obtain ⟨hlt, hrest⟩ := sorted_cons.mp h
    rw [pruneEntries_cons]
    cases prunedEntry v with
    | none => exact ih hrest
    | some w =>
      refine sorted_cons.mpr ⟨fun p hp => ?_, ih hrest⟩
      obtain ⟨u, hu, -⟩ := mem_prune_key hp
      exact hlt (p.1, u) hu

lemma prunedEntry_spec (v : DictValue) : ∀ w, v.WF → prunedEntry v = some w → w.WF ∧ w.Pruned := by
  induction v using induct with
  | hs s =>
    intro w _ h
    simp only [prunedEntry, pruneValue, Bool.false_eq_true, if_false, Option.some.injEq] at h
    subst h
    simp [DictValue.WF, DictValue.Pruned]
  | hset s =>
    intro w hv h
    cases s with
    | nil => simp [prunedEntry, pruneValue] at h
    | cons a rest =>
      simp only [prunedEntry, pruneValue, isEmpty_cons, Bool.false_eq_true, if_false,
        Option.some.injEq] at h
      subst h
      exact ⟨hv, by simp [DictValue.Pruned]⟩
  | hd d ih =>
    intro w hv h
    unfold prunedEntry at h
    rw [pruneValue] at h
    split at h
    · cases h
    rename_i hne
    cases h
    have hsorted := sorted_pruneEntries (wf_iff.mp hv).1
    have hall : ∀ p ∈ (pruneEntries d).1, p.2.WF ∧ p.2.Pruned := by
      intro p hp
      obtain ⟨u, hu, he⟩ := mem_prune_key hp
      exact ih (p.1, u) hu p.2 ((wf_iff.mp hv).2 (p.1, u) hu) he
    exact ⟨wf_iff.mpr ⟨hsorted, fun p hp => (hall p hp).1⟩, by simpa using hne,
      pruned_iff.mpr fun p hp => (hall p hp).2⟩

lemma wf_prune (h : Dict.WF d) : Dict.WF (prune d) := by
  refine wf_iff.mpr ⟨sorted_pruneEntries (wf_iff.mp h).1, fun p hp => ?_⟩
  obtain ⟨v, hv, he⟩ := mem_prune_key hp
  exact (prunedEntry_spec v p.2 ((wf_iff.mp h).2 (p.1, v) hv) he).1

lemma pruned_prune (h : Dict.WF d) : Dict.Pruned (prune d) := by
  refine pruned_iff.mpr fun p hp => ?_
  obtain ⟨v, hv, he⟩ := mem_prune_key hp
  exact (prunedEntry_spec v p.2 ((wf_iff.mp h).2 (p.1, v) hv) he).2

lemma leafAt_prunedEntry (v : DictValue) : v.WF → ∀ p e,
    leafAt p e (prunedEntry v) = leafAt p e (some v) := by
  induction v using induct with
  | hs s => exact fun _ _ _ => by simp [prunedEntry, pruneValue]
  | hset s =>
    intro _ p e
    cases s with
    | nil => cases p <;> cases e <;> simp [prunedEntry, pruneValue]
    | cons a rest => simp [prunedEntry, pruneValue]
  | hd d ih =>
    intro hv p e
    have hkey : ∀ k q, leafAt q e (find? k (pruneEntries d).1) = leafAt q e (find? k d) := by
      intro k q
      rw [find?_pruneEntries (wf_iff.mp hv).1]
      cases hf : find? k d with
      | none => rfl
      | some u => exact ih (k, u) (mem_of_find? hf) (wf_of_find? hv hf) q e
    unfold prunedEntry
    rw [pruneValue]
    cases p with
    | nil => split <;> simp
    | cons k q =>
      rw [leafAt_cons_dict, ← hkey k q]
      split
      · next hempty =>
        have hnil : (pruneEntries d).1 = [] := by simpa using hempty
        simp [hnil]
      · simp

lemma leaf_prune (h : Dict.WF d) (l : Leaf) : leaf (prune d) l = leaf d l := by
  obtain ⟨p, e⟩ := l
  cases p with
  | nil => simp [leaf]
  | cons k q =>
    show leafAt q e (find? k (pruneEntries d).1) = leafAt q e (find? k d)
    rw [find?_pruneEntries (wf_iff.mp h).1]
    cases hf : find? k d with
    | none => rfl
    | some v => exact leafAt_prunedEntry v (wf_of_find? h hf) q e

lemma prune_eq_self (h : Dict.WF d) (hp : Dict.Pruned d) : prune d = d :=
  eq_of_leaf_eq (wf_prune h) (pruned_prune h) h hp (leaf_prune h)

lemma prune_prune (h : Dict.WF d) : prune (prune d) = prune d :=
  prune_eq_self (wf_prune h) (pruned_prune h)

lemma prune_eq_prune_iff {d' : Dict} (h : Dict.WF d) (h' : Dict.WF d') :
    prune d' = prune d ↔ ∀ l, leaf d l = leaf d' l := by
  constructor
  · intro heq l
    rw [← leaf_prune h, ← leaf_prune h', heq]
  intro heq
  refine eq_of_leaf_eq (wf_prune h') (pruned_prune h') (wf_prune h) (pruned_prune h) fun l => ?_
  rw [leaf_prune h, leaf_prune h', heq]

lemma prunedEntry_dict (d : Dict) :
    prunedEntry (.dict d) = if prune d = [] then none else some (.dict (prune d)) := by
  rw [prunedEntry, pruneValue, prune]
  by_cases h : (pruneEntries d).1 = []
  · simp [h]
  · simp [h]

/-- Neither the value nor anything below it is removed. -/
def Untouched (v : DictValue) : Prop := (pruneValue v).2 = (false, false)

lemma pruneEntries_flag (h : ∀ p ∈ d, Untouched p.2 ↔ p.2.Pruned) :
    (pruneEntries d).2 = false ↔ Dict.Pruned d := by
  induction d with
  | nil => simp [pruneEntries, Dict.Pruned]
  | cons q rest ih =>
    rw [forall_mem_cons] at h
    rw [pruneEntries, Dict.Pruned, ← h.1, ← ih h.2]
    simp [Untouched, Prod.ext_iff, and_assoc]

lemma untouched_iff (v : DictValue) : v.WF → (Untouched v ↔ v.Pruned) := by
  induction v using induct with
  | hs s | hset s => simp [Untouched, pruneValue, DictValue.Pruned]
  | hd d ih =>
    intro hwf
    have hflag := pruneEntries_flag fun p hp => ih p hp ((wf_iff.mp hwf).2 p hp)
    rw [Untouched, pruneValue, DictValue.Pruned, Prod.mk.injEq, hflag]
    refine and_congr_left fun hp => ?_
    rw [← prune, prune_eq_self hwf hp]
    simp

lemma nodeAt_prunedEntry (hkind : v.kind ≠ .dict) (hv : v.Pruned) (u : DictValue) :
    u.WF → ∀ p, nodeAt p (some u) = some v → nodeAt p (prunedEntry u) = some v := by
  induction u using induct with
  | hs s => exact fun _ p h => h
  | hset s =>
    intro _ p h
    cases p with
    | nil =>
      cases h
      simpa [prunedEntry, pruneValue, DictValue.Pruned] using hv
    | cons k q => simp at h
  | hd d ih =>
    intro hwf p h
    cases p with
    | nil =>
      cases h
      exact absurd rfl hkind
    | cons k q =>
      rw [nodeAt_cons_dict] at h
      have hentry : nodeAt q (find? k (prune d)) = some v := by
        rw [prune, find?_pruneEntries (wf_iff.mp hwf).1]
        cases hf : find? k d with
        | none => simp [hf] at h
        | some u => exact ih (k, u) (mem_of_find? hf) (wf_of_find? hwf hf) q (by rwa [hf] at h)
      rw [prunedEntry_dict]
      split
      · next hnil => simp [hnil] at hentry
      · exact hentry

/-- **The pruned form is a normal form**, and `prune_` reports whether it changed anything. -/
theorem prune_normal_form (d d' : {d : Dict // Dict.WF d}) : Dict.Pruned (prune d) ∧
      (∀ p v, v.kind ≠ .dict → v.Pruned → node d p = some v → node (prune d) p = some v) ∧
      prune (prune d) = prune d ∧
      ((pruneEntries d).2 = true ↔ prune d ≠ d) ∧
      (prune d = prune d' ↔ ∀ l, leaf d l = leaf d' l) := by
  obtain ⟨d, h⟩ := d
  have hpruned := pruned_prune h
  refine ⟨hpruned, fun p v hkind hv hnode => ?_, prune_prune h, ?_, ?_⟩
  · have hentry := nodeAt_prunedEntry hkind hv (.dict d) h p hnode
    rw [prunedEntry_dict] at hentry
    split at hentry
    · simp at hentry
    · exact hentry
  · have hflag := pruneEntries_flag fun p hp => untouched_iff p.2 ((wf_iff.mp h).2 p hp)
    rw [← Bool.not_eq_false, hflag, not_iff_not]
    exact ⟨prune_eq_self h, fun heq => by rwa [show prune d = d from heq] at hpruned⟩
  · rw [eq_comm, prune_eq_prune_iff h d'.2]

end Bchat.Config
