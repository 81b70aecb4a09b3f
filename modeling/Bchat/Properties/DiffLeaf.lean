import Bchat.Properties.Act

/-!
# What `diff_impl` records

The diff between two versions of the data, applied with the newer version as its source, sets
exactly the leaves that changed. Another leaf is kept, or cleared if it lies below a node that is
gone or of another type in the newer version; then it has no value in either version.
-/

namespace Bchat.Config

open Bencode List SortedMap Dict DictValue Option

variable {o n : DictValue} {next : List Scalar → List Scalar × List Scalar} {old new : Dict}
  {k : Bytes} {p : List Bytes} {e : Option Scalar}

/-! ## Sets -/

lemma mem_diffSetInner {o : Scalar} {os : List Scalar}
    (hnext : ∀ ns : List Scalar, ns.Pairwise (· < ·) → ∀ x,
      (x ∈ (next ns).1 ↔ x ∈ ns ∧ x ∉ os) ∧ (x ∈ (next ns).2 ↔ x ∈ os ∧ x ∉ ns))
    (ho : ∀ a ∈ os, o < a) {ns : List Scalar} (hns : ns.Pairwise (· < ·)) (x : Scalar) :
    (x ∈ (diffSetInner o os next ns).1 ↔ x ∈ ns ∧ x ∉ o :: os) ∧
      (x ∈ (diffSetInner o os next ns).2 ↔ x ∈ o :: os ∧ x ∉ ns) := by
  induction ns with
  | nil => simp [diffSetInner]
  | cons n ns ih =>
    obtain ⟨hn, hns'⟩ := pairwise_cons.mp hns
    obtain ⟨ih1, ih2⟩ := ih hns'
    rw [diffSetInner]
    split
    · next hlt =>
      -- the new element comes before every old one
      have hno : n ≠ o := hlt.ne
      have hnos : n ∉ os := fun h => absurd (hlt.trans (ho n h)) (lt_irrefl n)
      simp only [mem_cons, ih1, ih2]
      refine ⟨?_, ?_⟩
      all_goals
        by_cases hx : x = n
        · subst hx; simp [hno, hnos]
        · simp [hx]
    rename_i hnlt
    split
    · next hlt =>
      have hon : o ∉ n :: ns := by
        intro h
        rcases mem_cons.mp h with rfl | h
        · exact lt_irrefl _ hlt
        · exact lt_irrefl o (hlt.trans (hn o h))
      obtain ⟨h1, h2⟩ := hnext (n :: ns) hns x
      simp only [mem_cons] at h1 h2 hon ⊢
      refine ⟨?_, ?_⟩
      · rw [h1]
        by_cases hx : x = o
        · subst hx; simp only [hon, false_and]
        · simp [hx]
      rw [h2]
      by_cases hx : x = o
      · subst hx; simp [hon]
      · simp [hx]
    next hnlt' =>
    have heq : o = n := le_antisymm (not_lt.mp hnlt) (not_lt.mp hnlt')
    subst heq
    obtain ⟨h1, h2⟩ := hnext ns hns' x
    have hns : o ∉ ns := fun h => lt_irrefl o (hn o h)
    have hos : o ∉ os := fun h => lt_irrefl o (ho o h)
    rw [h1, h2]
    refine ⟨?_, ?_⟩
    · by_cases hx : x = o
      · subst hx; simp [hns]
      · simp [hx]
    by_cases hx : x = o
    · subst hx; simp [hos]
    · simp [hx]

lemma mem_diffSet {old new : List Scalar} (ho : old.Pairwise (· < ·))
    (hn : new.Pairwise (· < ·)) (x : Scalar) : (x ∈ (diffSet old new).1 ↔ x ∈ new ∧ x ∉ old) ∧
      (x ∈ (diffSet old new).2 ↔ x ∈ old ∧ x ∉ new) := by
  induction old generalizing new x with
  | nil => simp [diffSet]
  | cons o os ih =>
    obtain ⟨ho', hos⟩ := pairwise_cons.mp ho
    exact mem_diffSetInner (fun ns hns x => ih hos hns x) ho' hn x

lemma diffSetInner_sublist {o : Scalar} {os : List Scalar}
    (hnext : ∀ ns, (next ns).1.Sublist ns ∧ (next ns).2.Sublist os) (ns : List Scalar) :
    (diffSetInner o os next ns).1.Sublist ns ∧ (diffSetInner o os next ns).2.Sublist (o :: os) := by
  induction ns with
  | nil => simp [diffSetInner]
  | cons n ns ih =>
    rw [diffSetInner]
    split
    · exact ⟨ih.1.cons_cons n, ih.2⟩
    split
    · exact ⟨(hnext (n :: ns)).1, (hnext (n :: ns)).2.cons_cons o⟩
    · exact ⟨(hnext ns).1.cons n, (hnext ns).2.cons o⟩

lemma diffSet_sublist (old new : List Scalar) :
    (diffSet old new).1.Sublist new ∧ (diffSet old new).2.Sublist old := by
  induction old generalizing new with
  | nil => simp [diffSet]
  | cons o os ih => exact diffSetInner_sublist ih new

lemma diffSet_eq_nil {old new : List Scalar} (ho : old.Pairwise (· < ·))
    (hn : new.Pairwise (· < ·)) (h : diffSet old new = ([], [])) : old = new := by
  refine SortedSet.ext ho hn fun x => ?_
  obtain ⟨h1, h2⟩ := mem_diffSet ho hn x
  simp only [h, not_mem_nil, false_iff, not_and, not_not] at h1 h2
  exact ⟨h2, h1⟩

lemma diffSet_self (s : List Scalar) : diffSet s s = ([], []) := by
  induction s with
  | nil => rfl
  | cons o os ih => simp [diffSet, diffSetInner, ih]

lemma scalarOf_toBt (a : Scalar) : scalarOf a.toBt = some a := by
  cases a with
  | int i => simp [Scalar.toBt, scalarOf, inInt64_toInt]
  | str s => rfl

lemma scalarsOf_toBt (s : List Scalar) : scalarsOf (s.map Scalar.toBt) = some s := by
  induction s with
  | nil => rfl
  | cons a s ih => simp [scalarsOf, scalarOf_toBt, ih]

mutual
lemma diffValue_self : ∀ v : DictValue, diffValue v v = none
  | .scalar s => by simp [diffValue]
  | .set s => by simp [diffValue, diffSet_self]
  | .dict d => by simp [diffValue, diffDict_self d]

lemma diffDict_self : ∀ d : Dict, diffDict d d = []
  | [] => rfl
  | (k, v) :: rest => by simp [diffDict, diffDictInner, diffValue_self v, diffDict_self rest]
end

/-! ## Entries of a diff -/

def diffEntry : Option DictValue → Option DictValue → Option Bt
  | none, none => none
  | none, some n => some (addedValue n)
  | some o, none => some (removedValue o)
  | some o, some n => diffValue o n

lemma find?_addedDict (k : Bytes) (d : Dict) :
    find? k (addedDict d) = (find? k d).map addedValue := by
  induction d with
  | nil => rfl
  | cons q rest ih =>
    rw [addedDict, SortedMap.find?_cons, SortedMap.find?_cons, ih]
    split <;> rfl

lemma find?_eq_none_of_lt {d : Dict} (h : ∀ p ∈ d, k < p.1) : find? k d = none :=
  find?_eq_none_iff.mpr fun p hp => (h p hp).ne'

lemma find?_diffDictInner {os : Dict} {next : Dict → BtDict} (hos : ∀ p ∈ os, k < p.1)
    (hnext : ∀ ns : Dict, SortedMap.Sorted ns → ∀ k', SortedMap.find? k' (next ns) =
      diffEntry (find? k' os) (find? k' ns)) (hnew : SortedMap.Sorted new)
    (k' : Bytes) : find? k' (diffDictInner k o (fun n => diffValue o n) next new) =
      diffEntry (find? k' ((k, o) :: os)) (find? k' new) := by
  induction new with
  | nil =>
    rw [diffDictInner]
    by_cases hk : k = k'
    · subst hk; simp [diffEntry]
    · rw [find?_cons_ne hk, find?_cons_ne hk, hnext [] sorted_nil]
  | cons q ns ih =>
    obtain ⟨k2, n⟩ := q
    obtain ⟨hlt2, hns⟩ := sorted_cons.mp hnew
    rw [diffDictInner]
    split
    · next hlt =>
      by_cases hk : k2 = k'
      · subst hk
        have hnone : find? k2 ((k, o) :: os) = none := by
          refine find?_eq_none_of_lt fun p hp => ?_
          rcases mem_cons.mp hp with rfl | hp
          · exact hlt
          · exact hlt.trans (hos p hp)
        rw [hnone]
        simp [diffEntry]
      · rw [find?_cons_ne hk, ih hns, find?_cons_ne hk]
    rename_i hnlt
    split
    · next hlt =>
      by_cases hk : k = k'
      · subst hk
        have hnone : find? k ((k2, n) :: ns) = none := by
          refine find?_eq_none_of_lt fun p hp => ?_
          rcases mem_cons.mp hp with rfl | hp
          · exact hlt
          · exact hlt.trans (hlt2 p hp)
        rw [hnone]
        simp [diffEntry]
      · rw [find?_cons_ne hk, find?_cons_ne hk, hnext _ hnew]
    rename_i hnlt'
    have heq : k = k2 := le_antisymm (not_lt.mp hnlt) (not_lt.mp hnlt')
    subst heq
    have hno : find? k (next ns) = none := by
      rw [hnext ns hns, find?_eq_none_of_lt hos, find?_eq_none_of_lt hlt2]
      rfl
    by_cases hk : k = k'
    · subst hk
      rw [find?_cons_self, find?_cons_self, diffEntry]
      cases hv : diffValue o n with
      | none => simpa using hno
      | some v => simp
    rw [find?_cons_ne hk, find?_cons_ne hk]
    cases hv : diffValue o n with
    | none => exact hnext ns hns k'
    | some v => rw [find?_cons_ne hk, hnext ns hns]

lemma find?_diffDict (ho : SortedMap.Sorted old) (hn : SortedMap.Sorted new) (k : Bytes) :
    SortedMap.find? k (diffDict old new) = diffEntry (find? k old) (find? k new) := by
  induction old generalizing new k with
  | nil =>
    rw [diffDict, find?_addedDict, SortedMap.find?_nil]
    cases find? k new <;> rfl
  | cons q os ih =>
    obtain ⟨hlt, hos⟩ := sorted_cons.mp ho
    exact find?_diffDictInner hlt (fun ns hns k => ih hos hns k) hn k

/-! ## Well-formedness -/

lemma btWF_toBt (a : Scalar) : BtWF a.toBt := by
  cases a with
  | int i =>
    obtain ⟨h1, h2⟩ := inInt64_toInt i
    exact ⟨h1, by omega⟩
  | str s => trivial

lemma btItemsWF_toBt (s : List Scalar) : BtItemsWF (s.map Scalar.toBt) := by
  induction s with
  | nil => simp [BtItemsWF]
  | cons a s ih => simp [BtItemsWF, btWF_toBt, ih]

lemma scalarBefore_toBt {a b : Scalar} (h : a < b) : ScalarBefore a.toBt b.toBt := by
  cases a with
  | int i =>
    cases b with
    | int j => exact ⟨inInt64_toInt i, inInt64_toInt j, by simpa using h⟩
    | str t => exact inInt64_toInt i
  | str s =>
    cases b with
    | int j => exact absurd h (Scalar.not_str_lt_int s j)
    | str t => simpa [ScalarBefore, Scalar.toBt] using h

lemma isChain_toBt {s : List Scalar} (h : s.Pairwise (· < ·)) :
    (s.map Scalar.toBt).IsChain ScalarBefore := by
  rw [isChain_map]
  exact h.isChain.imp fun _ _ hab => scalarBefore_toBt hab

lemma setDiffBt_wf {r : List Scalar × List Scalar} (h1 : r.1.Pairwise (· < ·))
    (h2 : r.2.Pairwise (· < ·)) : DiffValueWF (setDiffBt r) := by
  refine ⟨?_, isChain_toBt h1, isChain_toBt h2⟩
  simp [BtItemsWF, BtWF, btItemsWF_toBt]

mutual
lemma addedValue_wf : ∀ v : DictValue, v.WF → DiffValueWF (addedValue v)
  | .scalar s, _ => by
    rw [addedValue, DiffValueWF]
    exact Or.inl rfl
  | .set s, h => by
    rw [DictValue.WF] at h
    rw [addedValue]
    exact setDiffBt_wf h List.Pairwise.nil
  | .dict d, h => by
    rw [DictValue.WF] at h
    rw [addedValue, DiffValueWF]
    exact (addedDict_wf d h).1

lemma addedDict_wf : ∀ d : Dict, Dict.WF d →
    DiffWF (addedDict d) ∧ ∀ b, (∀ p ∈ d, b < p.1) → ∀ p ∈ addedDict d, b < p.1
  | [], _ => by simp [addedDict, DiffWF]
  | (k, v) :: rest, h => by
    rw [Dict.WF] at h
    obtain ⟨hwf, hb⟩ := addedDict_wf rest h.2.2
    rw [addedDict, DiffWF]
    refine ⟨⟨addedValue_wf v h.1, hb k h.2.1, hwf⟩, fun b hall => ?_⟩
    obtain ⟨hk, hrest⟩ := forall_mem_cons.mp hall
    exact forall_mem_cons.mpr ⟨hk, hb b hrest⟩
end

mutual
lemma removedValue_wf : ∀ v : DictValue, v.WF → DiffValueWF (removedValue v)
  | .scalar s, _ => by
    rw [removedValue, DiffValueWF]
    exact Or.inr rfl
  | .set s, h => by
    rw [DictValue.WF] at h
    rw [removedValue]
    exact setDiffBt_wf List.Pairwise.nil h
  | .dict d, h => by
    rw [DictValue.WF] at h
    rw [removedValue, DiffValueWF]
    exact (removedDict_wf d h).1

lemma removedDict_wf : ∀ d : Dict, Dict.WF d →
    DiffWF (removedDict d) ∧ ∀ b, (∀ p ∈ d, b < p.1) → ∀ p ∈ removedDict d, b < p.1
  | [], _ => by simp [removedDict, DiffWF]
  | (k, v) :: rest, h => by
    rw [Dict.WF] at h
    obtain ⟨hwf, hb⟩ := removedDict_wf rest h.2.2
    rw [removedDict, DiffWF]
    refine ⟨⟨removedValue_wf v h.1, hb k h.2.1, hwf⟩, fun b hall => ?_⟩
    obtain ⟨hk, hrest⟩ := forall_mem_cons.mp hall
    exact forall_mem_cons.mpr ⟨hk, hb b hrest⟩
end

/-- A well-formed diff all of whose keys come after the given bounds. -/
structure DiffAfter (bounded : Bytes → Prop) (d : BtDict) : Prop where
  wf : DiffWF d
  after : ∀ b, bounded b → ∀ p ∈ d, b < p.1

lemma diffDictInner_wf {same : DictValue → Option Bt} {next : Dict → BtDict} {os : Dict}
    (ho : o.WF) (hos : ∀ p ∈ os, k < p.1) (hsame : ∀ n v, n.WF → same n = some v → DiffValueWF v)
    (hnext : ∀ ns, Dict.WF ns →
      DiffAfter (fun b => (∀ p ∈ os, b < p.1) ∧ ∀ p ∈ ns, b < p.1) (next ns)) (hnew : Dict.WF new) :
    DiffAfter (fun b => (∀ p ∈ (k, o) :: os, b < p.1) ∧ ∀ p ∈ new, b < p.1)
      (diffDictInner k o same next new) := by
  induction new with
  | nil =>
    obtain ⟨hwf, hafter⟩ := hnext [] hnew
    refine ⟨?_, fun b hb => forall_mem_cons.mpr ⟨hb.1 (k, o) mem_cons_self, hafter b ⟨?_, by simp⟩⟩⟩
    · exact ⟨removedValue_wf o ho, hafter k ⟨hos, by simp⟩, hwf⟩
    · exact fun p hp => hb.1 p (mem_cons_of_mem _ hp)
  | cons q ns ih =>
    obtain ⟨k2, n⟩ := q
    obtain ⟨hn, hlt2, hns⟩ := hnew
    rw [diffDictInner]
    split
    · next hlt =>
      obtain ⟨hwf, hafter⟩ := ih hns
      have hk2 : ∀ p ∈ (k, o) :: os, k2 < p.1 :=
        forall_mem_cons.mpr ⟨hlt, fun p hp => hlt.trans (hos p hp)⟩
      refine ⟨?_, fun b hb => forall_mem_cons.mpr ⟨hb.2 (k2, n) mem_cons_self,
        hafter b ⟨hb.1, fun p hp => hb.2 p (mem_cons_of_mem _ hp)⟩⟩⟩
      exact ⟨addedValue_wf n hn, hafter k2 ⟨hk2, hlt2⟩, hwf⟩
    rename_i hnlt
    split
    · next hlt =>
      have hnew : Dict.WF ((k2, n) :: ns) := by
        exact ⟨hn, hlt2, hns⟩
      obtain ⟨hwf, hafter⟩ := hnext _ hnew
      have hk : ∀ p ∈ (k2, n) :: ns, k < p.1 :=
        forall_mem_cons.mpr ⟨hlt, fun p hp => hlt.trans (hlt2 p hp)⟩
      refine ⟨?_, fun b hb => forall_mem_cons.mpr ⟨hb.1 (k, o) mem_cons_self,
        hafter b ⟨fun p hp => hb.1 p (mem_cons_of_mem _ hp), hb.2⟩⟩⟩
      exact ⟨removedValue_wf o ho, hafter k ⟨hos, hk⟩, hwf⟩
    rename_i hnlt'
    have heq : k = k2 := le_antisymm (not_lt.mp hnlt) (not_lt.mp hnlt')
    subst heq
    obtain ⟨hwf, hafter⟩ := hnext ns hns
    have hrest : ∀ b, ((∀ p ∈ (k, o) :: os, b < p.1) ∧ ∀ p ∈ (k, n) :: ns, b < p.1) →
        ∀ p ∈ next ns, b < p.1 := fun b hb =>
      hafter b ⟨fun p hp => hb.1 p (mem_cons_of_mem _ hp),
        fun p hp => hb.2 p (mem_cons_of_mem _ hp)⟩
    cases hv : same n with
    | none => exact ⟨hwf, hrest⟩
    | some v =>
      refine ⟨?_, fun b hb => forall_mem_cons.mpr ⟨hb.1 (k, o) mem_cons_self, hrest b hb⟩⟩
      exact ⟨hsame n v hn hv, hafter k ⟨hos, hlt2⟩, hwf⟩

mutual
lemma diffValue_wf : ∀ (o n : DictValue) (v : Bt), o.WF → n.WF → diffValue o n = some v →
    DiffValueWF v
  | .scalar o, n, v, _, hn, h => by
    cases n with
    | scalar n =>
      simp only [diffValue] at h
      split at h
      · cases h
        rw [DiffValueWF]
        exact Or.inl rfl
      · cases h
    | set n | dict n =>
      cases h
      exact addedValue_wf _ hn
  | .set o, n, v, ho, hn, h => by
    cases n with
    | set n =>
      rw [DictValue.WF] at ho hn
      simp only [diffValue] at h
      split at h
      · cases h
      cases h
      obtain ⟨h1, h2⟩ := diffSet_sublist o n
      exact setDiffBt_wf (hn.sublist h1) (ho.sublist h2)
    | scalar n | dict n =>
      cases h
      exact addedValue_wf _ hn
  | .dict o, n, v, ho, hn, h => by
    cases n with
    | dict n =>
      rw [DictValue.WF] at ho hn
      simp only [diffValue] at h
      split at h
      · cases h
      cases h
      rw [DiffValueWF]
      exact (diffDict_wf o n ho hn).wf
    | scalar n | set n =>
      cases h
      exact addedValue_wf _ hn

lemma diffDict_wf : ∀ (old new : Dict), Dict.WF old → Dict.WF new →
    DiffAfter (fun b => (∀ p ∈ old, b < p.1) ∧ ∀ p ∈ new, b < p.1) (diffDict old new)
  | [], new, _, hn => by
    rw [diffDict]
    obtain ⟨hwf, hb⟩ := addedDict_wf new hn
    exact ⟨hwf, fun b h => hb b h.2⟩
  | (k, o) :: os, new, ho, hn => by
    rw [Dict.WF] at ho
    rw [diffDict]
    exact diffDictInner_wf ho.1 ho.2.1 (fun n v hn hv => diffValue_wf o n v ho.1 hn hv)
      (fun ns hns => diffDict_wf os ns ho.2.2 hns) hn
end

lemma getD_diffImpl (old new : Dict) : (diffImpl old new).getD [] = diffDict old new := by
  unfold diffImpl
  split
  · next h => rw [h]; rfl
  · rfl

lemma diffWF_diffImpl (ho : Dict.WF old) (hn : Dict.WF new) :
    DiffWF ((diffImpl old new).getD []) := by
  rw [getD_diffImpl]
  exact (diffDict_wf old new ho hn).wf

/-! ## A diff can be applied with its own source -/

lemma DiffWF.sorted {d : BtDict} (h : DiffWF d) : SortedMap.Sorted d := by
  induction d with
  | nil => exact sorted_nil
  | cons q rest ih => exact sorted_cons.mpr ⟨h.2.1, ih h.2.2⟩

lemma appliesDict_iff {d : BtDict} {source : Dict} :
    AppliesDict d source ↔ ∀ p ∈ d, AppliesValue p.2 (find? p.1 source) := by
  induction d with
  | nil => simp [AppliesDict]
  | cons q rest ih => rw [AppliesDict, ih, forall_mem_cons]

lemma setDiffApplies_setDiffBt (r : List Scalar × List Scalar) (s : List Scalar) :
    AppliesValue (setDiffBt r) (some (.set s)) := by
  rw [setDiffBt, AppliesValue]
  simp [SetDiffApplies, scalarsOf_toBt]

lemma appliesValue_none {v : Bt} : AppliesValue v none := by
  cases v <;> simp [AppliesValue]

lemma appliesValue_addedValue (n : DictValue) : n.WF → AppliesValue (addedValue n) (some n) := by
  induction n using induct with
  | hs s => simp [addedValue, AppliesValue]
  | hset s => exact fun _ => setDiffApplies_setDiffBt _ _
  | hd d ih =>
    intro h
    rw [addedValue, AppliesValue, appliesDict_iff]
    intro p hp
    have hf := (addedDict_wf d h).1.sorted.find?_of_mem hp
    rw [find?_addedDict] at hf
    obtain ⟨v, hv, heq⟩ := map_eq_some_iff.mp hf
    rw [hv, ← heq]
    exact ih (p.1, v) (mem_of_find? hv) (wf_of_find? h hv)

lemma appliesValue_diffEntry (n : DictValue) : ∀ (o : Option DictValue) (v : Bt),
    (∀ u ∈ o, u.WF) → n.WF → diffEntry o (some n) = some v → AppliesValue v (some n) := by
  -- where the type is another one, the entry is that of a new value
  induction n using induct with
  | hs s =>
    intro o v _ hn h
    rcases o with _ | t | t | t <;> try (cases h; exact appliesValue_addedValue _ hn)
    simp only [diffEntry, diffValue] at h
    split at h
    · cases h; simp [AppliesValue]
    · cases h
  | hset s =>
    intro o v _ hn h
    rcases o with _ | t | t | t <;> try (cases h; exact appliesValue_addedValue _ hn)
    simp only [diffEntry, diffValue] at h
    split at h
    · cases h
    · cases h; exact setDiffApplies_setDiffBt _ _
  | hd d ih =>
    intro o v ho hn h
    rcases o with _ | t | t | t <;> try (cases h; exact appliesValue_addedValue _ hn)
    have ht := ho _ rfl
    simp only [diffEntry, diffValue] at h
    split at h
    · cases h
    cases h
    rw [AppliesValue, appliesDict_iff]
    intro p hp
    have hf := (diffDict_wf t d ht hn).wf.sorted.find?_of_mem hp
    rw [find?_diffDict (wf_iff.mp ht).1 (wf_iff.mp hn).1] at hf
    cases hv : find? p.1 d with
    | none => exact appliesValue_none
    | some w =>
      rw [hv] at hf
      exact ih (p.1, w) (mem_of_find? hv) _ _
        (fun u hu => wf_of_find? ht hu) (wf_of_find? hn hv) hf

lemma appliesDict_diffDict (ho : Dict.WF old) (hn : Dict.WF new) :
    AppliesDict (diffDict old new) new := by
  rw [appliesDict_iff]
  intro p hp
  have hf := (diffDict_wf old new ho hn).wf.sorted.find?_of_mem hp
  rw [find?_diffDict (wf_iff.mp ho).1 (wf_iff.mp hn).1] at hf
  cases hv : find? p.1 new with
  | none => exact appliesValue_none
  | some w =>
    rw [hv] at hf
    exact appliesValue_diffEntry w _ _ (fun u hu => wf_of_find? ho hu) (wf_of_find? hn hv) hf

/-! ## The action of a diff with its own source -/

/-- A node on the way to the leaf, or at it, is there in the old version and not in the new one. -/
def GoneAt (p : List Bytes) (o n : Option DictValue) : Prop :=
  ∃ q, q <+: p ∧ (nodeAt q o).isSome ∧ nodeAt q n = none

/-- A node on the way to the leaf, or at it, has a type with which the leaf cannot be there. -/
def ClashAt (p : List Bytes) (e : Option Scalar) (n : Option DictValue) : Prop :=
  ∃ q r v, p = q ++ r ∧ nodeAt q n = some v ∧ ¬v.kind.Fits r e

lemma not_goneAt_none (p : List Bytes) (n : Option DictValue) : ¬GoneAt p none n := by
  rintro ⟨q, -, hs, -⟩
  simp at hs

lemma goneAt_of_none (p : List Bytes) (o : DictValue) : GoneAt p (some o) none :=
  ⟨[], nil_prefix, rfl, nodeAt_none _⟩

lemma goneAt_cons {o n : Dict} : GoneAt (k :: p) (some (.dict o)) (some (.dict n)) ↔
      GoneAt p (find? k o) (find? k n) := by
  constructor <;> rintro ⟨q, hq, hs, hn⟩
  · cases q with
    | nil => simp at hn
    | cons k' q =>
      obtain ⟨rfl, hq'⟩ := cons_prefix_cons.mp hq
      exact ⟨q, hq', hs, hn⟩
  · exact ⟨k :: q, cons_prefix_cons.mpr ⟨rfl, hq⟩, hs, hn⟩

lemma not_goneAt_of_ne_dict (h : p = [] ∨ o.kind ≠ .dict) : ¬GoneAt p (some o) (some n) := by
  rintro ⟨q, hq, hs, hn⟩
  cases q with
  | nil => simp at hn
  | cons k q =>
    rcases h with rfl | h
    · simp at hq
    cases o with
    | dict d => exact h rfl
    | set s | scalar s => simp at hs

lemma clashAt_here (h : ¬n.kind.Fits p e) : ClashAt p e (some n) := ⟨[], p, n, rfl, rfl, h⟩

lemma ClashAt.cons {d : Dict} (h : ClashAt p e (find? k d)) :
    ClashAt (k :: p) e (some (.dict d)) := by
  obtain ⟨q, r, v, hp, hn, hf⟩ := h
  exact ⟨k :: q, r, v, by rw [hp]; rfl, hn, hf⟩

/-- What an action does when it comes from the diff between `o` and `n`. -/
structure ActSpec (p : List Bytes) (e : Option Scalar) (o n : Option DictValue)
    (a : Act Scalar) : Prop where
  changed : leafAt p e n ≠ leafAt p e o → a = .set (leafAt p e n)
  unchanged : leafAt p e n = leafAt p e o → a = .keep ∨
    (a = .clear ∧ leafAt p e n = none ∧ (GoneAt p o n ∨ ClashAt p e n))
  gone : GoneAt p o n → a = .clear

def actEntry (p : List Bytes) (e : Option Scalar) (entry : Option Bt) (src : Option DictValue) :
    Act Scalar :=
  match entry with
  | none => .keep
  | some v => act p e v src

lemma actSpec_clear_of_not_fits {o : Option DictValue} (h : ¬n.kind.Fits p e) :
    ActSpec p e o (some n) .clear := by
  have hnone : leafAt p e (some n) = none := by
    by_contra hne
    exact h (fits_of_leafAt (isSome_iff_ne_none.mpr hne))
  exact ⟨fun _ => by rw [hnone]; rfl, fun _ => .inr ⟨rfl, hnone, .inr (clashAt_here h)⟩,
    fun _ => rfl⟩

lemma actSpec_added_none (p : List Bytes) (e : Option Scalar) : ∀ n : DictValue,
    ActSpec p e none (some n) (act p e (addedValue n) (some n)) := by
  induction p with
  | nil =>
    intro n
    cases n with
    | dict d =>
      have : act [] e (addedValue (.dict d)) (some (.dict d)) = .clear := by
        cases e <;> simp [addedValue, act]
      rw [this]
      exact actSpec_clear_of_not_fits (by simp [kind, Kind.Fits])
    | scalar s =>
      cases e with
      | none => exact ⟨fun _ => rfl, fun h => by simp at h, fun h => absurd h (not_goneAt_none _ _)⟩
      | some a => exact actSpec_clear_of_not_fits (by simp [kind, Kind.Fits])
    | set s =>
      cases e with
      | none => exact actSpec_clear_of_not_fits (by simp [kind, Kind.Fits])
      | some a =>
        have : act [] (some a) (addedValue (.set s)) (some (.set s)) =
            if a ∈ s then .put a else .keep := by
          simp [addedValue, setDiffBt, act, scalarsOf_toBt, scalarsOf, setAct]
        rw [this]
        by_cases ha : a ∈ s
        · refine ⟨fun _ => ?_, fun h => ?_, fun h => absurd h (not_goneAt_none _ _)⟩
          · simp [ha, Act.set]
          · simp [ha] at h
        refine ⟨fun h => ?_, fun _ => .inl (by simp [ha]), fun h => absurd h (not_goneAt_none _ _)⟩
        simp [ha] at h
  | cons k p ih =>
    intro n
    cases n with
    | scalar s | set s => exact actSpec_clear_of_not_fits (by simp [kind, Kind.Fits])
    | dict d =>
      rw [addedValue, act, find?_addedDict]
      cases hf : find? k d with
      | none =>
        refine ⟨fun h => ?_, fun _ => .inl rfl, fun h => absurd h (not_goneAt_none _ _)⟩
        simp [hf] at h
      | some v =>
        obtain ⟨hch, hun, -⟩ := ih v
        refine ⟨fun h => ?_, fun h => ?_, fun h => absurd h (not_goneAt_none _ _)⟩ <;>
          rw [leafAt_cons_dict, hf] at h ⊢
        · exact hch (by simpa using h)
        rcases hun (by simpa using h) with h | ⟨h1, h2, h3⟩
        · exact .inl h
        refine .inr ⟨h1, h2, .inr ?_⟩
        rcases h3 with h3 | h3
        · exact absurd h3 (not_goneAt_none _ _)
        · exact ClashAt.cons (hf ▸ h3)

lemma actSpec_added (hkind : o.kind ≠ n.kind) :
    ActSpec p e (some o) (some n) (act p e (addedValue n) (some n)) := by
  obtain ⟨hch, hun, -⟩ := actSpec_added_none p e n
  rw [leafAt_none] at hch hun
  by_cases hfit : n.kind.Fits p e
  · -- the old value has another type, so it does not have the leaf
    have hold : leafAt p e (some o) = none := by
      by_contra hne
      exact hkind ((fits_of_leafAt (isSome_iff_ne_none.mpr hne)).unique hfit)
    have hgone : ¬GoneAt p (some o) (some n) := by
      refine not_goneAt_of_ne_dict ?_
      by_cases hp : p = []
      · exact .inl hp
      refine .inr fun ho => hkind ?_
      rw [ho]
      exact (show Kind.dict.Fits p e from hp).unique hfit
    rw [← hold] at hch
    refine ⟨hch, fun h => ?_, fun h => absurd h hgone⟩
    rcases hun (h.trans hold) with h | ⟨h1, h2, h3⟩
    · exact .inl h
    refine .inr ⟨h1, h2, .inr ?_⟩
    rcases h3 with h3 | h3
    · exact absurd h3 (not_goneAt_none _ _)
    · exact h3
  have hclear : act p e (addedValue n) (some n) = .clear := by
    by_cases hz : leafAt p e (some n) = none
    · cases n with
      | scalar s =>
        rw [addedValue, act_scalar, if_neg]
        rintro ⟨rfl, rfl, -⟩
        exact hfit ⟨rfl, rfl⟩
      | set s =>
        rw [addedValue, setDiffBt, act_list_set_of_ne]
        exact hfit
      | dict d =>
        have hp : p = [] := by
          by_contra hp
          exact hfit hp
        subst hp
        cases e <;> simp [addedValue, act]
    · exact absurd (fits_of_leafAt (isSome_iff_ne_none.mpr hz)) hfit
  rw [hclear]
  exact actSpec_clear_of_not_fits hfit

lemma actSpec_scalar (p : List Bytes) (e : Option Scalar) (o n : Scalar) :
    ActSpec p e (some (.scalar o)) (some (.scalar n))
      (actEntry p e (diffValue (.scalar o) (.scalar n)) (some (.scalar n))) := by
  rw [diffValue]
  have hgone : ¬GoneAt p (some (.scalar o)) (some (.scalar n)) :=
    not_goneAt_of_ne_dict (.inr (by simp [kind]))
  by_cases heq : o = n
  · rw [if_neg (by simp [heq]), heq]
    exact ⟨fun h => absurd rfl h, fun _ => .inl rfl, fun h => absurd h (heq ▸ hgone)⟩
  rw [if_pos heq]
  simp only [actEntry, act_scalar]
  by_cases hfit : p = [] ∧ e = none
  · obtain ⟨rfl, rfl⟩ := hfit
    refine ⟨fun _ => rfl, fun h => ?_, fun h => absurd h hgone⟩
    exact absurd (some.inj h).symm heq
  · rw [if_neg fun h => hfit ⟨h.1, h.2.1⟩]
    exact actSpec_clear_of_not_fits hfit

lemma actSpec_set (p : List Bytes) (e : Option Scalar) {o n : List Scalar}
    (ho : o.Pairwise (· < ·)) (hn : n.Pairwise (· < ·)) :
    ActSpec p e (some (.set o)) (some (.set n))
      (actEntry p e (diffValue (.set o) (.set n)) (some (.set n))) := by
  have hgone : ¬GoneAt p (some (.set o)) (some (.set n)) :=
    not_goneAt_of_ne_dict (.inr (by simp [kind]))
  rw [diffValue]
  split
  · next hnil =>
    rw [diffSet_eq_nil ho hn hnil]
    exact ⟨fun h => absurd rfl h, fun _ => .inl rfl,
      fun h => absurd h (diffSet_eq_nil ho hn hnil ▸ hgone)⟩
  simp only [actEntry]
  by_cases hfit : p = [] ∧ e.isSome
  · obtain ⟨rfl, hs⟩ := hfit
    obtain ⟨a, rfl⟩ := isSome_iff_exists.mp hs
    obtain ⟨h1, h2⟩ := mem_diffSet ho hn a
    have hact : act [] (some a) (setDiffBt (diffSet o n)) (some (.set n)) =
        if a ∈ o ∧ a ∉ n then .clear else if a ∈ n ∧ a ∉ o then .put a else .keep := by
      rw [setDiffBt, act, scalarsOf_toBt, scalarsOf_toBt]
      simp only [getD_some, setAct, h1, h2]
    by_cases hao : a ∈ o <;> by_cases han : a ∈ n
    all_goals
      refine ⟨fun h => ?_, fun h => ?_, fun h => absurd h hgone⟩
      all_goals simp_all [Act.set]
  · rw [setDiffBt, act_list_set_of_ne hfit]
    exact actSpec_clear_of_not_fits hfit

lemma actSpec_of_dicts
    (hdict : ∀ o n : Dict, Dict.WF o → Dict.WF n → ActSpec p e (some (.dict o)) (some (.dict n))
      (actEntry p e (diffEntry (some (.dict o)) (some (.dict n))) (some (.dict n))))
    (o n : Option DictValue) (ho : ∀ u ∈ o, u.WF) (hn : ∀ u ∈ n, u.WF) :
    ActSpec p e o n (actEntry p e (diffEntry o n) n) := by
  cases n with
  | none =>
    cases o with
    | none =>
      exact ⟨fun h => absurd rfl h, fun _ => .inl rfl, fun h => absurd h (not_goneAt_none _ _)⟩
    | some o =>
      simp only [diffEntry, actEntry, act_none]
      exact ⟨fun _ => by simp [Act.set],
        fun _ => .inr ⟨rfl, by simp, .inl (goneAt_of_none _ _)⟩, fun _ => rfl⟩
  | some n =>
    cases o with
    | none => exact actSpec_added_none p e n
    | some o =>
      have ho' := ho _ rfl
      have hn' := hn _ rfl
      cases o with
      | scalar o =>
        cases n with
        | scalar n => exact actSpec_scalar p e o n
        | set n | dict n => exact actSpec_added (by simp [kind])
      | set o =>
        cases n with
        | set n => exact actSpec_set p e ho' hn'
        | scalar n | dict n => exact actSpec_added (by simp [kind])
      | dict o =>
        cases n with
        | dict n => exact hdict o n ho' hn'
        | scalar n | set n => exact actSpec_added (by simp [kind])

lemma actSpec_diffEntry (p : List Bytes) (e : Option Scalar) : ∀ o n : Option DictValue,
    (∀ u ∈ o, u.WF) → (∀ u ∈ n, u.WF) → ActSpec p e o n (actEntry p e (diffEntry o n) n) := by
  induction p with
  | nil =>
    refine actSpec_of_dicts fun o n _ _ => ?_
    simp only [diffEntry, diffValue]
    split
    · exact ⟨fun h => by simp at h, fun _ => .inl rfl,
        fun h => absurd h (not_goneAt_of_ne_dict (.inl rfl))⟩
    have hclear : ∀ df : BtDict, act [] e (.dict df) (some (.dict n)) = .clear :=
      fun df => by cases e <;> simp [act]
    simp only [actEntry, hclear]
    exact actSpec_clear_of_not_fits (by simp [kind, Kind.Fits])
  | cons k p ih =>
    refine actSpec_of_dicts fun o n ho hn => ?_
    -- both are dicts: the entry of the key decides
    obtain ⟨hch, hun, hgone⟩ := ih (find? k o) (find? k n)
      (fun u hu => wf_of_find? ho hu) (fun u hu => wf_of_find? hn hu)
    have hact : actEntry (k :: p) e (diffEntry (some (.dict o)) (some (.dict n)))
        (some (.dict n)) = actEntry p e (diffEntry (find? k o) (find? k n)) (find? k n) := by
      rw [← find?_diffDict (wf_iff.mp ho).1 (wf_iff.mp hn).1]
      simp only [diffEntry, diffValue]
      split
      · next hnil => rw [hnil]; rfl
      · simp only [actEntry, act]
        cases find? k (diffDict o n) <;> rfl
    rw [hact]
    refine ⟨hch, fun h => ?_, fun h => hgone (goneAt_cons.mp h)⟩
    rcases hun h with h | ⟨h1, h2, h3⟩
    · exact .inl h
    refine .inr ⟨h1, h2, ?_⟩
    rcases h3 with h3 | h3
    · exact .inl (goneAt_cons.mpr h3)
    · exact .inr h3.cons

lemma actOf_diffDict (ho : Dict.WF old) (hn : Dict.WF new) (l : Leaf) :
    ActSpec l.path l.elem (some (.dict old)) (some (.dict new))
      (actOf (diffDict old new) new l) := by
  have hspec := actSpec_diffEntry l.path l.elem (some (.dict old)) (some (.dict new))
    (fun u hu => by cases hu; exact ho)
    (fun u hu => by cases hu; exact hn)
  obtain ⟨p, e⟩ := l
  cases p with
  | nil =>
    have : actOf (diffDict old new) new ⟨[], e⟩ = .clear := by cases e <;> simp [actOf, act]
    rw [this]
    exact actSpec_clear_of_not_fits (by simp [kind, Kind.Fits])
  | cons k p =>
    have hact : actOf (diffDict old new) new ⟨k :: p, e⟩ =
        actEntry (k :: p) e (diffEntry (some (.dict old)) (some (.dict new)))
          (some (.dict new)) := by
      simp only [diffEntry, diffValue]
      split
      · next hnil => simp [actOf, hnil, act, actEntry]
      · rfl
    rw [hact]
    exact hspec

end Bchat.Config
