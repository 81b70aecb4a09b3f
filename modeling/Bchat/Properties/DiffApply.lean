import Bchat.Properties.DiffLeaf

/-!
# A diff, applied to the old version, gives the new one

`diff_impl` dereferences the result of its own recursive calls for keys that were added, removed or
changed their type. `diffImplChecked` keeps these dereferences apart; on pruned data none of them
fails.
-/

namespace Bchat.Config

open Bencode

/-! ## `diff_impl` with its dereferences -/

mutual
def addedChecked : DictValue → Except Err Bt
  | .dict d => do
    match ← addedDictChecked d with
    | [] => .error .emptyOptional
    | df => .ok (.dict df)
  | .set [] => .error .emptyOptional
  | .set s => .ok (setDiffBt (s, []))
  | .scalar _ => .ok (.str (bytes ""))

def addedDictChecked : Dict → Except Err BtDict
  | [] => .ok []
  | (k, v) :: rest => do
    let v' ← addedChecked v
    let rest' ← addedDictChecked rest
    .ok ((k, v') :: rest')
end

mutual
def removedChecked : DictValue → Except Err Bt
  | .dict d => do
    match ← removedDictChecked d with
    | [] => .error .emptyOptional
    | df => .ok (.dict df)
  | .set [] => .error .emptyOptional
  | .set s => .ok (setDiffBt ([], s))
  | .scalar _ => .ok (.str (bytes "-"))

def removedDictChecked : Dict → Except Err BtDict
  | [] => .ok []
  | (k, v) :: rest => do
    let v' ← removedChecked v
    let rest' ← removedDictChecked rest
    .ok ((k, v') :: rest')
end

/-- The walk over two sorted dicts while the old one is at the key `k`. -/
def diffDictInnerChecked (k : Bytes) (o : DictValue) (same : DictValue → Except Err (Option Bt))
    (next : Dict → Except Err BtDict) : Dict → Except Err BtDict
  | [] => do
    let v ← removedChecked o
    let rest ← next []
    .ok ((k, v) :: rest)
  | (k', n) :: ns =>
    if k' < k then do
      let v ← addedChecked n
      let rest ← diffDictInnerChecked k o same next ns
      .ok ((k', v) :: rest)
    else if k < k' then do
      let v ← removedChecked o
      let rest ← next ((k', n) :: ns)
      .ok ((k, v) :: rest)
    else do
      match ← same n with
      | some v => do
        let rest ← next ns
        .ok ((k, v) :: rest)
      | none => next ns

mutual
/-- `df[key]` for a key that is in both dicts, if it is assigned at all. -/
def diffValueChecked : DictValue → DictValue → Except Err (Option Bt)
  | .scalar o, n =>
    match n with
    | .scalar n => .ok (if o ≠ n then some (.str (bytes "")) else none)
    | n => (addedChecked n).map some
  | .dict o, n =>
    match n with
    | .dict n => do
      match ← diffDictChecked o n with
      | [] => .ok none
      | df => .ok (some (.dict df))
    | n => (addedChecked n).map some
  | .set o, n =>
    match n with
    | .set n => .ok (match diffSet o n with
      | ([], []) => none
      | r => some (setDiffBt r))
    | n => (addedChecked n).map some

def diffDictChecked : Dict → Dict → Except Err BtDict
  | [], new => addedDictChecked new
  | (k, o) :: os, new =>
    diffDictInnerChecked k o (fun n => diffValueChecked o n) (fun ns => diffDictChecked os ns) new
end

def diffImplChecked (old new : Dict) : Except Err (Option BtDict) := do
  match ← diffDictChecked old new with
  | [] => .ok none
  | df => .ok (some df)

/-! ## No dereference fails -/

lemma addedDict_ne_nil {d : Dict} (h : d ≠ []) : addedDict d ≠ [] := by
  obtain ⟨⟨k, v⟩, rest, rfl⟩ := List.exists_cons_of_ne_nil h
  exact List.cons_ne_nil _ _

lemma removedDict_ne_nil {d : Dict} (h : d ≠ []) : removedDict d ≠ [] := by
  obtain ⟨⟨k, v⟩, rest, rfl⟩ := List.exists_cons_of_ne_nil h
  exact List.cons_ne_nil _ _

mutual
lemma addedChecked_eq : ∀ v : DictValue, v.Pruned → addedChecked v = .ok (addedValue v)
  | .scalar s, _ => by rw [addedChecked, addedValue]
  | .set s, h => by
    rw [DictValue.Pruned] at h
    obtain ⟨a, rest, rfl⟩ := List.exists_cons_of_ne_nil h
    rw [addedChecked, addedValue]
    simp
  | .dict d, h => by
    rw [DictValue.Pruned] at h
    rw [addedChecked, addedDictChecked_eq d h.2, addedValue, ok_bind]
    split
    · next hnil => exact absurd hnil (addedDict_ne_nil h.1)
    · rfl

lemma addedDictChecked_eq : ∀ d : Dict, Dict.Pruned d → addedDictChecked d = .ok (addedDict d)
  | [], _ => by rw [addedDictChecked, addedDict]
  | (k, v) :: rest, h => by
    rw [Dict.Pruned] at h
    rw [addedDictChecked, addedChecked_eq v h.1, addedDictChecked_eq rest h.2, addedDict]
    rfl
end

mutual
lemma removedChecked_eq : ∀ v : DictValue, v.Pruned → removedChecked v = .ok (removedValue v)
  | .scalar s, _ => by rw [removedChecked, removedValue]
  | .set s, h => by
    rw [DictValue.Pruned] at h
    obtain ⟨a, rest, rfl⟩ := List.exists_cons_of_ne_nil h
    rw [removedChecked, removedValue]
    simp
  | .dict d, h => by
    rw [DictValue.Pruned] at h
    rw [removedChecked, removedDictChecked_eq d h.2, removedValue, ok_bind]
    split
    · next hnil => exact absurd hnil (removedDict_ne_nil h.1)
    · rfl

lemma removedDictChecked_eq : ∀ d : Dict, Dict.Pruned d → removedDictChecked d = .ok (removedDict d)
  | [], _ => by rw [removedDictChecked, removedDict]
  | (k, v) :: rest, h => by
    rw [Dict.Pruned] at h
    rw [removedDictChecked, removedChecked_eq v h.1, removedDictChecked_eq rest h.2, removedDict]
    rfl
end

lemma diffDictInnerChecked_eq {k : Bytes} {o : DictValue} (ho : o.Pruned)
    {same : DictValue → Except Err (Option Bt)} {same' : DictValue → Option Bt}
    {next : Dict → Except Err BtDict} {next' : Dict → BtDict}
    (hsame : ∀ n : DictValue, n.Pruned → same n = .ok (same' n))
    (hnext : ∀ ns : Dict, Dict.Pruned ns → next ns = .ok (next' ns)) {new : Dict}
    (hnew : Dict.Pruned new) :
    diffDictInnerChecked k o same next new = .ok (diffDictInner k o same' next' new) := by
  induction new with
  | nil =>
    rw [diffDictInnerChecked, diffDictInner, removedChecked_eq o ho, hnext [] hnew]
    rfl
  | cons q ns ih =>
    obtain ⟨k', n⟩ := q
    have hns := hnew
    rw [diffDictInnerChecked, diffDictInner]
    split
    · rw [addedChecked_eq n hns.1, ih hns.2]
      rfl
    split
    · rw [removedChecked_eq o ho, hnext _ hnew]
      rfl
    · rw [hsame n hns.1, hnext ns hns.2, ok_bind]
      cases same' n <;> rfl

mutual
lemma diffValueChecked_eq : ∀ o n : DictValue, o.Pruned → n.Pruned →
    diffValueChecked o n = .ok (diffValue o n)
  | .scalar o, n, _, hn => by
    cases n with
    | scalar n => simp only [diffValueChecked, diffValue]
    | dict d | set s =>
      simp only [diffValueChecked, diffValue, addedChecked_eq _ hn]
      rfl
  | .set o, n, _, hn => by
    cases n with
    | set n => rfl
    | dict d | scalar s =>
      simp only [diffValueChecked, diffValue, addedChecked_eq _ hn]
      rfl
  | .dict o, n, ho, hn => by
    cases n with
    | dict n =>
      rw [DictValue.Pruned] at ho hn
      simp only [diffValueChecked, diffValue, diffDictChecked_eq o n ho.2 hn.2, ok_bind]
      cases diffDict o n <;> rfl
    | scalar s | set s =>
      simp only [diffValueChecked, diffValue, addedChecked_eq _ hn]
      rfl

/-- **No dereference fails on pruned data.** -/
lemma diffDictChecked_eq : ∀ old new : Dict, Dict.Pruned old → Dict.Pruned new →
    diffDictChecked old new = .ok (diffDict old new)
  | [], new, _, hn => by rw [diffDictChecked, diffDict, addedDictChecked_eq new hn]
  | (k, o) :: os, new, ho, hn => by
    rw [Dict.Pruned] at ho
    rw [diffDictChecked, diffDict]
    exact diffDictInnerChecked_eq ho.1 (fun n => diffValueChecked_eq o n ho.1)
      (fun ns => diffDictChecked_eq os ns ho.2) hn
end

lemma diffImplChecked_eq {old new : Dict} (ho : Dict.Pruned old) (hn : Dict.Pruned new) :
    diffImplChecked old new = .ok (diffImpl old new) := by
  rw [diffImplChecked, diffDictChecked_eq old new ho hn, ok_bind, diffImpl]
  cases diffDict old new <;> rfl

/-! ## Equal dicts -/

lemma apply_actOf_diffDict {old new : Dict} (ho : Dict.WF old) (hn : Dict.WF new) (l : Leaf) :
    (actOf (diffDict old new) new l).apply (leaf old l) = leaf new l := by
  obtain ⟨hchanged, hunchanged, -⟩ := actOf_diffDict ho hn l
  by_cases heq : leaf new l = leaf old l
  · rcases hunchanged heq with hkeep | ⟨hclear, hnone, -⟩
    · rw [hkeep, Act.apply_keep, heq]
    · rw [hclear, Act.apply_clear]
      exact hnone.symm
  · rw [hchanged heq, Act.apply_set]
    rfl

lemma diffDict_eq_nil_iff {old new : Dict} (ho : Dict.WF old) (hpo : Dict.Pruned old)
    (hn : Dict.WF new) (hpn : Dict.Pruned new) : diffDict old new = [] ↔ old = new := by
  constructor
  · intro hnil
    refine eq_of_leaf_eq ho hpo hn hpn fun l => ?_
    have hact := apply_actOf_diffDict ho hn l
    rw [hnil] at hact
    obtain ⟨p, e⟩ := l
    cases p with
    | nil => simp [leaf]
    | cons k p => simpa [actOf, act] using hact
  · rintro rfl
    exact diffDict_self old

lemma diffImpl_eq_none_iff (old new : Dict) : diffImpl old new = none ↔ diffDict old new = [] := by
  unfold diffImpl
  cases diffDict old new <;> simp

/-- **Diff, then apply**: on pruned data `diff_impl` dereferences no empty optional and returns
nothing exactly for equal dicts; its result, applied to the old version with the new one as source
and pruned, gives the new version. -/
theorem diff_then_apply (old new : Dict) (ho : Dict.WF old) (hpo : Dict.Pruned old)
    (hn : Dict.WF new) (hpn : Dict.Pruned new) : diffImplChecked old new = .ok (diffImpl old new) ∧
    (diffImpl old new = none ↔ old = new) ∧
    ∃ data, applyDiff ((diffImpl old new).getD []) old new = .ok data ∧ prune data = new := by
  refine ⟨diffImplChecked_eq hpo hpn, ?_, ?_⟩
  · rw [diffImpl_eq_none_iff, diffDict_eq_nil_iff ho hpo hn hpn]
  rw [getD_diffImpl]
  obtain ⟨data, happly, hwf, hleaf⟩ := applyDiff_spec (diffDict_wf old new ho hn).wf
    (appliesDict_diffDict ho hn) old
  refine ⟨data, happly, eq_of_leaf_eq (wf_prune (hwf ho)) (pruned_prune (hwf ho)) hn hpn ?_⟩
  intro l
  rw [leaf_prune (hwf ho), hleaf, apply_actOf_diffDict ho hn]

def versionOld : Dict :=
  [(bytes "a", .dict [(bytes "x", .scalar (.int 1))]), (bytes "b", .scalar (.str (bytes "one"))),
    (bytes "s", .set [.int 1, .str (bytes "z")])]

def versionNew : Dict :=
  [(bytes "a", .scalar (.int 5)), (bytes "b", .dict [(bytes "t", .set [.int 3])]),
    (bytes "s", .set [.int 2, .str (bytes "z")])]

theorem diff_then_apply_typeChange : Dict.WF versionOld ∧ Dict.Pruned versionOld ∧
    Dict.WF versionNew ∧ Dict.Pruned versionNew ∧ diffImpl versionOld versionNew ≠ none ∧
    ∃ data, applyDiff ((diffImpl versionOld versionNew).getD []) versionOld versionNew = .ok data ∧
      prune data = versionNew := by
  have ho : Dict.WF versionOld := by
    simp only [versionOld, Dict.WF, DictValue.WF, List.forall_mem_cons]
    decide
  have hn : Dict.WF versionNew := by
    simp only [versionNew, Dict.WF, DictValue.WF, List.forall_mem_cons]
    decide
  have hpo : Dict.Pruned versionOld := by simp [versionOld, Dict.Pruned, DictValue.Pruned]
  have hpn : Dict.Pruned versionNew := by simp [versionNew, Dict.Pruned, DictValue.Pruned]
  obtain ⟨-, hnone, happly⟩ := diff_then_apply versionOld versionNew ho hpo hn hpn
  refine ⟨ho, hpo, hn, hpn, fun h => ?_, happly⟩
  have heq := hnone.mp h
  simp [versionOld, versionNew] at heq

end Bchat.Config
