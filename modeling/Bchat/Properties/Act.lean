import Bchat.Properties.Leaf
import Bchat.Roundtrip.Sections

/-!
# What a diff does to each leaf

Applying a diff with its source keeps, clears or sets each leaf, whatever the data it is applied
to. So a replay is a sequence of independent actions on every leaf.
-/

namespace Bchat.Config

open Bencode List SortedMap DictValue

variable {l : List Bt} {s s' as : List Scalar} {d : BtDict} {k : Bytes} {source data : Dict}
  {src : Option DictValue}

/-! ## Actions -/

/-- An action on one optional value. -/
inductive Act (α : Type)
  | keep
  | clear
  | put (a : α)
  deriving DecidableEq

namespace Act

variable {α : Type}

def apply : Act α → Option α → Option α
  | .keep, o => o
  | .clear, _ => none
  | .put a, _ => some a

def set : Option α → Act α
  | none => .clear
  | some a => .put a

@[simp] lemma apply_keep (o : Option α) : (keep : Act α).apply o = o := rfl
@[simp] lemma apply_clear (o : Option α) : (clear : Act α).apply o = none := rfl
@[simp] lemma apply_put (a : α) (o : Option α) : (put a).apply o = some a := rfl

@[simp] lemma apply_set (v o : Option α) : (set v).apply o = v := by
  cases v <;> rfl

end Act

/-! ## Elements of set diffs -/

def scalarOf : Bt → Option Scalar
  | .int i => if InInt64 i then some (.int (Int64.ofInt i)) else none
  | .str s => some (.str s)
  | _ => none

def scalarsOf : List Bt → Option (List Scalar)
  | [] => some []
  | v :: rest =>
    match scalarOf v, scalarsOf rest with
    | some a, some as => some (a :: as)
    | _, _ => none

lemma getBtScalar_eq_some {v : Bt} {a : Scalar} :
    getBtScalar v = .ok (some a) ↔ scalarOf v = some a := by
  unfold getBtScalar
  cases v with
  | int i =>
    by_cases hi : InInt64 i
    · simp [getBtInt, scalarOf, hi]
    · simp [getBtInt, scalarOf, hi, bind, Except.bind]
  | str s | list l | dict d => simp [getBtInt, getBtStr, scalarOf]

lemma elems_eq_ok {f : List Bt → List Scalar → Except Err (List Scalar)} {e : Err}
    {g : Scalar → List Scalar → List Scalar} (hnil : ∀ s, f [] s = .ok s)
    (hcons : ∀ v rest s, f (v :: rest) s = getBtScalar v >>= fun
      | some a => f rest (g a s)
      | none => .error e) :
    f l s = .ok s' ↔ ∃ as, scalarsOf l = some as ∧ s' = as.foldl (fun s a => g a s) s := by
  induction l generalizing s with
  | nil => simp [hnil, scalarsOf, eq_comm]
  | cons v rest ih =>
    rw [hcons, bind_eq_ok, scalarsOf]
    constructor
    · rintro ⟨o, ho, h⟩
      cases o with
      | none => cases h
      | some a =>
        obtain ⟨as, has, hs⟩ := ih.mp h
        exact ⟨a :: as, by simp [getBtScalar_eq_some.mp ho, has], hs⟩
    rintro ⟨as, has, hs⟩
    split at has
    · next a as' ha has' =>
      cases has
      exact ⟨some a, getBtScalar_eq_some.mpr ha, ih.mpr ⟨as', has', hs⟩⟩
    · cases has

lemma addElems_eq_ok : addElems l s = .ok s' ↔
      ∃ as, scalarsOf l = some as ∧ s' = as.foldl (fun s a => SortedSet.insert a s) s :=
  elems_eq_ok (fun _ => rfl) fun _ _ _ => rfl

lemma removeElems_eq_ok : removeElems l s = .ok s' ↔
      ∃ as, scalarsOf l = some as ∧ s' = as.foldl (fun s a => SortedSet.erase a s) s :=
  elems_eq_ok (fun _ => rfl) fun _ _ _ => rfl

lemma mem_foldl_insert {x : Scalar} :
    x ∈ as.foldl (fun s a => SortedSet.insert a s) s ↔ x ∈ as ∨ x ∈ s := by
  induction as generalizing s with
  | nil => simp
  | cons a as ih =>
    rw [foldl_cons, ih, SortedSet.mem_insert, mem_cons]
    tauto

lemma mem_foldl_erase {x : Scalar} :
    x ∈ as.foldl (fun s a => SortedSet.erase a s) s ↔ x ∉ as ∧ x ∈ s := by
  induction as generalizing s with
  | nil => simp
  | cons a as ih =>
    rw [foldl_cons, ih, SortedSet.mem_erase, mem_cons]
    tauto

lemma pairwise_foldl_insert (h : s.Pairwise (· < ·)) :
    (as.foldl (fun s a => SortedSet.insert a s) s).Pairwise (· < ·) := by
  induction as generalizing s with
  | nil => exact h
  | cons a as ih => exact ih (SortedSet.pairwise_insert h)

lemma pairwise_foldl_erase (h : s.Pairwise (· < ·)) :
    (as.foldl (fun s a => SortedSet.erase a s) s).Pairwise (· < ·) := by
  induction as generalizing s with
  | nil => exact h
  | cons a as ih => exact ih (SortedSet.pairwise_erase h)

/-! ## The action of a diff -/

def setAct (added removed : List Scalar) (a : Scalar) : Act Scalar :=
  if a ∈ removed then .clear else if a ∈ added then .put a else .keep

/-- What the value of a diff does to the leaf at a path below it, given what the source has at the
same place. Where the source has nothing, or another type, everything is cleared. -/
def act : List Bytes → Option Scalar → Bt → Option DictValue → Act Scalar
  | [], none, .str mode, some (.scalar s) => if mode = bytes "-" then .clear else .put s
  | [], some a, .list (.list added :: .list removed :: _), some (.set _) =>
    setAct ((scalarsOf added).getD []) ((scalarsOf removed).getD []) a
  | k :: p, e, .dict diff, some (.dict src) =>
    match SortedMap.find? k diff with
    | some v => act p e v (SortedMap.find? k src)
    | none => .keep
  | _, _, _, _ => .clear

def SetDiffApplies : List Bt → Prop
  | .list added :: .list removed :: _ => (scalarsOf added).isSome ∧ (scalarsOf removed).isSome
  | _ => False

mutual
def AppliesValue : Bt → Option DictValue → Prop
  | .str mode, some (.scalar _) => mode = bytes "-" ∨ mode = bytes ""
  | .list l, some (.set _) => SetDiffApplies l
  | .dict d, some (.dict src) => AppliesDict d src
  | .int _, some _ => False
  | _, _ => True

def AppliesDict : BtDict → Dict → Prop
  | [], _ => True
  | (k, v) :: rest, source => AppliesValue v (SortedMap.find? k source) ∧ AppliesDict rest source
end

/-! ## `applyDiff` does what `act` says -/

/-- What applying the value of a diff at a key does. -/
structure ActsAt (v : Bt) (k : Bytes) (source data data' : Dict) : Prop where
  wf : Dict.WF data → Dict.WF data'
  other : ∀ k', k' ≠ k → SortedMap.find? k' data' = SortedMap.find? k' data
  here : ∀ p e, leafAt p e (SortedMap.find? k data') =
    (act p e v (SortedMap.find? k source)).apply (leafAt p e (SortedMap.find? k data))

lemma wf_erase {d : Dict} (h : Dict.WF d) : Dict.WF (erase k d) := by
  obtain ⟨hs, hall⟩ := Dict.wf_iff.mp h
  exact Dict.wf_iff.mpr ⟨hs.erase, fun p hp => hall p (mem_erase hp)⟩

lemma actsAt_erase {v : Bt} (h : ∀ p e, act p e v (find? k source) = .clear) :
    ActsAt v k source data (erase k data) where
  wf := wf_erase
  other _ hne := find?_erase_ne (Ne.symm hne) data
  here p e := by rw [h p e, find?_erase_self]; simp

lemma actsAt_insert {v : Bt} {w : DictValue} (hw : Dict.WF data → w.WF)
    (h : ∀ p e, leafAt p e (some w) =
      (act p e v (find? k source)).apply (leafAt p e (find? k data))) :
    ActsAt v k source data (insert k w data) where
  wf hd := wf_insert hd (hw hd)
  other _ hne := find?_insert_ne (Ne.symm hne) w data
  here p e := by rw [find?_insert_self, h p e]

lemma act_scalar (mode : Bytes) (s : Scalar) (p : List Bytes) (e : Option Scalar) :
    act p e (.str mode) (some (.scalar s)) =
      if p = [] ∧ e = none ∧ mode ≠ bytes "-" then .put s else .clear := by
  cases p <;> cases e <;> by_cases h : mode = bytes "-" <;> simp [act, h]

lemma act_str_of_ne_scalar {mode : Bytes} (h : ∀ s, src ≠ some (.scalar s)) (p : List Bytes)
    (e : Option Scalar) : act p e (.str mode) src = .clear := by
  unfold act
  split <;> simp_all

lemma act_list_of_ne_set (h : ∀ s, src ≠ some (.set s)) (p : List Bytes) (e : Option Scalar) :
    act p e (.list l) src = .clear := by
  unfold act
  split <;> simp_all

lemma act_dict_of_ne_dict (h : ∀ s, src ≠ some (.dict s)) (p : List Bytes) (e : Option Scalar) :
    act p e (.dict d) src = .clear := by
  unfold act
  split <;> simp_all

lemma act_none (v : Bt) (p : List Bytes) (e : Option Scalar) : act p e v none = .clear := by
  unfold act
  split <;> simp_all

lemma wf_subset (h : Dict.WF data) : (subset k data).Pairwise (· < ·) := by
  unfold subset
  split
  · next s hf =>
    have := wf_of_find? h hf
    rwa [WF] at this
  · exact Pairwise.nil

lemma wf_subdict (h : Dict.WF data) : Dict.WF (subdict k data) := by
  unfold subdict
  split
  · next d hf =>
    have := wf_of_find? h hf
    rwa [WF] at this
  · trivial

lemma leafAt_elem_subset (a : Scalar) (k : Bytes) (data : Dict) :
    leafAt [] (some a) (find? k data) = if a ∈ subset k data then some a else none := by
  unfold subset
  split
  · next s hf => rw [hf]; rfl
  rename_i hne
  cases hf : find? k data with
  | none => simp
  | some v =>
    cases v with
    | dict d | scalar s => simp
    | set s => exact absurd hf (hne s)

lemma leafAt_cons_subdict (k' : Bytes) (p : List Bytes) (e : Option Scalar) (k : Bytes)
    (data : Dict) : leafAt (k' :: p) e (find? k data) = leafAt p e (find? k' (subdict k data)) := by
  unfold subdict
  split
  · next d hf => rw [hf]; rfl
  rename_i hne
  cases hf : find? k data with
  | none => simp
  | some v =>
    cases v with
    | dict d => exact absurd hf (hne d)
    | set s | scalar s => simp

lemma applySetDiff_spec (h : SetDiffApplies l) (s : List Scalar) :
    ∃ s', applySetDiff l s = .ok s' ∧ (s.Pairwise (· < ·) → s'.Pairwise (· < ·)) ∧
      ∀ (src : List Scalar) (a : Scalar), (if a ∈ s' then some a else none) =
        (act [] (some a) (.list l) (some (.set src))).apply (if a ∈ s then some a else none) := by
  unfold SetDiffApplies at h
  split at h
  · next added removed rest =>
    obtain ⟨as, has⟩ := Option.isSome_iff_exists.mp h.1
    obtain ⟨rs, hrs⟩ := Option.isSome_iff_exists.mp h.2
    rw [applySetDiff, addElems_eq_ok.mpr ⟨as, has, rfl⟩, ok_bind,
      removeElems_eq_ok.mpr ⟨rs, hrs, rfl⟩]
    refine ⟨_, rfl, fun hs => pairwise_foldl_erase (pairwise_foldl_insert hs), fun src a => ?_⟩
    rw [act, has, hrs]
    simp only [mem_foldl_erase, mem_foldl_insert, Option.getD_some, setAct]
    by_cases hr : a ∈ rs
    · simp [hr]
    by_cases ha : a ∈ as
    · simp [hr, ha]
    · simp [hr, ha]
  · exact h.elim

lemma setDiffApplies_of_applySetDiff (h : applySetDiff l s = .ok s') : SetDiffApplies l := by
  unfold applySetDiff at h
  split at h
  · obtain ⟨s1, hs1, h⟩ := bind_eq_ok.mp h
    obtain ⟨as, has, -⟩ := addElems_eq_ok.mp hs1
    obtain ⟨rs, hrs, -⟩ := removeElems_eq_ok.mp h
    simp [SetDiffApplies, has, hrs]
  · cases h

lemma act_list_set_of_ne {src : List Scalar} {p : List Bytes} {e : Option Scalar}
    (h : ¬(p = [] ∧ e.isSome)) : act p e (.list l) (some (.set src)) = .clear := by
  cases p <;> cases e <;> simp_all [act]

mutual
lemma applyValue_leaf : ∀ (v : Bt) (k : Bytes) (data source : Dict), DiffValueWF v →
    AppliesValue v (SortedMap.find? k source) →
    ∃ data', applyValue v k data source = .ok data' ∧ ActsAt v k source data data'
  | .int i, _, _, _, hwf, _ => by
    rw [DiffValueWF] at hwf
    exact hwf.elim
  | .str mode, k, data, source, _, happ => by
    rw [applyValue]
    split
    · next s hf =>
      rw [hf, AppliesValue] at happ
      by_cases hm : mode = bytes "-"
      · rw [if_pos hm]
        exact ⟨_, rfl, actsAt_erase fun p e => by rw [hf, act_scalar]; simp [hm]⟩
      have hm' : mode = bytes "" := happ.resolve_left hm
      rw [if_neg hm, if_pos hm']
      refine ⟨_, rfl, actsAt_insert (fun _ => by rw [WF]; trivial) fun p e => ?_⟩
      rw [hf, act_scalar]
      cases p <;> cases e <;> simp [hm]
    · next hne => exact ⟨_, rfl, actsAt_erase (act_str_of_ne_scalar hne)⟩
  | .list l, k, data, source, _, happ => by
    rw [applyValue]
    split
    · next src hf =>
      rw [hf, AppliesValue] at happ
      obtain ⟨s, hs, hpw, hact⟩ := applySetDiff_spec happ (subset k data)
      rw [hs, ok_bind]
      refine ⟨_, rfl, actsAt_insert (fun hd => ?_) fun p e => ?_⟩
      · rw [WF]
        exact hpw (wf_subset hd)
      rw [hf]
      cases p with
      | cons k' p => rw [act_list_set_of_ne (by simp)]; simp
      | nil =>
        cases e with
        | none => rw [act_list_set_of_ne (by simp)]; simp
        | some a => rw [leafAt_elem_subset, leafAt_nil_elem_set, hact src a]
    · next hne => exact ⟨_, rfl, actsAt_erase (act_list_of_ne_set hne)⟩
  | .dict d, k, data, source, hwf, happ => by
    rw [DiffValueWF] at hwf
    rw [applyValue]
    split
    · next src hf =>
      rw [hf, AppliesValue] at happ
      obtain ⟨sub, hsub, hsubwf, hkeep, hact⟩ := applyDiff_leaf d (subdict k data) src hwf happ
      rw [hsub, ok_bind]
      refine ⟨_, rfl, actsAt_insert (fun hd => ?_) fun p e => ?_⟩
      · rw [WF]
        exact hsubwf (wf_subdict hd)
      rw [hf]
      cases p with
      | nil => simp [act]
      | cons k' p =>
        rw [leafAt_cons_dict, leafAt_cons_subdict, act]
        cases hd : find? k' d with
        | none => rw [hkeep k' hd]; rfl
        | some v => exact hact k' v hd p e
    · next hne => exact ⟨_, rfl, actsAt_erase (act_dict_of_ne_dict hne)⟩

/-- **Applying a diff succeeds and does to every leaf what `act` says.** -/
lemma applyDiff_leaf : ∀ (d : BtDict) (data source : Dict), DiffWF d → AppliesDict d source →
    ∃ data', applyDiff d data source = .ok data' ∧ (Dict.WF data → Dict.WF data') ∧
      (∀ k, SortedMap.find? k d = none → find? k data' = find? k data) ∧
      ∀ k v, SortedMap.find? k d = some v → ∀ p e, leafAt p e (find? k data') =
        (act p e v (find? k source)).apply (leafAt p e (find? k data))
  | [], data, source, _, _ => ⟨data, by rw [applyDiff], id, fun _ _ => rfl, by simp⟩
  | (k, v) :: rest, data, source, hwf, happ => by
    rw [DiffWF] at hwf
    rw [AppliesDict] at happ
    obtain ⟨data1, h1, hat⟩ := applyValue_leaf v k data source hwf.1 happ.1
    obtain ⟨data2, h2, hwf2, hkeep, hact⟩ := applyDiff_leaf rest data1 source hwf.2.2 happ.2
    -- no later pair has the key of the first one
    have hnone : find? k rest = none := find?_eq_none_iff.mpr fun p hp => (hwf.2.1 p hp).ne'
    refine ⟨data2, by rw [applyDiff, h1, ok_bind, h2], fun hd => hwf2 (hat.wf hd), ?_, ?_⟩
    · intro k' hk'
      by_cases hkk : k = k'
      · subst hkk; simp at hk'
      · rw [find?_cons_ne hkk] at hk'
        rw [hkeep k' hk', hat.other k' (Ne.symm hkk)]
    intro k' w hw p e
    by_cases hkk : k = k'
    · subst hkk
      rw [find?_cons_self] at hw
      cases hw
      rw [hkeep k hnone, hat.here p e]
    · rw [find?_cons_ne hkk] at hw
      rw [hact k' w hw p e, hat.other k' (Ne.symm hkk)]
end

/-! ## When `applyDiff` throws -/

mutual
lemma appliesValue_of_applyValue : ∀ {v : Bt} {k : Bytes} {data source data' : Dict},
    applyValue v k data source = .ok data' → AppliesValue v (find? k source)
  | .int i, k, data, source, data', h => by
    rw [applyValue] at h
    split at h
    · next hf => rw [hf, AppliesValue] <;> simp
    · cases h
  | .str mode, k, data, source, data', h => by
    rw [applyValue] at h
    split at h
    · next s hf =>
      rw [hf, AppliesValue]
      split at h
      · next hm => exact Or.inl hm
      split at h
      · next hm => exact Or.inr hm
      · cases h
    rename_i hne
    rcases hf : find? k source with _ | s | s | d <;>
      first | exact absurd hf (hne _) | simp [AppliesValue]
  | .list l, k, data, source, data', h => by
    rw [applyValue] at h
    split at h
    · next src hf =>
      rw [hf, AppliesValue]
      obtain ⟨s, hs, h⟩ := bind_eq_ok.mp h
      exact setDiffApplies_of_applySetDiff hs
    rename_i hne
    rcases hf : find? k source with _ | s | s | d <;>
      first | exact absurd hf (hne _) | simp [AppliesValue]
  | .dict d, k, data, source, data', h => by
    rw [applyValue] at h
    split at h
    · next src hf =>
      obtain ⟨sub, hsub, h⟩ := bind_eq_ok.mp h
      rw [hf, AppliesValue]
      exact appliesDict_of_applyDiff hsub
    rename_i hne
    rcases hf : find? k source with _ | s | s | d <;>
      first | exact absurd hf (hne _) | simp [AppliesValue]

lemma appliesDict_of_applyDiff : ∀ {d : BtDict} {data source data' : Dict},
    applyDiff d data source = .ok data' → AppliesDict d source
  | [], data, source, data', _ => by
    rw [AppliesDict]
    trivial
  | (k, v) :: rest, data, source, data', h => by
    rw [applyDiff] at h
    obtain ⟨data1, h1, h⟩ := bind_eq_ok.mp h
    rw [AppliesDict]
    exact ⟨appliesValue_of_applyValue h1, appliesDict_of_applyDiff h⟩
end

/-! ## Whole diffs -/

def actOf (d : BtDict) (source : Dict) (l : Leaf) : Act Scalar :=
  act l.path l.elem (.dict d) (some (.dict source))

lemma applyDiff_spec (hwf : DiffWF d) (happ : AppliesDict d source) (data : Dict) :
    ∃ data', applyDiff d data source = .ok data' ∧ (Dict.WF data → Dict.WF data') ∧
      ∀ l, leaf data' l = (actOf d source l).apply (leaf data l) := by
  obtain ⟨data', h, hwf', hkeep, hact⟩ := applyDiff_leaf d data source hwf happ
  refine ⟨data', h, hwf', ?_⟩
  rintro ⟨p, e⟩
  cases p with
  | nil => simp [leaf, actOf, act]
  | cons k p =>
    show leafAt p e (find? k data') =
      (act (k :: p) e (.dict d) (some (.dict source))).apply (leafAt p e (find? k data))
    rw [act]
    cases hd : find? k d with
    | none => rw [hkeep k hd]; rfl
    | some v => exact hact k v hd p e

lemma applyDiff_ok_iff (hwf : DiffWF d) :
    (∃ data', applyDiff d data source = .ok data') ↔ AppliesDict d source := by
  constructor
  · rintro ⟨data', h⟩
    exact appliesDict_of_applyDiff h
  intro happ
  obtain ⟨data', h, -⟩ := applyDiff_spec hwf happ data
  exact ⟨data', h⟩

end Bchat.Config
