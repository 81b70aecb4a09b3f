import Bchat.Config.FieldProxy
import Bchat.Properties.Leaf

/-!
# Field edits and dirtiness

The methods of a field proxy take a short cut while the object is not Dirty: when it makes a
difference, to the data or to what the method returns.
-/

namespace Bchat.Config

open SortedMap ConfigBase Dict DictValue Option

variable (value : Scalar)

/-! ## Pruned data, key by key -/

lemma find?_prune {d : Dict} (h : Dict.WF d) (k : Bytes) :
    find? k (prune d) = (find? k d).bind prunedEntry :=
  find?_pruneEntries (wf_iff.mp h).1 k

lemma prune_eq_prune_iff_find? {d d' : Dict} (h : Dict.WF d) (h' : Dict.WF d') :
    prune d = prune d' ↔ ∀ k, (find? k d).bind prunedEntry = (find? k d').bind prunedEntry := by
  constructor
  · intro heq k
    rw [← find?_prune h, ← find?_prune h', heq]
  intro heq
  refine SortedMap.ext (wf_iff.mp (wf_prune h)).1 (wf_iff.mp (wf_prune h')).1 fun k => ?_
  rw [find?_prune h, find?_prune h', heq]

lemma prunedEntry_dict_eq_iff {d d' : Dict} :
    prunedEntry (.dict d) = prunedEntry (.dict d') ↔ prune d = prune d' := by
  refine ⟨fun h => ?_, fun h => by rw [prunedEntry_dict, prunedEntry_dict, h]⟩
  rw [prunedEntry_dict, prunedEntry_dict] at h
  by_cases hd : prune d = [] <;> by_cases hd' : prune d' = [] <;> simp_all

lemma prune_insert_eq_iff {d d' : Dict} {v v' : DictValue} (h : Dict.WF d) (h' : Dict.WF d')
    (hv : v.WF) (hv' : v'.WF) (hd : prune d = prune d') (k : Bytes) :
    prune (insert k v d) = prune (insert k v' d') ↔ prunedEntry v = prunedEntry v' := by
  rw [prune_eq_prune_iff_find? (wf_insert h hv) (wf_insert h' hv')]
  constructor
  · intro heq
    simpa using heq k
  intro heq k'
  rw [find?_insert, find?_insert]
  split
  · exact heq
  · exact (prune_eq_prune_iff_find? h h').mp hd k'

lemma prune_insert_dict_eq_iff {d d' e e' : Dict} (h : Dict.WF d) (h' : Dict.WF d')
    (he : Dict.WF e) (he' : Dict.WF e') (hd : prune d = prune d') (k : Bytes) :
    prune (insert k (.dict e) d) = prune (insert k (.dict e') d') ↔ prune e = prune e' := by
  have hv : (dict e).WF := he
  have hv' : (dict e').WF := he'
  rw [prune_insert_eq_iff h h' hv hv' hd, prunedEntry_dict_eq_iff]

lemma insert_of_find? {d : Dict} {k : Bytes} {v : DictValue} (h : Dict.WF d)
    (hf : find? k d = some v) : insert k v d = d := by
  refine SortedMap.ext (wf_iff.mp h).1.insert (wf_iff.mp h).1 fun k' => ?_
  rw [find?_insert]
  split
  · next hk => rw [← hk, hf]
  · rfl

/-! ## Walks in pruned data -/

lemma subdict_prune {d : Dict} (h : Dict.WF d) (k : Bytes) :
    subdict k (prune d) = prune (subdict k d) := by
  rw [subdict, subdict, find?_prune h]
  cases find? k d with
  | none => rfl
  | some v =>
    cases v with
    | dict e =>
      rw [bind_some, prunedEntry_dict]
      by_cases hempty : prune e = []
      all_goals simp [hempty]
    | set s => cases s <;> simp [prunedEntry, pruneValue, prune, pruneEntries]
    | scalar s => simp [prunedEntry, pruneValue, prune, pruneEntries]

/-- **Pruning before a write along a path makes no difference to the pruned result**, if what is
written depends on the value there only up to pruning. -/
lemma prune_getDirty_prune {write : Option DictValue → DictValue}
    (hwf : ∀ o, (∀ v ∈ o, v.WF) → (write o).WF)
    (hw : ∀ o : Option DictValue, write (o.bind prunedEntry) = write o) (ks : List Bytes)
    (lastKey : Bytes) {d : Dict} (h : Dict.WF d) :
    prune (getDirty write ks lastKey (prune d)) = prune (getDirty write ks lastKey d) := by
  induction ks generalizing d with
  | nil =>
    have hv := hwf _ fun v hv => wf_of_find? (k := lastKey) h hv
    rw [getDirty, getDirty, find?_prune h, hw]
    exact (prune_insert_eq_iff (wf_prune h) h hv hv (prune_prune h) lastKey).mpr rfl
  | cons k ks ih =>
    rw [getDirty, getDirty, subdict_prune h]
    exact (prune_insert_dict_eq_iff (wf_prune h) h
        (wf_getDirty hwf _ _ (wf_prune (wf_subdict_of_wf h k)))
      (wf_getDirty hwf _ _ (wf_subdict_of_wf h k)) (prune_prune h) k).mpr
          (ih (wf_subdict_of_wf h k))

section

variable {α : Type*} {change : Dict → Dict × α} {early : α}

lemma prune_modifyDict_nil (hnil : prune (change []).1 = []) (ks : List Bytes) :
    prune (modifyDict change early ks []).1 = [] := by
  cases ks with
  | nil => exact hnil
  | cons k ks => rfl

lemma modifyDict_cons_of_dict {d e : Dict} {k : Bytes} (hf : find? k d = some (.dict e))
    (ks : List Bytes) : modifyDict change early (k :: ks) d =
      (insert k (.dict (modifyDict change early ks e).1) d, (modifyDict change early ks e).2) := by
  rw [modifyDict, hf]

lemma modifyDict_cons_of_ne {d : Dict} {k : Bytes} (hf : ∀ e, find? k d ≠ some (.dict e))
    (ks : List Bytes) : modifyDict change early (k :: ks) d = (d, early) := by
  rw [modifyDict]
  split
  · next e he => exact absurd he (hf e)
  · rfl

/-- **Pruning before a change at the end of a path makes no difference to the pruned result.** A
walk that pruning cuts short ends in a dict without any value. -/
lemma prune_modifyDict_prune (hwf : ∀ d, Dict.WF d → Dict.WF (change d).1)
    (hc : ∀ d, Dict.WF d → prune (change (prune d)).1 = prune (change d).1)
    (hnil : prune (change []).1 = []) (ks : List Bytes) {d : Dict} (h : Dict.WF d) :
    prune (modifyDict change early ks (prune d)).1 = prune (modifyDict change early ks d).1 := by
  induction ks generalizing d with
  | nil => exact hc d h
  | cons k ks ih =>
    have hkey := find?_prune h k
    by_cases hf : ∃ e, find? k d = some (.dict e)
    · obtain ⟨e, hf⟩ := hf
      have he : WF e := wf_of_find? h hf
      rw [hf, bind_some, prunedEntry_dict] at hkey
      rw [modifyDict_cons_of_dict hf]
      by_cases hempty : prune e = []
      · rw [if_pos hempty] at hkey
        have hrest : prune (modifyDict change early ks e).1 = prune e := by
          rw [← ih he, hempty, prune_modifyDict_nil hnil]
        rw [modifyDict_cons_of_ne (by simp [hkey]), prune_prune h]
        nth_rewrite 1 [← insert_of_find? h hf]
        exact (prune_insert_dict_eq_iff h h he (wf_modifyDict hwf _ _ he) rfl k).mpr hrest.symm
      rw [if_neg hempty] at hkey
      rw [modifyDict_cons_of_dict hkey]
      exact (prune_insert_dict_eq_iff (wf_prune h) h (wf_modifyDict hwf _ _ (wf_prune he))
        (wf_modifyDict hwf _ _ he) (prune_prune h) k).mpr (ih he)
    have hne : ∀ e, find? k d ≠ some (.dict e) := fun e he => hf ⟨e, he⟩
    have hne' : ∀ e, find? k (prune d) ≠ some (.dict e) := by
      intro e he
      rw [hkey] at he
      obtain ⟨v, hv, hve⟩ := bind_eq_some_iff.mp he
      cases v with
      | dict e' => exact hne e' hv
      | set s => cases s <;> simp [prunedEntry, pruneValue] at hve
      | scalar s => simp [prunedEntry, pruneValue] at hve
    rw [modifyDict_cons_of_ne hne, modifyDict_cons_of_ne hne', prune_prune h]

lemma modifyDict_of_findDict_none {ks : List Bytes} {d : Dict} (hd : Dict.WF d)
    (h : findDict ks d = none) : modifyDict change early ks d = (d, early) := by
  induction ks generalizing d with
  | nil => cases h
  | cons k ks ih =>
    by_cases hf : ∃ e, find? k d = some (.dict e)
    · obtain ⟨e, hf⟩ := hf
      rw [findDict, hf] at h
      rw [modifyDict_cons_of_dict hf, ih (wf_of_find? hd hf) h, insert_of_find? hd hf]
    · exact modifyDict_cons_of_ne (fun e he => hf ⟨e, he⟩) ks

/-- What a walk that arrives does: its result is the one of the change, and the pruned data stays
the same exactly if it does where the walk ends. -/
lemma modifyDict_of_findDict (early : α) {ks : List Bytes} {d e : Dict} (hd : Dict.WF d)
    (hwf : ∀ d, Dict.WF d → Dict.WF (change d).1) (h : findDict ks d = some e) :
    (modifyDict change early ks d).2 = (change e).2 ∧
      (prune (modifyDict change early ks d).1 = prune d ↔ prune (change e).1 = prune e) := by
  induction ks generalizing d with
  | nil =>
    cases h
    exact ⟨rfl, Iff.rfl⟩
  | cons k ks ih =>
    by_cases hf : ∃ e, find? k d = some (.dict e)
    · obtain ⟨e', hf⟩ := hf
      have he' : WF e' := wf_of_find? hd hf
      rw [findDict, hf] at h
      obtain ⟨hr, hp⟩ := ih he' h
      rw [modifyDict_cons_of_dict hf]
      refine ⟨hr, ?_⟩
      nth_rewrite 2 [← insert_of_find? hd hf]
      exact (prune_insert_dict_eq_iff hd hd (wf_modifyDict hwf _ _ he') he' rfl k).trans hp
    rw [findDict] at h
    split at h
    · next e' he' => exact absurd ⟨e', he'⟩ hf
    · cases h

lemma wf_of_findDict {ks : List Bytes} {d e : Dict} (hd : Dict.WF d)
    (h : findDict ks d = some e) : Dict.WF e := by
  fun_induction findDict ks d with
  | case1 d =>
    cases h
    exact hd
  | case2 k ks d e' he' ih => exact ih (wf_of_find? hd he') h
  | case3 k ks d hne => cases h

end

lemma getDirty_eq_self {write : Option DictValue → DictValue} {ks : List Bytes} {lastKey : Bytes}
    {d e : Dict} {v : DictValue} (hd : Dict.WF d) (h : findDict ks d = some e)
    (hv : find? lastKey e = some v) (hw : write (some v) = v) :
    getDirty write ks lastKey d = d := by
  induction ks generalizing d with
  | nil =>
    cases h
    rw [getDirty, hv, hw, insert_of_find? hd hv]
  | cons k ks ih =>
    rw [findDict] at h
    split at h
    · next e' he' =>
      have hsub : subdict k d = e' := by rw [subdict, he']
      rw [getDirty, hsub, ih (wf_of_find? hd he') h, insert_of_find? hd he']
    · cases h

lemma eq_nil_of_findDict_nil {ks : List Bytes} {e : Dict} (h : findDict ks [] = some e) :
    e = [] := by
  cases ks with
  | nil => exact (some.inj h).symm
  | cons k ks => cases h

lemma findDict_prune {ks : List Bytes} {d e : Dict} (hd : Dict.WF d)
    (h : findDict ks d = some e) (he : prune e ≠ []) : findDict ks (prune d) = some (prune e) := by
  induction ks generalizing d with
  | nil =>
    cases h
    rfl
  | cons k ks ih =>
    rw [findDict] at h
    split at h
    · next e' he' =>
      have hwalk := ih (wf_of_find? hd he') h
      have hne : prune e' ≠ [] := by
        intro hempty
        rw [hempty] at hwalk
        exact he (eq_nil_of_findDict_nil hwalk)
      rw [findDict, find?_prune hd, he', bind_some, prunedEntry_dict, if_neg hne]
      exact hwalk
    · cases h

/-! ## A method on a Dirty object and on another one -/

/-- What a method leads to: the pruned data and what it returns. -/
def FieldEdit.outcome (env : Env) (e : FieldEdit) (cb : ConfigBase) :
    Except Err (Dict × Option Bool) :=
  (cb.editField env e).map fun r => (prune r.1.config.base.data, r.2)

/-- Pruning the data first makes no difference to a method that has something to change. -/
structure FieldEdit.PruneStable (e : FieldEdit) : Prop where
  apply_prune : ∀ d, Dict.WF d → prune (e.apply (prune d)) = prune (e.apply d)
  returned_prune : ∀ d, Dict.WF d → e.needed d = true → e.returned (prune d) = e.returned d

variable {env : Env} {e : FieldEdit} {cb : ConfigBase}

lemma outcome_of_dirty (hs : cb.state = .dirty) {m : MutableConfigMessage}
    (hm : cb.config = .mutable m) :
    e.outcome env cb = .ok (prune (e.apply m.data), e.returned m.data) := by
  obtain ⟨config, state, curr, old, nd⟩ := cb
  cases hs
  cases hm
  rfl

lemma increment_data (env : Env) (c : AnyMessage) :
    (c.increment env).data = c.base.data ∨ (c.increment env).data = prune c.base.data := by
  cases c with
  | immutable m => exact Or.inl rfl
  | mutable m => exact Or.inr rfl

lemma outcome_of_not_dirty (hs : cb.state ≠ .dirty) (hw : cb.isReadonly = false)
    (he : e.PruneStable) (hwf : Dict.WF cb.config.base.data) :
    e.outcome env cb = .ok (if e.needed cb.config.base.data
      then (prune (e.apply cb.config.base.data), e.returned cb.config.base.data)
      else (prune cb.config.base.data, e.skipped)) := by
  cases hn : e.needed cb.config.base.data with
  | false =>
    unfold FieldEdit.outcome editField
    rw [if_pos ⟨hs, hn⟩]
    rfl
  | true =>
    have hout : e.outcome env cb = .ok (prune (e.apply (cb.config.increment env).data),
        e.returned (cb.config.increment env).data) := by
      unfold FieldEdit.outcome editField dirty setDirty
      rw [if_neg (by simp [hn]), if_pos hs, hw, if_neg Bool.false_ne_true]
      unfold setState
      by_cases hc : cb.state = .clean ∧ cb.currHashes ≠ ∅
      · rw [if_pos hc]
        rfl
      · rw [if_neg hc]
        rfl
    rw [hout, if_pos rfl]
    rcases increment_data env cb.config with hd | hd
    · rw [hd]
    · rw [hd, he.apply_prune _ hwf, he.returned_prune _ hwf hn]

lemma outcomes_agree_iff {cb' : ConfigBase} {m : MutableConfigMessage} (hs : cb.state ≠ .dirty)
    (hw : cb.isReadonly = false) (hs' : cb'.state = .dirty) (hm : cb'.config = .mutable m)
    (hdata : cb.config.base.data = m.data) (he : e.PruneStable) (hwf : Dict.WF m.data)
    (P : Option Bool → Prop) : (∃ r, e.outcome env cb = .ok r ∧ e.outcome env cb' = .ok r ∧ P r.2) ↔
      (e.needed m.data = false →
        prune (e.apply m.data) = prune m.data ∧ e.returned m.data = e.skipped) ∧
      P (e.returned m.data) := by
  rw [outcome_of_dirty hs' hm, outcome_of_not_dirty hs hw he (hdata ▸ hwf), hdata]
  constructor
  · rintro ⟨r, hr, hr', hP⟩
    cases hr'
    refine ⟨fun hn => ?_, hP⟩
    rw [hn] at hr
    have heq := Prod.mk.inj (Except.ok.inj hr)
    exact ⟨heq.1.symm, heq.2.symm⟩
  rintro ⟨h, hP⟩
  refine ⟨_, ?_, rfl, hP⟩
  cases hn : e.needed m.data with
  | true => rfl
  | false => rw [(h hn).1, (h hn).2, if_neg (by simp)]

/-! ## The four methods -/

namespace DictFieldProxy

variable (p : DictFieldProxy) {d : Dict}

lemma getClean_eq_some_iff {v : DictValue} :
    p.getClean d = some v ↔ ∃ e, findDict p.interKeys d = some e ∧ find? p.lastKey e = some v :=
  bind_eq_some_iff

lemma mem_getCleanSet_iff {v : Scalar} :
    v ∈ (p.getCleanSet d).getD [] ↔ ∃ s, p.getClean d = some (.set s) ∧ v ∈ s := by
  rw [getCleanSet]
  split
  · next s hs => simp [hs]
  · next hne => simpa using fun s hs => absurd hs (hne s)

lemma wf_eraseKey (k : Bytes) (d : Dict) (h : Dict.WF d) : Dict.WF (SortedMap.erase k d) :=
  wf_iff.mpr ⟨(wf_iff.mp h).1.erase, fun q hq => (wf_iff.mp h).2 q (SortedMap.mem_erase hq)⟩

lemma erase_pruneStable : p.erase.PruneStable where
  apply_prune d h := by
    refine prune_modifyDict_prune (wf_eraseKey p.lastKey) (fun d hd => ?_) rfl _ h
    refine (prune_eq_prune_iff_find? (wf_eraseKey _ _ (wf_prune hd)) (wf_eraseKey _ _ hd)).mpr
      fun k => ?_
    rw [find?_erase, find?_erase]
    split
    · rfl
    · exact (prune_eq_prune_iff_find? (wf_prune hd) hd).mp (prune_prune hd) k
  returned_prune _ _ _ := rfl

lemma erase_eq_self {k : Bytes} {d : Dict} (h : find? k d = none) : SortedMap.erase k d = d :=
  List.filter_eq_self.mpr fun q hq => by simpa using find?_eq_none_iff.mp h q hq

lemma erase_skips (h : Dict.WF d) (hn : p.erase.needed d = false) :
    prune (p.erase.apply d) = prune d := by
  have hnone : p.getClean d = none := by simpa [erase] using hn
  cases hw : findDict p.interKeys d with
  | none =>
    show prune (modifyDict _ _ _ d).1 = _
    rw [modifyDict_of_findDict_none h hw]
  | some e =>
    have hlast : find? p.lastKey e = none := by simpa [getClean, hw] using hnone
    refine (modifyDict_of_findDict () h (wf_eraseKey p.lastKey) hw).2.mpr ?_
    rw [erase_eq_self hlast]

lemma assign_pruneStable (value : {v : DictValue // v.WF}) :
    (p.assignIfChanged value).PruneStable := by
  rw [assignIfChanged]
  split
  · exact p.erase_pruneStable
  · exact ⟨fun d h => prune_getDirty_prune (fun _ _ => value.2) (fun _ => rfl) _ _ h,
      fun _ _ _ => rfl⟩

lemma assign_skips (value : {v : DictValue // v.WF}) (h : Dict.WF d)
    (hn : (p.assignIfChanged value).needed d = false) :
    prune ((p.assignIfChanged value).apply d) = prune d := by
  rw [assignIfChanged] at hn ⊢
  split at hn
  · next hempty =>
    rw [if_pos hempty]
    exact p.erase_skips h hn
  rename_i hempty
  rw [if_neg hempty]
  obtain ⟨e, he, hv⟩ := p.getClean_eq_some_iff.mp (by simpa using hn)
  show prune (getDirty _ _ _ d) = _
  rw [getDirty_eq_self h he hv rfl]

lemma insert_pruneStable : (p.insertIfMissing value).PruneStable where
  apply_prune d h := by
    refine prune_getDirty_prune (wf_insertElem value) (fun o => ?_) _ _ h
    cases o with
    | none => rfl
    | some v =>
      cases v with
      | dict e =>
        rw [bind_some, prunedEntry_dict]
        split <;> rfl
      | set s => cases s <;> rfl
      | scalar s => rfl
  returned_prune _ _ _ := rfl

/-- What the end of `set_erase_impl` makes of the value under the last key. -/
def erasedElem : DictValue → DictValue
  | .set s => .set (SortedSet.erase value s)
  | _ => .set []

lemma find?_eraseElem (d : Dict) (k : Bytes) : find? k (p.eraseElem value d).1 =
      if p.lastKey = k then (find? k d).map (erasedElem value) else find? k d := by
  by_cases hk : p.lastKey = k
  · subst hk
    rw [if_pos rfl, eraseElem]
    split
    · next hf => rw [hf, map_none]
    · next s hf => rw [hf, find?_insert_self, map_some, erasedElem]
    rename_i w hne hf
    rw [hf, find?_insert_self, map_some]
    cases w with
    | set s => exact absurd rfl (hne s)
    | dict e | scalar s => rfl
  rw [if_neg hk, eraseElem]
  split
  · rfl
  · rw [find?_insert_ne hk]
  · rw [find?_insert_ne hk]

lemma prunedEntry_set_nil : prunedEntry (.set []) = none := rfl

lemma prunedEntry_erasedElem (o : Option DictValue) :
    ((o.bind prunedEntry).map (erasedElem value)).bind prunedEntry =
      (o.map (erasedElem value)).bind prunedEntry := by
  cases o with
  | none => rfl
  | some v =>
    cases v with
    | dict e =>
      rw [bind_some, prunedEntry_dict]
      split <;> rfl
    | set s => cases s <;> rfl
    | scalar s => rfl

lemma setErase_of_find? {e : Dict} {w : DictValue} (h : Dict.WF d)
    (hw : findDict p.interKeys d = some e) (hf : find? p.lastKey e = some w) :
    (p.setEraseImpl value).returned d = some (decide (w.kind = .set)) ∧
      (prune ((p.setEraseImpl value).apply d) = prune d ↔
        prunedEntry (erasedElem value w) = prunedEntry w) := by
  have he := wf_of_findDict h hw
  obtain ⟨hr, hp⟩ := modifyDict_of_findDict false h (p.wf_eraseElem value) hw
  refine ⟨congrArg some (hr.trans ?_), hp.trans ?_⟩
  · rw [eraseElem, hf]
    cases w <;> rfl
  rw [prune_eq_prune_iff_find? (p.wf_eraseElem value e he) he]
  constructor
  · intro hall
    simpa [find?_eraseElem, hf] using hall p.lastKey
  intro heq k
  rw [find?_eraseElem]
  split
  · next hk =>
    subst hk
    simpa [hf] using heq
  · rfl

lemma setErase_of_getClean_none (h : Dict.WF d) (hn : p.getClean d = none) :
    (p.setEraseImpl value).returned d = some false ∧
      prune ((p.setEraseImpl value).apply d) = prune d := by
  show some (modifyDict _ _ _ d).2 = _ ∧ prune (modifyDict _ _ _ d).1 = _
  cases hw : findDict p.interKeys d with
  | none => rw [modifyDict_of_findDict_none h hw]; exact ⟨rfl, rfl⟩
  | some e =>
    have hf : find? p.lastKey e = none := by simpa [getClean, hw] using hn
    have hsame : p.eraseElem value e = (e, false) := by rw [eraseElem, hf]
    obtain ⟨hr, hp⟩ := modifyDict_of_findDict false h (p.wf_eraseElem value) hw
    rw [hr, hp, hsame]
    exact ⟨rfl, rfl⟩

lemma setErase_pruneStable : (p.setEraseImpl value).PruneStable where
  apply_prune d h := by
    refine prune_modifyDict_prune (p.wf_eraseElem value) (fun d hd => ?_) rfl _ h
    refine (prune_eq_prune_iff_find? (p.wf_eraseElem value _ (wf_prune hd))
      (p.wf_eraseElem value _ hd)).mpr fun k => ?_
    rw [find?_eraseElem, find?_eraseElem, find?_prune hd]
    split
    · exact prunedEntry_erasedElem value _
    · rw [← find?_prune hd, ← find?_prune (wf_prune hd), prune_prune hd, find?_prune hd]
  returned_prune d h hn := by
    -- the value is in the set, so pruning leaves the set where it is
    obtain ⟨s, hs, hmem⟩ := p.mem_getCleanSet_iff.mp (of_decide_eq_true hn)
    obtain ⟨e, he, hf⟩ := p.getClean_eq_some_iff.mp hs
    have hset : prunedEntry (.set s) = some (.set s) := by
      cases s with
      | nil => cases hmem
      | cons a rest => rfl
    have hf' : find? p.lastKey (prune e) = some (.set s) := by
      rw [find?_prune (wf_of_findDict h he), hf, bind_some, hset]
    have hne : prune e ≠ [] := by
      intro hnil
      rw [hnil] at hf'
      cases hf'
    rw [(p.setErase_of_find? value (wf_prune h) (findDict_prune h he hne) hf').1,
      (p.setErase_of_find? value h he hf).1]

end DictFieldProxy

/-! ## When dirtiness makes no difference -/

/-- A call that does not depend on whether the object is Dirty: assignments and `erase`,
`set_insert` of a value that is not in the set, and `set_erase` where there is nothing at all, a set
with the value, or a dict without any value in it. -/
def DictFieldProxy.Independent (p : DictFieldProxy) (d : Dict) : FieldOp → Prop
  | .assign _ => True
  | .erase => True
  | .setInsert value => value ∉ (p.getCleanSet d).getD []
  | .setErase value =>
    match p.getClean d with
    | none => True
    | some (.set s) => value ∈ s
    | some w => prunedEntry w = none

def DictFieldProxy.Truthful (p : DictFieldProxy) (d : Dict) : FieldOp → Option Bool → Prop
  | .assign _, r => r = none
  | .erase, r => r = none
  | .setInsert value, r => r = some (decide (value ∉ (p.getCleanSet d).getD []))
  | .setErase value, r => r = some (decide (value ∈ (p.getCleanSet d).getD []))

lemma DictFieldProxy.pruneStable (p : DictFieldProxy) (op : FieldOp) : (p.edit op).PruneStable := by
  cases op with
  | assign value => exact p.assign_pruneStable value
  | erase => exact p.erase_pruneStable
  | setInsert value => exact p.insert_pruneStable value
  | setErase value => exact p.setErase_pruneStable value

lemma DictFieldProxy.setErase_skips_iff (p : DictFieldProxy) {d : Dict} (h : Dict.WF d)
    (value : Scalar) : (((p.setEraseImpl value).needed d = false →
        prune ((p.setEraseImpl value).apply d) = prune d ∧
          (p.setEraseImpl value).returned d = some false) ∧
      p.Truthful d (.setErase value) ((p.setEraseImpl value).returned d)) ↔
      p.Independent d (.setErase value) := by
  have hneeded : (p.setEraseImpl value).needed d = decide (value ∈ (p.getCleanSet d).getD []) := rfl
  rw [hneeded, Independent, Truthful]
  cases hc : p.getClean d with
  | none =>
    have hmem : value ∉ (p.getCleanSet d).getD [] := by simp [getCleanSet, hc]
    obtain ⟨hr, hp⟩ := p.setErase_of_getClean_none value h hc
    simp [hmem, hr, hp]
  | some w =>
    obtain ⟨e, he, hf⟩ := p.getClean_eq_some_iff.mp hc
    obtain ⟨hr, hp⟩ := p.setErase_of_find? value h he hf
    cases w with
    | set s =>
      have hset : (p.getCleanSet d).getD [] = s := by simp [getCleanSet, hc]
      rw [hset, hr]
      simp [kind]
    | dict e' | scalar s =>
      have hmem : value ∉ (p.getCleanSet d).getD [] := by simp [getCleanSet, hc]
      rw [hp, hr]
      simp [hmem, kind, erasedElem, prunedEntry_set_nil, eq_comm]

/-- **A method of a field proxy does not depend on dirtiness, and returns what it says, exactly for
the calls that are `Independent`.** Of two objects with the same data one is not Dirty and can be
changed, the other one is Dirty. -/
theorem field_edits_agree_iff (env : Env) (p : DictFieldProxy) (op : FieldOp)
    (cb cb' : ConfigBase) (m : MutableConfigMessage) (hs : cb.state ≠ .dirty)
    (hw : cb.isReadonly = false) (hs' : cb'.state = .dirty) (hm : cb'.config = .mutable m)
    (hdata : cb.config.base.data = m.data) (hwf : Dict.WF m.data) :
    (∃ r, (p.edit op).outcome env cb = .ok r ∧ (p.edit op).outcome env cb' = .ok r ∧
        p.Truthful m.data op r.2) ↔ p.Independent m.data op := by
  rw [outcomes_agree_iff hs hw hs' hm hdata (p.pruneStable op) hwf]
  cases op with
  | assign value =>
    have hr : (p.assignIfChanged value).returned m.data = none ∧
        (p.assignIfChanged value).skipped = none := by
      rw [DictFieldProxy.assignIfChanged]
      split <;> exact ⟨rfl, rfl⟩
    exact iff_of_true ⟨fun hn => ⟨p.assign_skips value hwf hn, hr.1.trans hr.2.symm⟩, hr.1⟩ trivial
  | erase => exact iff_of_true ⟨fun hn => ⟨p.erase_skips hwf hn, rfl⟩, rfl⟩ trivial
  | setInsert value =>
    constructor
    · rintro ⟨-, hr⟩ hmem
      simp [DictFieldProxy.Truthful, DictFieldProxy.edit, DictFieldProxy.insertIfMissing, hmem]
          at hr
    intro hmem
    rw [DictFieldProxy.Independent] at hmem
    have hneeded : (p.insertIfMissing value).needed m.data = true := decide_eq_true hmem
    exact ⟨fun hn => absurd (hn.symm.trans hneeded) Bool.false_ne_true,
      congrArg some (decide_eq_true hmem).symm⟩
  | setErase value => exact p.setErase_skips_iff hwf value

/-- An object with the given data, after a push or since a change. -/
def objectWith (state : ConfigState) (data : Dict) : ConfigBase where
  config := .mutable
    { data := data, diff := [], laggedDiffs := [], unknown := [], seqnoHash := ⟨1, zeroHash⟩,
      verifiedSignature := none, unmerged := none, verifier := none, signer := none, lag := 5,
      origData := [] }
  state := state
  currHashes := ∅
  oldHashes := ∅
  needsDump := true

/-- A number `count`, and a set `tags` with the one element `a`. -/
def taggedData : Dict :=
  [(bytes "count", .scalar (.int 1)), (bytes "tags", .set [.str (bytes "a")])]

def taggedOutcome (state : ConfigState) (key : String) (op : FieldOp) :
    Except Err (Dict × Option Bool) :=
  (DictFieldProxy.edit ⟨[], bytes key⟩ op).outcome (Env.bencode (tableHash []))
    (objectWith state taggedData)

/-- `conf["tags"].set_insert("b")`. -/
theorem field_edits_agree_newTag :
    ∃ r, taggedOutcome .waiting "tags" (.setInsert (.str (bytes "b"))) = .ok r ∧
      taggedOutcome .dirty "tags" (.setInsert (.str (bytes "b"))) = .ok r ∧
      DictFieldProxy.Truthful ⟨[], bytes "tags"⟩ taggedData
        (.setInsert (.str (bytes "b"))) r.2 := by
  have hwf : Dict.WF taggedData := by
    refine Dict.wf_iff.mpr ⟨by decide, ?_⟩
    simp [taggedData, DictValue.WF]
  refine (field_edits_agree_iff (Env.bencode (tableHash [])) ⟨[], bytes "tags"⟩
    (.setInsert (.str (bytes "b"))) (objectWith .waiting taggedData) (objectWith .dirty taggedData)
    _ (by decide) rfl rfl rfl rfl hwf).mpr ?_
  show _ ∉ ([.str (bytes "a")] : List Scalar)
  decide

/-- On a Dirty object `set_insert` of an element and `set_erase` of a value that is no element both
return true, and `set_erase` on a number removes it; on another object they return false and change
nothing. -/
theorem field_edits_dirty_differ : taggedOutcome .waiting "tags" (.setInsert (.str (bytes "a"))) =
        .ok (taggedData, some false) ∧ taggedOutcome .dirty "tags" (.setInsert (.str (bytes "a"))) =
        .ok (taggedData, some true) ∧ taggedOutcome .waiting "tags" (.setErase (.str (bytes "b"))) =
        .ok (taggedData, some false) ∧ taggedOutcome .dirty "tags" (.setErase (.str (bytes "b"))) =
        .ok (taggedData, some true) ∧
      taggedOutcome .waiting "count" (.setErase (.str (bytes "b"))) = .ok (taggedData, some false) ∧
      taggedOutcome .dirty "count" (.setErase (.str (bytes "b"))) =
        .ok ([(bytes "tags", .set [.str (bytes "a")])], some false) :=
  ⟨rfl, rfl, rfl, rfl, rfl, rfl⟩

end Bchat.Config
