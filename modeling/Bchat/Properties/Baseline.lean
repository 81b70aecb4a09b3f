import Bchat.Properties.BaseMerge

/-!
# The diff of a message pushed after a merge

A message carries the diff between its data and the data it was derived from. After a conflict
resolution that is the merged data: the resolving device has changed nothing yet.

An object that is Dirty when it merges keeps the merged data as the baseline. One that is not
converts the merged message, which leaves the baseline empty.
-/

namespace Bchat.Config

open Bencode List ConfigMessage ConfigBase

variable {env : Env} {cb : ConfigBase}

/-! ## The diff a message carries -/

/-- The value of the key `"="` of a serialized message. -/
def diffSection (env : Env) (serialized : Bytes) : Option BtDict :=
  match env.read serialized with
  | some (pairs, _) =>
    match SortedMap.find? (bytes "=") pairs with
    | some (.dict d) => some d
    | _ => none
  | none => none

lemma find?_pairs_diff (m : ConfigMessage) (currDiff : BtDict) (rest : BtDict) :
    SortedMap.find? (bytes "=") (m.pairs currDiff ++ rest) = some (.dict currDiff) := by
  have hamp : bytes "&" < bytes "=" := by decide
  have hlt : bytes "<" < bytes "=" := by decide
  have h1 := appendUnknown_fst_lt m.unknown (bytes "&")
  have h2 := appendUnknown_fst_lt (appendUnknown m.unknown (bytes "&")).2 (bytes "<")
  have h3 := appendUnknown_fst_lt
    (appendUnknown (appendUnknown m.unknown (bytes "&")).2 (bytes "<")).2 (bytes "=")
  unfold pairs
  rw [append_assoc, append_assoc, SortedMap.find?_append]
  -- no pair before the diff has its key
  have hnone : ∀ p ∈ [(bytes "#", Bt.int m.seqno)] ++ (appendUnknown m.unknown (bytes "&")).1
      ++ [(bytes "&", Bt.dict (Dict.toBt m.data))]
      ++ (appendUnknown (appendUnknown m.unknown (bytes "&")).2 (bytes "<")).1
      ++ [(bytes "<", Bt.list ((m.laggedDiffs.filter (inWindow m.seqno m.lag)).map laggedRow))]
      ++ (appendUnknown
        (appendUnknown (appendUnknown m.unknown (bytes "&")).2 (bytes "<")).2 (bytes "=")).1,
      p.1 ≠ bytes "=" := by
    intro p hp
    simp only [mem_append, mem_singleton] at hp
    rcases hp with ((((rfl | hp) | rfl) | hp) | rfl) | hp
    · show bytes "#" ≠ bytes "="
      decide
    · exact ((h1 p hp).trans hamp).ne
    · exact hamp.ne
    · exact ((h2 p hp).trans hlt).ne
    · exact hlt.ne
    · exact (h3 p hp).ne
  rw [SortedMap.find?_eq_none_iff.mpr hnone]
  rfl

lemma diffSection_serialize (env : Env) (m : ConfigMessage) (enableSigning : Bool) :
    diffSection env (m.serialize env enableSigning) = some m.diff := by
  unfold diffSection serialize serializeImpl
  cases m.trailer env m.diff enableSigning with
  | none =>
    rw [env.read_encode]
    have h := find?_pairs_diff m m.diff []
    rw [append_nil] at h
    simp only [h]
  | some sig =>
    rw [env.read_encode]
    simp only [find?_pairs_diff]

/-! ## Pushing after edits -/

namespace ConfigBase

lemma push_msg (env : Env) (cb : ConfigBase) :
    (cb.push env).1.msg = cb.config.refreshed.serialize env true :=
  AnyMessage.serialize_fst env cb.config true

lemma edit_of_ne_dirty {env : Env} {cb : ConfigBase} (hd : cb.state ≠ .dirty) (e : Edit) :
    cb.edit env e = if e.needed cb.config.base.data = false then .ok cb else if cb.isReadonly then
        .error (.runtime "Unable to make changes to a read-only config object")
      else .ok { cb.setState .dirty with
        config := .mutable (cb.config.edited env (e.apply cb.config.refreshed.data)) } := by
  unfold edit dirty setDirty
  simp only [ne_eq, hd, not_false_eq_true, true_and, if_true]
  split
  · rfl
  split
  · rfl
  simp only [ok_bind, setState_config]
  rw [← AnyMessage.increment_data env]
  rfl

lemma edit_of_dirty {env : Env} {cb : ConfigBase} {m : MutableConfigMessage}
    (hd : cb.state = .dirty) (hc : cb.config = .mutable m) (e : Edit) :
    cb.edit env e = .ok { cb with
      needsDump := true, config := .mutable { m with data := e.apply m.data } } := by
  unfold edit dirty modifyData
  simp only [hd, hc, ne_eq, not_true_eq_false, false_and, if_false, ok_bind]

lemma editAll_of_dirty (env : Env) (es : List Edit) {cb : ConfigBase}
    {m : MutableConfigMessage} (hc : cb.config = .mutable m) (hd : cb.state = .dirty) :
    ∃ cb', cb.editAll env es = .ok cb' ∧
      cb'.config = .mutable { m with data := es.foldl (fun d e => e.apply d) m.data } := by
  induction es generalizing cb m with
  | nil => exact ⟨cb, rfl, hc⟩
  | cons e es ih =>
    rw [editAll, edit_of_dirty hd hc]
    obtain ⟨cb', h', hc'⟩ := @ih { cb with needsDump := true, config := .mutable _ } _ rfl hd
    exact ⟨cb', h', hc'⟩

end ConfigBase

/-- The message pushed after a merge, and the one pushed when the data has been edited in between,
carry the diff from the merged data. -/
structure AddsNoChange (env : Env) (merged : Dict) (cb : ConfigBase) : Prop where
  unedited : diffSection env (cb.push env).1.msg = some []
  edited : ∀ es cb', cb.editAll env es = .ok cb' →
    diffSection env (cb'.push env).1.msg =
      some ((diffImpl merged (prune cb'.config.base.data)).getD [])

section

variable {m : MutableConfigMessage}

lemma diffSection_push (hc : cb.config = .mutable m) :
    diffSection env (cb.push env).1.msg = some ((diffImpl m.origData (prune m.data)).getD []) := by
  rw [push_msg, hc, diffSection_serialize]
  rfl

lemma addsNoChange_of_origData (hc : cb.config = .mutable m) (hd : cb.state = .dirty)
    (hwf : Dict.WF m.data) (hp : Dict.Pruned m.data) (horig : m.origData = m.data) :
    AddsNoChange env m.data cb where
  unedited := by
    rw [diffSection_push hc, horig, prune_eq_self hwf hp, getD_diffImpl, diffDict_self]
  edited es cb' h := by
    obtain ⟨cb1, h1, hc'⟩ := editAll_of_dirty env es hc hd
    rw [h] at h1
    cases h1
    rw [diffSection_push hc', hc']
    simp only [horig]
    rfl

lemma addsNoChange_iff_of_empty (hc : cb.config = .mutable m) (hd : cb.state = .dirty)
    (hwf : Dict.WF m.data) (hp : Dict.Pruned m.data) (horig : m.origData = []) :
    AddsNoChange env m.data cb ↔ m.data = [] := by
  constructor
  · intro h
    have hdiff := h.unedited
    rw [diffSection_push hc, horig, prune_eq_self hwf hp, getD_diffImpl] at hdiff
    have hadded : addedDict m.data = [] := by simpa [diffDict] using hdiff
    cases hm : m.data with
    | nil => rfl
    | cons p rest =>
      rw [hm] at hadded
      simp [addedDict] at hadded
  · intro hnil
    exact addsNoChange_of_origData hc hd hwf hp (by rw [horig, hnil])

end

/-! ## The merged data -/

/-- No leaf is left when the diffs of the conflicting messages and of their ancestors are replayed
in ascending order on the data of the greatest message. -/
def LeavesNothing (configs : List ConfigMessage) : Prop :=
  ∀ best others, sortDescending (survivors configLags configs) = best :: others →
    ∀ l, replayLeaf l (buildReplay (best :: others)) (leaf best.data l) = none

lemma leaf_nil (l : Leaf) : leaf [] l = none := by
  obtain ⟨p, e⟩ := l
  cases p with
  | nil => exact leafAt_nil_dict e []
  | cons k p => simp [leaf]

lemma eq_nil_iff_leaf {d : Dict} (hwf : Dict.WF d) (hp : Dict.Pruned d) :
    d = [] ↔ ∀ l, leaf d l = none := by
  constructor
  · rintro rfl l
    exact leaf_nil l
  intro h
  refine eq_of_leaf_eq hwf hp ?_ ?_ fun l => by rw [h l, leaf_nil]
  · rw [Dict.wf_iff]
    simp [SortedMap.Sorted]
  · rw [Dict.pruned_iff]
    simp

section

variable {verifier : Option Verifier} {signer : Option Signer} {lag top : Int}
  {best : ConfigMessage} {others : List ConfigMessage} {m : ConfigMessage}

lemma Resolved.leaf_data (h : Resolved env verifier signer lag top best others m)
    (hwf : ∀ c ∈ best :: others, c.WellFormed) : Dict.WF m.data ∧ Dict.Pruned m.data ∧
      ∀ l, leaf m.data l = replayLeaf l (buildReplay (best :: others)) (leaf best.data l) := by
  obtain ⟨d, hd, hm⟩ := h.data
  have hdiff : ∀ p ∈ buildReplay (best :: others), DiffWF p.2.2 := by
    intro p hp
    obtain ⟨c, hc, hp⟩ := mem_buildReplay hp
    rcases mem_cons.mp hp with rfl | hp
    · exact (hwf c hc).diff
    · obtain ⟨q, hq, rfl⟩ := mem_map.mp hp
      exact (hwf c hc).lagged.diff q hq
  obtain ⟨d', hd', hdwf, hleaf⟩ := applyReplay_spec hdiff (applies_of_applyReplay hd) best.data
  rw [hd] at hd'
  cases hd'
  have hwfd := hdwf (hwf best mem_cons_self).dataWF
  rw [hm]
  exact ⟨wf_prune hwfd, pruned_prune hwfd, fun l => by rw [leaf_prune hwfd, hleaf]⟩

end

/-! ## When a merge adds no change -/

section

variable {debug : Bool} {received : List Row} {m : ConfigMessage} {bad : List Nat}

lemma mergeRows_of_merged (good : Finset MsgId) (h : cb.MergesTo env debug received m bad)
    (hm : m.merged = true) (hs : m.seqno ≠ cb.config.seqno) :
    ∃ ids, (cb.mergeRows env debug received good).2 = .ok ids ∧
      (cb.mergeRows env debug received good).1.state = .dirty ∧
      (cb.mergeRows env debug received good).1.config =
        .mutable { m with origData := if cb.state = .dirty then m.data else [] } := by
  have hnone : m.unmerged = none := by simpa [merged] using hm
  obtain ⟨best, others, hsort, hres, hwf, hvs⟩ := h.resolved hnone
  have hconf : cb.constructed m = if cb.state = .dirty
      then .mutable { m with origData := m.data } else .immutable m := by
    unfold constructed toMutable
    simp [hm]
  have hbase : (cb.constructed m).base = m := by
    rw [hconf]
    split <;> rfl
  obtain ⟨ids, hrun⟩ := mergeRows_of_mergesTo h good
  have hadopt := adopt_merged debug (cb.serializeMine env).1 (cb.rows env received)
    (cb.constructed m) (cb.marked env received m bad)
    (by
      show (cb.constructed m).base.seqno ≠ (cb.refresh env).config.seqno
      rw [hbase, refresh_seqno]
      exact hs)
    (by rw [hbase]; exact hnone)
    (by rw [hbase, hres.verifier_eq, hres.signer_eq]; exact hvs)
  rw [hrun, hadopt]
  refine ⟨ids, rfl, setState_state _ _, ?_⟩
  rw [setState_config]
  show (if (cb.refresh env).state ≠ .dirty then _ else _) = _
  rw [refresh_state, hconf]
  by_cases hd : cb.state = .dirty <;> simp [hd, AnyMessage.retain]

/-- **A merge adds no change of its own exactly if the object was Dirty or nothing is left in the
merged data.** -/
theorem merge_adds_no_change_iff (good : Finset MsgId)
    (h : cb.MergesTo env debug received m bad) (hm : m.merged = true)
    (hs : m.seqno ≠ cb.config.seqno) (hfit : cb.SeqnosFit env debug received) :
    cb.MarksSame env debug received ∧ ∃ ids, (cb.mergeRows env debug received good).2 = .ok ids ∧
      (AddsNoChange env m.data (cb.mergeRows env debug received good).1 ↔
        cb.state = .dirty ∨ LeavesNothing (cb.accepted env debug received)) := by
  have hnone : m.unmerged = none := by simpa [merged] using hm
  obtain ⟨best, others, hsort, hres, hwf, -⟩ := h.resolved hnone
  obtain ⟨hdwf, hdp, hleaf⟩ := hres.leaf_data hwf
  obtain ⟨ids, hok, hdirty, hconf⟩ := mergeRows_of_merged good h hm hs
  refine ⟨hfit.marksSame, ids, hok, ?_⟩
  have hnothing : LeavesNothing (cb.accepted env debug received) ↔ m.data = [] := by
    rw [eq_nil_iff_leaf hdwf hdp]
    constructor
    · intro hl l
      rw [hleaf l]
      exact hl best others hsort l
    intro hl best' others' hsort' l
    rw [hsort] at hsort'
    cases hsort'
    rw [← hleaf l]
    exact hl l
  by_cases hd : cb.state = .dirty
  · simp only [hd, if_true] at hconf
    simp only [hd, true_or, iff_true]
    exact addsNoChange_of_origData hconf hdirty hdwf hdp rfl
  simp only [hd, if_false] at hconf
  rw [hnothing]
  simp only [hd, false_or]
  exact addsNoChange_iff_of_empty hconf hdirty hdwf hdp rfl

end

/-! ## Two devices that merge the same messages -/

def ownEdit : Bytes :=
  messageBytes 1 [(bytes "d", .scalar (.int 4))] [(⟨0, initialHash⟩, [])] [(bytes "d", .str [])]

def ownEditHash : Hash :=
  hashOfNat 0x42736d8ea2ccf4fc65792e2eb0d53e8533ec3e006c5830d8e00361c07d7f141b

def joined : Bytes :=
  messageBytes 3 [(bytes "a", .scalar (.int 1)), (bytes "c", .scalar (.int 3))]
    [(⟨1, firstHash⟩, [(bytes "a", .str [])]), (⟨2, secondHash⟩, []),
      (⟨2, forkHash⟩, [(bytes "c", .str [])])] []

def joinedHash : Hash :=
  hashOfNat 0xb2f52f70b253ccc7ffb9124e603c2975667a1071affa4d6f633faa8b5f413bff

/-- What merging `ownEdit`, `second` and `fork` leads to. -/
def joinedOwn : Bytes :=
  messageBytes 3 [(bytes "a", .scalar (.int 1)), (bytes "c", .scalar (.int 3)),
      (bytes "d", .scalar (.int 4))]
    [(⟨0, initialHash⟩, []), (⟨1, ownEditHash⟩, [(bytes "d", .str [])]),
      (⟨1, firstHash⟩, [(bytes "a", .str [])]), (⟨2, secondHash⟩, []),
      (⟨2, forkHash⟩, [(bytes "c", .str [])])] []

def joinedOwnHash : Hash :=
  hashOfNat 0x46d0ee58af01edb19c7cdddfd0124023c84cca039f4667ac95bb7ead78978bda

def resolverEnv : Env :=
  Env.bencode (tableHash [(initial, initialHash), (ownEdit, ownEditHash), (second, secondHash),
    (fork, forkHash), (joined, joinedHash), (joinedOwn, joinedOwnHash)])

def conflict : List Row := [⟨{bytes "id2"}, second⟩, ⟨{bytes "id3"}, fork⟩]

def editedObject : ConfigBase :=
  { config := .mutable ((ConfigBase.fresh resolverEnv .none).config.edited resolverEnv
      [(bytes "d", .scalar (.int 4))])
    state := .dirty
    currHashes := ∅
    oldHashes := ∅
    needsDump := true }

def resolves (env : Env) (received : List Row) (cb : ConfigBase) : Bool :=
  match mergeConfigs env ((cb.rows env received).map Row.conf) cb.config.base.verifier
    cb.config.base.signer configLags (mergeHandler true) with
  | .ok (m, _) => m.merged && m.seqno != cb.config.seqno
  | .error _ => false

lemma exists_mergesTo_of_resolves (env : Env) (received : List Row) (cb : ConfigBase)
    (h : resolves env received cb = true) :
    ∃ m bad, cb.MergesTo env true received m bad ∧ m.merged = true ∧ m.seqno ≠ cb.config.seqno := by
  unfold resolves at h
  split at h
  · next m bad hm =>
    simp only [Bool.and_eq_true, bne_iff_ne, ne_eq] at h
    exact ⟨m, bad, hm, h⟩
  · cases h

/-- The Dirty object merges without a change of its own. -/
theorem merge_adds_no_change_edited :
    ∃ m bad, editedObject.MergesTo resolverEnv true conflict m bad ∧ m.merged = true ∧
      m.seqno ≠ editedObject.config.seqno ∧
      AddsNoChange resolverEnv m.data (editedObject.mergeRows resolverEnv true conflict ∅).1 := by
  obtain ⟨m, bad, h, hm, hs⟩ :=
    exists_mergesTo_of_resolves resolverEnv conflict editedObject (by decide +kernel)
  have hfit : editedObject.SeqnosFit resolverEnv true conflict := by
    unfold ConfigBase.SeqnosFit
    decide +kernel
  obtain ⟨-, -, -, hiff⟩ := merge_adds_no_change_iff ∅ h hm hs hfit
  exact ⟨m, bad, h, hm, hs, hiff.mpr (Or.inl rfl)⟩

/-- A new object that merges the same messages claims to have assigned every key. -/
theorem merge_claims_every_key :
    ∃ m bad, (ConfigBase.fresh resolverEnv .none).MergesTo resolverEnv true conflict m bad ∧
      m.merged = true ∧ m.seqno ≠ (ConfigBase.fresh resolverEnv .none).config.seqno ∧
      (ConfigBase.fresh resolverEnv .none).state = .clean ∧ ¬AddsNoChange resolverEnv m.data
        ((ConfigBase.fresh resolverEnv .none).mergeRows resolverEnv true conflict ∅).1 := by
  obtain ⟨m, bad, h, hm, hs⟩ :=
    exists_mergesTo_of_resolves resolverEnv conflict (fresh resolverEnv .none)
      (by decide +kernel)
  refine ⟨m, bad, h, hm, hs, rfl, fun hno => ?_⟩
  have hlen : (diffSection resolverEnv
      (((fresh resolverEnv .none).mergeRows resolverEnv true conflict ∅).1.push
        resolverEnv).1.msg).map length = some 2 := by decide +kernel
  rw [hno.unedited] at hlen
  simp at hlen

end Bchat.Config
