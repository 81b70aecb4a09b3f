import Bchat.Lib.Reachable
import Bchat.Properties.Linear
import Bchat.Properties.Baseline

/-!
# Runs of a config object

The calls a client can make on an object, in any order, and what stays true of the object.
-/

namespace Bchat.Config

open Bencode ConfigBase AnyMessage

variable {env : Env} {debug : Bool} {keys : SigKeys} {cb : ConfigBase} {c : AnyMessage}
  {cb' : ConfigBase} {m : ConfigMessage} {received : List Row}

/-! ## Calls -/

/-- A call on an object. `restart` dumps the object and restores it with the same keys. -/
inductive Event
  | edit (e : Edit)
  | push
  | confirmPushed (seqno : Int) (msgHashes : Finset MsgId)
  | merge (received : List Row) (good : Finset MsgId)
  | oldHashes
  | restart

namespace ConfigBase

def after (env : Env) (debug : Bool) (keys : SigKeys) (ev : Event) (cb : ConfigBase) :
    ConfigBase :=
  match ev with
  | .edit e =>
    match cb.edit env e with
    | .ok cb' => cb'
    | .error _ => cb
  | .push => (cb.push env).2
  | .confirmPushed seqno msgHashes => cb.confirmPushed seqno msgHashes
  | .merge received good => (cb.mergeRows env debug received good).1
  | .oldHashes => cb.takeOldHashes.2
  | .restart =>
    match restore env (cb.dump env).1 keys with
    | .ok cb' => cb'
    | .error _ => (cb.dump env).2

structure Permitted (env : Env) (debug : Bool) (keys : SigKeys) (ev : Event) (cb : ConfigBase) :
    Prop where
  seqno : InInt64 (cb.after env debug keys ev).config.seqno
  noAssert : ∀ received good, ev = .merge received good →
    (cb.mergeRows env debug received good).2 ≠ .error .assertion

def Next (env : Env) (debug : Bool) (keys : SigKeys) (cb cb' : ConfigBase) : Prop :=
  ∃ ev, cb.Permitted env debug keys ev ∧ cb' = cb.after env debug keys ev

/-! ## The invariant -/

/-- What is true of every object. -/
structure Valid (keys : SigKeys) (cb : ConfigBase) : Prop where
  wf : cb.config.WellFormed
  lag_eq : cb.config.base.lag = configLags
  verifier_eq : cb.config.base.verifier = keys.verifier
  signer_eq : cb.config.base.signer = keys.signer
  mutable_of_dirty : cb.state = .dirty → ∃ m, cb.config = .mutable m
  pruned : cb.state ≠ .dirty → Dict.Pruned cb.config.base.data

end ConfigBase

namespace AnyMessage

@[simp] lemma serialize_snd_lag (env : Env) (c : AnyMessage) (es : Bool) :
    (c.serialize env es).2.base.lag = c.base.lag := by
  cases c <;> rfl

lemma serialize_snd_data (env : Env) (c : AnyMessage) (es : Bool) :
    (c.serialize env es).2.base.data = c.refreshed.data := by
  cases c <;> rfl

lemma serialize_snd_mutable (env : Env) (es : Bool) (h : ∃ m, c = .mutable m) :
    ∃ m, (c.serialize env es).2 = .mutable m := by
  obtain ⟨m, rfl⟩ := h
  exact ⟨_, rfl⟩

end AnyMessage

namespace ConfigBase

lemma Valid.serialized (h : cb.Valid keys) (es : Bool)
    (hc : cb'.config = (cb.config.serialize env es).2)
    (hs : cb'.state = cb.state ∨ cb'.state ≠ .dirty) : cb'.Valid keys where
  wf := by rw [hc]; exact h.wf.serialize_snd env es
  lag_eq := by rw [hc, serialize_snd_lag]; exact h.lag_eq
  verifier_eq := by rw [hc, serialize_snd_verifier]; exact h.verifier_eq
  signer_eq := by rw [hc, serialize_snd_signer]; exact h.signer_eq
  mutable_of_dirty hd := by
    rw [hc]
    rcases hs with hs | hs
    · exact serialize_snd_mutable env es (h.mutable_of_dirty (hs ▸ hd))
    · exact absurd hd hs
  pruned _ := by
    rw [hc, serialize_snd_data]
    exact h.wf.refreshed.dataPruned

lemma Valid.of_config (h : cb.Valid keys) (hc : cb'.config = cb.config)
    (hs : cb'.state = cb.state ∨ (cb.state ≠ .dirty ∧ cb'.state ≠ .dirty)) : cb'.Valid keys where
  wf := by rw [hc]; exact h.wf
  lag_eq := by rw [hc]; exact h.lag_eq
  verifier_eq := by rw [hc]; exact h.verifier_eq
  signer_eq := by rw [hc]; exact h.signer_eq
  mutable_of_dirty hd := by
    rw [hc]
    rcases hs with hs | ⟨-, hs⟩
    · exact h.mutable_of_dirty (hs ▸ hd)
    · exact absurd hd hs
  pruned hd := by
    rw [hc]
    rcases hs with hs | ⟨hs, -⟩
    · exact h.pruned (hs ▸ hd)
    · exact h.pruned hs

lemma Valid.of_immutable (hc : cb.config = .immutable m) (hs : cb.state ≠ .dirty)
    (hwf : m.WellFormed) (hlag : m.lag = configLags) (hv : m.verifier = keys.verifier)
    (hsig : m.signer = keys.signer) : cb.Valid keys where
  wf := by rw [hc]; exact hwf
  lag_eq := by rw [hc]; exact hlag
  verifier_eq := by rw [hc]; exact hv
  signer_eq := by rw [hc]; exact hsig
  mutable_of_dirty hd := absurd hd hs
  pruned _ := by rw [hc]; exact hwf.dataPruned

lemma Valid.of_increment (hc : cb.config = .mutable ((AnyMessage.immutable m).increment env))
    (hseq : InInt64 cb.config.seqno) (hwf : m.WellFormed) (hlag : m.lag = configLags)
    (hv : m.verifier = keys.verifier) (hsig : m.signer = keys.signer) : cb.Valid keys where
  wf := by
    rw [hc] at hseq ⊢
    refine WellFormed.increment (c := .immutable m) env hwf ?_
    exact increment_seqno env (.immutable m) ▸ hseq
  lag_eq := by rw [hc]; exact hlag
  verifier_eq := by rw [hc]; exact hv
  signer_eq := by rw [hc]; exact hsig
  mutable_of_dirty _ := ⟨_, hc⟩
  pruned _ := by rw [hc]; exact hwf.dataPruned

lemma valid_fresh (env : Env) (keys : SigKeys) : (fresh env keys).Valid keys :=
  .of_immutable rfl (by simp [fresh]) { ConfigMessage.empty_wellFormed env with } rfl rfl rfl

/-! ## Edits, pushes and confirmations -/

lemma Valid.edit (h : cb.Valid keys) {e : Edit} (he : cb.edit env e = .ok cb')
    (hseq : InInt64 cb'.config.seqno) : cb'.Valid keys := by
  by_cases hd : cb.state = .dirty
  · obtain ⟨m, hc⟩ := h.mutable_of_dirty hd
    rw [edit_of_dirty hd hc] at he
    cases he
    have hwf : m.WellFormed := by
      have := h.wf
      rwa [hc] at this
    have hl := h.lag_eq
    have hv := h.verifier_eq
    have hs := h.signer_eq
    rw [hc] at hl hv hs
    exact
      { wf := { hwf with dataWF := e.wf_apply _ hwf.dataWF }
        lag_eq := hl
        verifier_eq := hv
        signer_eq := hs
        mutable_of_dirty := fun _ => ⟨_, rfl⟩
        pruned := fun hnd => absurd hd hnd }
  rw [edit_of_ne_dirty hd] at he
  split at he
  · cases he
    exact h
  split at he
  · cases he
  cases he
  have hseq' : InInt64 (cb.config.seqno + 1) := by
    have hinc := increment_seqno env cb.config
    exact hinc ▸ hseq
  exact
    { wf := h.wf.edited env hseq' (e.wf_apply _ h.wf.refreshed.dataWF)
      lag_eq := (increment_lag env cb.config).trans h.lag_eq
      verifier_eq := (increment_verifier env cb.config).trans h.verifier_eq
      signer_eq := (increment_signer env cb.config).trans h.signer_eq
      mutable_of_dirty := fun _ => ⟨_, rfl⟩
      pruned := fun hd => absurd (setState_state .dirty cb) hd }

lemma push_snd_config (env : Env) (cb : ConfigBase) :
    (cb.push env).2.config = (cb.config.serialize env true).2 := by
  unfold push
  simp only
  split
  · rw [setState_config]
  · rfl

lemma push_snd_state (env : Env) (cb : ConfigBase) :
    (cb.push env).2.state = if cb.state = .dirty then .waiting else cb.state := by
  unfold push
  simp only
  split
  · rw [setState_state]
  · rfl

lemma Valid.push (h : cb.Valid keys) : (cb.push env).2.Valid keys := by
  refine h.serialized true (push_snd_config env cb) ?_
  rw [push_snd_state]
  split
  · simp
  · left
    rfl

lemma Valid.confirmPushed (h : cb.Valid keys) (seqno : Int) (msgHashes : Finset MsgId) :
    (cb.confirmPushed seqno msgHashes).Valid keys := by
  unfold ConfigBase.confirmPushed
  split
  · next hw =>
    refine h.of_config (setState_config _ _) (.inr ⟨?_, ?_⟩)
    · rw [hw.1]
      simp
    · simp
  · exact h

lemma Valid.takeOldHashes (h : cb.Valid keys) : cb.takeOldHashes.2.Valid keys := by
  unfold ConfigBase.takeOldHashes
  split
  · exact h.of_config rfl (.inl rfl)
  · exact h

/-! ## Merges -/

lemma Valid.refresh (env : Env) (h : cb.Valid keys) : (cb.refresh env).Valid keys := by
  unfold ConfigBase.refresh serializeMine
  split
  · exact h.serialized true rfl (.inl rfl)
  · exact h

lemma Valid.marked (h : cb.Valid keys) (received : List Row) (m : ConfigMessage)
    (bad : List Nat) : (cb.marked env received m bad).Valid keys :=
  (h.refresh env).of_config rfl (.inl rfl)

end ConfigBase

lemma Resolved.wellFormed {env : Env} {verifier : Option Verifier} {signer : Option Signer}
    {lag top : Int} {best : ConfigMessage} {others : List ConfigMessage}
    (h : Resolved env verifier signer lag top best others m)
    (hwf : ∀ c ∈ best :: others, c.WellFormed) (hseq : InInt64 m.seqno) {orig : Dict}
    (ho : Dict.WF orig) (hop : Dict.Pruned orig) :
    MutableConfigMessage.WellFormed { m with origData := orig } where
  seqno := hseq
  origWF := ho
  origPruned := hop
  dataWF := (h.leaf_data hwf).1
  lagged := by
    rw [h.laggedDiffs]
    have hmem : ∀ p ∈ (buildReplay (best :: others)).map (fun p => (p.1, p.2.2)),
        InInt64 p.1.seqno ∧ DiffWF p.2 := by
      intro p hp
      obtain ⟨q, hq, rfl⟩ := List.mem_map.mp hp
      obtain ⟨c, hc, hq⟩ := mem_buildReplay hq
      rcases List.mem_cons.mp hq with rfl | hq
      · exact ⟨(hwf c hc).seqno, (hwf c hc).diff⟩
      · obtain ⟨r, hr, rfl⟩ := List.mem_map.mp hq
        exact ⟨(hwf c hc).lagged.int64 r hr, (hwf c hc).lagged.diff r hr⟩
    exact ⟨(sorted_buildReplay _).map_value (fun p => p.2.2), fun p hp => (hmem p hp).1,
      fun p hp => (hmem p hp).2⟩
  unknownSorted := by
    rw [h.unknown]
    exact SortedMap.sorted_nil
  unknownWF := by
    simp [h.unknown]
  unknownKey := by
    simp [h.unknown]

namespace ConfigBase

lemma Valid.constructed (h : cb.Valid keys) {bad : List Nat} {k : Nat}
    (hm : cb.MergesTo env debug received m bad) (hk : m.unmerged = some k)
    (hc : cb'.config = cb.constructed m) (hs : cb'.state ≠ .dirty)
    (hseq : InInt64 cb'.config.seqno) :
    cb'.Valid keys := by
  obtain ⟨c, b, -, -, hacc, rfl⟩ := hm.taken hk
  have hp := parse_inv hacc
  have hwf : ({ c with unmerged := some k } : ConfigMessage).WellFormed := { hp.wf with }
  have hv := hp.verifier_eq.trans h.verifier_eq
  have hsig := hp.signer_eq.trans h.signer_eq
  unfold constructed at hc
  split at hc
  · rw [toMutable_of_unmerged env rfl] at hc
    exact .of_increment hc hseq hwf hp.lag_eq hv hsig
  · exact .of_immutable hc hs hwf hp.lag_eq hv hsig

lemma Valid.outcome (h : cb.Valid keys) {bad : List Nat}
    (hm : cb.MergesTo env debug received m bad) (ho : Outcome env received cb m bad cb')
    (hseq : InInt64 cb'.config.seqno) : cb'.Valid keys := by
  cases ho with
  | same | kept => exact h.marked received m bad
  | superset k hne hk hnot =>
    have hconf : (setState .clean { cb.marked env received m bad with
        config := cb.constructed m }).config = cb.constructed m := setState_config _ _
    refine h.constructed hm hk hconf ?_ hseq
    simp
  | resolved hne hnone =>
    obtain ⟨best, others, -, hres, hwf, -⟩ := hm.resolved hnone
    rw [setState_config] at hseq
    obtain ⟨hdwf, hdp, -⟩ := hres.leaf_data hwf
    have horig : Dict.WF (if cb.state = .dirty then m.data else []) ∧
        Dict.Pruned (if cb.state = .dirty then m.data else []) := by
      split
      · exact ⟨hdwf, hdp⟩
      · exact ⟨(ConfigMessage.empty_wellFormed env).dataWF,
          (ConfigMessage.empty_wellFormed env).dataPruned⟩
    exact
      { wf := by
          rw [setState_config]
          exact hres.wellFormed hwf hseq horig.1 horig.2
        lag_eq := by rw [setState_config]; exact hres.lag_eq
        verifier_eq := by rw [setState_config]; exact hres.verifier_eq.trans h.verifier_eq
        signer_eq := by rw [setState_config]; exact hres.signer_eq.trans h.signer_eq
        mutable_of_dirty := fun _ => by rw [setState_config]; exact ⟨_, rfl⟩
        pruned := fun hd => absurd (setState_state _ _) hd }

lemma Valid.mergeRows (h : cb.Valid keys) {good : Finset MsgId}
    (hok : (cb.mergeRows env debug received good).2 ≠ .error .assertion)
    (hseq : InInt64 (cb.mergeRows env debug received good).1.config.seqno) :
    (cb.mergeRows env debug received good).1.Valid keys := by
  rcases mergeRows_cases env debug received good cb with heq | ⟨m, bad, hm⟩
  · rw [heq]
    exact h.refresh env
  · exact h.outcome hm (mergeRows_outcome good hm hok) hseq

end ConfigBase

/-! ## Restarts -/

lemma ConfigState.ofInt_toInt (s : ConfigState) : ConfigState.ofInt s.toInt = some s := by
  cases s <;> rfl

def AnyMessage.loaded (env : Env) (state : ConfigState) (c : AnyMessage) : AnyMessage :=
  if state = .dirty then
    .mutable ((AnyMessage.immutable { c.refreshed.reparsed env false none none false with
      unmerged := some 0 }).increment env)
  else .immutable (c.refreshed.reparsed env false none none true)

namespace AnyMessage

/-- The message of an object that was not Dirty, after a restart. -/
def restored (env : Env) (keys : SigKeys) (c : AnyMessage) : ConfigMessage :=
  c.refreshed.reparsed env false keys.verifier keys.signer true

lemma loaded_of_dirty (env : Env) (keys : SigKeys) (c : AnyMessage) :
    (c.loaded env .dirty).setSigKeys keys =
      .mutable ((AnyMessage.immutable { c.refreshed.reparsed env false none none false with
        unmerged := some 0, verifier := keys.verifier, signer := keys.signer }).increment env) :=
  rfl

lemma loaded_of_ne_dirty (env : Env) (keys : SigKeys) (c : AnyMessage) {state : ConfigState}
    (h : state ≠ .dirty) : (c.loaded env state).setSigKeys keys =
      .immutable (c.restored env keys) := by
  unfold loaded restored
  rw [if_neg h]
  simp [setSigKeys, ConfigMessage.reparsed]

lemma WellFormed.restored (h : c.WellFormed) (env : Env) (keys : SigKeys) :
    (c.restored env keys).WellFormed :=
  let hr := h.refreshed
  { hr with lagged := laggedWF_filter hr.lagged _ }

end AnyMessage

namespace ConfigBase

lemma loadConfig_serialize (state : ConfigState) (hwf : c.WellFormed)
    (hlag : c.base.lag = configLags) :
    loadConfig env state (c.serialize env false).1 = .ok (c.loaded env state) := by
  have hparse : ∀ trust, ConfigMessage.parse env (c.serialize env false).1 none none configLags
      trust = .ok (c.refreshed.reparsed env false none none trust) := by
    intro trust
    have h := parse_serialize env hwf.refreshed (signatureAccepted_none env _ false) none trust
    rw [refreshed_lag, hlag] at h
    rw [serialize_fst]
    exact h
  unfold loadConfig loaded
  split
  · have hmerge : mergeConfigs env [(c.serialize env false).1] none none configLags throwHandler =
        .ok ({ c.refreshed.reparsed env false none none false with unmerged := some 0 }, []) := by
      have hmin : -2 ^ 63 ≤ (c.refreshed.reparsed env false none none false).seqno :=
        hwf.refreshed.seqno.1
      rw [mergeConfigs_of_accepts (.cons (hparse false) .nil) (by simp),
        mergeAccepted_alone env none none (by decide) hmin]
      rfl
    rw [hmerge, ok_bind]
    exact congrArg (Except.ok ∘ mutable) (toMutable_of_unmerged env rfl)
  · rw [hparse true]
    rfl

lemma load_makeDump (env : Env) (cb : ConfigBase) (hwf : cb.config.WellFormed)
    (hlag : cb.config.base.lag = configLags) :
    load env (cb.makeDump env).1 = .ok ⟨cb.config.loaded env cb.state, cb.state, cb.currHashes,
      cb.oldHashes, false⟩ := by
  have hids : ∀ ids : Finset MsgId, idsOfBt (ids.sort.map Bt.str) = .ok ids := by
    intro ids
    rw [idsOfBt_map_str, Finset.sort_toFinset]
  unfold load makeDump
  rw [env.read_encode]
  simp only [skipUntil_cons_self, ConfigState.ofInt_toInt]
  rw [loadConfig_serialize cb.state hwf hlag, ok_bind]
  unfold loadHashes idsToBt
  simp only [skipUntil_cons_self, loadCurrHashes, hids, ok_bind]

lemma restore_dump (env : Env) (h : cb.Valid keys) : restore env (cb.dump env).1 keys =
    .ok { config := (cb.config.loaded env cb.state).setSigKeys keys
          state := cb.state
          currHashes := cb.currHashes
          oldHashes := if cb.isReadonly then ∅ else cb.oldHashes
          needsDump := false } := by
  unfold restore dump
  cases cb.isReadonly with
  | true =>
    simp only [if_true]
    rw [load_makeDump env { cb with oldHashes := ∅ } h.wf h.lag_eq]
    rfl
  | false =>
    simp only [Bool.false_eq_true, if_false]
    rw [load_makeDump env cb h.wf h.lag_eq]
    rfl

lemma Valid.restart (h : cb.Valid keys)
    (hc : cb'.config = (cb.config.loaded env cb.state).setSigKeys keys) (hs : cb'.state = cb.state)
    (hseq : InInt64 cb'.config.seqno) : cb'.Valid keys := by
  have hr := h.wf.refreshed
  have hlag : cb.config.refreshed.lag = configLags := (refreshed_lag _).trans h.lag_eq
  by_cases hd : cb.state = .dirty
  · rw [hd, loaded_of_dirty] at hc
    exact .of_increment hc hseq { hr with lagged := laggedWF_filter hr.lagged _ } hlag rfl rfl
  · rw [loaded_of_ne_dirty env keys _ hd] at hc
    exact .of_immutable hc (hs ▸ hd) (h.wf.restored env keys) hlag rfl rfl

/-! ## Whole runs -/

lemma Valid.after (h : cb.Valid keys) {ev : Event} (hp : cb.Permitted env debug keys ev) :
    (cb.after env debug keys ev).Valid keys := by
  have hseq := hp.seqno
  cases ev with
  | edit e =>
    unfold ConfigBase.after at hseq ⊢
    simp only at hseq ⊢
    split at hseq
    · next he => exact h.edit he hseq
    · exact h
  | push => exact h.push
  | confirmPushed seqno msgHashes => exact h.confirmPushed seqno msgHashes
  | merge received good => exact h.mergeRows (hp.noAssert received good rfl) hseq
  | oldHashes => exact h.takeOldHashes
  | restart =>
    unfold ConfigBase.after at hseq ⊢
    simp only [restore_dump env h] at hseq ⊢
    exact h.restart rfl rfl hseq

lemma valid_of_reachable (h : Reachable (· = fresh env keys) (Next env debug keys) cb) :
    cb.Valid keys := by
  refine Reachable.invariant _ ?_ ?_ h
  · rintro s rfl
    exact valid_fresh env keys
  · rintro s s' hs ⟨ev, hp, rfl⟩
    exact hs.after hp

end ConfigBase

end Bchat.Config
