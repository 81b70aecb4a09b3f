import Bchat.Properties.Batch
import Bchat.Properties.Delivery
import Bchat.Properties.Run

/-!
# Confirmations

`confirm_pushed()` compares seqnos only. A run is recorded together with what its pushes have
returned, to say what a confirmation covers.
-/

namespace Bchat.Config

open Bencode List ConfigBase AnyMessage Device

variable {careful : Prop} {cb cb' : ConfigBase} {env : Env} {debug : Bool} {flag : Bool}
  {keys : List Bytes} {sigKeys : SigKeys}

/-! ## Calls -/

inductive Call
  | edit (e : Edit)
  | addKey (key : Bytes) (highPriority dirtyConfig : Bool)
  | removeKey (key : Key) (start : Nat) (dirtyConfig : Bool)
  | clearKeys (dirtyConfig : Bool)
  | replaceKeys (newKeys : List Bytes) (dirtyConfig : Bool)
  | merge (now : Int) (configs : List (MsgId × Bytes))
  | push (now : Int)
  | confirmPushed (seqno : Int) (msgHashes : Finset MsgId)

/-- An object, and the seqnos and plaintexts its pushes have returned, the last one first. -/
structure Logged where
  dev : Device
  log : List (Int × Bytes)

namespace Logged

def withResult (st : Logged) : Except Err Device → Logged
  | .ok dev => ⟨dev, st.log⟩
  | .error _ => st

def after (env : Env) (tr : Transport) (debug : Bool) (call : Call) (st : Logged) : Logged :=
  match call with
  | .edit e => st.withResult ((st.dev.base.edit env e).map fun base => { st.dev with base := base })
  | .addKey key highPriority dirtyConfig =>
    st.withResult (st.dev.addKey env key highPriority dirtyConfig)
  | .removeKey key start dirtyConfig => st.withResult (st.dev.removeKey env key start dirtyConfig)
  | .clearKeys dirtyConfig => st.withResult (st.dev.clearKeys env dirtyConfig)
  | .replaceKeys newKeys dirtyConfig => st.withResult (st.dev.replaceKeys env newKeys dirtyConfig)
  | .merge now configs => ⟨(st.dev.merge env tr debug now configs).1, st.log⟩
  | .push now =>
    let r := st.dev.push env tr now
    ⟨r.1, match r.2 with
      | .ok sent => (sent.seqno, (st.dev.base.config.serialize env true).1) :: st.log
      | .error _ => st.log⟩
  | .confirmPushed seqno msgHashes =>
    ⟨{ st.dev with base := st.dev.base.confirmPushed seqno msgHashes }, st.log⟩

def fresh (env : Env) (sigKeys : SigKeys) : Logged := ⟨Device.fresh env sigKeys, []⟩

structure Permitted (env : Env) (tr : Transport) (debug : Bool) (call : Call) (st : Logged) :
    Prop where
  seqno : InInt64 (st.after env tr debug call).dev.base.config.seqno
  noAssert : ∀ now configs, call = .merge now configs →
    (st.dev.merge env tr debug now configs).2 ≠ .error .assertion

def Next (env : Env) (tr : Transport) (debug : Bool) (st st' : Logged) : Prop :=
  ∃ call, st.Permitted env tr debug call ∧ st' = st.after env tr debug call

/-- A merge finds its own message acceptable, and a new object is not given a message with a
negative seqno. -/
def Careful (env : Env) (tr : Transport) (call : Call) (st : Logged) : Prop :=
  ∀ now configs, call = .merge now configs →
    (st.dev.base.TakesPart → SignatureAccepted env st.dev.base.config.base.verifier
      st.dev.base.config.refreshed true) ∧
    (¬st.dev.base.TakesPart →
      ∀ row ∈ (Device.decodeAll env tr st.dev.keys now configs st.dev.multiparts).1, ∀ c,
        Accepts env st.dev.base.config.base.verifier st.dev.base.config.base.signer configLags
          row.conf c → 0 ≤ c.seqno)

def CarefulNext (env : Env) (tr : Transport) (debug : Bool) (st st' : Logged) : Prop :=
  ∃ call, st.Permitted env tr debug call ∧ st.Careful env tr call ∧
    st' = st.after env tr debug call

end Logged

variable {st' : Logged}

/-! ## What a call can do -/

/-- What a call can do to an object: what becomes of the message and the state, and what is
pushed. A merge moves on to a higher seqno if it is careful. -/
inductive Change (env : Env) (careful : Prop) (cb : ConfigBase) :
    ConfigBase → List (Int × Bytes) → Prop
  | same {cb' : ConfigBase} : cb'.config = cb.config → cb'.state = cb.state →
    Change env careful cb cb' []
  | dirtied {cb' : ConfigBase} : cb'.state = .dirty →
    cb'.config.seqno = (if cb.state = .dirty then cb.config.seqno else cb.config.seqno + 1) →
    Change env careful cb cb' []
  | serialized {cb' : ConfigBase} : cb'.config = (cb.config.serialize env true).2 →
    cb'.state = cb.state → Change env careful cb cb' []
  | pushed {cb' : ConfigBase} : cb'.config = (cb.config.serialize env true).2 →
    cb'.state = (if cb.state = .dirty then .waiting else cb.state) →
    Change env careful cb cb' [(cb.config.seqno, (cb.config.serialize env true).1)]
  | confirmed {cb' : ConfigBase} : cb'.config = cb.config → cb.state = .waiting →
    cb'.state = .clean → Change env careful cb cb' []
  | replaced {cb' : ConfigBase} : cb'.state ≠ .waiting →
    (careful → cb.config.seqno < cb'.config.seqno) → Change env careful cb cb' []

lemma Change.mono {env : Env} {careful' : Prop} {cb₀ : ConfigBase} {pushes : List (Int × Bytes)}
    (h : Change env careful cb cb' pushes) (hc : cb.config = cb₀.config) (hs : cb.state = cb₀.state)
    (himp : careful' → careful) : Change env careful' cb₀ cb' pushes := by
  cases h with
  | same hc' hs' => exact .same (hc'.trans hc) (hs'.trans hs)
  | dirtied hs' hseq => exact .dirtied hs' (by rw [hseq, hc, hs])
  | serialized hc' hs' => exact .serialized (by rw [hc', hc]) (hs'.trans hs)
  | pushed hc' hs' =>
    rw [hc]
    exact .pushed (by rw [hc', hc]) (by rw [hs', hs])
  | confirmed hc' hw hs' => exact .confirmed (hc'.trans hc) (hs ▸ hw) hs'
  | replaced hs' hlt => exact .replaced hs' fun hcareful => hc ▸ hlt (himp hcareful)

namespace ConfigBase

variable {keys : SigKeys}

lemma dirty_inv (h : cb.dirty env = .ok cb') :
    (cb.state = .dirty ∧ cb' = { cb with needsDump := true }) ∨ (cb.state ≠ .dirty ∧
        cb' = { cb.setState .dirty with config := .mutable (cb.config.increment env) }) := by
  unfold dirty at h
  split at h
  · next hd =>
    unfold setDirty at h
    split at h
    · cases h
    · cases h
      exact .inr ⟨hd, by rw [setState_config]⟩
  next hd =>
  cases h
  exact .inl ⟨not_not.mp hd, rfl⟩

lemma Valid.dirty (h : cb.Valid keys) (hd : cb.dirty env = .ok cb')
    (hseq : InInt64 cb'.config.seqno) : cb'.Valid keys := by
  rcases dirty_inv hd with ⟨-, rfl⟩ | ⟨-, rfl⟩
  · exact h.of_config rfl (.inl rfl)
  have hseq' : InInt64 (cb.config.seqno + 1) := increment_seqno env cb.config ▸ hseq
  exact
    { wf := h.wf.increment env hseq'
      lag_eq := (increment_lag env cb.config).trans h.lag_eq
      verifier_eq := (increment_verifier env cb.config).trans h.verifier_eq
      signer_eq := (increment_signer env cb.config).trans h.signer_eq
      mutable_of_dirty := fun _ => ⟨_, rfl⟩
      pruned := fun hd => absurd (setState_state .dirty cb) hd }

lemma change_dirty (hd : cb.dirty env = .ok cb') : Change env careful cb cb' [] := by
  rcases dirty_inv hd with ⟨-, rfl⟩ | ⟨hnd, rfl⟩
  · exact .same rfl rfl
  refine .dirtied (setState_state .dirty cb) ?_
  rw [if_neg hnd]
  exact increment_seqno env cb.config

lemma change_edit (h : cb.Valid keys) {e : Edit} (he : cb.edit env e = .ok cb') :
    Change env careful cb cb' [] := by
  by_cases hd : cb.state = .dirty
  · obtain ⟨m, hc⟩ := h.mutable_of_dirty hd
    rw [edit_of_dirty hd hc] at he
    cases he
    refine .dirtied hd ?_
    rw [if_pos hd, hc]
    rfl
  rw [edit_of_ne_dirty hd] at he
  split at he
  · cases he
    exact .same rfl rfl
  split at he
  · cases he
  cases he
  refine .dirtied (setState_state .dirty cb) ?_
  rw [if_neg hd]
  exact increment_seqno env cb.config

lemma change_push (env : Env) (careful : Prop) (cb : ConfigBase) :
    Change env careful cb (cb.push env).2 [((cb.push env).1.seqno, (cb.push env).1.msg)] :=
  .pushed (push_snd_config env cb) (push_snd_state env cb)

lemma change_confirmPushed (env : Env) (careful : Prop) (cb : ConfigBase) (seqno : Int)
    (msgHashes : Finset MsgId) : Change env careful cb (cb.confirmPushed seqno msgHashes) [] := by
  unfold confirmPushed
  split
  · next hw => exact .confirmed (setState_config _ _) hw.1 (setState_state _ _)
  · exact .same rfl rfl

lemma change_refresh (env : Env) (careful : Prop) (hc : cb'.config = (cb.refresh env).config)
    (hs : cb'.state = cb.state) : Change env careful cb cb' [] := by
  unfold refresh serializeMine at hc
  split at hc
  · exact .serialized hc hs
  · exact .same hc hs

lemma change_mergeRows (h : cb.Valid keys) {received : List Row} {good : Finset MsgId}
    (hok : (cb.mergeRows env debug received good).2 ≠ .error .assertion) : Change env
      ((cb.TakesPart → SignatureAccepted env cb.config.base.verifier cb.config.refreshed true) ∧
        (¬cb.TakesPart → ∀ row ∈ received, ∀ c, Accepts env cb.config.base.verifier
          cb.config.base.signer configLags row.conf c → 0 ≤ c.seqno))
      cb (cb.mergeRows env debug received good).1 [] := by
  rcases mergeRows_cases env debug received good cb with heq | ⟨m, bad, hm⟩
  · rw [heq]
    exact change_refresh env _ rfl (refresh_state env cb)
  have ho := mergeRows_outcome good hm hok
  generalize (cb.mergeRows env debug received good).1 = cb' at ho
  cases ho with
  | same | kept => exact change_refresh env _ rfl (refresh_state env cb)
  | resolved hne hnone =>
    refine .replaced (by simp) fun hcareful => ?_
    have hle := hm.seqno_le h.wf h.lag_eq hcareful.1 hcareful.2
    obtain ⟨best, others, -, hres, -, -⟩ := hm.resolved hnone
    rw [setState_config]
    show cb.config.seqno < m.seqno
    rw [hres.seqno]
    omega
  | superset k hne hk hnot =>
    refine .replaced (by simp) fun hcareful => ?_
    have hle := hm.seqno_le h.wf h.lag_eq hcareful.1 hcareful.2
    have hseq := hm.taken_seqno hk
    have hconf : (setState .clean { cb.marked env received m bad with
        config := cb.constructed m }).config = cb.constructed m := setState_config _ _
    rw [hconf]
    unfold constructed at hne ⊢
    split at hne
    · next hd =>
      rw [if_pos hd, toMutable_of_unmerged env hk]
      have hinc : (mutable ((immutable m).increment env)).seqno =
          m.seqno + 1 := increment_seqno env (.immutable m)
      omega
    rename_i hd
    rw [if_neg hd]
    have hne : m.seqno ≠ cb.config.seqno := hne
    show cb.config.seqno < m.seqno
    omega

end ConfigBase

lemma AnyMessage.wire_serialize_snd {env : Env} {c : AnyMessage} (h : c.WellFormed) {es : Bool} :
    (c.serialize env es).2.wire env = c.wire env := by
  rw [wire_eq, serialize_snd_refreshed h, ← wire_eq]

/-! ## Changes of the keys -/

namespace Device

variable {dev dev' : Device}

def BaseDirties (env : Env) (cb cb' : ConfigBase) : Prop := cb' = cb ∨ cb.dirty env = .ok cb'

lemma dirtyIf_base (h : dirtyIf env flag dev = .ok dev') : BaseDirties env dev.base dev'.base := by
  unfold dirtyIf at h
  split at h
  · obtain ⟨base, hbase, h⟩ := bind_eq_ok.mp h
    cases h
    exact .inr hbase
  · cases h
    exact .inl rfl

lemma removeKey_base {key : Key} {start : Nat} (h : removeKey env key start flag dev = .ok dev') :
    BaseDirties env dev.base dev'.base := by
  unfold removeKey at h
  split at h
  · cases h
    exact .inl rfl
  · have hbase := dirtyIf_base h
    exact hbase

lemma removeKey_base_false {key : Key} {start : Nat}
    (h : removeKey env key start false dev = .ok dev') : dev'.base = dev.base := by
  unfold removeKey at h
  split at h
  · cases h
    rfl
  · cases h
    rfl

lemma addKey_base {key : Bytes} {highPriority : Bool}
    (h : addKey env key highPriority flag dev = .ok dev') :
    BaseDirties env dev.base dev'.base ∧ (flag = false → dev'.base = dev.base) := by
  unfold addKey at h
  split at h
  · split at h
    · cases h
      exact ⟨.inl rfl, fun _ => rfl⟩
    split at h
    · cases h
      exact ⟨.inl rfl, fun _ => rfl⟩
    obtain ⟨dev₁, h₁, h⟩ := bind_eq_ok.mp h
    have hbase : dev₁.base = dev.base := by
      split at h₁
      · exact removeKey_base_false h₁
      · cases h₁
        rfl
    rw [← hbase]
    have hdirties := dirtyIf_base h
    refine ⟨hdirties, fun hflag => ?_⟩
    rw [hflag] at h
    cases h
    rfl
  · cases h

lemma addKeys_base (h : addKeys env keys dev = .ok dev') : dev'.base = dev.base := by
  induction keys generalizing dev with
  | nil =>
    cases h
    rfl
  | cons k keys ih =>
    obtain ⟨dev₁, h₁, h⟩ := bind_eq_ok.mp h
    rw [ih h, (addKey_base h₁).2 rfl]

lemma clearKeys_base (h : clearKeys env flag dev = .ok dev') :
    BaseDirties env dev.base dev'.base := by
  have hbase := dirtyIf_base h
  exact hbase

lemma replaceKeys_base (h : replaceKeys env keys flag dev = .ok dev') :
    BaseDirties env dev.base dev'.base := by
  unfold replaceKeys at h
  split at h
  · split at h
    · cases h
      exact .inl rfl
    · exact clearKeys_base h
  split at h
  · cases h
  obtain ⟨dev₁, h₁, h⟩ := bind_eq_ok.mp h
  rw [← addKeys_base h₁]
  exact dirtyIf_base h

lemma push_cases (env : Env) (tr : Transport) (now : Int) (dev : Device) :
    ((dev.push env tr now).1.base = dev.base ∧ ∃ e, (dev.push env tr now).2 = .error e) ∨
    ((dev.push env tr now).1.base =
        { dev.base with config := (dev.base.config.serialize env true).2 } ∧
      ∃ e, (dev.push env tr now).2 = .error e) ∨
    ((dev.push env tr now).1.base = (dev.base.push env).2 ∧
      ∃ sent, (dev.push env tr now).2 = .ok sent ∧ sent.seqno = dev.base.config.seqno) := by
  unfold push
  cases dev.keys with
  | nil => exact .inl ⟨rfl, _, rfl⟩
  | cons key keys =>
    simp only
    split
    · exact .inr (.inl ⟨rfl, _, rfl⟩)
    split
    all_goals exact .inr (.inr ⟨rfl, _, rfl, rfl⟩)

end Device

/-! ## Every call -/

namespace Logged

variable {tr : Transport} {keys : SigKeys} {st : Logged} {call : Call}

lemma withResult_step {r : Except Err Device}
    (hseq : InInt64 (st.withResult r).dev.base.config.seqno) (hvalid : st.dev.base.Valid keys)
    (h : ∀ dev', r = .ok dev' → InInt64 dev'.base.config.seqno →
      dev'.base.Valid keys ∧ Change env careful st.dev.base dev'.base []) :
    (st.withResult r).dev.base.Valid keys ∧ ∃ pushes, (st.withResult r).log = pushes ++ st.log ∧
      Change env careful st.dev.base (st.withResult r).dev.base pushes := by
  cases r with
  | ok dev' =>
    obtain ⟨hv, hc⟩ := h dev' rfl hseq
    exact ⟨hv, [], rfl, hc⟩
  | error e => exact ⟨hvalid, [], rfl, .same rfl rfl⟩

lemma dirties_step (hvalid : cb.Valid keys) (hseq : InInt64 cb'.config.seqno)
    (h : Device.BaseDirties env cb cb') : cb'.Valid keys ∧ Change env careful cb cb' [] := by
  rcases h with rfl | h
  · exact ⟨hvalid, .same rfl rfl⟩
  · exact ⟨hvalid.dirty h hseq, change_dirty h⟩

lemma after_step (hvalid : st.dev.base.Valid keys) (hp : st.Permitted env tr debug call) :
    (st.after env tr debug call).dev.base.Valid keys ∧
      ∃ pushes, (st.after env tr debug call).log = pushes ++ st.log ∧
        Change env (st.Careful env tr call) st.dev.base (st.after env tr debug call).dev.base
          pushes := by
  have hseq := hp.seqno
  cases call with
  | edit e =>
    refine withResult_step hseq hvalid fun dev' hr hseq => ?_
    cases he : st.dev.base.edit env e with
    | error err =>
      rw [he] at hr
      cases hr
    | ok base =>
      rw [he] at hr
      cases hr
      exact ⟨hvalid.edit he hseq, change_edit hvalid he⟩
  | addKey key highPriority dirtyConfig =>
    exact withResult_step hseq hvalid fun dev' hr hseq =>
      dirties_step hvalid hseq (addKey_base hr).1
  | removeKey key start dirtyConfig =>
    exact withResult_step hseq hvalid fun dev' hr hseq =>
      dirties_step hvalid hseq (removeKey_base hr)
  | clearKeys dirtyConfig =>
    exact withResult_step hseq hvalid fun dev' hr hseq =>
      dirties_step hvalid hseq (clearKeys_base hr)
  | replaceKeys newKeys dirtyConfig =>
    exact withResult_step hseq hvalid fun dev' hr hseq =>
      dirties_step hvalid hseq (replaceKeys_base hr)
  | merge now configs =>
    have hok := hp.noAssert now configs rfl
    unfold after Device.merge at hseq ⊢
    unfold Device.merge at hok
    simp only at hseq hok ⊢
    split at hseq
    · next hnil =>
      rw [if_pos hnil]
      exact ⟨hvalid, [], rfl, .same rfl rfl⟩
    rename_i hnil
    rw [if_neg hnil] at hok ⊢
    -- the flag for the dump is all that differs from the config before the call
    have hvalid' : ConfigBase.Valid keys { st.dev.base with needsDump := st.dev.base.needsDump ||
        (decodeAll env tr st.dev.keys now configs st.dev.multiparts).2.2.2 } :=
      hvalid.of_config rfl (.inl rfl)
    exact ⟨hvalid'.mergeRows hok hseq, [], rfl,
      (change_mergeRows hvalid' hok).mono rfl rfl fun h => h now configs rfl⟩
  | push now =>
    unfold after
    rcases push_cases env tr now st.dev with ⟨hbase, e, he⟩ | ⟨hbase, e, he⟩ |
      ⟨hbase, sent, he, hsent⟩
    · simp only [he, hbase]
      exact ⟨hvalid, [], rfl, .same rfl rfl⟩
    · simp only [he, hbase]
      exact ⟨hvalid.serialized true rfl (.inl rfl), [], rfl, .serialized rfl rfl⟩
    · simp only [he, hbase, hsent]
      exact ⟨hvalid.push, [_], rfl, change_push env _ st.dev.base⟩
  | confirmPushed seqno msgHashes =>
    exact ⟨hvalid.confirmPushed seqno msgHashes, [], rfl,
      change_confirmPushed env _ _ seqno msgHashes⟩

/-! ## The invariants -/

/-- What a Waiting object has pushed. -/
structure Covered (env : Env) (keys : SigKeys) (st : Logged) : Prop where
  valid : st.dev.base.Valid keys
  waiting : st.dev.base.state = .waiting →
    (st.log.find? fun p => p.1 = st.dev.base.config.seqno).map Prod.snd =
      some (st.dev.base.config.wire env)

/-- No seqno was pushed with two contents. -/
structure Unrepeated (env : Env) (st : Logged) : Prop where
  le : ∀ p ∈ st.log, p.1 ≤ st.dev.base.config.seqno
  dirty : st.dev.base.state = .dirty → ∀ p ∈ st.log, p.1 < st.dev.base.config.seqno
  held : st.dev.base.state ≠ .dirty → ∀ p ∈ st.log, p.1 = st.dev.base.config.seqno →
    p.2 = st.dev.base.config.wire env
  unique : ∀ p ∈ st.log, ∀ q ∈ st.log, p.1 = q.1 → p.2 = q.2

lemma Covered.next (h : st.Covered env keys) (hp : st.Permitted env tr debug call) :
    (st.after env tr debug call).Covered env keys := by
  obtain ⟨hvalid, pushes, hlog, hchange⟩ := after_step h.valid hp
  refine ⟨hvalid, fun hw => ?_⟩
  rw [hlog]
  cases hchange with
  | same hc hs =>
    rw [hc]
    exact h.waiting (hs ▸ hw)
  | dirtied hs | confirmed hc _ hs => simp [hs] at hw
  | serialized hc hs =>
    rw [hc, serialize_snd_seqno, wire_serialize_snd h.valid.wf]
    exact h.waiting (hs ▸ hw)
  | pushed hc hs =>
    rw [hc, serialize_snd_seqno, wire_serialize_snd h.valid.wf]
    simp [wire]
  | replaced hs => exact absurd hw hs

section

variable (h : st.Unrepeated env)

include h

lemma Unrepeated.of_above (hlog : st'.log = st.log)
    (hlt : ∀ p ∈ st.log, p.1 < st'.dev.base.config.seqno) : st'.Unrepeated env where
  le p hp := (hlt p (hlog ▸ hp)).le
  dirty _ p hp := hlt p (hlog ▸ hp)
  held _ p hp heq := absurd heq (hlt p (hlog ▸ hp)).ne
  unique p hp q hq := h.unique p (hlog ▸ hp) q (hlog ▸ hq)

lemma Unrepeated.of_same (hlog : st'.log = st.log)
    (hseq : st'.dev.base.config.seqno = st.dev.base.config.seqno)
    (hdirty : st'.dev.base.state = .dirty ↔ st.dev.base.state = .dirty)
    (hwire : st'.dev.base.config.wire env = st.dev.base.config.wire env) :
    st'.Unrepeated env where
  le p hp := hseq ▸ h.le p (hlog ▸ hp)
  dirty hd p hp := hseq ▸ h.dirty (hdirty.mp hd) p (hlog ▸ hp)
  held hd p hp heq :=
    hwire ▸ h.held (fun hd' => hd (hdirty.mpr hd')) p (hlog ▸ hp) (hseq ▸ heq)
  unique p hp q hq := h.unique p (hlog ▸ hp) q (hlog ▸ hq)

lemma Unrepeated.content {p : Int × Bytes} (hp : p ∈ st.log)
    (heq : p.1 = st.dev.base.config.seqno) : p.2 = st.dev.base.config.wire env := by
  by_cases hd : st.dev.base.state = .dirty
  · exact absurd heq (h.dirty hd p hp).ne
  · exact h.held hd p hp heq

lemma Unrepeated.of_pushed
    (hlog : st'.log = (st.dev.base.config.seqno, st.dev.base.config.wire env) :: st.log)
    (hseq : st'.dev.base.config.seqno = st.dev.base.config.seqno)
    (hstate : st'.dev.base.state ≠ .dirty)
    (hwire : st'.dev.base.config.wire env = st.dev.base.config.wire env) : st'.Unrepeated env := by
  have hcontent : ∀ p ∈ st'.log, p.1 = st.dev.base.config.seqno →
      p.2 = st.dev.base.config.wire env := by
    intro p hp heq
    rw [hlog] at hp
    rcases mem_cons.mp hp with rfl | hp
    · rfl
    · exact h.content hp heq
  refine ⟨fun p hp => ?_, fun hd => absurd hd hstate, fun _ p hp heq => ?_, fun p hp q hq heq => ?_⟩
  · rw [hseq]
    rw [hlog] at hp
    rcases mem_cons.mp hp with rfl | hp
    · exact le_rfl
    · exact h.le p hp
  · rw [hwire]
    exact hcontent p hp (heq.trans hseq)
  by_cases hcur : p.1 = st.dev.base.config.seqno
  · rw [hcontent p hp hcur, hcontent q hq (heq ▸ hcur)]
  rw [hlog] at hp hq
  rcases mem_cons.mp hp with rfl | hp
  · exact absurd rfl hcur
  rcases mem_cons.mp hq with rfl | hq
  · exact absurd heq hcur
  · exact h.unique p hp q hq heq

lemma Unrepeated.next (hvalid : st.dev.base.Valid keys)
    (hp : st.Permitted env tr debug call) (hcareful : st.Careful env tr call) :
    (st.after env tr debug call).Unrepeated env := by
  obtain ⟨-, pushes, hlog, hchange⟩ := after_step hvalid hp
  generalize st.after env tr debug call = st' at hlog hchange
  obtain ⟨⟨cb', keys', table'⟩, log'⟩ := st'
  cases hchange with
  | same hc hs => exact h.of_same hlog (congrArg _ hc) (by rw [hs]) (congrArg _ hc)
  | dirtied hs hseq =>
    refine h.of_above hlog fun p hp => ?_
    rw [hseq]
    split
    · next hd => exact h.dirty hd p hp
    · have := h.le p hp
      omega
  | serialized hc hs =>
    refine h.of_same hlog ?_ (by rw [hs]) ?_
    · rw [hc, serialize_snd_seqno]
    · rw [hc, wire_serialize_snd hvalid.wf]
  | pushed hc hs =>
    refine h.of_pushed hlog ?_ ?_ ?_
    · rw [hc, serialize_snd_seqno]
    · rw [hs]
      split
      · simp
      · assumption
    · rw [hc, wire_serialize_snd hvalid.wf]
  | confirmed hc hw hs =>
    exact h.of_same hlog (congrArg _ hc) (by rw [hw, hs]; simp) (congrArg _ hc)
  | replaced hs hlt => exact h.of_above hlog fun p hp => (h.le p hp).trans_lt (hlt hcareful)

end

/-! ## Whole runs -/

lemma covered_of_reachable (h : Reachable (· = fresh env sigKeys) (Next env tr debug) st) :
    st.Covered env sigKeys := by
  refine h.invariant (Covered env sigKeys) (fun st hst => ?_) fun st st' hc hn => ?_
  · rw [hst]
    exact ⟨valid_fresh env sigKeys, fun hw => by cases hw⟩
  · obtain ⟨call, hp, rfl⟩ := hn
    exact hc.next hp

lemma unrepeated_of_reachable
    (h : Reachable (· = fresh env sigKeys) (CarefulNext env tr debug) st) :
    st.Covered env sigKeys ∧ st.Unrepeated env := by
  refine h.invariant (fun st => st.Covered env sigKeys ∧ st.Unrepeated env) (fun st hst => ?_)
    fun st st' hc hn => ?_
  · rw [hst]
    exact ⟨⟨valid_fresh env sigKeys, fun hw => by cases hw⟩,
      ⟨by simp [fresh], by simp [fresh], by simp [fresh], by simp [fresh]⟩⟩
  · obtain ⟨call, hp, hcareful, rfl⟩ := hn
    exact ⟨hc.1.next hp, hc.2.next hc.1.valid hp hcareful⟩

/-- **A confirmation covers what was pushed.** It leaves the object as it is, or the current message
is what the last push with its seqno has returned, and becomes Clean. In runs of careful merges two
pushes with one seqno have returned the same plaintext. In the source a run ends at a merge in which
a sum `seqno + lag` leaves `int64_t`. -/
theorem confirms_only_pushed (env : Env) (tr : Transport) (debug : Bool) (sigKeys : SigKeys) :
    (∀ st, Reachable (· = fresh env sigKeys) (Next env tr debug) st → ∀ seqno msgHashes,
      (st.dev.base.confirmPushed seqno msgHashes = st.dev.base ∨
        ((st.log.find? fun p => p.1 = seqno).map Prod.snd =
            some (st.dev.base.config.serialize env true).1 ∧
          (st.dev.base.confirmPushed seqno msgHashes).state = .clean ∧
          (st.dev.base.confirmPushed seqno msgHashes).config = st.dev.base.config ∧
          (st.dev.base.confirmPushed seqno msgHashes).currHashes = msgHashes))) ∧
    ∀ st, Reachable (· = fresh env sigKeys) (CarefulNext env tr debug) st →
      ∀ p ∈ st.log, ∀ q ∈ st.log, p.1 = q.1 → p.2 = q.2 := by
  refine ⟨fun st hst seqno msgHashes => ?_, fun st hst => (unrepeated_of_reachable hst).2.unique⟩
  have hcovered := covered_of_reachable hst
  by_cases hw : st.dev.base.state = .waiting ∧ seqno = st.dev.base.config.seqno
  · refine .inr ⟨?_, ?_, ?_, ?_⟩
    · rw [hw.2]
      exact hcovered.waiting hw.1
    all_goals unfold confirmPushed
    all_goals rw [if_pos hw]
    · exact setState_state _ _
    · exact setState_config _ _
  · exact .inl (if_neg hw)

end Logged

/-! ## Samples -/

def negative : Bytes := messageBytes (-1) [] [] []

def negativeEnv : Env :=
  Env.bencode (tableHash
    [(initial, initialHash),
      (negative, hashOfNat 0x2e3c67f630e765cc7fed628132bec8bc9013e0789693d99409c7ff364f4e66ed)])

def Logged.run : List Call → Logged → Logged
  | [], st => st
  | call :: calls, st => run calls (st.after negativeEnv sampleTransport true call)

def Logged.runs : List Call → Logged → Bool
  | [], _ => true
  | call :: calls, st =>
    InInt64 (st.after negativeEnv sampleTransport true call).dev.base.config.seqno &&
      (match call with
        | .merge now configs =>
          match (st.dev.merge negativeEnv sampleTransport true now configs).2 with
          | .error .assertion => false
          | _ => true
        | _ => true) &&
      runs calls (st.after negativeEnv sampleTransport true call)

lemma Logged.reachable_run {init : Logged → Prop} {next : Logged → Logged → Prop}
    (calls : List Call)
    (hnext : ∀ call ∈ calls, ∀ st : Logged, st.Permitted negativeEnv sampleTransport true call →
      next st (st.after negativeEnv sampleTransport true call)) {st : Logged}
    (hst : Reachable init next st) (hruns : Logged.runs calls st = true) :
    Reachable init next (Logged.run calls st) := by
  induction calls generalizing st with
  | nil => exact hst
  | cons call calls ih =>
    simp only [Logged.runs, Bool.and_eq_true, decide_eq_true_eq] at hruns
    obtain ⟨⟨hseq, hassert⟩, hruns⟩ := hruns
    have hpermitted : st.Permitted negativeEnv sampleTransport true call := by
      refine ⟨hseq, fun now configs hcall herr => ?_⟩
      subst hcall
      simp [herr] at hassert
    exact ih (fun c hc => hnext c (mem_cons_of_mem _ hc))
      (.step hst (hnext call mem_cons_self st hpermitted)) hruns

/-- The initial message is pushed, and after the merge of a message with a negative seqno the next
edit has seqno 0 again. -/
def repeatedRun : List Call :=
  [.addKey sampleKey.val true false, .push 0,
    .merge 0 [(bytes "id", encrypt tagAead negative sampleKey sampleTransport.domain)],
    .edit (assignIfChanged (bytes "a") (.int 1)), .push 0]

/-- Two pushes return seqno 0 with different contents. -/
theorem seqno_pushed_with_two_contents : ∃ st,
    Reachable (· = Logged.fresh negativeEnv .none) (Logged.Next negativeEnv sampleTransport true)
        st ∧
      ∃ p ∈ st.log, ∃ q ∈ st.log, p.1 = q.1 ∧ p.2 ≠ q.2 :=
  ⟨_, Logged.reachable_run repeatedRun (fun call _ _ hp => ⟨call, hp, rfl⟩) (.init rfl)
    (by decide +kernel), by decide +kernel⟩

def confirmedTwice : List Call :=
  [.addKey sampleKey.val true false, .edit (assignIfChanged (bytes "a") (.int 1)), .push 0, .push 1]

/-- Both pushes have returned what the confirmation covers. -/
theorem confirms_pushed_twice : ∃ st, Reachable (· = Logged.fresh negativeEnv .none)
        (Logged.CarefulNext negativeEnv sampleTransport true) st ∧
      st.log.length = 2 ∧ (∀ p ∈ st.log, ∀ q ∈ st.log, p.2 = q.2) ∧
      (st.dev.base.confirmPushed 1 ∅).state = .clean := by
  have hreach : Reachable (· = Logged.fresh negativeEnv .none)
      (Logged.CarefulNext negativeEnv sampleTransport true)
      (Logged.run confirmedTwice (Logged.fresh negativeEnv .none)) := by
    refine Logged.reachable_run _ (fun call hcall st hp => ⟨call, hp, ?_, rfl⟩) (.init rfl)
      (by decide +kernel)
    rintro now configs rfl
    simp [confirmedTwice] at hcall
  have hseqnos : ∀ p ∈ (Logged.run confirmedTwice (Logged.fresh negativeEnv .none)).log,
      p.1 = 1 := by decide +kernel
  refine ⟨_, hreach, by decide +kernel, fun p hp q hq => ?_, by decide +kernel⟩
  exact (Logged.confirms_only_pushed negativeEnv sampleTransport true .none).2 _ hreach p hp q hq
    ((hseqnos p hp).trans (hseqnos q hq).symm)

end Bchat.Config
