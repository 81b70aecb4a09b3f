import Bchat.Properties.Batch
import Bchat.Properties.Run

/-!
# Which stored messages are obsolete

An object tells its client which stored messages can be deleted. The message it considers stored
itself must never be among them: the client would delete the current config.

Which message that is cannot be seen from the ids alone, so `Tracked` keeps it beside the object.
The ids the server gives tell the contents of messages apart.
-/

namespace Bchat.Config

open Bencode List ConfigBase AnyMessage Finset

variable {ids : Bytes → Finset MsgId} {obj : ConfigBase} {env : Env} {t : Tracked} {debug : Bool}
  {keys : SigKeys} {superconf : Option Nat} {old : Finset MsgId} {row : Row} {k : Nat}
  {c : ConfigMessage}

/-! ## The object and the message it considers stored -/

/-- A call on an object. The ids of a message are those of its content. -/
inductive StoreEvent
  | edit (e : Edit)
  | push
  | confirmPushed (seqno : Int) (content : Bytes)
  | merge (contents : List Bytes) (good : Finset MsgId)
  | oldHashes
  | restart

def storedRows (ids : Bytes → Finset MsgId) (contents : List Bytes) : List Row :=
  contents.map fun b => ⟨ids b, b⟩

def StoreEvent.call (ids : Bytes → Finset MsgId) : StoreEvent → Event
  | .edit e => .edit e
  | .push => .push
  | .confirmPushed seqno content => .confirmPushed seqno (ids content)
  | .merge contents good => .merge (storedRows ids contents) good
  | .oldHashes => .oldHashes
  | .restart => .restart

def ConfigBase.takenBytes (env : Env) (debug : Bool) (received : List Row) (cb : ConfigBase) :
    Option Bytes :=
  match mergeConfigs env (cb.confs env received) cb.config.base.verifier cb.config.base.signer
    configLags (mergeHandler debug) with
  | .ok (m, _) => m.unmerged.bind fun k => ((cb.confs env received).filter
      (parses env cb.config.base.verifier cb.config.base.signer configLags))[k]?
  | .error _ => none

/-- An object with the content of the message it considers stored. -/
structure Tracked where
  obj : ConfigBase
  stored : Option Bytes

namespace Tracked

/-- The content of the message considered stored after a call: the one confirmed or adopted, as long
as the object stays Clean. -/
def storedAfter (env : Env) (debug : Bool) (ids : Bytes → Finset MsgId) (ev : StoreEvent)
    (t : Tracked) (obj : ConfigBase) : Option Bytes :=
  if obj.state ≠ .clean then none
  else
    match ev with
    | .confirmPushed seqno content =>
      if t.obj.state = .waiting ∧ seqno = t.obj.config.seqno then some content else t.stored
    | .merge contents _ =>
      if obj.config.seqno = t.obj.config.seqno then t.stored
      else t.obj.takenBytes env debug (storedRows ids contents)
    | _ => t.stored

def after (env : Env) (debug : Bool) (keys : SigKeys) (ids : Bytes → Finset MsgId)
    (ev : StoreEvent) (t : Tracked) : Tracked :=
  { obj := t.obj.after env debug keys (ev.call ids)
    stored := t.storedAfter env debug ids ev (t.obj.after env debug keys (ev.call ids)) }

lemma after_merge (env : Env) (debug : Bool) (keys : SigKeys) (ids : Bytes → Finset MsgId)
    (contents : List Bytes) (good : Finset MsgId) (t : Tracked) :
    t.after env debug keys ids (.merge contents good) =
      ⟨(t.obj.mergeRows env debug (storedRows ids contents) good).1,
        if (t.obj.mergeRows env debug (storedRows ids contents) good).1.state ≠ .clean then none
        else if (t.obj.mergeRows env debug (storedRows ids contents) good).1.config.seqno =
          t.obj.config.seqno then t.stored
        else t.obj.takenBytes env debug (storedRows ids contents)⟩ := rfl

lemma after_confirmPushed (env : Env) (debug : Bool) (keys : SigKeys)
    (ids : Bytes → Finset MsgId) (seqno : Int) (content : Bytes) (t : Tracked) :
    t.after env debug keys ids (.confirmPushed seqno content) =
      ⟨t.obj.confirmPushed seqno (ids content),
        if (t.obj.confirmPushed seqno (ids content)).state ≠ .clean then none
        else if t.obj.state = .waiting ∧ seqno = t.obj.config.seqno then some content
        else t.stored⟩ := rfl

def fresh (env : Env) (keys : SigKeys) : Tracked := ⟨ConfigBase.fresh env keys, none⟩

/-- The call does not run into an assertion and the seqno does not overflow; a message is confirmed
with its own seqno; the hashes of the messages merged do not collide. -/
structure Permitted (env : Env) (debug : Bool) (keys : SigKeys) (ids : Bytes → Finset MsgId)
    (ev : StoreEvent) (t : Tracked) : Prop where
  call : t.obj.Permitted env debug keys (ev.call ids)
  confirmed : ∀ seqno content, ev = .confirmPushed seqno content → seqnoOf env content = seqno
  noCollision : ∀ contents good, ev = .merge contents good →
    Set.InjOn env.blake2b {b | b ∈ t.obj.confs env (storedRows ids contents)}

def Next (env : Env) (debug : Bool) (keys : SigKeys) (ids : Bytes → Finset MsgId)
    (t t' : Tracked) : Prop :=
  ∃ ev, t.Permitted env debug keys ids ev ∧ t' = t.after env debug keys ids ev

structure LiveKept (env : Env) (ids : Bytes → Finset MsgId) (t : Tracked) : Prop where
  disjoint : Disjoint t.obj.currHashes t.obj.oldHashes
  unknown : t.obj.state ≠ .clean → t.obj.currHashes = ∅
  known : ∀ X, t.stored = some X → t.obj.currHashes = ids X
  push : ∀ X, t.stored = some X → Disjoint (t.obj.push env).1.obsolete (ids X)
  oldHashes : ∀ X, t.stored = some X → Disjoint t.obj.takeOldHashes.1 (ids X)
  /-- Nor is the message just pushed. -/
  pushed : t.obj.state ≠ .clean →
    Disjoint (t.obj.push env).1.obsolete (ids (t.obj.push env).1.msg)

end Tracked

/-- A merge that cannot go wrong: the object can parse its own message, a new object is given no
negative seqnos, and no entry before the message taken is rejected. -/
structure ConfigBase.Orderly (env : Env) (debug : Bool) (received : List Row) (cb : ConfigBase) :
    Prop where
  own : cb.TakesPart →
    SignatureAccepted env cb.config.base.verifier cb.config.refreshed true
  nonneg : ¬cb.TakesPart → ∀ row ∈ received, ∀ c,
    Accepts env cb.config.base.verifier cb.config.base.signer configLags row.conf c → 0 ≤ c.seqno
  first : cb.TakenFirst env debug received

def Tracked.OrderlyNext (env : Env) (debug : Bool) (keys : SigKeys) (ids : Bytes → Finset MsgId)
    (t t' : Tracked) : Prop :=
  ∃ ev, t.Permitted env debug keys ids ev ∧
    (∀ contents good, ev = .merge contents good →
      t.obj.Orderly env debug (storedRows ids contents)) ∧
    t' = t.after env debug keys ids ev

/-! ## Ids of messages up to a seqno -/

def UpTo (env : Env) (ids : Bytes → Finset MsgId) (S : Finset MsgId) (s : Int) : Prop :=
  ∀ x ∈ S, ∃ b, x ∈ ids b ∧ seqnoOf env b ≤ s

section

variable {S T : Finset MsgId} {s s' : Int} {b : Bytes}

lemma upTo_empty : UpTo env ids ∅ s := by
  intro x hx
  simp at hx

lemma upTo_ids (h : seqnoOf env b ≤ s) : UpTo env ids (ids b) s :=
  fun _ hx => ⟨b, hx, h⟩

lemma UpTo.mono (h : UpTo env ids S s) (hs : s ≤ s') : UpTo env ids S s' := by
  intro x hx
  obtain ⟨b, hb, hle⟩ := h x hx
  exact ⟨b, hb, hle.trans hs⟩

lemma UpTo.union (hS : UpTo env ids S s) (hT : UpTo env ids T s) : UpTo env ids (S ∪ T) s := by
  intro x hx
  rcases mem_union.mp hx with hx | hx
  · exact hS x hx
  · exact hT x hx

lemma UpTo.disjoint (hids : Pairwise fun b b' => Disjoint (ids b) (ids b'))
    (h : UpTo env ids S s) (hb : s < seqnoOf env b) : Disjoint (ids b) S := by
  rw [Finset.disjoint_left]
  intro x hxb hxS
  obtain ⟨b', hb', hle⟩ := h x hxS
  have hne : b ≠ b' := by
    rintro rfl
    omega
  exact disjoint_left.mp (hids hne) hxb hb'

end

/-! ## The invariant -/

def ConfigBase.obsoleteBound (cb : ConfigBase) : Int :=
  if cb.state = .clean then cb.config.seqno else cb.config.seqno - 1

structure StoreInv (env : Env) (ids : Bytes → Finset MsgId) (t : Tracked) : Prop where
  /-- A new object has no ids; all others take part in a merge. -/
  new : t.obj.config.seqno = 0 → t.obj.state = .clean ∧ t.obj.currHashes = ∅
  nonneg : 0 ≤ t.obj.config.seqno
  unstored : t.stored = none → t.obj.currHashes = ∅
  stored : ∀ X, t.stored = some X → t.obj.state = .clean ∧ t.obj.currHashes = ids X ∧
    seqnoOf env X ≤ t.obj.config.seqno
  old : UpTo env ids t.obj.oldHashes t.obj.obsoleteBound
  disjoint : Disjoint t.obj.currHashes t.obj.oldHashes

namespace StoreInv

lemma unknown (h : StoreInv env ids t) (hs : t.obj.state ≠ .clean) : t.obj.currHashes = ∅ := by
  cases hst : t.stored with
  | none => exact h.unstored hst
  | some X => exact absurd (h.stored X hst).1 hs

lemma upTo_curr (h : StoreInv env ids t) : UpTo env ids t.obj.currHashes t.obj.config.seqno := by
  cases hst : t.stored with
  | none =>
    rw [h.unstored hst]
    exact upTo_empty
  | some X =>
    rw [(h.stored X hst).2.1]
    exact upTo_ids (h.stored X hst).2.2

lemma upTo_old (h : StoreInv env ids t) : UpTo env ids t.obj.oldHashes t.obj.config.seqno := by
  refine h.old.mono ?_
  unfold obsoleteBound
  split <;> omega

lemma obsoleteBound_of_ne_clean (hs : obj.state ≠ .clean) :
    obj.obsoleteBound = obj.config.seqno - 1 := if_neg hs

lemma obsoleteBound_of_clean (hs : obj.state = .clean) :
    obj.obsoleteBound = obj.config.seqno := if_pos hs

lemma of_ne_clean (hs : obj.state ≠ .clean) (hcurr : obj.currHashes = ∅)
    (hpos : 0 < obj.config.seqno) (hold : UpTo env ids obj.oldHashes (obj.config.seqno - 1)) :
    StoreInv env ids ⟨obj, none⟩ where
  new h0 := by
    have h0' : obj.config.seqno = 0 := h0
    omega
  nonneg := hpos.le
  unstored _ := hcurr
  stored X hX := by cases hX
  old := by
    rw [obsoleteBound_of_ne_clean hs]
    exact hold
  disjoint := by
    rw [hcurr]
    exact disjoint_empty_left _

lemma of_clean {X : Bytes} (hs : obj.state = .clean) (hcurr : obj.currHashes = ids X)
    (hX : seqnoOf env X ≤ obj.config.seqno) (hpos : 0 < obj.config.seqno)
    (hold : UpTo env ids obj.oldHashes obj.config.seqno)
    (hdis : Disjoint (ids X) obj.oldHashes) : StoreInv env ids ⟨obj, some X⟩ where
  new h0 := by
    have h0' : obj.config.seqno = 0 := h0
    omega
  nonneg := hpos.le
  unstored h := by cases h
  stored Y hY := by
    cases hY
    exact ⟨hs, hcurr, hX⟩
  old := by
    rw [obsoleteBound_of_clean hs]
    exact hold
  disjoint := by
    rw [hcurr]
    exact hdis

lemma of_same (h : StoreInv env ids t) (hs : obj.state = t.obj.state)
    (hseq : obj.config.seqno = t.obj.config.seqno) (hcurr : obj.currHashes = t.obj.currHashes)
    (hold : UpTo env ids obj.oldHashes t.obj.obsoleteBound)
    (hdis : Disjoint t.obj.currHashes obj.oldHashes) : StoreInv env ids ⟨obj, t.stored⟩ where
  new h0 := by
    rw [hs, hcurr]
    exact h.new (hseq ▸ h0)
  nonneg := by
    rw [hseq]
    exact h.nonneg
  unstored hn := by
    rw [hcurr]
    exact h.unstored hn
  stored X hX := by
    rw [hs, hcurr, hseq]
    exact h.stored X hX
  old := by
    unfold obsoleteBound
    rw [hs, hseq]
    exact hold
  disjoint := by
    rw [hcurr]
    exact hdis

lemma stored_eq_none (h : StoreInv env ids t) (hs : t.obj.state ≠ .clean) : t.stored = none := by
  cases hst : t.stored with
  | none => rfl
  | some X => exact absurd (h.stored X hst).1 hs

lemma seqno_pos (h : StoreInv env ids t) (hs : t.obj.state ≠ .clean) : 0 < t.obj.config.seqno := by
  rcases h.nonneg.lt_or_eq with hlt | heq
  · exact hlt
  · exact absurd (h.new heq.symm).1 hs

end StoreInv

lemma ConfigBase.setState_hashes (s : ConfigState) {cb : ConfigBase}
    (h : cb.state ≠ .clean → cb.currHashes = ∅) : (cb.setState s).currHashes = ∅ ∧
      (cb.setState s).oldHashes = cb.oldHashes ∪ cb.currHashes := by
  unfold setState
  split
  · exact ⟨rfl, rfl⟩
  rename_i hno
  have hempty : cb.currHashes = ∅ := by
    by_contra hne
    exact hno ⟨by by_contra hs; exact hne (h hs), hne⟩
  exact ⟨hempty, by rw [hempty, union_empty]⟩

/-! ## Calls other than merges -/

lemma storeInv_fresh (env : Env) (keys : SigKeys) (ids : Bytes → Finset MsgId) :
    StoreInv env ids (Tracked.fresh env keys) where
  new _ := ⟨rfl, rfl⟩
  nonneg := le_rfl
  unstored _ := rfl
  stored X hX := by cases hX
  old := upTo_empty
  disjoint := disjoint_empty_left _

/-- The object after a call that neither confirms nor adopts a message. -/
def Tracked.keep (t : Tracked) (obj : ConfigBase) : Tracked :=
  ⟨obj, if obj.state ≠ .clean then none else t.stored⟩

lemma StoreInv.keep_same (h : StoreInv env ids t) (hs : obj.state = t.obj.state)
    (hseq : obj.config.seqno = t.obj.config.seqno) (hcurr : obj.currHashes = t.obj.currHashes)
    (hold : UpTo env ids obj.oldHashes t.obj.obsoleteBound)
    (hdis : Disjoint t.obj.currHashes obj.oldHashes) : StoreInv env ids (t.keep obj) := by
  have hkeep : t.keep obj = ⟨obj, t.stored⟩ := by
    unfold Tracked.keep
    split
    · next hne => rw [h.stored_eq_none (hs ▸ hne)]
    · rfl
  rw [hkeep]
  exact h.of_same hs hseq hcurr hold hdis

lemma StoreInv.keep_ne_clean (hs : obj.state ≠ .clean) (hcurr : obj.currHashes = ∅)
    (hpos : 0 < obj.config.seqno) (hold : UpTo env ids obj.oldHashes (obj.config.seqno - 1)) :
    StoreInv env ids (t.keep obj) := by
  unfold Tracked.keep
  rw [if_pos hs]
  exact .of_ne_clean hs hcurr hpos hold

lemma StoreInv.edit (h : StoreInv env ids t) (hv : t.obj.Valid keys) {e : Edit}
    (he : t.obj.edit env e = .ok obj) : StoreInv env ids (t.keep obj) := by
  by_cases hd : t.obj.state = .dirty
  · obtain ⟨m, hm⟩ := hv.mutable_of_dirty hd
    rw [edit_of_dirty hd hm] at he
    cases he
    refine h.keep_same rfl ?_ rfl h.old h.disjoint
    rw [hm]
    rfl
  rw [edit_of_ne_dirty hd] at he
  split at he
  · cases he
    exact h.keep_same rfl rfl rfl h.old h.disjoint
  split at he
  · cases he
  cases he
  obtain ⟨hcurr, hold⟩ := setState_hashes .dirty h.unknown
  have hseq : (mutable (t.obj.config.edited env
      (e.apply t.obj.config.refreshed.data))).seqno = t.obj.config.seqno + 1 :=
    increment_seqno env t.obj.config
  have hpos := h.nonneg
  refine .keep_ne_clean ?_ hcurr ?_ ?_
  · simp
  · rw [hseq]
    omega
  · rw [hseq, hold, Int.add_sub_cancel]
    exact h.upTo_old.union h.upTo_curr

lemma StoreInv.push (h : StoreInv env ids t) : StoreInv env ids (t.keep (t.obj.push env).2) := by
  have hseq : (t.obj.push env).2.config.seqno = t.obj.config.seqno := by
    rw [push_snd_config, serialize_snd_seqno]
  by_cases hd : t.obj.state = .dirty
  · have hne : t.obj.state ≠ .clean := by simp [hd]
    have hcurr : (t.obj.push env).2.currHashes = ∅ := by
      unfold ConfigBase.push
      simp only [hd, if_true]
      refine (setState_hashes .waiting ?_).1
      exact fun _ => h.unknown hne
    refine .keep_ne_clean ?_ hcurr (hseq ▸ h.seqno_pos hne) upTo_empty
    rw [push_snd_state, if_pos hd]
    simp
  have hcurr : (t.obj.push env).2.currHashes = t.obj.currHashes := by
    unfold ConfigBase.push
    simp only [hd, if_false]
  refine h.keep_same ?_ hseq hcurr upTo_empty (disjoint_empty_right _)
  rw [push_snd_state, if_neg hd]

lemma StoreInv.oldHashes (h : StoreInv env ids t) :
    StoreInv env ids (t.keep t.obj.takeOldHashes.2) := by
  unfold takeOldHashes
  split
  · exact h.keep_same rfl rfl rfl upTo_empty (disjoint_empty_right _)
  · exact h.keep_same rfl rfl rfl h.old h.disjoint

lemma StoreInv.confirmPushed (hids : Pairwise fun b b' => Disjoint (ids b) (ids b'))
    (h : StoreInv env ids t) {content : Bytes} (hc : seqnoOf env content = t.obj.config.seqno)
    (hs : t.obj.state = .waiting) :
    StoreInv env ids ⟨{ t.obj.setState .clean with currHashes := ids content }, some content⟩ := by
  have hne : t.obj.state ≠ .clean := by simp [hs]
  obtain ⟨-, hold⟩ := setState_hashes .clean h.unknown
  rw [h.unknown hne, union_empty] at hold
  have hseq : (t.obj.setState .clean).config.seqno = t.obj.config.seqno := by rw [setState_config]
  have hbound := h.old
  rw [StoreInv.obsoleteBound_of_ne_clean hne] at hbound
  refine .of_clean (setState_state _ _) rfl ?_ ?_ ?_ ?_
  · show _ ≤ (t.obj.setState .clean).config.seqno
    omega
  · rw [hseq]
    exact h.seqno_pos hne
  · rw [hold, hseq]
    exact h.upTo_old
  · rw [hold]
    exact hbound.disjoint hids (by omega)

lemma StoreInv.restart (h : StoreInv env ids t) (hv : t.obj.Valid keys)
    (hw : ¬(keys.verifier.isSome ∧ keys.signer = none))
    (hr : restore env (t.obj.dump env).1 keys = .ok obj) : StoreInv env ids (t.keep obj) := by
  have hro : t.obj.isReadonly = false := by
    unfold isReadonly
    rw [hv.verifier_eq, hv.signer_eq]
    simpa [Option.isSome_iff_ne_none] using hw
  rw [restore_dump env hv] at hr
  cases hr
  simp only [hro, Bool.false_eq_true, if_false]
  by_cases hd : t.obj.state = .dirty
  · have hne : t.obj.state ≠ .clean := by simp [hd]
    have hpos := h.seqno_pos hne
    have hseq : ((t.obj.config.loaded env t.obj.state).setSigKeys keys).seqno =
        t.obj.config.seqno + 1 := by
      rw [hd, loaded_of_dirty, ← refreshed_seqno t.obj.config]
      exact increment_seqno env (.immutable _)
    have hbound := h.old
    rw [StoreInv.obsoleteBound_of_ne_clean hne] at hbound
    refine .keep_ne_clean hne (h.unknown hne) ?_ ?_
    · show 0 < ((t.obj.config.loaded env t.obj.state).setSigKeys keys).seqno
      omega
    refine hbound.mono ?_
    show _ ≤ ((t.obj.config.loaded env t.obj.state).setSigKeys keys).seqno - 1
    omega
  refine h.keep_same rfl ?_ rfl h.old h.disjoint
  rw [loaded_of_ne_dirty env keys _ hd]
  exact refreshed_seqno t.obj.config

/-! ## Merges -/

namespace ConfigBase

lemma mem_foldl_addObsolete {bad : List Nat} {hashes : Finset MsgId} {l : List (Row × Nat)}
    {x : MsgId} (h : x ∈ l.foldl (fun old (row, i) =>
      if superconf ≠ some i ∧ i ∉ bad ∧ row.ids ≠ ∅ ∧ hashes ≠ row.ids then old ∪ row.ids
      else old) old) :
    x ∈ old ∨ ∃ row j, (row, j) ∈ l ∧ superconf ≠ some j ∧ j ∉ bad ∧ hashes ≠ row.ids ∧
      x ∈ row.ids := by
  induction l generalizing old with
  | nil => exact .inl h
  | cons p l ih =>
    obtain ⟨row, i⟩ := p
    rcases ih h with hx | ⟨row', j, hmem, hrest⟩
    · simp only at hx
      split at hx
      · next hc =>
        rcases mem_union.mp hx with hx | hx
        · exact .inl hx
        · exact .inr ⟨row, i, mem_cons_self, hc.1, hc.2.1, hc.2.2.2, hx⟩
      · exact .inl hx
    · exact .inr ⟨row', j, mem_cons_of_mem _ hmem, hrest⟩

lemma mem_addObsolete {bad : List Nat} {rows : List Row} {x : MsgId}
    (h : x ∈ addObsolete superconf bad rows old) :
    x ∈ old ∨ ∃ row j, rows[j]? = some row ∧ superconf ≠ some j ∧ j ∉ bad ∧
      superconfHashes superconf rows ≠ row.ids ∧ x ∈ row.ids := by
  rcases mem_foldl_addObsolete h with hx | ⟨row, j, hmem, hrest⟩
  · exact .inl hx
  · exact .inr ⟨row, j, mem_zipIdx_iff_getElem?.mp hmem, hrest⟩

end ConfigBase

section

variable {contents : List Bytes} {m : ConfigMessage} {bad : List Nat}

/-- What the proofs about the outcomes of a merge start from. -/
structure OrderlyMerge (env : Env) (debug : Bool) (keys : SigKeys) (ids : Bytes → Finset MsgId)
    (contents : List Bytes) (t : Tracked) (m : ConfigMessage) (bad : List Nat) : Prop where
  inv : StoreInv env ids t
  valid : t.obj.Valid keys
  writable : ¬(t.obj.config.base.verifier.isSome ∧ t.obj.config.base.signer = none)
  merges : t.obj.MergesTo env debug (storedRows ids contents) m bad
  orderly : t.obj.Orderly env debug (storedRows ids contents)
  noCollision : Set.InjOn env.blake2b {b | b ∈ t.obj.confs env (storedRows ids contents)}

namespace OrderlyMerge

lemma own (h : OrderlyMerge env debug keys ids contents t m bad) (hpart : t.obj.TakesPart) :
    ∃ c, Accepts env t.obj.config.base.verifier t.obj.config.base.signer configLags
      (t.obj.config.serialize env true).1 c ∧ c.seqno = t.obj.config.seqno := by
  have hparse := parse_serialize env h.valid.wf.refreshed (h.orderly.own hpart)
    t.obj.config.base.signer false
  rw [refreshed_lag, h.valid.lag_eq, ← serialize_fst] at hparse
  exact ⟨_, hparse, refreshed_seqno t.obj.config⟩

lemma seqno_le (h : OrderlyMerge env debug keys ids contents t m bad) :
    t.obj.config.seqno ≤ maxSeqno (t.obj.accepted env debug (storedRows ids contents)) :=
  h.merges.seqno_le h.valid.wf h.valid.lag_eq h.orderly.own h.orderly.nonneg

lemma row_ids (h : row ∈ storedRows ids contents) : row.ids = ids row.conf := by
  obtain ⟨b, -, rfl⟩ := mem_map.mp h
  rfl

section

variable (h : OrderlyMerge env debug keys ids contents t m bad)

include h

lemma upTo_row {j : Nat}
    (hrow : (t.obj.rows env (storedRows ids contents))[j]? = some row) (hj : j ∉ bad) :
    UpTo env ids row.ids (maxSeqno (t.obj.accepted env debug (storedRows ids contents))) := by
  rcases row_cases hrow with hrec | ⟨-, rfl, -⟩
  · obtain ⟨c, hc⟩ := h.merges.forall₂.2 j row hrow hj
    rw [row_ids hrec]
    refine upTo_ids ?_
    rw [(parse_inv hc).seqnoOf_eq]
    exact le_maxSeqno (h.merges.mem_accepted (conf_mem_confs hrow) hc)
  · exact h.inv.upTo_curr.mono h.seqno_le

lemma upTo_old : UpTo env ids (t.obj.marked env (storedRows ids contents) m bad).oldHashes
      (maxSeqno (t.obj.accepted env debug (storedRows ids contents))) := by
  intro x hx
  rcases mem_addObsolete hx with hx | ⟨row, j, hrow, -, hj, -, hx⟩
  · exact h.inv.upTo_old.mono h.seqno_le x hx
  · exact h.upTo_row hrow hj x hx

lemma setState_hashes (s : ConfigState)
    (c : AnyMessage) :
    (setState s { t.obj.marked env (storedRows ids contents) m bad with
        config := c }).currHashes = ∅ ∧
      (setState s { t.obj.marked env (storedRows ids contents) m bad with
        config := c }).oldHashes =
        (t.obj.marked env (storedRows ids contents) m bad).oldHashes ∪ t.obj.currHashes := by
  have hunknown : (t.obj.marked env (storedRows ids contents) m bad).state ≠ .clean →
      (t.obj.marked env (storedRows ids contents) m bad).currHashes = ∅ := by
    rw [marked_state, marked_currHashes]
    exact h.inv.unknown
  obtain ⟨hcurr, hold⟩ := @ConfigBase.setState_hashes s
    { t.obj.marked env (storedRows ids contents) m bad with config := c } hunknown
  refine ⟨hcurr, hold.trans ?_⟩
  rw [marked_currHashes]

lemma resolved (hm : m.unmerged = none) (orig : Dict) : StoreInv env ids (t.keep (setState .dirty
      { t.obj.marked env (storedRows ids contents) m bad with
        config := .mutable { m with origData := orig } })) := by
  obtain ⟨best, others, -, hres, -, -⟩ := h.merges.resolved hm
  obtain ⟨hcurr, hold⟩ := h.setState_hashes .dirty (.mutable { m with origData := orig })
  have hseq : (mutable { m with origData := orig }).seqno =
      maxSeqno (t.obj.accepted env debug (storedRows ids contents)) + 1 := hres.seqno
  have hle := h.seqno_le
  have hnonneg := h.inv.nonneg
  refine .keep_ne_clean ?_ hcurr ?_ ?_
  · simp
  · rw [setState_config]
    show 0 < (mutable { m with origData := orig }).seqno
    omega
  rw [setState_config, hold]
  refine UpTo.mono (s := maxSeqno (t.obj.accepted env debug (storedRows ids contents))) ?_ ?_
  · exact h.upTo_old.union (h.inv.upTo_curr.mono hle)
  · show _ ≤ (mutable { m with origData := orig }).seqno - 1
    omega

lemma takenRow (hk : m.unmerged = some k) :
    ∃ row c, t.obj.TakenRow env debug (storedRows ids contents) m k row c :=
  h.merges.takenRow hk h.writable h.noCollision h.orderly.first

end

lemma superconfHashes_eq {rows : List Row} (h : rows[k]? = some row) :
    superconfHashes (some k) rows = row.ids := by
  unfold superconfHashes
  simp only [h]
  rfl

lemma constructed_seqno (hr : t.obj.TakenRow env debug (storedRows ids contents) m k row c) :
    (t.obj.constructed m).seqno = maxSeqno (t.obj.accepted env debug (storedRows ids contents)) +
      if t.obj.state = .dirty then 1 else 0 := by
  have hm : m.seqno = c.seqno := by rw [hr.message]; rfl
  unfold constructed
  rw [← hr.newest, ← hm]
  split
  · rw [toMutable_of_unmerged env (show m.unmerged = some k by rw [hr.message])]
    exact increment_seqno env (.immutable m)
  · simp [seqno, base]

lemma seqno_lt_of_obsolete (h : OrderlyMerge env debug keys ids contents t m bad) {j : Nat}
    {row' : Row} (hr : t.obj.TakenRow env debug (storedRows ids contents) m k row c)
    (hrow' : (t.obj.rows env (storedRows ids contents))[j]? = some row') (hj : j ∉ bad)
    (hkj : k ≠ j) (hrec : row' ∈ storedRows ids contents) (hids : row.ids ≠ row'.ids)
    (hcurr : t.obj.currHashes = ∅) :
    seqnoOf env row'.conf < maxSeqno (t.obj.accepted env debug (storedRows ids contents)) := by
  obtain ⟨c', hc'⟩ := h.merges.forall₂.2 j row' hrow' hj
  have hle := le_maxSeqno (h.merges.mem_accepted (conf_mem_confs hrow') hc')
  rw [(parse_inv hc').seqnoOf_eq]
  refine lt_of_le_of_ne hle fun heq => ?_
  obtain ⟨hconf, hle⟩ := hr.only j row' c' hrow' hc' heq
  rcases row_cases hr.row_eq with hrecv | ⟨hpart, -, hmine⟩
  · rw [row_ids hrecv, row_ids hrec, hconf] at hids
    exact hids rfl
  -- the own entry is the last one
  rw [mineIndex_of_takesPart env _ hpart, if_pos hcurr] at hmine
  have hlt := (List.getElem?_eq_some_iff.mp hrow').1
  omega

lemma upTo_old_of_newest (h : OrderlyMerge env debug keys ids contents t m bad)
    (hr : t.obj.TakenRow env debug (storedRows ids contents) m k row c)
    (htop : t.obj.config.seqno = maxSeqno (t.obj.accepted env debug (storedRows ids contents))) :
    UpTo env ids (t.obj.marked env (storedRows ids contents) m bad).oldHashes
      t.obj.obsoleteBound := by
  have hk : m.unmerged = some k := by rw [hr.message]
  by_cases hclean : t.obj.state = .clean
  · rw [StoreInv.obsoleteBound_of_clean hclean, htop]
    exact h.upTo_old
  have hcurr := h.inv.unknown hclean
  intro x hx
  rcases mem_addObsolete hx with hx | ⟨row', j, hrow', hkj, hj, hids', hx⟩
  · exact h.inv.old x hx
  rw [hk, superconfHashes_eq hr.row_eq] at hids'
  rcases row_cases hrow' with hrec | ⟨-, rfl, -⟩
  · have hlt := h.seqno_lt_of_obsolete hr hrow' hj (fun heq => hkj (by rw [hk, heq])) hrec
      hids' hcurr
    rw [row_ids hrec] at hx
    refine ⟨row'.conf, hx, ?_⟩
    rw [StoreInv.obsoleteBound_of_ne_clean hclean]
    omega
  · rw [hcurr] at hx
    simp at hx

section

variable (hids : Pairwise fun b b' => Disjoint (ids b) (ids b'))
  (h : OrderlyMerge env debug keys ids contents t m bad)

include hids h

lemma disjoint_of_newest (hr : t.obj.TakenRow env debug (storedRows ids contents) m k row c)
    (htop : t.obj.config.seqno = maxSeqno (t.obj.accepted env debug (storedRows ids contents))) :
    Disjoint t.obj.currHashes (t.obj.marked env (storedRows ids contents) m bad).oldHashes := by
  have hk : m.unmerged = some k := by rw [hr.message]
  rw [Finset.disjoint_left]
  intro x hxcurr hx
  have hne : t.obj.currHashes ≠ ∅ := ne_empty_of_mem hxcurr
  -- the own entry is first, and it is the message taken
  have hpart : t.obj.TakesPart := by
    by_contra hpart
    refine hne (h.inv.new ?_).2
    by_contra hs
    exact hpart (.inl hs)
  have hown := own_row env (storedRows ids contents) hpart
  obtain ⟨c', hc', hseq⟩ := h.own hpart
  have hmine := mineIndex_of_takesPart env (t.obj.rows env (storedRows ids contents)) hpart
  rw [if_neg hne] at hmine
  have hk0 := (hr.only _ _ c' hown hc' (hseq.trans htop)).2
  rw [hmine] at hk0 hown
  have hrow : row = ⟨t.obj.currHashes, (t.obj.config.serialize env true).1⟩ := by
    have hrow := hr.row_eq
    rw [Nat.le_zero.mp hk0, hown] at hrow
    exact (Option.some.inj hrow).symm
  rcases mem_addObsolete hx with hx | ⟨row', j, hrow', -, hj, hids', hx⟩
  · exact disjoint_left.mp h.inv.disjoint hxcurr hx
  rw [hk, superconfHashes_eq hr.row_eq, hrow] at hids'
  rcases row_cases hrow' with hrec | ⟨-, rfl, -⟩
  · cases hst : t.stored with
    | none => exact hne (h.inv.unstored hst)
    | some X =>
      obtain ⟨-, hcurr, -⟩ := h.inv.stored X hst
      rw [row_ids hrec] at hx hids'
      rw [hcurr] at hxcurr hids'
      have hX : X ≠ row'.conf := by
        intro heq
        exact hids' (by rw [heq])
      exact disjoint_left.mp (hids hX) hxcurr hx
  · exact hids' rfl

lemma unchanged (hs : (t.obj.constructed m).seqno = t.obj.config.seqno ∨
      (t.obj.state = .dirty ∧ m.unmerged.isSome ∧
        (t.obj.constructed m).seqno = t.obj.config.seqno + 1)) :
    StoreInv env ids (t.keep (t.obj.marked env (storedRows ids contents) m bad)) := by
  have hle := h.seqno_le
  cases hk : m.unmerged with
  | none =>
    obtain ⟨best, others, -, hres, -, -⟩ := h.merges.resolved hk
    have hseq := hres.seqno
    rw [constructed_seqno_of_merged _ hk, hk] at hs
    rcases hs with hs | ⟨-, hs, -⟩
    · omega
    · cases hs
  | some k =>
    obtain ⟨row, c, hr⟩ := h.takenRow hk
    have hseq := constructed_seqno hr
    have htop : t.obj.config.seqno =
        maxSeqno (t.obj.accepted env debug (storedRows ids contents)) := by
      rcases hs with hs | ⟨hd, -, hs⟩
      · split at hseq <;> omega
      · rw [if_pos hd] at hseq
        omega
    exact h.inv.keep_same marked_state marked_seqno marked_currHashes (h.upTo_old_of_newest hr htop)
      (h.disjoint_of_newest hids hr htop)

lemma superset (hk : m.unmerged = some k)
    (hs : (t.obj.constructed m).seqno ≠ t.obj.config.seqno) (hnot : ¬(t.obj.state = .dirty ∧
      k = t.obj.mineIndex (t.obj.serializeMine env).1 (t.obj.rows env (storedRows ids contents)) ∧
      (t.obj.constructed m).seqno = t.obj.config.seqno + 1)) :
    ∃ X, t.obj.takenBytes env debug (storedRows ids contents) = some X ∧ StoreInv env ids
      ⟨{ setState .clean { t.obj.marked env (storedRows ids contents) m bad with
          config := t.obj.constructed m } with
        currHashes := superconfHashes (some k) (t.obj.rows env (storedRows ids contents)) },
        some X⟩ := by
  have hle := h.seqno_le
  have hnonneg := h.inv.nonneg
  obtain ⟨row, c, hr⟩ := h.takenRow hk
  have hseq := constructed_seqno hr
  have hrec : row ∈ storedRows ids contents := by
    rcases row_cases hr.row_eq with hrec | ⟨hpart, rfl, hmine⟩
    · exact hrec
    exfalso
    obtain ⟨c', hc', hown⟩ := h.own hpart
    have hcc : c' = c := accepts_unique hc' hr.accepts
    have hnew := hr.newest
    rw [← hcc, hown] at hnew
    split at hseq
    · next hd => exact hnot ⟨hd, hmine, by omega⟩
    · omega
  obtain ⟨-, hold⟩ := h.setState_hashes .clean (t.obj.constructed m)
  have hX : seqnoOf env row.conf =
      maxSeqno (t.obj.accepted env debug (storedRows ids contents)) := by
    rw [(parse_inv hr.accepts).seqnoOf_eq]
    exact hr.newest
  refine ⟨row.conf, ?_, .of_clean (setState_state _ _) ?_ ?_ ?_ ?_ ?_⟩
  · unfold takenBytes
    have hmerge := h.merges
    unfold confs
    rw [hmerge]
    simp only [hk, Option.bind_some]
    exact hr.bytes_eq
  · exact (superconfHashes_eq hr.row_eq).trans (row_ids hrec)
  · rw [setState_config]
    show _ ≤ (t.obj.constructed m).seqno
    split at hseq <;> omega
  · rw [setState_config]
    show 0 < (t.obj.constructed m).seqno
    split at hseq <;> omega
  · rw [setState_config, hold]
    refine UpTo.mono (h.upTo_old.union (h.inv.upTo_curr.mono hle)) ?_
    show _ ≤ (t.obj.constructed m).seqno
    split at hseq <;> omega
  have hclean : t.obj.state = .clean → t.obj.config.seqno < seqnoOf env row.conf := by
    intro hclean
    rw [if_neg (by simp [hclean])] at hseq
    omega
  have holdX : Disjoint (ids row.conf) t.obj.oldHashes := by
    refine h.inv.old.disjoint hids ?_
    by_cases hc : t.obj.state = .clean
    · rw [StoreInv.obsoleteBound_of_clean hc]
      exact hclean hc
    · rw [StoreInv.obsoleteBound_of_ne_clean hc]
      omega
  have hcurrX : Disjoint (ids row.conf) t.obj.currHashes := by
    by_cases hc : t.obj.state = .clean
    · exact h.inv.upTo_curr.disjoint hids (hclean hc)
    · rw [h.inv.unknown hc]
      exact disjoint_empty_right _
  rw [hold, disjoint_union_right]
  refine ⟨disjoint_left.mpr fun x hxX hx => ?_, hcurrX⟩
  rcases mem_addObsolete hx with hx | ⟨row', j, hrow', -, -, hids', hx⟩
  · exact disjoint_left.mp holdX hxX hx
  rcases row_cases hrow' with hrec' | ⟨-, rfl, -⟩
  · rw [hk, superconfHashes_eq hr.row_eq, row_ids hrec, row_ids hrec'] at hids'
    rw [row_ids hrec'] at hx
    have hne : row.conf ≠ row'.conf := by
      intro heq
      exact hids' (by rw [heq])
    exact disjoint_left.mp (hids hne) hxX hx
  · exact disjoint_left.mp hcurrX hxX hx

end

end OrderlyMerge

lemma StoreInv.merge (hids : Pairwise fun b b' => Disjoint (ids b) (ids b'))
    (h : StoreInv env ids t) (hv : t.obj.Valid keys)
    (hw : ¬(keys.verifier.isSome ∧ keys.signer = none)) {good : Finset MsgId}
    (hok : (t.obj.mergeRows env debug (storedRows ids contents) good).2 ≠ .error .assertion)
    (hinj : Set.InjOn env.blake2b {b | b ∈ t.obj.confs env (storedRows ids contents)})
    (hord : t.obj.Orderly env debug (storedRows ids contents)) :
    StoreInv env ids (t.after env debug keys ids (.merge contents good)) := by
  -- what is considered stored, for the outcomes that adopt nothing and those that do
  have hkeep : ∀ obj, (t.obj.mergeRows env debug (storedRows ids contents) good).1 = obj →
      obj.config.seqno = t.obj.config.seqno ∨ obj.state ≠ .clean →
      t.after env debug keys ids (.merge contents good) = t.keep obj := by
    intro obj hobj hsame
    rw [Tracked.after_merge, hobj]
    unfold Tracked.keep
    split
    · rfl
    · next hclean => rw [if_pos (hsame.resolve_right hclean)]
  have hadopt : ∀ obj X, (t.obj.mergeRows env debug (storedRows ids contents) good).1 = obj →
      obj.config.seqno ≠ t.obj.config.seqno → obj.state = .clean →
      t.obj.takenBytes env debug (storedRows ids contents) = some X →
      t.after env debug keys ids (.merge contents good) = ⟨obj, some X⟩ := by
    intro obj X hobj hseq hs hX
    rw [Tracked.after_merge, hobj, if_neg (not_not.mpr hs), if_neg hseq, hX]
  rcases mergeRows_cases env debug (storedRows ids contents) good t.obj with
    hfail | ⟨m, bad, hm⟩
  · rw [hkeep _ hfail (.inl (refresh_seqno env t.obj))]
    refine h.keep_same (refresh_state env _) (refresh_seqno env _) (refresh_currHashes env _) ?_ ?_
    · rw [refresh_oldHashes]
      exact h.old
    · rw [refresh_oldHashes]
      exact h.disjoint
  have hom : OrderlyMerge env debug keys ids contents t m bad :=
    ⟨h, hv, by rw [hv.verifier_eq, hv.signer_eq]; exact hw, hm, hord, hinj⟩
  have hout := mergeRows_outcome good hm hok
  generalize hobj : (t.obj.mergeRows env debug (storedRows ids contents) good).1 = obj at hout
  cases hout with
  | same hs =>
    rw [hkeep _ hobj (.inl marked_seqno)]
    exact hom.unchanged hids (.inl hs)
  | kept hd hk hs =>
    rw [hkeep _ hobj (.inl marked_seqno)]
    exact hom.unchanged hids (.inr ⟨hd, by rw [hk]; rfl, hs⟩)
  | resolved hs hk =>
    rw [hkeep _ hobj (.inr (by simp))]
    exact hom.resolved hk _
  | superset k hs hk hnot =>
    obtain ⟨X, hX, hinv⟩ := hom.superset hids hk hs hnot
    rw [hadopt _ X hobj ?_ (setState_state _ _) hX]
    · exact hinv
    · rw [setState_config]
      exact hs

end

/-! ## Whole runs -/

lemma StoreInv.after (hids : Pairwise fun b b' => Disjoint (ids b) (ids b'))
    (hw : ¬(keys.verifier.isSome ∧ keys.signer = none)) (h : StoreInv env ids t)
    (hv : t.obj.Valid keys) {ev : StoreEvent} (hp : t.Permitted env debug keys ids ev)
    (hord : ∀ contents good, ev = .merge contents good →
      t.obj.Orderly env debug (storedRows ids contents)) :
    StoreInv env ids (t.after env debug keys ids ev) := by
  cases ev with
  | edit e =>
    show StoreInv env ids (t.keep (t.obj.after env debug keys (.edit e)))
    unfold ConfigBase.after
    cases he : t.obj.edit env e with
    | error err =>
      simp only [he]
      exact h.keep_same rfl rfl rfl h.old h.disjoint
    | ok obj =>
      simp only [he]
      exact h.edit hv he
  | push => exact h.push
  | confirmPushed seqno content =>
    by_cases hc : t.obj.state = .waiting ∧ seqno = t.obj.config.seqno
    · have hobj : t.obj.confirmPushed seqno (ids content) =
          { t.obj.setState .clean with currHashes := ids content } := if_pos hc
      rw [Tracked.after_confirmPushed, hobj,
        if_neg (not_not.mpr (setState_state .clean t.obj)), if_pos hc]
      exact h.confirmPushed hids ((hp.confirmed seqno content rfl).trans hc.2) hc.1
    have hobj : t.obj.confirmPushed seqno (ids content) = t.obj := if_neg hc
    rw [Tracked.after_confirmPushed, hobj, if_neg hc]
    exact h.keep_same rfl rfl rfl h.old h.disjoint
  | merge contents good =>
    exact h.merge hids hv hw (hp.call.noAssert _ good rfl) (hp.noCollision contents good rfl)
      (hord contents good rfl)
  | oldHashes => exact h.oldHashes
  | restart =>
    show StoreInv env ids (t.keep (t.obj.after env debug keys .restart))
    unfold ConfigBase.after
    have hr := restore_dump env hv
    simp only [hr]
    exact h.restart hv hw hr

lemma StoreInv.liveKept (hids : Pairwise fun b b' => Disjoint (ids b) (ids b'))
    (h : StoreInv env ids t) (hv : t.obj.Valid keys) : t.LiveKept env ids := by
  have hobs : (t.obj.push env).1.obsolete ⊆ t.obj.oldHashes := by
    unfold ConfigBase.push
    simp only
    split
    · next hd =>
      have hne : t.obj.state ≠ .clean := by simp [show t.obj.state = .dirty from hd]
      split
      · exact empty_subset _
      have hold := @ConfigBase.setState_hashes .waiting
        { t.obj with config := (t.obj.config.serialize env true).2 } fun _ => h.unknown hne
      rw [hold.2, h.unknown hne, union_empty]
    split
    · exact empty_subset _
    · exact Finset.Subset.refl _
  have htake : t.obj.takeOldHashes.1 ⊆ t.obj.oldHashes := by
    unfold takeOldHashes
    split
    · exact Finset.Subset.refl _
    · exact empty_subset _
  have hdis : ∀ X, t.stored = some X → Disjoint t.obj.oldHashes (ids X) := by
    intro X hX
    rw [← (h.stored X hX).2.1]
    exact h.disjoint.symm
  exact
    { disjoint := h.disjoint
      unknown := h.unknown
      known := fun X hX => (h.stored X hX).2.1
      push := fun X hX => (hdis X hX).mono_left hobs
      oldHashes := fun X hX => (hdis X hX).mono_left htake
      pushed := fun hs => by
        have hold := h.old
        rw [StoreInv.obsoleteBound_of_ne_clean hs] at hold
        have hparse := parse_serialize env hv.wf.refreshed
          (signatureAccepted_none env _ true) none false
        rw [← push_msg] at hparse
        have hseq := (parse_inv hparse).seqnoOf_eq
        have hseq' : seqnoOf env (t.obj.push env).1.msg = t.obj.config.seqno :=
          hseq.trans (refreshed_seqno t.obj.config)
        exact ((hold.disjoint hids (by omega)).symm).mono_left hobs }

/-- **The message considered stored is never reported obsolete**, in every run of a writable
object whose merges are orderly. -/
theorem live_never_obsolete (hids : Pairwise fun b b' => Disjoint (ids b) (ids b'))
    (hw : ¬(keys.verifier.isSome ∧ keys.signer = none))
    (h : Reachable (· = Tracked.fresh env keys) (Tracked.OrderlyNext env debug keys ids) t) :
    t.LiveKept env ids := by
  have hinv : t.obj.Valid keys ∧ StoreInv env ids t := by
    refine Reachable.invariant (fun t => t.obj.Valid keys ∧ StoreInv env ids t) ?_ ?_ h
    · rintro s rfl
      exact ⟨valid_fresh env keys, storeInv_fresh env keys ids⟩
    · rintro s s' ⟨hv, hs⟩ ⟨ev, hp, hord, rfl⟩
      exact ⟨hv.after hp.call, hs.after hids hw hv hp hord⟩
  exact hinv.2.liveKept hids hinv.1

/-! ## An entry that is rejected -/

def sampleIds (b : Bytes) : Finset MsgId := {b}

lemma sampleIds_disjoint : Pairwise fun b b' => Disjoint (sampleIds b) (sampleIds b') :=
  fun _ _ h => disjoint_singleton.mpr h

def unparseable : Bytes := bytes "de"

def confirmedRun : Tracked :=
  (((Tracked.fresh historyEnv .none).after historyEnv true .none sampleIds
    (.edit (assignIfChanged (bytes "a") (.int 1)))).after historyEnv true .none sampleIds
    .push).after historyEnv true .none sampleIds (.confirmPushed 1 edit1)

def mergedRun (contents : List Bytes) : Tracked :=
  confirmedRun.after historyEnv true .none sampleIds (.merge contents ∅)

lemma confirmedRun_steps {next : Tracked → Tracked → Prop}
    (hnext : ∀ t ev, (∀ contents good, ev ≠ .merge contents good) →
      t.Permitted historyEnv true .none sampleIds ev →
      next t (t.after historyEnv true .none sampleIds ev)) :
    Reachable (· = Tracked.fresh historyEnv .none) next confirmedRun := by
  refine .step (.step (.step (.init rfl) (hnext _ _ (by simp) ⟨⟨?_, ?_⟩, ?_, ?_⟩))
    (hnext _ _ (by simp) ⟨⟨?_, ?_⟩, ?_, ?_⟩)) (hnext _ _ (by simp) ⟨⟨?_, ?_⟩, ?_, ?_⟩)
  · decide +kernel
  · simp [StoreEvent.call]
  · simp
  · simp
  · decide +kernel
  · simp [StoreEvent.call]
  · simp
  · simp
  · decide +kernel
  · simp [StoreEvent.call]
  · intro seqno content hev
    cases hev
    decide +kernel
  · simp

lemma confirmedRun_confs (contents : List Bytes) :
    confirmedRun.obj.confs historyEnv (storedRows sampleIds contents) = edit1 :: contents := by
  have hpart : confirmedRun.obj.TakesPart := .inl (by decide +kernel)
  have hown : (confirmedRun.obj.config.serialize historyEnv true).1 = edit1 := by decide +kernel
  unfold confs
  rw [rows_of_known historyEnv _ hpart (by decide +kernel), List.map_cons, hown]
  simp [storedRows, Function.comp_def]

lemma mergedRun_permitted {contents : List Bytes}
    (hseq : InInt64 (mergedRun contents).obj.config.seqno)
    (hok : (confirmedRun.obj.mergeRows historyEnv true (storedRows sampleIds contents) ∅).2 ≠
      .error .assertion) (hinj : ∀ b ∈ edit1 :: contents, ∀ b' ∈ edit1 :: contents,
      historyEnv.blake2b b = historyEnv.blake2b b' → b = b') :
    confirmedRun.Permitted historyEnv true .none sampleIds (.merge contents ∅) := by
  refine ⟨⟨hseq, ?_⟩, by simp, ?_⟩
  · intro received good hev
    cases hev
    exact hok
  intro contents' good hev
  cases hev
  rw [confirmedRun_confs]
  exact fun b hb b' hb' heq => hinj b hb b' hb' heq

/-- The next edit of another device is adopted, and the object then considers it stored. -/
theorem live_never_obsolete_adopted :
    (mergedRun [edit2]).stored = some edit2 ∧ (mergedRun [edit2]).obj.oldHashes = {edit1} ∧
      (mergedRun [edit2]).LiveKept historyEnv sampleIds := by
  have hperm : confirmedRun.Permitted historyEnv true .none sampleIds (.merge [edit2] ∅) :=
    mergedRun_permitted (by decide +kernel) (by decide +kernel) (by decide +kernel)
  have hord : confirmedRun.obj.Orderly historyEnv true (storedRows sampleIds [edit2]) := by
    refine ⟨fun _ => ?_, fun hno => ?_, takenFirst_of_accepts ?_⟩
    · exact signatureAccepted_none historyEnv _ true
    · exact absurd (.inl (by decide +kernel)) hno
    rw [confirmedRun_confs]
    have hparse : ∀ b ∈ [edit1, edit2], (ConfigMessage.parse historyEnv b
        confirmedRun.obj.config.base.verifier confirmedRun.obj.config.base.signer configLags
        false).toOption.isSome := by decide +kernel
    exact fun b hb => exists_accepts_of_isSome (hparse b hb)
  refine ⟨by decide +kernel, by decide +kernel, ?_⟩
  refine live_never_obsolete sampleIds_disjoint (by simp [SigKeys.verifier])
    (.step (confirmedRun_steps fun t ev hev hp => ⟨ev, hp, ?_, rfl⟩) ⟨_, hperm, ?_, rfl⟩)
  · exact fun contents good heq => absurd heq (hev contents good)
  intro contents good hev
  cases hev
  exact hord

lemma not_liveKept_of_obsolete {t : Tracked} {X Y : Bytes} (hX : t.stored = some X)
    (hobs : (t.obj.push historyEnv).1.obsolete = {Y, X}) : ¬t.LiveKept historyEnv sampleIds := by
  intro h
  have hdis := h.push X hX
  rw [hobs] at hdis
  exact disjoint_left.mp hdis (mem_insert_of_mem (Finset.mem_singleton_self X))
    (Finset.mem_singleton_self X)

/-- If a message the parser rejects arrives before it, its own id is reported obsolete. -/
theorem rejected_entry_shifts_index : (Pairwise fun b b' => Disjoint (sampleIds b) (sampleIds b')) ∧
      Reachable (· = Tracked.fresh historyEnv .none) (Tracked.Next historyEnv true .none sampleIds)
        (mergedRun [unparseable, edit2]) ∧ (mergedRun [unparseable, edit2]).stored = some edit2 ∧
      (mergedRun [unparseable, edit2]).obj.currHashes = {unparseable} ∧
      ((mergedRun [unparseable, edit2]).obj.push historyEnv).1.obsolete = {edit1, edit2} ∧
      ¬(mergedRun [unparseable, edit2]).LiveKept historyEnv sampleIds := by
  have hperm : confirmedRun.Permitted historyEnv true .none sampleIds
      (.merge [unparseable, edit2] ∅) :=
    mergedRun_permitted (by decide +kernel) (by decide +kernel) (by decide +kernel)
  have hstored : (mergedRun [unparseable, edit2]).stored = some edit2 := by decide +kernel
  have hobs : ((mergedRun [unparseable, edit2]).obj.push historyEnv).1.obsolete =
      {edit1, edit2} := by decide +kernel
  refine ⟨sampleIds_disjoint, ?_, hstored, by decide +kernel, hobs,
    not_liveKept_of_obsolete hstored hobs⟩
  exact .step (confirmedRun_steps fun t ev _ hp => ⟨ev, hp, rfl⟩) ⟨_, hperm, rfl⟩

end Bchat.Config
