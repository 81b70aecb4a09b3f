import Bchat.Properties.Run

/-!
# Restarts

A restored object should behave like the one that was dumped. The dump is written without signing,
and the restored object takes the hash of what it contains. So a message that was signed when it was
pushed gets another hash, and those derived from it name an ancestor that nobody has published.
-/

namespace Bchat.Config

open Bencode ConfigMessage AnyMessage

/-! ## Mutable messages that cannot be told apart -/

structure SameDraft (m m' : MutableConfigMessage) : Prop where
  data : m.data = m'.data
  origData : m.origData = m'.origData
  laggedDiffs : m.laggedDiffs = m'.laggedDiffs
  unknown : m.unknown = m'.unknown
  seqno : m.seqno = m'.seqno
  signer : m.signer = m'.signer
  lag : m.lag = m'.lag

namespace SameDraft

variable {m m' : MutableConfigMessage}

lemma withData (h : SameDraft m m') (d : Dict) :
    SameDraft { m with data := d } { m' with data := d } :=
  { h with data := rfl }

lemma serialize (h : SameDraft m m') (env : Env) (es : Bool) :
    (m.serialize env es).1 = (m'.serialize env es).1 := by
  have hpairs : ∀ d, m.refreshDiff.pairs d = m'.refreshDiff.pairs d := by
    intro d
    unfold ConfigMessage.pairs MutableConfigMessage.refreshDiff
    simp only [ConfigMessage.seqno]
    have hs : m.seqnoHash.seqno = m'.seqnoHash.seqno := h.seqno
    rw [h.data, h.unknown, h.laggedDiffs, h.lag, hs]
  have hdiff : m.refreshDiff.diff = m'.refreshDiff.diff := by
    unfold MutableConfigMessage.refreshDiff
    rw [h.data, h.origData]
  have htrailer : ∀ d, m.refreshDiff.trailer env d es = m'.refreshDiff.trailer env d es := by
    intro d
    unfold ConfigMessage.trailer
    have hsigner : m.refreshDiff.signer = m'.refreshDiff.signer := h.signer
    rw [hpairs, hsigner]
    rfl
  unfold MutableConfigMessage.serialize ConfigMessage.serializeImpl
  simp only [hdiff, hpairs, htrailer]

end SameDraft

/-! ## Pushing after edits -/

namespace ConfigBase

def pushAfter (env : Env) (es : List Edit) (cb : ConfigBase) : Except Err (Int × Bytes) :=
  (cb.editAll env es).map fun cb' => ((cb'.push env).1.seqno, (cb'.push env).1.msg)

def Transparent (env : Env) (keys : SigKeys) (cb : ConfigBase) : Prop :=
  ∃ cb', restore env (cb.dump env).1 keys = .ok cb' ∧
    ∀ es, cb'.pushAfter env es = (cb.dump env).2.pushAfter env es

variable {env : Env} {cb cb' : ConfigBase}

lemma pushAfter_of_sameDraft {m m' : MutableConfigMessage} (hc : cb.config = .mutable m)
    (hc' : cb'.config = .mutable m') (hd : cb.state = .dirty) (hd' : cb'.state = .dirty)
    (h : SameDraft m m') (es : List Edit) : cb.pushAfter env es = cb'.pushAfter env es := by
  obtain ⟨cb1, h1, hc1⟩ := editAll_of_dirty env es hc hd
  obtain ⟨cb2, h2, hc2⟩ := editAll_of_dirty env es hc' hd'
  have hdraft := h.withData (es.foldl (fun d e => e.apply d) m.data)
  rw [← h.data] at hc2
  unfold pushAfter push
  rw [h1, h2]
  simp only [Except.map, hc1, hc2, AnyMessage.serialize]
  rw [hdraft.serialize env true]
  exact congrArg (fun s => Except.ok (s, _)) h.seqno

lemma pushAfter_congr (hd : cb.state ≠ .dirty) (hd' : cb'.state ≠ .dirty)
    (hro : cb.isReadonly = cb'.isReadonly) (hdata : cb.config.base.data = cb'.config.base.data)
    (hpush : cb.pushAfter env [] = cb'.pushAfter env [])
    (hfirst : cb.isReadonly = false → ∀ d, SameDraft (cb.config.edited env d)
      (cb'.config.edited env d)) (es : List Edit) : cb.pushAfter env es = cb'.pushAfter env es := by
  induction es with
  | nil => exact hpush
  | cons e es ih =>
    unfold pushAfter at ih ⊢
    rw [editAll, editAll, edit_of_ne_dirty hd, edit_of_ne_dirty hd', ← hdata, ← hro]
    split
    · -- the edit changes nothing in either object
      exact ih
    split
    · rfl
    rename_i hw
    have hdraft := hfirst (by simpa using hw)
    have horig : cb.config.refreshed.data = cb'.config.refreshed.data := by
      have h := (hdraft []).origData
      unfold edited at h
      simpa using h
    rw [← horig]
    exact @pushAfter_of_sameDraft env { cb.setState .dirty with config := .mutable _ }
      { cb'.setState .dirty with config := .mutable _ } _ _ rfl rfl (setState_state _ _)
      (setState_state _ _) (hdraft _) es

end ConfigBase

/-! ## The hash of the current message -/

namespace AnyMessage

/-- The hash that the next message will record for this one is the same after a restart: for a
message that was parsed it is the hash of what `serialize()` writes without signing, and a message
made here is not signed at all. -/
def KeepsHash (env : Env) : AnyMessage → Prop
  | .immutable m => m.seqnoHash.hash = env.blake2b (m.serialize env false)
  | .mutable m => m.signer = none

variable {env : Env} {c p : AnyMessage}

lemma keepsHash_iff
    (hcoll : env.blake2b (c.serialize env true).1 = env.blake2b (c.serialize env false).1 →
      (c.serialize env true).1 = (c.serialize env false).1) :
    c.KeepsHash env ↔ c.ownHash env = env.blake2b (c.serialize env false).1 := by
  cases c with
  | immutable m => exact Iff.rfl
  | mutable m =>
    show m.signer = none ↔ env.blake2b (m.serialize env true).1 =
        env.blake2b (m.serialize env false).1
    have hsame : (m.serialize env true).1 = (m.serialize env false).1 ↔ m.signer = none := by
      unfold MutableConfigMessage.serialize serializeImpl trailer MutableConfigMessage.refreshDiff
      cases m.signer with
      | none => simp
      | some f =>
        simp only [if_true, Bool.false_eq_true, if_false, reduceCtorEq, iff_false]
        intro h
        have := congrArg List.length (env.encode_injective h)
        simp at this
    rw [← hsame]
    exact ⟨congrArg env.blake2b, hcoll⟩

lemma ownHash_eq_of_published (hc : c.WellFormed) (hp : p.WellFormed) (hs : p.seqno = c.seqno)
    (hlagc : c.base.lag = configLags) (hlagp : p.base.lag = configLags)
    (hseq : InInt64 (c.seqno + 1)) {d d' : Dict} (hd : Dict.WF d) (hd' : Dict.WF d')
    (h : (c.published env d).serialize env true = (p.published env d').serialize env true) :
    c.ownHash env = p.ownHash env := by
  have hparse := fun (o : AnyMessage) (ho : o.WellFormed) (hseq : InInt64 (o.seqno + 1))
    (d : Dict) (hd : Dict.WF d) => parse_serialize env (ho.published env hseq hd)
      (signatureAccepted_none env _ true) none false
  have h1 := hparse c hc hseq d hd
  have h2 := hparse p hp (hs ▸ hseq) d' hd'
  rw [published_lag, hlagc] at h1
  rw [published_lag, hlagp, ← h, h1] at h2
  have hl := congrArg laggedDiffs (Except.ok.inj h2)
  have hlast : ∀ o : AnyMessage, o.WellFormed → o.base.lag = configLags → ∀ d : Dict,
      ((o.published env d).reparsed env true none none false).laggedDiffs.getLast? =
        some (⟨o.seqno, o.ownHash env⟩, o.refreshed.diff) := by
    intro o ho hlag d
    show ((o.published env d).laggedDiffs.filter (inWindow _ _)).getLast? = _
    rw [published_laggedDiffs, increment_laggedDiffs env ho, List.filter_append,
      List.filter_cons_of_pos]
    · simp
    rw [published_seqno, published_lag, hlag]
    refine inWindow_iff.mpr ⟨?_, ?_⟩
    · show o.seqno + 1 - 5 < o.seqno
      omega
    · show o.seqno < o.seqno + 1
      omega
  have heq := hlast c hc hlagc d
  rw [hl, hlast p hp hlagp d'] at heq
  exact (SeqnoHash.mk.inj (Prod.mk.inj (Option.some.inj heq)).1).2.symm

end AnyMessage

/-! ## Transparency -/

namespace ConfigBase

variable {env : Env} {debug : Bool} {keys : SigKeys} {cb : ConfigBase}

lemma dump_snd_config (env : Env) (cb : ConfigBase) :
    (cb.dump env).2.config = (cb.config.serialize env false).2 := by
  unfold dump
  split <;> rfl

lemma dump_snd_state (env : Env) (cb : ConfigBase) : (cb.dump env).2.state = cb.state := by
  unfold dump
  split <;> rfl

lemma serialize_restored (env : Env) {c : AnyMessage} (hs : c.base.signer = keys.signer) :
    (c.restored env keys).serialize env true = c.refreshed.serialize env true := by
  have hsigner : c.refreshed.signer = keys.signer := by
    rw [← hs]
    cases c <;> rfl
  have hpairs : (c.restored env keys).pairs c.refreshed.diff = c.refreshed.pairs c.refreshed.diff :=
    reparsed_pairs env keys.verifier keys.signer c.refreshed false true _
  have htrailer : (c.restored env keys).trailer env c.refreshed.diff true =
      c.refreshed.trailer env c.refreshed.diff true := by
    unfold trailer
    rw [hpairs, hsigner]
    unfold restored reparsed trailer
    rw [hsigner]
    cases c.refreshed.verifiedSignature <;> cases keys.signer <;> simp
  show (c.restored env keys).serializeImpl env c.refreshed.diff true =
    c.refreshed.serializeImpl env c.refreshed.diff true
  unfold serializeImpl
  rw [htrailer, hpairs]

lemma sameDraft_restored (env : Env) (h : cb.Valid keys)
    (hhash : cb.config.ownHash env = env.blake2b (cb.config.serialize env false).1) (d : Dict) :
    SameDraft ((AnyMessage.immutable (cb.config.restored env keys)).edited env d)
      ((cb.config.serialize env false).2.edited env d) := by
  have hwf := h.wf.serialize_snd env false
  have hwf' : (immutable (cb.config.restored env keys)).WellFormed := h.wf.restored env keys
  have hrefreshed : (cb.config.serialize env false).2.refreshed = cb.config.refreshed :=
    serialize_snd_refreshed h.wf
  have hseqno := refreshed_seqno cb.config
  have hlag := refreshed_lag cb.config
  refine ⟨rfl, ?_, ?_, ?_, ?_, ?_, ?_⟩
  · show (increment env _).origData = (increment env _).origData
    rw [increment_origData, increment_origData, hrefreshed]
    rfl
  · show (increment env _).laggedDiffs = (increment env _).laggedDiffs
    rw [increment_laggedDiffs env hwf', increment_laggedDiffs env hwf,
      hrefreshed, serialize_snd_ownHash h.wf, hhash, serialize_fst,
      serialize_snd_seqno, serialize_snd_lag, ← hseqno, ← hlag]
    -- the dump has dropped what is outside the window already
    have hfilter : ∀ (l : LaggedDiffs) (f : SeqnoHash × BtDict → Bool),
        (l.filter f).filter f = l.filter f := by
      intro l f
      rw [List.filter_filter]
      simp
    exact congrArg (· ++ _) (hfilter _ _)
  · show (increment env _).unknown = (increment env _).unknown
    rw [increment_unknown, increment_unknown, ← refreshed_unknown, ← refreshed_unknown, hrefreshed]
    rfl
  · show (increment env _).seqno = (increment env _).seqno
    rw [increment_seqno, increment_seqno, serialize_snd_seqno, ← hseqno]
    rfl
  · show (increment env _).signer = (increment env _).signer
    rw [increment_signer, increment_signer, serialize_snd_signer, h.signer_eq]
    rfl
  show (increment env _).lag = (increment env _).lag
  rw [increment_lag, increment_lag, serialize_snd_lag, ← hlag]
  rfl

/-- An edit that makes the object Dirty and leaves the data as it is. -/
def touch : Edit where
  needed _ := true
  apply := id
  wf_apply _ := id

lemma pushAfter_touch (hd : cb.state ≠ .dirty) (hw : cb.isReadonly = false) :
    cb.pushAfter env [touch] = .ok (cb.config.seqno + 1,
      (cb.config.published env cb.config.refreshed.data).serialize env true) := by
  unfold pushAfter
  rw [editAll, edit_of_ne_dirty hd]
  simp only [touch, hw, id, Bool.true_eq_false, Bool.false_eq_true, if_false, ok_bind, editAll,
    Except.map, push_msg]
  exact congrArg (fun s => Except.ok (s, _)) (increment_seqno env cb.config)

lemma transparent_iff (h : cb.Valid keys) (hd : cb.state ≠ .dirty)
    (hseq : InInt64 (cb.config.seqno + 1)) : cb.Transparent env keys ↔
      cb.isReadonly = true ∨ cb.config.ownHash env =
          env.blake2b (cb.config.serialize env false).1 := by
  have hrestore := restore_dump env h
  rw [loaded_of_ne_dirty env keys cb.config hd] at hrestore
  -- the restored object
  generalize hcb' : ConfigBase.mk _ _ _ _ _ = cb' at hrestore
  have hc' : cb'.config = .immutable (cb.config.restored env keys) := by rw [← hcb']
  have hd' : cb'.state ≠ .dirty := by rw [← hcb']; exact hd
  have hro' : cb'.isReadonly = cb.isReadonly := by
    unfold isReadonly
    rw [hc', h.verifier_eq, h.signer_eq]
    rfl
  have hs : (immutable (cb.config.restored env keys)).seqno = cb.config.seqno :=
    refreshed_seqno cb.config
  -- the dumped object
  have hc := dump_snd_config env cb
  have hd2 : (cb.dump env).2.state ≠ .dirty := by rw [dump_snd_state]; exact hd
  have hro : (cb.dump env).2.isReadonly = cb.isReadonly := by
    unfold isReadonly
    rw [hc, serialize_snd_verifier, serialize_snd_signer]
  constructor
  · rintro ⟨cb1, h1, hpush⟩
    rw [hrestore] at h1
    cases h1
    by_cases hw : cb.isReadonly = true
    · exact .inl hw
    right
    rw [Bool.not_eq_true] at hw
    have htouch := hpush [touch]
    rw [pushAfter_touch hd' (hro'.trans hw), pushAfter_touch hd2 (hro.trans hw), hc, hc'] at htouch
    have hbytes := (Prod.mk.inj (Except.ok.inj htouch)).2
    have hwf : (immutable (cb.config.restored env keys)).WellFormed := h.wf.restored env keys
    have hwf2 := h.wf.serialize_snd env false
    have hown := ownHash_eq_of_published hwf hwf2 ((serialize_snd_seqno env _ _).trans hs.symm)
      ((refreshed_lag _).trans h.lag_eq)
      ((serialize_snd_lag env _ _).trans h.lag_eq) (hs.symm ▸ hseq)
      hwf.refreshed.dataWF hwf2.refreshed.dataWF hbytes
    rw [serialize_snd_ownHash h.wf] at hown
    rw [← hown, serialize_fst]
    rfl
  intro hkeep
  refine ⟨cb', hrestore, pushAfter_congr hd' hd2 (hro'.trans hro.symm) ?_ ?_ ?_⟩
  · rw [hc, hc', serialize_snd_data]
    rfl
  · show .ok ((cb'.push env).1.seqno, (cb'.push env).1.msg) =
      Except.ok (((cb.dump env).2.push env).1.seqno, ((cb.dump env).2.push env).1.msg)
    have hseqno : cb'.config.seqno = (cb.dump env).2.config.seqno := by
      rw [hc, hc', hs, serialize_snd_seqno]
    rw [push_msg, push_msg, hc, serialize_snd_refreshed h.wf, hc',
      ← serialize_restored env h.signer_eq]
    exact congrArg (fun s => Except.ok (s, _)) hseqno
  intro hw
  rcases hkeep with hk | hk
  · rw [hro', hk] at hw
    cases hw
  · rw [hc, hc']
    exact sameDraft_restored env h hk

/-- **A restart of a Clean or Waiting object is transparent exactly if the object is read-only or
the hash of its message survives.** -/
theorem restart_transparent_iff
    (h : Reachable (· = fresh env keys) (Next env debug keys) cb) (hd : cb.state ≠ .dirty)
    (hseq : InInt64 (cb.config.seqno + 1)) (hcoll : env.blake2b (cb.config.serialize env true).1 =
      env.blake2b (cb.config.serialize env false).1 →
      (cb.config.serialize env true).1 = (cb.config.serialize env false).1) :
    cb.Transparent env keys ↔ cb.isReadonly = true ∨ cb.config.KeepsHash env := by
  rw [transparent_iff (valid_of_reachable h) hd hseq, keepsHash_iff hcoll]

end ConfigBase

/-! ## A signed and an unsigned object -/

def edit1Signature : Signature :=
  signatureOfNat
    (0x5797bace4b0fddd78397abedae68364cc4054e8e0c79eb0dac6825002fc18666 * 2 ^ 256 +
      0x55ad34e3813e89df822b2e5b8d7236c5cec222d665270b3f14303e7edc6a2104)

def edit1Pairs : BtDict :=
  messagePairs 1 [(bytes "a", .scalar (.int 1))] [(⟨0, initialHash⟩, [])] [(bytes "a", .str [])]

def edit1Signed : Bytes := encodeDict (edit1Pairs ++ [(bytes "~", .str edit1Signature.val)])

def edit1SignedHash : Hash :=
  hashOfNat 0x0dbd75773e7bb6c51e1d8caea57f74baa04f46d8b37f9fc62fda4c256f9db93c

def edit2Pairs (parent : Hash) : BtDict :=
  messagePairs 2 [(bytes "a", .scalar (.int 1)), (bytes "b", .scalar (.int 2))]
    [(⟨0, initialHash⟩, []), (⟨1, parent⟩, [(bytes "a", .str [])])] [(bytes "b", .str [])]

def restartEnv : Env :=
  Env.bencode (tableHash [(initial, initialHash), (edit1, edit1Hash),
    (edit1Signed, edit1SignedHash)])

def restartSignatures : List (Bytes × Signature) :=
  [(Bencode.encodeOpen edit1Pairs, edit1Signature),
    (Bencode.encodeOpen (edit2Pairs edit1SignedHash), signatureOfNat
      (0x00bda64df60fb6bfbac82d83cae7f92b0ebc9dec9f38cefaf2d437359e13a98f * 2 ^ 256 +
        0xc1462826a43fa2c15bb845eff2a20e03f5ee33b3f57daed4484b5df314770b04)),
    (Bencode.encodeOpen (edit2Pairs edit1Hash), signatureOfNat
      (0xd26c84f4927c8e6efda7e200cd6895c0de608979679b52cc3e62b5cd7c3543ee * 2 ^ 256 +
        0xe5dfac42515d503b8afa02849c6a2995f31b6c5e53d66bad2b2cb5d403e6ff0a))]

def restartKeys : SigKeys :=
  .secretkey (tableVerifier restartSignatures) (tableSigner restartSignatures)

def pushedObject (keys : SigKeys) : ConfigBase :=
  ((ConfigBase.fresh restartEnv keys).after restartEnv true keys
    (.edit (assignIfChanged (bytes "a") (.int 1)))).after restartEnv true keys .push

lemma pushedObject_reachable (keys : SigKeys)
    (h1 : InInt64 ((ConfigBase.fresh restartEnv keys).after restartEnv true keys
      (.edit (assignIfChanged (bytes "a") (.int 1)))).config.seqno)
    (h2 : InInt64 (pushedObject keys).config.seqno) :
    Reachable (· = ConfigBase.fresh restartEnv keys) (ConfigBase.Next restartEnv true keys)
      (pushedObject keys) :=
  .step (.step (.init rfl) ⟨_, ⟨h1, by simp⟩, rfl⟩) ⟨_, ⟨h2, by simp⟩, rfl⟩

/-- Without keys the restart is transparent. -/
theorem restart_transparent_unsigned : (pushedObject .none).state = .waiting ∧
      (pushedObject .none).Transparent restartEnv .none := by
  refine ⟨by decide +kernel, ?_⟩
  have hreach := pushedObject_reachable .none (by decide +kernel) (by decide +kernel)
  refine (ConfigBase.restart_transparent_iff hreach (by decide +kernel) (by decide +kernel)
    (fun _ => by decide +kernel)).mpr (.inr ?_)
  exact rfl

/-- With a signing key it is not: the messages after a restart name another ancestor. -/
theorem restart_changes_ancestor : Reachable (· = ConfigBase.fresh restartEnv restartKeys)
        (ConfigBase.Next restartEnv true restartKeys) (pushedObject restartKeys) ∧
      (pushedObject restartKeys).state = .waiting ∧
      ((pushedObject restartKeys).push restartEnv).1.msg = edit1Signed ∧
      ¬(pushedObject restartKeys).Transparent restartEnv restartKeys := by
  refine ⟨pushedObject_reachable restartKeys (by decide +kernel) (by decide +kernel),
    by decide +kernel, by decide +kernel, ?_⟩
  rintro ⟨cb, hrestore, hsame⟩
  have hdiffer : (ConfigBase.restore restartEnv ((pushedObject restartKeys).dump restartEnv).1
      restartKeys).toOption.map (fun cb => (cb.pushAfter restartEnv
        [assignIfChanged (bytes "b") (.int 2)]).toOption) ≠
      some (((pushedObject restartKeys).dump restartEnv).2.pushAfter restartEnv
        [assignIfChanged (bytes "b") (.int 2)]).toOption := by
    decide +kernel
  rw [hrestore] at hdiffer
  exact hdiffer (congrArg (some ∘ Except.toOption) (hsame _))

end Bchat.Config
