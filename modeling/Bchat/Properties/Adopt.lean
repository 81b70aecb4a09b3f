import Bchat.Properties.Stored

/-!
# Adopting an incoming message

An object that becomes Clean by adopting an incoming message should hold exactly that message:
the next message derived from it, on whatever device, then includes the current one.
-/

namespace Bchat.Config

open Bencode List AnyMessage

variable {env : Env} {debug : Bool} {cb : ConfigBase}

/-- One message follows the other in a linear history: some device that holds `X` makes an edit
and publishes the result. -/
def DerivedFrom (env : Env) (X Y : Bytes) : Prop :=
  ∃ (p : AnyMessage) (d : Dict), p.WellFormed ∧ p.ownHash env = env.blake2b X ∧
    p.seqno = seqnoOf env X ∧ p.base.lag = configLags ∧ Dict.WF d ∧ InInt64 (p.seqno + 1) ∧
    Y = (AnyMessage.mutable (p.edited env d)).wire env

lemma DerivedFrom.accepted {env : Env} {X Y : Bytes} (h : DerivedFrom env X Y)
    {verifier : Option Verifier} {signer : Option Signer} {c : ConfigMessage}
    (hc : Accepts env verifier signer configLags Y c) : c.seqno = seqnoOf env X + 1 ∧
      ∃ diff, (⟨seqnoOf env X, env.blake2b X⟩, diff) ∈ c.laggedDiffs := by
  obtain ⟨p, d, hwf, hhash, hseq, hlag, hd, hint, rfl⟩ := h
  have hpub : (mutable (p.edited env d)).Publishable env := ⟨hwf.edited env hint hd, rfl⟩
  have hlag' : (mutable (p.edited env d)).base.lag = configLags := (increment_lag env p).trans hlag
  have hcopy : (mutable (p.edited env d)).Copy env (.immutable c) := by
    refine @Copy.parsed env _ verifier signer false c ?_
    rw [hlag']
    exact hc
  have hm := hcopy.matches hpub
  have hseqno : (mutable (p.edited env d)).seqno = seqnoOf env X + 1 := by
    rw [← hseq]
    exact increment_seqno env p
  refine ⟨hm.seqno.trans hseqno, p.refreshed.diff, hm.lagged _ ?_ ?_⟩
  · have hinc : (mutable (p.edited env d)).refreshed.laggedDiffs = _ :=
      increment_laggedDiffs env hwf
    rw [hinc, hhash, hseq]
    exact mem_append_right _ (mem_singleton_self _)
  rw [hseqno, hlag']
  refine inWindow_iff.mpr ⟨?_, ?_⟩
  · show seqnoOf env X + 1 - 5 < seqnoOf env X
    omega
  · show seqnoOf env X < seqnoOf env X + 1
    omega

namespace ConfigBase

def Canonical (env : Env) (cb : ConfigBase) (X : Bytes) : Prop :=
  ∀ c, Accepts env cb.config.base.verifier cb.config.base.signer configLags X c →
    c.serialize env true = X

structure Adopts (env : Env) (debug : Bool) (received : List Row) (good : Finset MsgId)
    (cb : ConfigBase) (X : Bytes) : Prop where
  noAssert : (cb.mergeRows env debug received good).2 ≠ .error .assertion
  taken : cb.takenBytes env debug received = some X
  clean : (cb.mergeRows env debug received good).1.state = .clean
  moved : (cb.mergeRows env debug received good).1.config.seqno ≠ cb.config.seqno

/-- **The object holds exactly the message `X`**: it has its seqno and its bytes, and it adopts
every message derived from it. -/
structure Holds (env : Env) (debug : Bool) (cb : ConfigBase) (X : Bytes) : Prop where
  seqno : cb.config.seqno = seqnoOf env X
  bytes : (cb.config.serialize env true).1 = X
  next : ∀ Y c ids good, DerivedFrom env X Y →
    Accepts env cb.config.base.verifier cb.config.base.signer configLags Y c →
    (cb.mergeRows env debug [⟨ids, Y⟩] good).2.isOk ∧
      (cb.mergeRows env debug [⟨ids, Y⟩] good).1.state = .clean ∧
      ∃ k, (cb.mergeRows env debug [⟨ids, Y⟩] good).1.config =
        .immutable { c with unmerged := some k }

/-! ## A message that includes the current one -/

lemma adopt_superset_fine {mine : Option Bytes} {rows : List Row} {newConf : AnyMessage}
    {i : Nat} (h : newConf.seqno ≠ cb.config.seqno) (hm : newConf.base.unmerged = some i)
    (hd : cb.state ≠ .dirty)
    (hmine : (cb.config.seqno = 0 ∧ mine = none) ∨ i ≠ cb.mineIndex mine rows)
    (hi : i < rows.length) : (cb.adopt debug mine rows newConf).2 = .ok () := by
  unfold adopt
  rw [if_pos h, if_neg (by simp [ConfigMessage.merged, hm]), if_neg (fun hk => hd hk.1), if_neg]
  rintro ⟨-, hno⟩
  refine hno ⟨?_, by simpa [hm] using hi⟩
  rcases hmine with ⟨h0, hnone⟩ | hne
  · exact .inl ⟨h0, by simp [hnone]⟩
  right
  rw [hm, Option.some.injEq]
  exact hne

lemma mergeRows_newer {received : List Row} {c : ConfigMessage} {k : Nat} {bad : List Nat}
    (good : Finset MsgId) (hd : cb.state ≠ .dirty)
    (hm : cb.MergesTo env debug received { c with unmerged := some k } bad)
    (hseq : c.seqno ≠ cb.config.seqno) (hk : k < (cb.rows env received).length)
    (hmine : cb.TakesPart → k ≠ cb.mineIndex (cb.serializeMine env).1 (cb.rows env received)) :
    (cb.mergeRows env debug received good).2.isOk ∧
      (cb.mergeRows env debug received good).1.state = .clean ∧
      (cb.mergeRows env debug received good).1.config =
        .immutable { c with unmerged := some k } := by
  have hcons : cb.constructed { c with unmerged := some k } =
      .immutable { c with unmerged := some k } := if_neg hd
  obtain ⟨ids, hrun⟩ := mergeRows_of_mergesTo hm good
  have hfine : ((cb.marked env received { c with unmerged := some k } bad).adopt debug
      (cb.serializeMine env).1 (cb.rows env received)
      (cb.constructed { c with unmerged := some k })).2 = .ok () := by
    rw [hcons]
    refine adopt_superset_fine (by rw [marked_seqno]; exact hseq) rfl
      (by rw [marked_state]; exact hd) ?_ hk
    rw [marked_mineIndex, marked_seqno]
    by_cases hpart : cb.TakesPart
    · exact .inr (hmine hpart)
    refine .inl ⟨?_, serializeMine_of_not_takesPart env hpart⟩
    by_contra h0
    exact hpart (.inl h0)
  have hok : (cb.mergeRows env debug received good).2 = .ok ids := by
    rw [hrun]
    simp only
    rw [hfine]
    rfl
  refine ⟨by rw [hok]; rfl, ?_⟩
  have ho := mergeRows_outcome good hm (by rw [hok]; simp)
  generalize (cb.mergeRows env debug received good).1 = cb' at ho
  cases ho with
  | same hs =>
    rw [hcons] at hs
    exact absurd hs hseq
  | resolved _ hnone => cases hnone
  | kept hdirty => exact absurd hdirty hd
  | superset j hne hj _ =>
    refine ⟨setState_state _ _, ?_⟩
    rw [setState_config, ← hcons]

lemma mergeRows_next {Y : Bytes} {c : ConfigMessage} (ids good : Finset MsgId)
    (hd : cb.state ≠ .dirty) {cX : ConfigMessage}
    (hX : Accepts env cb.config.base.verifier cb.config.base.signer configLags
      (cb.config.serialize env true).1 cX) (hX' : cX.seqno = cb.config.seqno)
    (hY : Accepts env cb.config.base.verifier cb.config.base.signer configLags Y c)
    (hseq : cb.config.seqno < c.seqno) (hincl : ∃ diff, (cX.seqnoHash, diff) ∈ c.laggedDiffs) :
    (cb.mergeRows env debug [⟨ids, Y⟩] good).2.isOk ∧
      (cb.mergeRows env debug [⟨ids, Y⟩] good).1.state = .clean ∧
      ∃ k, (cb.mergeRows env debug [⟨ids, Y⟩] good).1.config =
        .immutable { c with unmerged := some k } := by
  -- every entry is the own message or the new one
  have hentry : ∀ b ∈ cb.confs env [⟨ids, Y⟩],
      b = Y ∨ (cb.TakesPart ∧ b = (cb.config.serialize env true).1) := by
    intro b hb
    obtain ⟨row, hrow, rfl⟩ := List.mem_map.mp hb
    obtain ⟨j, hj⟩ := List.mem_iff_getElem?.mp hrow
    rcases row_cases hj with hrec | ⟨hpart, rfl, -⟩
    · exact .inl (by rw [List.mem_singleton.mp hrec])
    · exact .inr ⟨hpart, rfl⟩
  have hYmem : Y ∈ cb.confs env [⟨ids, Y⟩] := by
    unfold confs
    by_cases hpart : cb.TakesPart
    · by_cases hcurr : cb.currHashes = ∅
      · simp [rows_of_unknown env _ hpart hcurr]
      · simp [rows_of_known env _ hpart hcurr]
    · simp [rows_of_not_takesPart env _ hpart]
  obtain ⟨ms, hms⟩ := exists_accepts fun b hb => by
    rcases hentry b hb with rfl | ⟨-, rfl⟩
    · exact ⟨c, hY⟩
    · exact ⟨cX, hX⟩
  have hof : ∀ m ∈ ms, m = c ∨ m = cX := by
    intro m hm
    obtain ⟨b, hb, hacc⟩ := exists_bytes hms hm
    rcases hentry b hb with rfl | ⟨-, rfl⟩
    · exact .inl (accepts_unique hacc hY)
    · exact .inr (accepts_unique hacc hX)
  have hcms : c ∈ ms := mem_messages hms hYmem hY
  have hcoh : Coherent ms := by
    refine coherent_of_distinct hms fun a ha b hb heq => ?_
    have hs : a.seqno = b.seqno := congrArg SeqnoHash.seqno heq
    rcases hof a ha with rfl | rfl <;> rcases hof b hb with rfl | rfl <;> first | rfl | omega
  have honly : ∀ n, Live configLags ms n → n = c := by
    intro n hn
    rcases hof n hn.mem with rfl | rfl
    · rfl
    · obtain ⟨diff, hdiff⟩ := hincl
      exact absurd ⟨c, hcms, SortedMap.find?_isSome_iff.mpr ⟨_, hdiff, rfl⟩⟩ hn.notIncluded
  obtain ⟨n, hn⟩ : ∃ n, Live configLags ms n :=
    hcoh.exists_live (by decide) (List.ne_nil_of_mem hcms)
  have hsurv := survivors_eq_singleton hcoh (honly n hn ▸ hn) honly
  obtain ⟨k, hk, hmerge⟩ := mergeAccepted_single env cb.config.base.verifier
    cb.config.base.signer hsurv
  have hm : cb.MergesTo env debug [⟨ids, Y⟩] { c with unmerged := some k } [] := by
    have hrun : mergeConfigs env (cb.confs env [⟨ids, Y⟩]) _ _ _ (mergeHandler debug) = _ :=
      mergeConfigs_of_accepts hms (List.ne_nil_of_mem hYmem)
    rw [hmerge] at hrun
    exact hrun
  obtain ⟨b, hb, hacc⟩ := exists_bytes_at hms (mem_survivorIdx.mp hk).2.1
  have hklt : k < (cb.rows env [⟨ids, Y⟩]).length := by
    have := (List.getElem?_eq_some_iff.mp hb).1
    rwa [confs, List.length_map] at this
  refine (fun h => ⟨h.1, h.2.1, k, h.2.2⟩)
    (mergeRows_newer good hd hm (by omega) hklt fun hpart heq => ?_)
  have hown := own_row env [⟨ids, Y⟩] hpart
  rw [← heq] at hown
  unfold confs at hb
  rw [List.getElem?_map, hown] at hb
  cases hb
  rw [accepts_unique hacc hX] at hseq
  omega

/-! ## What the object holds -/

section

variable {received : List Row} {good : Finset MsgId} {X : Bytes}

lemma takenBytes_inv (h : cb.takenBytes env debug received = some X) :
    ∃ c k bad, cb.MergesTo env debug received { c with unmerged := some k } bad ∧
      Accepts env cb.config.base.verifier cb.config.base.signer configLags X c := by
  unfold takenBytes at h
  split at h
  · next m bad hm =>
    have hmerge : cb.MergesTo env debug received m bad := hm
    obtain ⟨k, hk, hX⟩ := Option.bind_eq_some_iff.mp h
    obtain ⟨c, -, hidx, -, -, rfl⟩ := hmerge.taken hk
    obtain ⟨b, hb, hacc⟩ := exists_bytes_at hmerge.forall₂.1 (mem_survivorIdx.mp hidx).2.1
    rw [hX] at hb
    cases hb
    exact ⟨c, k, bad, hmerge, hacc⟩
  · cases h

lemma Adopts.config (h : cb.Adopts env debug received good X) :
    ∃ c k, Accepts env cb.config.base.verifier cb.config.base.signer configLags X c ∧
      (cb.mergeRows env debug received good).1.config =
        cb.constructed { c with unmerged := some k } := by
  obtain ⟨c, k, bad, hm, hacc⟩ := takenBytes_inv h.taken
  have ho := mergeRows_outcome good hm h.noAssert
  have hclean := h.clean
  have hmoved := h.moved
  generalize (cb.mergeRows env debug received good).1 = cb' at ho hclean hmoved
  cases ho with
  | same | kept => exact absurd (marked_seqno) hmoved
  | resolved _ hnone => cases hnone
  | superset j _ _ _ => exact ⟨c, k, hacc, setState_config _ _⟩

end

end ConfigBase

/-! ## A Dirty object -/

/-- A new object has made an edit that is not pushed yet. -/
def draftObject : ConfigBase :=
  (ConfigBase.fresh historyEnv .none).after historyEnv true .none
    (.edit (assignIfChanged (bytes "a") (.int 1)))

lemma draftObject_reachable : Reachable (· = ConfigBase.fresh historyEnv .none)
    (ConfigBase.Next historyEnv true .none) draftObject := by
  refine .step (.init rfl) ⟨_, ⟨by decide +kernel, ?_⟩, rfl⟩
  simp

def adoptsEdit2 (cb : ConfigBase) (seqno : Int) : Prop :=
  (cb.mergeRows historyEnv true [⟨{bytes "id"}, edit2⟩] ∅).2 ≠ .error .assertion ∧
    cb.takenBytes historyEnv true [⟨{bytes "id"}, edit2⟩] = some edit2 ∧
    (cb.mergeRows historyEnv true [⟨{bytes "id"}, edit2⟩] ∅).1.state = .clean ∧
    (cb.mergeRows historyEnv true [⟨{bytes "id"}, edit2⟩] ∅).1.config.seqno = seqno ∧
    cb.config.seqno ≠ seqno

instance (cb : ConfigBase) (seqno : Int) : Decidable (adoptsEdit2 cb seqno) :=
  inferInstanceAs (Decidable (_ ∧ _))

lemma adoptsEdit2.adopts {cb : ConfigBase} {seqno : Int} (h : adoptsEdit2 cb seqno) :
    cb.Adopts historyEnv true [⟨{bytes "id"}, edit2⟩] ∅ edit2 :=
  ⟨h.1, h.2.1, h.2.2.1, fun heq => h.2.2.2.2 (heq.symm.trans h.2.2.2.1)⟩

/-- **What a device pushes, a new device takes over**: whatever the first one did before, and
whether the other may write or only read, if it accepts the signature and the seqno leaves room for
the lag in `int64_t`. -/
theorem ConfigBase.push_adopted {keys : SigKeys}
    (h : Reachable (· = fresh env keys) (Next env debug keys) cb) (hseq : cb.config.seqno ≠ 0)
    (hfit : (cb.push env).1.seqno + configLags < 2 ^ 63) (reader : SigKeys)
        (ids good : Finset MsgId)
    (hsig : SignatureAccepted env reader.verifier cb.config.refreshed true) :
    let r := (fresh env reader).mergeRows env debug [⟨ids, (cb.push env).1.msg⟩] good
    MarksExact env reader.verifier reader.signer configLags [(cb.push env).1.msg] ∧ r.2.isOk =
        true ∧ r.1.state = .clean ∧ r.1.config.seqno = (cb.push env).1.seqno ∧
      r.1.config.base.data = (cb.push env).2.config.base.data := by
  have hv := valid_of_reachable h
  have hmin := hv.wf.refreshed.seqno.1
  rw [refreshed_seqno] at hmin
  obtain ⟨c, hacc, hcseq, hdata⟩ : ∃ c,
      Accepts env reader.verifier reader.signer configLags (cb.push env).1.msg c ∧
        c.seqno = cb.config.seqno ∧ c.data = cb.config.refreshed.data := by
    have hparse := parse_serialize env hv.wf.refreshed hsig reader.signer false
    rw [refreshed_lag, hv.lag_eq, ← serialize_fst] at hparse
    exact ⟨_, hparse, refreshed_seqno _, rfl⟩
  have hnone : (fresh env reader).config.seqno = 0 := by cases reader <;> rfl
  have hpart : ¬(fresh env reader).TakesPart := fun h => h.elim (absurd hnone) (nomatch ·)
  have hrows := rows_of_not_takesPart env [⟨ids, (cb.push env).1.msg⟩] hpart
  have hm : (fresh env reader).MergesTo env debug [⟨ids, (cb.push env).1.msg⟩]
      { c with unmerged := some 0 } [] := by
    rw [MergesTo, hrows, (valid_fresh env reader).verifier_eq, (valid_fresh env reader).signer_eq]
    refine (mergeConfigs_of_accepts (.cons hacc .nil) (cons_ne_nil _ _)).trans ?_
    rw [mergeAccepted_alone env _ _ (by decide) (hcseq ▸ hmin)]
    rfl
  obtain ⟨hok, hclean, hconf⟩ := mergeRows_newer good (fun hd => by cases hd) hm
    (by rwa [hcseq, hnone]) (by simp [hrows]) fun h => absurd h hpart
  have hexact := marksExact_of_accepts (.cons hacc .nil) fun m hm => by
    have hfit : cb.config.seqno + configLags < 2 ^ 63 := hfit
    rw [mem_singleton.mp hm, hcseq]
    unfold configLags at *
    exact ⟨by omega, hfit⟩
  refine ⟨hexact, hok, hclean, (congrArg AnyMessage.seqno hconf).trans hcseq, ?_⟩
  rw [hconf, push_snd_config]
  exact hdata.trans (serialize_snd_data env cb.config true).symm

theorem push_adopted_draft :
    let r := (ConfigBase.fresh historyEnv .none).mergeRows historyEnv true
      [⟨{bytes "id"}, (draftObject.push historyEnv).1.msg⟩] {bytes "id"}
    r.2.isOk = true ∧ r.1.state = .clean ∧ r.1.config.seqno =
        (draftObject.push historyEnv).1.seqno ∧
      r.1.config.base.data = (draftObject.push historyEnv).2.config.base.data :=
  (ConfigBase.push_adopted draftObject_reachable (by decide +kernel) (by decide +kernel) .none _ _
    (signatureAccepted_none _ _ _)).2

end Bchat.Config
