import Bchat.Properties.ReadOnly

/-!
# Devices that resolve the same conflict

Several devices can see a conflict at the same time, each holding another one of the conflicting
messages, or a message from before the conflict. All of them produce the same bytes, so that the
server stores one message.
-/

namespace Bchat.Config

open Bencode List ConfigMessage ConfigBase

structure Conflicting (env : Env) (keys : SigKeys) (S : List Bytes) : Prop where
  accepted : ∀ b ∈ S, ∃ c, Accepts env keys.verifier keys.signer configLags b c
  notIncluded : ∀ b ∈ S,
    ¬IncludedIn env keys.verifier keys.signer configLags S (rankOf env b)
  notOutdated : ∀ b ∈ S,
    ¬OutdatedIn env keys.verifier keys.signer configLags S (rankOf env b)
  several : ∃ b ∈ S, ∃ b' ∈ S, b ≠ b'

section

variable {env : Env} {keys : SigKeys} {S : List Bytes} {ms : List ConfigMessage}

section

variable (h : Conflicting env keys S)
  (hms : List.Forall₂ (Accepts env keys.verifier keys.signer configLags) S ms)
  (hinj : Set.InjOn env.blake2b {b | b ∈ S})

include h hms hinj

lemma Conflicting.live {c : ConfigMessage} (hc : c ∈ ms) : Live configLags ms c := by
  obtain ⟨b, hb, hacc⟩ := exists_bytes hms hc
  refine ⟨hc, fun hi => ?_, fun hold => ?_⟩
  · rw [included_iff hms, seqnoHash_of_accepts hacc] at hi
    exact h.notIncluded b hb hi
  obtain ⟨top, htop, hmax⟩ := exists_maxSeqno (coherent_of_accepts hms hinj).int64_min_le
    (ne_nil_of_mem hc)
  obtain ⟨b', hb', hacc'⟩ := exists_bytes hms htop
  refine h.notOutdated b hb ⟨b', hb', top, hacc', ?_⟩
  rw [← seqnoHash_of_accepts hacc, hmax]
  exact hold

lemma Conflicting.resolve (hw : ¬(keys.verifier.isSome ∧ keys.signer = none)) :
    mergeAccepted env keys.verifier keys.signer configLags ms =
      Config.resolve env keys.verifier keys.signer configLags (maxSeqno ms)
        (survivors configLags ms) := by
  refine mergeAccepted_resolve env (fun hone => ?_) hw
  obtain ⟨c, hc⟩ := length_eq_one_iff.mp hone
  have honly : ∀ m ∈ ms, m = c := by
    intro m hm
    have hmem := (mem_survivors (coherent_of_accepts hms hinj)).mpr (h.live hms hinj hm)
    rwa [hc, mem_singleton] at hmem
  obtain ⟨b, hb, b', hb', hne⟩ := h.several
  obtain ⟨m, hm⟩ := h.accepted b hb
  obtain ⟨m', hm'⟩ := h.accepted b' hb'
  have hsame : m = m' := by
    rw [honly m (mem_messages hms hb hm), honly m' (mem_messages hms hb' hm')]
  refine hne (hinj hb hb' ?_)
  rw [← (parse_inv hm).hash, ← (parse_inv hm').hash, hsame]

end

lemma Conflicting.mergeConfigs_inv (h : Conflicting env keys S)
    (hinj : Set.InjOn env.blake2b {b | b ∈ S})
    (hw : ¬(keys.verifier.isSome ∧ keys.signer = none)) {handler : Nat → Err → Except Err Unit}
    {r : ConfigMessage × List Nat}
    (hr : mergeConfigs env S keys.verifier keys.signer configLags handler = .ok r) :
    r.2 = [] ∧ r.1.merged = true ∧ ∀ b ∈ S, seqnoOf env b < r.1.seqno := by
  obtain ⟨ms, hms⟩ := exists_accepts h.accepted
  obtain ⟨b0, hb0, -⟩ := h.several
  rw [mergeConfigs_of_accepts hms (ne_nil_of_mem hb0), h.resolve hms hinj hw] at hr
  cases hres : Config.resolve env keys.verifier keys.signer configLags (maxSeqno ms)
      (survivors configLags ms) with
  | error e =>
    rw [hres] at hr
    cases hr
  | ok m =>
    rw [hres] at hr
    cases hr
    obtain ⟨best, others, -, hm⟩ := resolve_inv hres
    refine ⟨rfl, by simp [merged, hm.merged], fun b hb => ?_⟩
    obtain ⟨c, hc⟩ := h.accepted b hb
    have hle := le_maxSeqno (mem_messages hms hb hc)
    rw [(parse_inv hc).seqnoOf_eq]
    rw [hm.seqno]
    omega

end

namespace ConfigBase

variable {env : Env} {debug : Bool} {keys : SigKeys} {S : List Bytes} {cb cb₁ cb₂ : ConfigBase}

/-- The object is not Dirty and holds one of the messages, or a message that one of them
includes. In the second case it must not itself include one of them. -/
structure StartsRace (env : Env) (keys : SigKeys) (S : List Bytes) (cb : ConfigBase) : Prop where
  valid : cb.Valid keys
  notDirty : cb.state ≠ .dirty
  holds : cb.held env ∈ S ∨
    IncludedIn env keys.verifier keys.signer configLags S (rankOf env (cb.held env))
  accepted : cb.TakesPart →
    ∃ c, Accepts env keys.verifier keys.signer configLags (cb.held env) c
  knowsNone : cb.held env ∉ S → ∀ c,
    Accepts env keys.verifier keys.signer configLags (cb.held env) c →
      ∀ b ∈ S, SortedMap.find? (rankOf env b) c.laggedDiffs = none

/-- The entries of a batch are the given messages, in any order and any number of times. -/
def Delivers (received : List Row) (S : List Bytes) : Prop :=
  ∀ b, (∃ row ∈ received, row.conf = b) ↔ b ∈ S

lemma forgetIndex_inj {m n : ConfigMessage} (h : forgetIndex m = forgetIndex n)
    (hn : n.unmerged = none) : m = n := by
  obtain ⟨hmsg, hmerged⟩ := Prod.mk.inj h
  have hm : m.unmerged = none := by
    unfold merged at hmerged
    rw [hn] at hmerged
    simpa using hmerged
  have hself : ∀ c : ConfigMessage, c.unmerged = none →
      ({ c with unmerged := none } : ConfigMessage) = c := by
    intro c hc
    rw [← hc]
  rw [← hself m hm, ← hself n hn]
  exact hmsg

lemma StartsRace.mergeConfigs_eq (h : cb.StartsRace env keys S) (hS : Conflicting env keys S)
    (hinj : Set.InjOn env.blake2b {b | b = cb.held env ∨ b ∈ S})
    (hw : ¬(keys.verifier.isSome ∧ keys.signer = none)) {received : List Row}
    (hrec : Delivers received S) (debug : Bool) :
    mergeConfigs env (cb.confs env received) keys.verifier keys.signer configLags
        (mergeHandler debug) =
      mergeConfigs env S keys.verifier keys.signer configLags (mergeHandler debug) := by
  have hmem : ∀ b, b ∈ cb.confs env received ↔ b ∈ S ∨ (cb.TakesPart ∧ b = cb.held env) := by
    intro b
    rw [mem_confs, hrec b]
  have hown : ∀ b ∈ cb.confs env received, b ∉ S → cb.TakesPart ∧ b = cb.held env := by
    intro b hb hout
    exact ((hmem b).mp hb).resolve_left hout
  obtain ⟨ms, hms⟩ := exists_accepts hS.accepted
  obtain ⟨ms', hms'⟩ := exists_accepts (L := cb.confs env received) fun b hb => by
    rcases (hmem b).mp hb with hb | ⟨hpart, rfl⟩
    · exact hS.accepted b hb
    · exact h.accepted hpart
  have hinj' : Set.InjOn env.blake2b {b | b ∈ cb.confs env received} := by
    refine hinj.mono fun b hb => ?_
    rcases (hmem b).mp hb with hb | ⟨-, rfl⟩
    · exact .inr hb
    · exact .inl rfl
  have hinjS : Set.InjOn env.blake2b {b | b ∈ S} := hinj.mono fun b hb => .inr hb
  have hext : Extends configLags ms ms' := by
    refine extends_of_accepts hms hms' (fun b hb => (hmem b).mpr (.inl hb)) ?_ ?_
    · intro b hb hout m hm
      obtain ⟨-, rfl⟩ := hown b hb hout
      rw [seqnoHash_of_accepts hm]
      exact h.holds.resolve_left hout
    intro b hb hout m hm b' hb' m' hm' hs
    obtain ⟨-, rfl⟩ := hown b hb hout
    rw [seqnoHash_of_accepts hm', h.knowsNone hout m hm b' hb'] at hs
    cases hs
  obtain ⟨b0, hb0, -⟩ := hS.several
  have hne : S ≠ [] := ne_nil_of_mem hb0
  have hne' : cb.confs env received ≠ [] := ne_nil_of_mem ((hmem b0).mpr (.inl hb0))
  obtain ⟨m0, hm0⟩ := hS.accepted b0 hb0
  have heq := hext.mergeAccepted_eq env keys.verifier keys.signer (coherent_of_accepts hms' hinj')
    (by decide) (ne_nil_of_mem (mem_messages hms hb0 hm0))
  rw [mergeConfigs_of_accepts hms hne, mergeConfigs_of_accepts hms' hne']
  have hres := hS.resolve hms hinjS hw
  cases hm : mergeAccepted env keys.verifier keys.signer configLags ms with
  | error e =>
    rw [hm] at heq
    cases hm' : mergeAccepted env keys.verifier keys.signer configLags ms' with
    | error e' =>
      rw [hm'] at heq
      cases heq
      rfl
    | ok m' =>
      rw [hm'] at heq
      cases heq
  | ok m =>
    rw [hm] at heq hres
    obtain ⟨best, others, -, hr⟩ := resolve_inv hres.symm
    cases hm' : mergeAccepted env keys.verifier keys.signer configLags ms' with
    | error e' =>
      rw [hm'] at heq
      cases heq
    | ok m' =>
      rw [hm'] at heq
      rw [forgetIndex_inj (Except.ok.inj heq).symm hr.merged]

lemma StartsRace.seqno_lt (h : cb.StartsRace env keys S) {s : Int}
    (hs : ∀ b ∈ S, seqnoOf env b < s) : cb.config.seqno < s := by
  have hown : seqnoOf env (cb.held env) = cb.config.seqno := h.valid.seqnoOf_held
  rw [← hown]
  rcases h.holds with hmem | ⟨b, hb, c, hc, hincl⟩
  · exact hs _ hmem
  obtain ⟨p, hp, hk⟩ := SortedMap.find?_isSome_iff.mp hincl
  have hlt := (inWindow_iff.mp ((parse_inv hc).window p hp)).2
  rw [hk, ← (parse_inv hc).seqnoOf_eq] at hlt
  exact lt_trans hlt (hs b hb)

/-- **A merge makes of the object what the constructor makes of the conflicting messages
alone.** -/
lemma StartsRace.merge (debug : Bool) (h : cb.StartsRace env keys S) (hS : Conflicting env keys S)
    (hinj : Set.InjOn env.blake2b {b | b = cb.held env ∨ b ∈ S})
    (hw : ¬(keys.verifier.isSome ∧ keys.signer = none)) {received : List Row}
    (hrec : Delivers received S) (good : Finset MsgId) :
    (∃ e, mergeConfigs env S keys.verifier keys.signer configLags (mergeHandler debug) = .error e ∧
        (cb.mergeRows env debug received good).2 = .error e ∧
        (cb.mergeRows env debug received good).1 = cb.refresh env) ∨
      ∃ m, mergeConfigs env S keys.verifier keys.signer configLags (mergeHandler debug) =
          .ok (m, []) ∧
        (cb.mergeRows env debug received good).1.state = .dirty ∧
        (cb.mergeRows env debug received good).1.config = .mutable { m with origData := [] } := by
  have hrun := h.mergeConfigs_eq hS hinj hw hrec debug
  rw [← h.valid.verifier_eq, ← h.valid.signer_eq] at hrun
  obtain ⟨b0, hb0, -⟩ := hS.several
  have hmem0 : b0 ∈ cb.confs env received := mem_confs.mpr (.inl ((hrec b0).mpr hb0))
  have hrows : cb.rows env received ≠ [] := by
    intro hnil
    unfold confs at hmem0
    rw [hnil] at hmem0
    cases hmem0
  rw [← h.valid.verifier_eq, ← h.valid.signer_eq]
  cases hm : mergeConfigs env S cb.config.base.verifier cb.config.base.signer configLags
      (mergeHandler debug) with
  | error e =>
    rw [hm] at hrun
    obtain ⟨hobj, herr⟩ := mergeRows_of_error good hrun
    exact .inl ⟨e, rfl, herr hrows, hobj⟩
  | ok r =>
    rw [hm] at hrun
    have hinv := hm
    rw [h.valid.verifier_eq, h.valid.signer_eq] at hinv
    obtain ⟨hbad, hmerged, hnewer⟩ := hS.mergeConfigs_inv (hinj.mono fun b hb => .inr hb) hw hinv
    have hto : cb.MergesTo env debug received r.1 r.2 := hrun
    obtain ⟨ids, -, hstate, hconf⟩ := mergeRows_of_merged good hto hmerged (h.seqno_lt hnewer).ne'
    rw [if_neg h.notDirty] at hconf
    exact .inr ⟨r.1, by rw [← hbad], hstate, hconf⟩

/-- **Two objects that merge the same conflict agree**: the resolution fails for both, or both are
Dirty with the same seqno and push the same bytes. -/
theorem racing_resolvers_agree (hw : ¬(keys.verifier.isSome ∧ keys.signer = none))
    (hS : Conflicting env keys S) (h₁ : cb₁.StartsRace env keys S) (h₂ : cb₂.StartsRace env keys S)
    (hinj₁ : Set.InjOn env.blake2b {b | b = cb₁.held env ∨ b ∈ S})
    (hinj₂ : Set.InjOn env.blake2b {b | b = cb₂.held env ∨ b ∈ S})
    {received₁ received₂ : List Row} (hrec₁ : Delivers received₁ S) (hrec₂ : Delivers received₂ S)
    (good₁ good₂ : Finset MsgId) :
    (∃ e, mergeConfigs env S keys.verifier keys.signer configLags (mergeHandler debug) = .error e ∧
        (cb₁.mergeRows env debug received₁ good₁).2 = .error e ∧
        (cb₂.mergeRows env debug received₂ good₂).2 = .error e) ∨
      ((cb₁.mergeRows env debug received₁ good₁).1.state = .dirty ∧
        (cb₂.mergeRows env debug received₂ good₂).1.state = .dirty ∧
        (cb₁.mergeRows env debug received₁ good₁).1.config.seqno =
          (cb₂.mergeRows env debug received₂ good₂).1.config.seqno ∧
        ((cb₁.mergeRows env debug received₁ good₁).1.push env).1.msg =
          ((cb₂.mergeRows env debug received₂ good₂).1.push env).1.msg) := by
  rcases h₁.merge debug hS hinj₁ hw hrec₁ good₁ with
    ⟨e, he, herr, -⟩ | ⟨m, hm, hstate, hconf⟩
  · rcases h₂.merge debug hS hinj₂ hw hrec₂ good₂ with ⟨e', he', herr', -⟩ | ⟨m', hm', -⟩
    · rw [he] at he'
      cases he'
      exact .inl ⟨e, he, herr, herr'⟩
    · rw [he] at hm'
      cases hm'
  rcases h₂.merge debug hS hinj₂ hw hrec₂ good₂ with
    ⟨e', he', -⟩ | ⟨m', hm', hstate', hconf'⟩
  · rw [hm] at he'
    cases he'
  rw [hm] at hm'
  cases hm'
  refine .inr ⟨hstate, hstate', by rw [hconf, hconf'], ?_⟩
  rw [push_msg, push_msg, hconf, hconf']

end ConfigBase

/-! ## An object that holds an ancestor -/

def holderOf (b : Bytes) : ConfigBase :=
  ((ConfigBase.fresh sampleEnv .none).mergeRows sampleEnv true [⟨{b}, b⟩] ∅).1

def batchOf (contents : List Bytes) : List Row := storedRows sampleIds contents

lemma delivers_batchOf {contents S : List Bytes} (h : ∀ b, b ∈ contents ↔ b ∈ S) :
    ConfigBase.Delivers (batchOf contents) S := by
  intro b
  rw [← h b]
  simp [batchOf, storedRows]

lemma holderOf_valid {b : Bytes} (hseq : InInt64 (holderOf b).config.seqno)
    (hok : ((ConfigBase.fresh sampleEnv .none).mergeRows sampleEnv true [⟨{b}, b⟩] ∅).2 ≠
      .error .assertion) : (holderOf b).Valid .none :=
  (valid_fresh sampleEnv .none).mergeRows hok hseq

lemma conflicting_of_check {env : Env} {keys : SigKeys} {S : List Bytes}
    (hparse : ∀ b ∈ S, (ConfigMessage.parse env b keys.verifier keys.signer configLags
      false).toOption.isSome = true)
    (hpair : ∀ b ∈ S, ∀ b' ∈ S,
      includesBytes env keys.verifier keys.signer configLags b' b = false ∧
        seqnoOf env b' < seqnoOf env b + configLags)
    (hseveral : ∃ b ∈ S, ∃ b' ∈ S, b ≠ b') : Conflicting env keys S where
  accepted b hb := exists_accepts_of_isSome (hparse b hb)
  notIncluded b hb := by
    rintro ⟨b', hb', c', hc', hs⟩
    obtain ⟨c, hc⟩ := exists_accepts_of_isSome (hparse b hb)
    have hno := (hpair b hb b' hb').1
    unfold includesBytes at hno
    rw [hc', hc] at hno
    simp only [seqnoHash_of_accepts hc, hs] at hno
    cases hno
  notOutdated b hb := by
    rintro ⟨b', hb', c', hc', hle⟩
    have hlt := (hpair b hb b' hb').2
    have hle' : seqnoOf env b + configLags ≤ c'.seqno := hle
    rw [(parse_inv hc').seqnoOf_eq] at hlt
    omega
  several := hseveral

lemma forks_conflict : Conflicting sampleEnv .none [second, fork] :=
  conflicting_of_check (by decide +kernel) (by decide +kernel) ⟨second, by simp, fork, by simp,
    by decide +kernel⟩

lemma ancestor_included :
    IncludedIn sampleEnv none none configLags [second, fork] (rankOf sampleEnv first) := by
  obtain ⟨c, hc⟩ : ∃ c, Accepts sampleEnv none none configLags first c :=
    exists_accepts_of_isSome (sampleEnv_parses first (by simp))
  rw [← seqnoHash_of_accepts hc]
  exact includedIn_of_includesBytes (b := second) (by simp) hc (by decide +kernel)

/-- What has to be computed about an object that holds a message. -/
def holds (b : Bytes) : Prop :=
  InInt64 (holderOf b).config.seqno ∧
    ((ConfigBase.fresh sampleEnv .none).mergeRows sampleEnv true [⟨{b}, b⟩] ∅).2 ≠
      .error .assertion ∧
    (holderOf b).state ≠ .dirty ∧ (holderOf b).held sampleEnv = b

instance (b : Bytes) : Decidable (holds b) := inferInstanceAs (Decidable (_ ∧ _))

lemma holds_samples : ∀ b ∈ [first, second, forgetful], holds b := by decide +kernel

lemma startsRace_of_mem {S : List Bytes} {b : Bytes} (h : holds b)
    (hS : Conflicting sampleEnv .none S) (hb : b ∈ S) :
    (holderOf b).StartsRace sampleEnv .none S where
  valid := holderOf_valid h.1 h.2.1
  notDirty := h.2.2.1
  holds := .inl (by rw [h.2.2.2]; exact hb)
  accepted _ := by
    rw [h.2.2.2]
    exact hS.accepted b hb
  knowsNone hout := absurd (by rw [h.2.2.2]; exact hb) hout

lemma first_startsRace : (holderOf first).StartsRace sampleEnv .none [second, fork] where
  valid := holderOf_valid (holds_samples first (by simp)).1 (holds_samples first (by simp)).2.1
  notDirty := (holds_samples first (by simp)).2.2.1
  holds := by
    right
    exact ancestor_included
  accepted _ := by
    exact exists_accepts_of_isSome (sampleEnv_parses first (by simp))
  knowsNone _ c hc b _ := by
    have hl : (parse sampleEnv first none none 5 false).toOption.map
        (fun m => m.laggedDiffs.isEmpty) = some true := by decide +kernel
    rw [show parse sampleEnv first none none 5 false = .ok c from hc] at hl
    have hnil : c.laggedDiffs = [] := by simpa [Except.toOption] using hl
    rw [hnil]
    rfl

/-- One device holds one of two conflicting messages, another one their common ancestor. -/
theorem racing_resolvers_agree_fork :
    ((holderOf second).mergeRows sampleEnv true (batchOf [fork, second]) ∅).1.state = .dirty ∧
      ((holderOf first).mergeRows sampleEnv true (batchOf [second, fork, second]) ∅).1.state =
        .dirty ∧
      ((holderOf second).mergeRows sampleEnv true (batchOf [fork, second]) ∅).1.config.seqno =
        ((holderOf first).mergeRows sampleEnv true
          (batchOf [second, fork, second]) ∅).1.config.seqno ∧
      (((holderOf second).mergeRows sampleEnv true (batchOf [fork, second]) ∅).1.push
          sampleEnv).1.msg = (((holderOf first).mergeRows sampleEnv true
          (batchOf [second, fork, second]) ∅).1.push sampleEnv).1.msg := by
  have hsub : ∀ c, c ∈ [first, second, forgetful] → ∀ b, (b = c ∨ b ∈ [second, fork]) →
      b ∈ [first, second, fork, forgetful] := by
    intro c hc b hb
    simp only [mem_cons, not_mem_nil, or_false] at hc hb ⊢
    rcases hb with rfl | rfl | rfl <;> tauto
  have hinj : ∀ c ∈ [first, second, forgetful], Set.InjOn sampleEnv.blake2b
      {b | b = (holderOf c).held sampleEnv ∨ b ∈ [second, fork]} := by
    intro c hc
    rw [(holds_samples c hc).2.2.2]
    exact fun b hb b' hb' => sampleEnv_injOn b (hsub c hc b hb) b' (hsub c hc b' hb')
  have hrec₁ : Delivers (batchOf [fork, second]) [second, fork] :=
    delivers_batchOf (by simp [or_comm])
  have hrec₂ : Delivers (batchOf [second, fork, second]) [second, fork] :=
    delivers_batchOf (by simp; tauto)
  have hagree := @racing_resolvers_agree sampleEnv true .none _ _ _
    (by simp [SigKeys.verifier]) forks_conflict
    (startsRace_of_mem (holds_samples second (by simp)) forks_conflict (by simp)) first_startsRace
    (hinj second (by simp)) (hinj first (by simp)) _ _ hrec₁ hrec₂ ∅ ∅
  refine hagree.resolve_left ?_
  rintro ⟨e, he, -⟩
  have hok : (mergeConfigs sampleEnv [second, fork] none none configLags
      (mergeHandler true)).isOk = true := by decide +kernel
  rw [show mergeConfigs sampleEnv [second, fork] none none configLags (mergeHandler true) =
    .error e from he] at hok
  cases hok

/-- If one of them holds a message that lists a conflicting one as its ancestor, it sees no
conflict. -/
theorem holder_of_ancestor_differs : Conflicting sampleEnv .none [forgetful, first] ∧
      (holderOf second).Valid .none ∧ (holderOf second).state ≠ .dirty ∧
      (holderOf second).held sampleEnv = second ∧
      IncludedIn sampleEnv none none configLags [forgetful, first] (rankOf sampleEnv second) ∧
      (holderOf forgetful).StartsRace sampleEnv .none [forgetful, first] ∧
      ((holderOf second).mergeRows sampleEnv true (batchOf [forgetful, first]) ∅).1.state = .clean ∧
      ((holderOf forgetful).mergeRows sampleEnv true (batchOf [forgetful, first]) ∅).1.state =
        .dirty := by
  have hconf : Conflicting sampleEnv .none [forgetful, first] :=
    conflicting_of_check (by decide +kernel) (by decide +kernel)
      ⟨forgetful, by simp, first, by simp, by decide +kernel⟩
  have hsecond := holds_samples second (by simp)
  refine ⟨hconf, holderOf_valid hsecond.1 hsecond.2.1, hsecond.2.2.1, hsecond.2.2.2, ?_,
    startsRace_of_mem (holds_samples forgetful (by simp)) hconf (by simp), by decide +kernel,
    by decide +kernel⟩
  obtain ⟨c, hc⟩ : ∃ c, Accepts sampleEnv none none configLags second c :=
    exists_accepts_of_isSome (sampleEnv_parses second (by simp))
  rw [← seqnoHash_of_accepts hc]
  exact includedIn_of_includesBytes (b := forgetful) (by simp) hc (by decide +kernel)

end Bchat.Config
