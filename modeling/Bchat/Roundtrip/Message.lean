import Bchat.Roundtrip.Sections

/-!
# Round trip of a whole message

The pairs of a message are treated as one list of sections, `sectionPairs`, so that the two
directions share the shape.
-/

namespace Bchat.Config

open Bencode List SortedMap ConfigMessage

variable {m : ConfigMessage} {seqno lag : Int} {lagged : LaggedDiffs} {env : Env}
  {serialized : Bytes} {sig : Option Signature} {verifier : Option Verifier} {rest pairs : BtDict}
  {trust : Bool} {signer : Option Signer}

def UnknownKey (k : Bytes) : Prop :=
  bytes "#" < k ∧ k < bytes "~" ∧ k ≠ bytes "&" ∧ k ≠ bytes "<" ∧ k ≠ bytes "="

/-- The messages whose serialization can be parsed. -/
structure ConfigMessage.WellFormed (m : ConfigMessage) : Prop where
  seqno : InInt64 m.seqno
  dataWF : Dict.WF m.data
  dataPruned : Dict.Pruned m.data
  diff : DiffWF m.diff
  lagged : LaggedWF m.laggedDiffs
  unknownSorted : SortedMap.Sorted m.unknown
  unknownWF : ∀ p ∈ m.unknown, BtWF p.2
  unknownKey : ∀ p ∈ m.unknown, UnknownKey p.1

/-! ## The gaps between the sections -/

/-- The pairs of a message with its unknown keys already distributed over the four gaps. -/
def sectionPairs (seqno : Int) (u1 data u2 : BtDict) (rows : List Bt) (u3 diff u4 : BtDict) :
    BtDict :=
  [(bytes "#", Bt.int seqno)] ++ u1 ++ [(bytes "&", Bt.dict data)] ++ u2
    ++ [(bytes "<", Bt.list rows)] ++ u3 ++ [(bytes "=", Bt.dict diff)] ++ u4

def InGap (lo hi : Bytes) (u : BtDict) : Prop := ∀ p ∈ u, lo < p.1 ∧ p.1 < hi

lemma appendUnknown_append (u : BtDict) (bound : Bytes) :
    (appendUnknown u bound).1 ++ (appendUnknown u bound).2 = u :=
  takeWhile_append_dropWhile

lemma appendUnknown_fst_lt (u : BtDict) (bound : Bytes) :
    ∀ p ∈ (appendUnknown u bound).1, p.1 < bound := by
  intro p hp
  simpa using mem_takeWhile_imp hp

lemma appendUnknown_snd_le {u : BtDict} (bound : Bytes) (h : SortedMap.Sorted u) :
    ∀ p ∈ (appendUnknown u bound).2, bound ≤ p.1 := by
  unfold appendUnknown
  intro p hp
  -- the first pair that is kept is not before the bound, and the others come after it
  cases hd : u.dropWhile (fun p => decide (p.1 < bound)) with
  | nil => simp [hd] at hp
  | cons q rest =>
    have hq : bound ≤ q.1 := by
      have := head_dropWhile_not (fun p : Bytes × Bt => decide (p.1 < bound)) (l := u)
        (by simp [hd])
      simpa [hd] using this
    rw [hd] at hp
    rcases mem_cons.mp hp with rfl | hp
    · exact hq
    · have hs : Sorted (q :: rest) := hd ▸ Pairwise.sublist (dropWhile_sublist _) h
      exact hq.trans ((pairwise_cons.mp hs).1 p hp).le

/-- The four gaps of the unknown keys of a well-formed message. -/
structure Gaps (unknown u1 u2 u3 u4 : BtDict) : Prop where
  eq : unknown = u1 ++ u2 ++ u3 ++ u4
  gap1 : InGap (bytes "#") (bytes "&") u1
  gap2 : InGap (bytes "&") (bytes "<") u2
  gap3 : InGap (bytes "<") (bytes "=") u3
  gap4 : InGap (bytes "=") (bytes "~") u4

lemma ConfigMessage.WellFormed.gaps (h : m.WellFormed) (currDiff : BtDict) :
    ∃ u1 u2 u3 u4, Gaps m.unknown u1 u2 u3 u4 ∧
      m.pairs currDiff = sectionPairs m.seqno u1 (Dict.toBt m.data) u2
        ((m.laggedDiffs.filter (inWindow m.seqno m.lag)).map laggedRow) u3 currDiff u4 := by
  have e1 := appendUnknown_append m.unknown (bytes "&")
  have l1 := appendUnknown_fst_lt m.unknown (bytes "&")
  have g1 := appendUnknown_snd_le (bytes "&") h.unknownSorted
  have s1 : Sorted (appendUnknown m.unknown (bytes "&")).2 :=
    Pairwise.sublist (dropWhile_sublist _) h.unknownSorted
  generalize hu1 : appendUnknown m.unknown (bytes "&") = u1 at e1 l1 g1 s1
  have e2 := appendUnknown_append u1.2 (bytes "<")
  have l2 := appendUnknown_fst_lt u1.2 (bytes "<")
  have g2 := appendUnknown_snd_le (bytes "<") s1
  have s2 : Sorted (appendUnknown u1.2 (bytes "<")).2 :=
    Pairwise.sublist (dropWhile_sublist _) s1
  generalize hu2 : appendUnknown u1.2 (bytes "<") = u2 at e2 l2 g2 s2
  have e3 := appendUnknown_append u2.2 (bytes "=")
  have l3 := appendUnknown_fst_lt u2.2 (bytes "=")
  have g3 := appendUnknown_snd_le (bytes "=") s2
  generalize hu3 : appendUnknown u2.2 (bytes "=") = u3 at e3 l3 g3
  have e4 : (appendUnknown u3.2 (bytes "~")).1 = u3.2 := by
    refine takeWhile_eq_self_iff.mpr fun p hp => ?_
    have hm : p ∈ m.unknown := by
      rw [← e1, ← e2, ← e3]
      simp [hp]
    simpa using (h.unknownKey p hm).2.1
  have mem1 : ∀ p ∈ u1.1, p ∈ m.unknown := fun p hp => by rw [← e1]; simp [hp]
  have mem1' : ∀ p ∈ u1.2, p ∈ m.unknown := fun p hp => by rw [← e1]; simp [hp]
  have mem2 : ∀ p ∈ u2.1, p ∈ u1.2 := fun p hp => by rw [← e2]; simp [hp]
  have mem2' : ∀ p ∈ u2.2, p ∈ u1.2 := fun p hp => by rw [← e2]; simp [hp]
  have mem3 : ∀ p ∈ u3.1, p ∈ u2.2 := fun p hp => by rw [← e3]; simp [hp]
  have mem3' : ∀ p ∈ u3.2, p ∈ u2.2 := fun p hp => by rw [← e3]; simp [hp]
  refine ⟨u1.1, u2.1, u3.1, u3.2, ⟨?_, ?_, ?_, ?_, ?_⟩, ?_⟩
  · rw [← e1, ← e2, ← e3]
    simp
  · exact fun p hp => ⟨(h.unknownKey p (mem1 p hp)).1, l1 p hp⟩
  · intro p hp
    have hne := (h.unknownKey p (mem1' p (mem2 p hp))).2.2.1
    exact ⟨lt_of_le_of_ne (g1 p (mem2 p hp)) (Ne.symm hne), l2 p hp⟩
  · intro p hp
    have hne := (h.unknownKey p (mem1' p (mem2' p (mem3 p hp)))).2.2.2.1
    exact ⟨lt_of_le_of_ne (g2 p (mem3 p hp)) (Ne.symm hne), l3 p hp⟩
  · intro p hp
    have hk := h.unknownKey p (mem1' p (mem2' p (mem3' p hp)))
    exact ⟨lt_of_le_of_ne (g3 p hp) (Ne.symm hk.2.2.2.2), hk.2.1⟩
  · unfold pairs sectionPairs
    simp only [hu1, hu2, hu3, e4]

lemma sectionPairs_key_lt {unknown u1 u2 u3 u4 : BtDict} (h : Gaps unknown u1 u2 u3 u4)
    {data diff : BtDict} {rows : List Bt} :
    ∀ p ∈ sectionPairs seqno u1 data u2 rows u3 diff u4, p.1 < bytes "~" := by
  intro p hp
  unfold sectionPairs at hp
  simp only [mem_append, mem_singleton] at hp
  rcases hp with ((((((rfl | hp) | rfl) | hp) | rfl) | hp) | rfl) | hp
  · exact (by decide : bytes "#" < bytes "~")
  · exact (h.gap1 p hp).2.trans (by decide)
  · exact (by decide : bytes "&" < bytes "~")
  · exact (h.gap2 p hp).2.trans (by decide)
  · exact (by decide : bytes "<" < bytes "~")
  · exact (h.gap3 p hp).2.trans (by decide)
  · exact (by decide : bytes "=" < bytes "~")
  · exact (h.gap4 p hp).2

/-! ## Reading the sections -/

lemma parsePairs_sectionPairs (env : Env) (h : m.WellFormed) {u1 u2 u3 u4 : BtDict}
    (hg : Gaps m.unknown u1 u2 u3 u4) (hl : LaggedWF lagged)
    (hw : ∀ p ∈ lagged, inWindow m.seqno lag p = true) (tail : BtDict)
    (ht : StopsAt (bytes "~") tail) (serialized : Bytes) (verifier : Option Verifier)
    (signer : Option Signer) (trust : Bool) :
    ConfigMessage.parsePairs env serialized
        (sectionPairs m.seqno u1 (Dict.toBt m.data) u2 (lagged.map laggedRow) u3 m.diff u4 ++ tail)
        true verifier signer lag trust = (do
      let sig ← verifyConfigSig env serialized tail true verifier trust
      .ok { data := m.data, diff := m.diff, laggedDiffs := lagged, unknown := m.unknown
            seqnoHash := ⟨m.seqno, env.blake2b serialized⟩, verifiedSignature := sig
            unmerged := none, verifier := verifier, signer := signer, lag := lag }) := by
  have hsorted := h.unknownSorted
  have hwf := h.unknownWF
  rw [hg.eq] at hsorted hwf
  have hwf1 : ∀ p ∈ u1, BtWF p.2 := fun p hp => hwf p (by simp [hp])
  have hwf2 : ∀ p ∈ u2, BtWF p.2 := fun p hp => hwf p (by simp [hp])
  have hwf3 : ∀ p ∈ u3, BtWF p.2 := fun p hp => hwf p (by simp [hp])
  have hwf4 : ∀ p ∈ u4, BtWF p.2 := fun p hp => hwf p (by simp [hp])
  have hs3 : Sorted (u1 ++ u2 ++ u3) := (pairwise_append.mp hsorted).1
  have hs2 : Sorted (u1 ++ u2) := (pairwise_append.mp hs3).1
  have hs1 : Sorted u1 := (pairwise_append.mp hs2).1
  have hshape : sectionPairs m.seqno u1 (Dict.toBt m.data) u2 (lagged.map laggedRow) u3 m.diff u4
      ++ tail = (bytes "#", Bt.int m.seqno) :: (u1 ++ ((bytes "&", Bt.dict (Dict.toBt m.data)) ::
        (u2 ++ ((bytes "<", Bt.list (lagged.map laggedRow)) ::
          (u3 ++ ((bytes "=", Bt.dict m.diff) :: (u4 ++ tail))))))) := by
    simp [sectionPairs]
  rw [hshape]
  unfold parsePairs
  rw [readSeqno, if_neg (not_not.mpr h.seqno), if_pos rfl, ok_bind]
  simp only
  rw [loadUnknowns_append env hwf1 hg.gap1 (stopsAt_cons _ _ _) (by simpa using hs1), ok_bind]
  simp only [nil_append]
  rw [readData, if_pos rfl, parseData_toBt m.data none h.dataWF h.dataPruned (after_none _),
    ok_bind, ok_bind]
  rw [loadUnknowns_append env hwf2 hg.gap2 (stopsAt_cons _ _ _) hs2, ok_bind]
  rw [readLagged, if_pos rfl, parseLaggedDiffs_laggedRow env hl hw (after_none _), ok_bind, ok_bind]
  rw [loadUnknowns_append env hwf3 hg.gap3 (stopsAt_cons _ _ _) hs3, ok_bind]
  rw [readDiff, if_pos rfl, loadDiff_of_wf env m.diff none h.diff (after_none _), ok_bind, ok_bind]
  rw [loadUnknowns_append env hwf4 hg.gap4 ht hsorted, ok_bind]
  rw [← hg.eq]

/-! ## The signature -/

def SignatureAccepted (env : Env) (verifier : Option Verifier) (m : ConfigMessage)
    (enableSigning : Bool) : Prop :=
  ∀ f ∈ verifier, ∃ sig ∈ m.trailer env m.diff enableSigning,
    f (env.encodeOpen (m.pairs m.diff)) sig = true

lemma signatureAccepted_none (env : Env) (m : ConfigMessage) (enableSigning : Bool) :
    SignatureAccepted env none m enableSigning := by
  intro f hf
  cases hf

lemma verifyConfigSig_nil (env : Env) (serialized : Bytes) (trust : Bool) :
    verifyConfigSig env serialized [] true none trust = .ok none := by
  simp [verifyConfigSig]

lemma verifyConfigSig_sig {sig : Signature}
    (h : ∀ f ∈ verifier, f (env.readUntil (bytes "~") serialized) sig = true) (trust : Bool) :
    verifyConfigSig env serialized [(bytes "~", .str sig.val)] true verifier trust =
      .ok (if verifier.isSome || trust then some sig else none) := by
  have hno : ¬(verifier.any (fun f => !f (env.readUntil (bytes "~") serialized) sig) = true) := by
    cases verifier with
    | none => simp
    | some f => simpa using h f rfl
  have hdrop : [(bytes "~", Bt.str sig.val)].dropWhile (fun p => decide (p.1 < bytes "~")) =
      [(bytes "~", Bt.str sig.val)] := by
    simp
  unfold verifyConfigSig
  simp only [hdrop, if_true, sig.property, dite_true]
  rw [if_neg hno]
  rfl

/-! ## Round trip -/

/-- What the parser builds from the serialization of `m`. -/
def ConfigMessage.reparsed (env : Env) (m : ConfigMessage) (enableSigning : Bool)
    (verifier : Option Verifier) (signer : Option Signer) (trust : Bool) : ConfigMessage :=
  { data := m.data, diff := m.diff
    laggedDiffs := m.laggedDiffs.filter (inWindow m.seqno m.lag), unknown := m.unknown
    seqnoHash := ⟨m.seqno, env.blake2b (m.serialize env enableSigning)⟩
    verifiedSignature :=
      if verifier.isSome || trust then m.trailer env m.diff enableSigning else none
    unmerged := none, verifier := verifier, signer := signer, lag := m.lag }

lemma parse_serialize (env : Env) (h : m.WellFormed) {enableSigning : Bool}
    (hsig : SignatureAccepted env verifier m enableSigning) (signer : Option Signer)
    (trust : Bool) :
    ConfigMessage.parse env (m.serialize env enableSigning) verifier signer m.lag trust =
      .ok (m.reparsed env enableSigning verifier signer trust) := by
  obtain ⟨u1, u2, u3, u4, hg, hpairs⟩ := h.gaps m.diff
  have hl := laggedWF_filter h.lagged (inWindow m.seqno m.lag)
  have hw : ∀ p ∈ m.laggedDiffs.filter (inWindow m.seqno m.lag), inWindow m.seqno m.lag p = true :=
    fun p hp => (mem_filter.mp hp).2
  have hkeys : ∀ p ∈ m.pairs m.diff, p.1 ≠ bytes "~" := by
    rw [hpairs]
    exact fun p hp => (sectionPairs_key_lt hg p hp).ne
  unfold parse reparsed
  cases htr : m.trailer env m.diff enableSigning with
  | none =>
    have hv : verifier = none := by
      cases verifier with
      | none => rfl
      | some f =>
        obtain ⟨sig, hs, -⟩ := hsig f rfl
        rw [htr] at hs
        cases hs
    subst hv
    have hser : m.serialize env enableSigning = env.encode (m.pairs m.diff) := by
      unfold serialize serializeImpl
      rw [htr]
    rw [hser, env.read_encode]
    simp only
    have hbody := parsePairs_sectionPairs env h hg hl hw [] trivial
      (env.encode (m.pairs m.diff)) none signer trust
    rw [append_nil, ← hpairs, verifyConfigSig_nil, ok_bind] at hbody
    rw [hbody]
    simp [Except.mapError]
  | some sig =>
    have hser : m.serialize env enableSigning =
        env.encode (m.pairs m.diff ++ [(bytes "~", Bt.str sig.val)]) := by
      unfold serialize serializeImpl
      rw [htr]
    have hverify : ∀ f ∈ verifier, f (env.readUntil (bytes "~")
        (env.encode (m.pairs m.diff ++ [(bytes "~", Bt.str sig.val)]))) sig = true := by
      intro f hf
      obtain ⟨sig', hs, hok⟩ := hsig f hf
      rw [htr] at hs
      cases hs
      rw [env.readUntil_encode _ hkeys]
      exact hok
    rw [hser, env.read_encode]
    simp only
    have hbody := parsePairs_sectionPairs env h hg hl hw [(bytes "~", Bt.str sig.val)]
      (stopsAt_cons _ _ _) (env.encode (m.pairs m.diff ++ [(bytes "~", Bt.str sig.val)]))
      verifier signer trust
    rw [← hpairs, verifyConfigSig_sig hverify, ok_bind] at hbody
    rw [hbody]
    rfl

/-! ## What the parser accepts -/

def seqnoOf (env : Env) (serialized : Bytes) : Int :=
  match env.read serialized with
  | some (pairs, _) =>
    match readSeqno pairs with
    | .ok (seqno, _) => seqno
    | .error _ => 0
  | none => 0

structure Parsed (env : Env) (serialized : Bytes) (verifier : Option Verifier)
    (signer : Option Signer) (lag : Int) (trust : Bool) (m : ConfigMessage) : Prop where
  wf : m.WellFormed
  seqnoOf_eq : seqnoOf env serialized = m.seqno
  window : ∀ p ∈ m.laggedDiffs, inWindow m.seqno lag p = true
  hash : m.seqnoHash.hash = env.blake2b serialized
  verifier_eq : m.verifier = verifier
  signer_eq : m.signer = signer
  lag_eq : m.lag = lag
  unmerged : m.unmerged = none
  verified : ∀ f ∈ verifier, ∃ sig ∈ m.verifiedSignature,
    f (env.readUntil (bytes "~") serialized) sig = true
  unverified : verifier = none → trust = false → m.verifiedSignature = none

lemma verifyConfigSig_inv {closed : Bool}
    (h : verifyConfigSig env serialized rest closed verifier trust = .ok sig) :
    (∀ f ∈ verifier, ∃ s ∈ sig, f (env.readUntil (bytes "~") serialized) s = true) ∧
      (verifier = none → trust = false → sig = none) := by
  unfold verifyConfigSig at h
  split at h
  · split at h
    · cases h
    split at h
    · cases h
    rename_i hv
    cases h
    refine ⟨fun f hf => ?_, fun _ _ => rfl⟩
    rw [Option.mem_def.mp hf] at hv
    simp at hv
  split at h
  · split at h
    · split at h
      · next s _ hlen =>
        split at h
        · cases h
        rename_i hok
        split at h
        · split at h
          · cases h
          cases h
          refine ⟨fun f hf => ?_, fun hv ht => by simp [hv, ht]⟩
          rw [Option.mem_def.mp hf] at hok ⊢
          exact ⟨⟨s, hlen⟩, by simp, by simpa using hok⟩
        · cases h
      · cases h
    · cases h
  split at h
  · cases h
  · cases h

lemma readSeqno_inv (h : readSeqno pairs = .ok (seqno, rest)) : InInt64 seqno := by
  unfold readSeqno at h
  split at h
  · split at h
    · cases h
    rename_i hi
    split at h
    · cases h
      exact not_not.mp hi
    · cases h
  · cases h

lemma readData_inv {data : Dict} (h : readData pairs = .ok (data, rest)) :
    Dict.WF data ∧ Dict.Pruned data := by
  unfold readData at h
  split at h
  · split at h
    · obtain ⟨d, hd, h⟩ := bind_eq_ok.mp h
      cases h
      obtain ⟨-, hwf, hp, -⟩ := parseData_inv hd
      exact ⟨hwf, hp⟩
    · cases h
  · cases h

lemma readLagged_inv (h : readLagged env seqno lag pairs = .ok (lagged, rest)) :
    LaggedWF lagged ∧ ∀ p ∈ lagged, inWindow seqno lag p = true := by
  cases pairs with
  | nil => cases h
  | cons q pairs =>
    unfold readLagged at h
    simp only at h
    split at h
    · split at h
      · obtain ⟨l, hl, h⟩ := bind_eq_ok.mp h
        cases h
        obtain ⟨hwf, hw, -⟩ := parseLaggedDiffs_inv hl
        exact ⟨hwf, hw⟩
      · cases h
    · cases h
      exact ⟨⟨sorted_nil, by simp, by simp⟩, by simp⟩

lemma readDiff_inv {diff : BtDict} (h : readDiff env pairs = .ok (diff, rest)) : DiffWF diff := by
  cases pairs with
  | nil => cases h
  | cons q pairs =>
    unfold readDiff at h
    simp only at h
    split at h
    · split at h
      · obtain ⟨d, hd, h⟩ := bind_eq_ok.mp h
        cases h
        exact (loadDiff_wf env hd).1
      · cases h
    · cases h
      simp [DiffWF]

lemma unknownKey_of_gap {k lo hi : Bytes} (hlo : lo < k) (hhi : k < hi)
    (h : (lo, hi) ∈ [(bytes "#", bytes "&"), (bytes "&", bytes "<"), (bytes "<", bytes "="),
      (bytes "=", bytes "~")]) : UnknownKey k := by
  have hash_amp : bytes "#" < bytes "&" := by decide
  have amp_lt : bytes "&" < bytes "<" := by decide
  have lt_eq : bytes "<" < bytes "=" := by decide
  have eq_tilde : bytes "=" < bytes "~" := by decide
  simp only [mem_cons, Prod.mk.injEq, not_mem_nil, or_false] at h
  rcases h with ⟨rfl, rfl⟩ | ⟨rfl, rfl⟩ | ⟨rfl, rfl⟩ | ⟨rfl, rfl⟩
  · exact ⟨hlo, hhi.trans (amp_lt.trans (lt_eq.trans eq_tilde)), hhi.ne, (hhi.trans amp_lt).ne,
      (hhi.trans (amp_lt.trans lt_eq)).ne⟩
  · exact ⟨hash_amp.trans hlo, hhi.trans (lt_eq.trans eq_tilde), hlo.ne', hhi.ne,
      (hhi.trans lt_eq).ne⟩
  · exact ⟨(hash_amp.trans amp_lt).trans hlo, hhi.trans eq_tilde, (amp_lt.trans hlo).ne', hlo.ne',
      hhi.ne⟩
  · exact ⟨((hash_amp.trans amp_lt).trans lt_eq).trans hlo, hhi,
      ((amp_lt.trans lt_eq).trans hlo).ne',
      (lt_eq.trans hlo).ne', hlo.ne'⟩

lemma parse_eq_ok (h : ConfigMessage.parse env serialized verifier signer lag trust = .ok m) :
    ∃ pairs closed, env.read serialized = some (pairs, closed) ∧
      parsePairs env serialized pairs closed verifier signer lag trust = .ok m := by
  unfold parse at h
  split at h
  · cases h
  rename_i pairs closed hread
  refine ⟨pairs, closed, hread, ?_⟩
  cases hp : parsePairs env serialized pairs closed verifier signer lag trust with
  | error e =>
    rw [hp] at h
    cases h
  | ok m' =>
    rw [hp] at h
    exact h

lemma parse_inv (h : ConfigMessage.parse env serialized verifier signer lag trust = .ok m) :
    Parsed env serialized verifier signer lag trust m := by
  obtain ⟨pairs, closed, hread, hbody⟩ := parse_eq_ok h
  obtain ⟨⟨seqno, r1⟩, h1, hbody⟩ := bind_eq_ok.mp hbody
  obtain ⟨⟨unk1, r2⟩, h2, hbody⟩ := bind_eq_ok.mp hbody
  obtain ⟨⟨data, r3⟩, h3, hbody⟩ := bind_eq_ok.mp hbody
  obtain ⟨⟨unk2, r4⟩, h4, hbody⟩ := bind_eq_ok.mp hbody
  obtain ⟨⟨lagged, r5⟩, h5, hbody⟩ := bind_eq_ok.mp hbody
  obtain ⟨⟨unk3, r6⟩, h6, hbody⟩ := bind_eq_ok.mp hbody
  obtain ⟨⟨diff, r7⟩, h7, hbody⟩ := bind_eq_ok.mp hbody
  obtain ⟨⟨unk4, r8⟩, h8, hbody⟩ := bind_eq_ok.mp hbody
  obtain ⟨sig, h9, hbody⟩ := bind_eq_ok.mp hbody
  cases hbody
  obtain ⟨u1, e1, s1, w1, k1, -, -⟩ := loadUnknowns_inv sorted_nil h2
  obtain ⟨u2, e2, s2, w2, k2, -, -⟩ := loadUnknowns_inv s1 h4
  obtain ⟨u3, e3, s3, w3, k3, -, -⟩ := loadUnknowns_inv s2 h6
  obtain ⟨u4, e4, s4, w4, k4, -, -⟩ := loadUnknowns_inv s3 h8
  have hunk : ∀ p ∈ unk4, BtWF p.2 ∧ UnknownKey p.1 := by
    intro p hp
    rw [e4, e3, e2, e1] at hp
    simp only [nil_append, mem_append] at hp
    rcases hp with ((hp | hp) | hp) | hp
    · exact ⟨w1 p hp, unknownKey_of_gap (k1 p hp).1 (k1 p hp).2 (by simp)⟩
    · exact ⟨w2 p hp, unknownKey_of_gap (k2 p hp).1 (k2 p hp).2 (by simp)⟩
    · exact ⟨w3 p hp, unknownKey_of_gap (k3 p hp).1 (k3 p hp).2 (by simp)⟩
    · exact ⟨w4 p hp, unknownKey_of_gap (k4 p hp).1 (k4 p hp).2 (by simp)⟩
  obtain ⟨hverified, hunverified⟩ := verifyConfigSig_inv h9
  exact
    { wf :=
        { seqno := readSeqno_inv h1
          dataWF := (readData_inv h3).1
          dataPruned := (readData_inv h3).2
          diff := readDiff_inv h7
          lagged := (readLagged_inv h5).1
          unknownSorted := s4
          unknownWF := fun p hp => (hunk p hp).1
          unknownKey := fun p hp => (hunk p hp).2 }
      seqnoOf_eq := by
        unfold seqnoOf
        rw [hread]
        simp only [h1]
        rfl
      window := (readLagged_inv h5).2
      hash := rfl
      verifier_eq := rfl
      signer_eq := rfl
      lag_eq := rfl
      unmerged := rfl
      verified := hverified
      unverified := hunverified }

/-! ## Parsing without a verifier -/

lemma verifyConfigSig_none {closed : Bool}
    (h : verifyConfigSig env serialized rest closed verifier trust = .ok sig) (trust' : Bool) :
    ∃ sig', verifyConfigSig env serialized rest closed none trust' = .ok sig' ∧
      (verifier.isSome → trust' = true → sig' = sig) := by
  unfold verifyConfigSig at h ⊢
  generalize rest.dropWhile (fun p => decide (p.1 < bytes "~")) = rest at h ⊢
  cases rest with
  | nil =>
    simp only at h ⊢
    split at h
    · cases h
    rename_i hclosed
    refine ⟨none, by simp [hclosed], fun hv _ => ?_⟩
    rw [if_pos hv] at h
    cases h
  | cons p rest =>
    obtain ⟨key, v⟩ := p
    simp only at h ⊢
    split at h
    · next hkey =>
      rw [if_pos hkey]
      cases v with
      | str s =>
        simp only at h ⊢
        split at h
        · next hlen =>
          rw [dif_pos hlen]
          split at h
          · cases h
          split at h
          · next hempty =>
            split at h
            · cases h
            rename_i hclosed
            cases h
            refine ⟨_, by simp [hempty, hclosed]; rfl, fun hv ht => by simp [hv, ht]⟩
          · cases h
        · cases h
      | _ => cases h
    split at h
    · cases h
    · cases h

lemma parse_none (h : ConfigMessage.parse env serialized verifier signer lag trust = .ok m)
    (signer' : Option Signer) (trust' : Bool) :
    ∃ sig, ConfigMessage.parse env serialized none signer' lag trust' =
        .ok { m with verifier := none, signer := signer', verifiedSignature := sig } ∧
      (verifier.isSome → trust' = true → sig = m.verifiedSignature) := by
  obtain ⟨pairs, closed, hread, hbody⟩ := parse_eq_ok h
  obtain ⟨⟨seqno, r1⟩, h1, hbody⟩ := bind_eq_ok.mp hbody
  obtain ⟨⟨unk1, r2⟩, h2, hbody⟩ := bind_eq_ok.mp hbody
  obtain ⟨⟨data, r3⟩, h3, hbody⟩ := bind_eq_ok.mp hbody
  obtain ⟨⟨unk2, r4⟩, h4, hbody⟩ := bind_eq_ok.mp hbody
  obtain ⟨⟨lagged, r5⟩, h5, hbody⟩ := bind_eq_ok.mp hbody
  obtain ⟨⟨unk3, r6⟩, h6, hbody⟩ := bind_eq_ok.mp hbody
  obtain ⟨⟨diff, r7⟩, h7, hbody⟩ := bind_eq_ok.mp hbody
  obtain ⟨⟨unk4, r8⟩, h8, hbody⟩ := bind_eq_ok.mp hbody
  obtain ⟨sig, h9, hbody⟩ := bind_eq_ok.mp hbody
  cases hbody
  obtain ⟨sig', h9', hsig⟩ := verifyConfigSig_none h9 trust'
  refine ⟨sig', ?_, hsig⟩
  unfold parse parsePairs
  simp only [hread, h1, h2, h3, h4, h5, h6, h7, h8, h9', ok_bind]
  rfl

end Bchat.Config
