import Bchat.Properties.BaseMerge

/-!
# Keys of later versions

A message of a later version can have top-level keys this version does not know. `parse` keeps them
beside the data, `increment()` copies them and `serialize` writes them back between the known keys.
The conflict resolution leaves them out.
-/

namespace Bchat.Config

open Bencode List ConfigMessage

variable {env : Env} {pairs rest : BtDict} {seqno lag : Int} {serialized : Bytes}
  {verifier : Option Verifier} {signer : Option Signer} {m : ConfigMessage}

instance (k : Bytes) : Decidable (UnknownKey k) := inferInstanceAs (Decidable (_ ∧ _))

def unknownPairs (env : Env) (serialized : Bytes) : BtDict :=
  match env.read serialized with
  | some (pairs, _) => pairs.filter (fun p => UnknownKey p.1)
  | none => []

/-! ## Parsing -/

lemma Env.consumePairs_append (env : Env) {a a' b b' : BtDict}
    (ha : env.consumePairs a = some a') (hb : env.consumePairs b = some b') :
    env.consumePairs (a ++ b) = some (a' ++ b') := by
  induction a generalizing a' with
  | nil =>
    cases ha
    exact hb
  | cons q a ih =>
    rw [Env.consumePairs] at ha
    split at ha
    · next v' rest' hv hrest =>
      cases ha
      rw [cons_append, Env.consumePairs, hv, ih hrest]
      rfl
    · cases ha

lemma loadUnknowns_read {closed : Bool} {previous bound : Bytes} {unknown unknown' : BtDict}
    (h : loadUnknowns env closed previous bound unknown pairs = .ok (unknown', rest)) :
    ∃ front u, pairs = front ++ rest ∧ unknown' = unknown ++ u ∧
      env.consumePairs front = some u ∧ InGap previous bound front := by
  induction pairs generalizing unknown with
  | nil =>
    rw [loadUnknowns] at h
    split at h
    · cases h
      exact ⟨[], [], rfl, by simp, by rw [Env.consumePairs], by simp [InGap]⟩
    · cases h
  | cons q pairs ih =>
    obtain ⟨k, v⟩ := q
    rw [loadUnknowns] at h
    split at h
    · next hbound =>
      split at h
      · cases h
      rename_i hnot
      split at h
      · next v' hv =>
        push Not at hnot
        obtain ⟨front, u, hpairs, hu, hfront, hgap⟩ := ih h
        refine ⟨(k, v) :: front, (k, v') :: u, by simp [hpairs], by simp [hu], ?_, ?_⟩
        · rw [Env.consumePairs, hv, hfront]
        · exact forall_mem_cons.mpr ⟨⟨hnot.1, hbound⟩, hgap⟩
      · cases h
    · cases h
      exact ⟨[], [], rfl, by simp, by rw [Env.consumePairs], by simp [InGap]⟩

def KnownKeys (pairs : BtDict) : Prop := ∀ p ∈ pairs, ¬UnknownKey p.1

lemma readSeqno_read (h : readSeqno pairs = .ok (seqno, rest)) :
    ∃ front, pairs = front ++ rest ∧ KnownKeys front := by
  unfold readSeqno at h
  split at h
  · next key i _ =>
    split at h
    · cases h
    split at h
    · next hkey =>
      cases h
      exact ⟨[_], rfl, by simp [KnownKeys, UnknownKey, hkey]⟩
    · cases h
  · cases h

lemma readData_read {data : Dict} (h : readData pairs = .ok (data, rest)) :
    ∃ front, pairs = front ++ rest ∧ KnownKeys front := by
  unfold readData at h
  split at h
  · next key d rest' =>
    split at h
    · next hkey =>
      obtain ⟨data', -, h⟩ := bind_eq_ok.mp h
      cases h
      exact ⟨[_], rfl, by simp [KnownKeys, UnknownKey, hkey]⟩
    · cases h
  · cases h

lemma readLagged_read {lagged : LaggedDiffs}
    (h : readLagged env seqno lag pairs = .ok (lagged, rest)) :
    ∃ front, pairs = front ++ rest ∧ KnownKeys front := by
  cases pairs with
  | nil => cases h
  | cons q pairs =>
    obtain ⟨key, v⟩ := q
    unfold readLagged at h
    simp only at h
    split at h
    · next hkey =>
      split at h
      · next rows =>
        obtain ⟨lagged', -, h⟩ := bind_eq_ok.mp h
        cases h
        exact ⟨[_], rfl, by simp [KnownKeys, UnknownKey, hkey]⟩
      · cases h
    · cases h
      exact ⟨[], rfl, by simp [KnownKeys]⟩

lemma readDiff_read {diff : BtDict} (h : readDiff env pairs = .ok (diff, rest)) :
    ∃ front, pairs = front ++ rest ∧ KnownKeys front := by
  cases pairs with
  | nil => cases h
  | cons q pairs =>
    obtain ⟨key, v⟩ := q
    unfold readDiff at h
    simp only at h
    split at h
    · next hkey =>
      split at h
      · next d =>
        obtain ⟨diff', -, h⟩ := bind_eq_ok.mp h
        cases h
        exact ⟨[_], rfl, by simp [KnownKeys, UnknownKey, hkey]⟩
      · cases h
    · cases h
      exact ⟨[], rfl, by simp [KnownKeys]⟩

lemma verifyConfigSig_read {closed : Bool} {trust : Bool} {sig : Option Signature}
    (hstop : StopsAt (bytes "~") rest)
    (h : verifyConfigSig env serialized rest closed verifier trust = .ok sig) : KnownKeys rest := by
  have hdrop : rest.dropWhile (fun p => decide (p.1 < bytes "~")) = rest := by
    cases rest with
    | nil => rfl
    | cons q rest =>
      have hq : bytes "~" ≤ q.1 := hstop
      simpa using hq
  unfold verifyConfigSig at h
  rw [hdrop] at h
  split at h
  · simp [KnownKeys]
  rename_i key v rest'
  split at h
  · next hkey =>
    split at h
    · split at h
      · split at h
        · cases h
        split at h
        · next hempty =>
          rw [isEmpty_iff.mp hempty, hkey]
          simp [KnownKeys, UnknownKey]
        · cases h
      · cases h
    · cases h
  split at h
  · cases h
  · cases h

lemma KnownKeys.filter (h : KnownKeys pairs) : pairs.filter (fun p => UnknownKey p.1) = [] :=
  filter_eq_nil_iff.mpr fun p hp => by simpa using h p hp

lemma InGap.filter {lo hi : Bytes} (h : InGap lo hi pairs)
    (hgap : (lo, hi) ∈ [(bytes "#", bytes "&"), (bytes "&", bytes "<"), (bytes "<", bytes "="),
      (bytes "=", bytes "~")]) : pairs.filter (fun p => UnknownKey p.1) = pairs :=
  filter_eq_self.mpr fun p hp => by simpa using unknownKey_of_gap (h p hp).1 (h p hp).2 hgap

lemma parse_unknown {trust : Bool}
    (h : ConfigMessage.parse env serialized verifier signer lag trust = .ok m) :
    env.consumePairs (unknownPairs env serialized) = some m.unknown := by
  obtain ⟨pairs, closed, hread, hbody⟩ := parse_eq_ok h
  unfold unknownPairs
  rw [hread]
  obtain ⟨⟨seqno, r1⟩, h1, hbody⟩ := bind_eq_ok.mp hbody
  obtain ⟨⟨unk1, r2⟩, h2, hbody⟩ := bind_eq_ok.mp hbody
  obtain ⟨⟨data, r3⟩, h3, hbody⟩ := bind_eq_ok.mp hbody
  obtain ⟨⟨unk2, r4⟩, h4, hbody⟩ := bind_eq_ok.mp hbody
  obtain ⟨⟨lagged, r5⟩, h5, hbody⟩ := bind_eq_ok.mp hbody
  obtain ⟨⟨unk3, r6⟩, h6, hbody⟩ := bind_eq_ok.mp hbody
  obtain ⟨⟨diff, r7⟩, h7, hbody⟩ := bind_eq_ok.mp hbody
  obtain ⟨⟨unk4, r8⟩, h8, hbody⟩ := bind_eq_ok.mp hbody
  obtain ⟨sig, h9, hbody⟩ := bind_eq_ok.mp hbody
  cases hbody
  have hsorted3 : SortedMap.Sorted unk3 := by
    obtain ⟨-, -, s1, -⟩ := loadUnknowns_inv SortedMap.sorted_nil h2
    obtain ⟨-, -, s2, -⟩ := loadUnknowns_inv s1 h4
    obtain ⟨-, -, s3, -⟩ := loadUnknowns_inv s2 h6
    exact s3
  obtain ⟨-, -, -, -, -, hstop, -⟩ := loadUnknowns_inv hsorted3 h8
  -- the pairs are the sections with the gaps between them
  obtain ⟨s1, e1, k1⟩ := readSeqno_read h1
  obtain ⟨g1, u1, e2, rfl, c1, i1⟩ := loadUnknowns_read h2
  obtain ⟨s2, e3, k2⟩ := readData_read h3
  obtain ⟨g2, u2, e4, rfl, c2, i2⟩ := loadUnknowns_read h4
  obtain ⟨s3, e5, k3⟩ := readLagged_read h5
  obtain ⟨g3, u3, e6, rfl, c3, i3⟩ := loadUnknowns_read h6
  obtain ⟨s4, e7, k4⟩ := readDiff_read h7
  obtain ⟨g4, u4, e8, rfl, c4, i4⟩ := loadUnknowns_read h8
  have k5 := verifyConfigSig_read hstop h9
  have hfilter : pairs.filter (fun p => UnknownKey p.1) = g1 ++ g2 ++ g3 ++ g4 := by
    rw [e1, e2, e3, e4, e5, e6, e7, e8]
    simp only [filter_append, k1.filter, k2.filter, k3.filter, k4.filter, k5.filter,
      i1.filter (by simp), i2.filter (by simp), i3.filter (by simp), i4.filter (by simp),
      nil_append, append_nil, append_assoc]
  simp only [hfilter]
  exact env.consumePairs_append (env.consumePairs_append (env.consumePairs_append c1 c2) c3) c4

/-! ## Serializing -/

lemma sectionPairs_unknown {unknown u1 u2 u3 u4 : BtDict} (h : Gaps unknown u1 u2 u3 u4)
    {data diff : BtDict} {rows : List Bt} :
    (sectionPairs seqno u1 data u2 rows u3 diff u4).filter (fun p => UnknownKey p.1) = unknown := by
  have known : ∀ (k : String) (v : Bt), k ∈ ["#", "&", "<", "="] → KnownKeys [(bytes k, v)] := by
    intro k v hk
    simp only [mem_cons, not_mem_nil, or_false] at hk
    rcases hk with rfl | rfl | rfl | rfl <;> simp [KnownKeys, UnknownKey]
  unfold sectionPairs
  simp only [filter_append, (known _ _ _).filter, h.gap1.filter, h.gap2.filter,
    h.gap3.filter, h.gap4.filter, mem_cons, true_or, or_true, nil_append,
    append_assoc]
  rw [h.eq]
  simp

lemma ConfigMessage.serialize_unknown (env : Env) (h : m.WellFormed) (enableSigning : Bool) :
    unknownPairs env (m.serialize env enableSigning) = m.unknown := by
  obtain ⟨u1, u2, u3, u4, hg, hpairs⟩ := h.gaps m.diff
  unfold unknownPairs serialize serializeImpl
  rw [hpairs]
  cases m.trailer env m.diff enableSigning with
  | none => simp only [env.read_encode, sectionPairs_unknown hg]
  | some sig =>
    have htilde : KnownKeys [(bytes "~", Bt.str sig.val)] := by simp [KnownKeys, UnknownKey]
    simp only [env.read_encode, filter_append, sectionPairs_unknown hg, htilde.filter, append_nil]

lemma AnyMessage.serialize_unknown (env : Env) {c : AnyMessage} (h : c.WellFormed)
    (enableSigning : Bool) :
    unknownPairs env (c.serialize env enableSigning).1 = c.base.unknown := by
  rw [c.serialize_fst, ConfigMessage.serialize_unknown env h.refreshed, c.refreshed_unknown]

/-! ## Merging -/

lemma mergeAccepted_unknown {configs : List ConfigMessage}
    (h : mergeAccepted env verifier signer lag configs = .ok m) (hm : m.merged = true) :
    m.unknown = [] := by
  obtain ⟨-, -, hr⟩ := mergeAccepted_merged_inv h hm
  obtain ⟨best, others, -, hres⟩ := resolve_inv hr
  exact hres.unknown

/-- **Unknown keys survive parsing, incrementing and serializing; a merge that resolves a conflict
keeps those of its highest message only if there are none.** -/
theorem unknown_preserved_iff (env : Env) (verifier : Option Verifier) (signer : Option Signer)
    (lag : Int) : (∀ (serialized : Bytes) (trust : Bool) (m : ConfigMessage),
      ConfigMessage.parse env serialized verifier signer lag trust = .ok m →
        env.consumePairs (unknownPairs env serialized) = some m.unknown) ∧
    (∀ c : AnyMessage, (c.increment env).unknown = c.base.unknown) ∧
    (∀ c : AnyMessage, c.WellFormed → ∀ enableSigning,
      unknownPairs env (c.serialize env enableSigning).1 = c.base.unknown) ∧
    (∀ (L : List Bytes) (handler : Nat → Err → Except Err Unit) (configs : List ConfigMessage)
      (best m : ConfigMessage) (bad : List Nat),
      parseAll env verifier signer lag handler 0 L = .ok (configs, bad) →
      mergeConfigs env L verifier signer lag handler = .ok (m, bad) → m.merged = true →
      Highest lag configs best → ((∀ p ∈ best.unknown, p ∈ m.unknown) ↔ best.unknown = [])) := by
  refine ⟨fun _ _ _ h => parse_unknown h, fun c => c.increment_unknown env,
    fun _ h _ => AnyMessage.serialize_unknown env h _, ?_⟩
  intro L handler configs best m bad hparse hmerge hmerged _
  obtain ⟨configs', hparse', -, hm⟩ := mergeConfigs_inv hmerge
  rw [hparse] at hparse'
  cases hparse'
  rw [mergeAccepted_unknown hm hmerged]
  constructor
  · intro h
    exact eq_nil_iff_forall_not_mem.mpr fun p hp => not_mem_nil (h p hp)
  · intro h
    simp [h]

def newer : Bytes :=
  encodeDict (messagePairs 1 [(bytes "b", .scalar (.int 3))] [] [(bytes "b", .str [])] ++
    [(bytes "@", .int 1)])

def newerHash : Hash := hashOfNat 0xb778b1ff02e28055b28027f4ee7973ac96f73470710a75cc9c53636e6cee1b43

/-- A message that competes with `newer` and has a higher hash. -/
def rival : Bytes := messageBytes 1 [(bytes "c", .scalar (.int 2))] [] [(bytes "c", .str [])]

def rivalHash : Hash := hashOfNat 0xe102c5f3d63cda0b43b35fa2cfaddfb9f10e10e099a6dadcddf9219c16133556

def forwardEnv : Env :=
  Env.bencode (tableHash [(first, firstHash), (newer, newerHash), (rival, rivalHash)])

lemma encodeDict_injective : Function.Injective encodeDict :=
  (Env.bencode (tableHash [])).encode_injective

/-- The hypotheses are met by a message with an unknown key, and by its conflict with a higher
message that has none. -/
theorem unknown_preserved_newer :
    (∃ m, ConfigMessage.parse forwardEnv newer none none 5 false = .ok m ∧
      m.unknown = [(bytes "@", .int 1)]) ∧
    (∃ configs best m, parseAll forwardEnv none none 5 skipHandler 0 [newer, rival] =
        .ok (configs, []) ∧
      mergeConfigs forwardEnv [newer, rival] none none 5 skipHandler = .ok (m, []) ∧
      Highest 5 configs best ∧ ∀ p ∈ best.unknown, p ∈ m.unknown) := by
  obtain ⟨hparse, -, -, hmerge⟩ := unknown_preserved_iff forwardEnv none none 5
  constructor
  · obtain ⟨m, hm⟩ : ∃ m, Accepts forwardEnv none none 5 newer m :=
      exists_accepts_of_isSome (by decide +kernel)
    have hu : (forwardEnv.consumePairs (unknownPairs forwardEnv newer)).map encodeDict =
        some (encodeDict [(bytes "@", .int 1)]) := by decide +kernel
    rw [hparse newer false m hm] at hu
    exact ⟨m, hm, encodeDict_injective (Option.some.inj hu)⟩
  have hcheck : mergeCheck forwardEnv none none 5 [newer, rival] (fun _ best _ =>
      best.unknown.isEmpty) = true := by decide +kernel
  obtain ⟨configs, best, m, hp, hm, hmerged, hbest, hc⟩ := exists_of_mergeCheck hcheck
  exact ⟨configs, best, m, hp, hm, hbest,
    (hmerge _ _ configs best m [] hp hm hmerged hbest).mpr (isEmpty_iff.mp hc)⟩

/-- The highest message has a key `"@"`, and the message that resolves its conflict with `first`
has not. -/
theorem merge_drops_unknown_key :
    ∃ configs best m, parseAll forwardEnv none none 5 skipHandler 0 [first, newer] =
        .ok (configs, []) ∧
      mergeConfigs forwardEnv [first, newer] none none 5 skipHandler = .ok (m, []) ∧
      m.merged = true ∧ Highest 5 configs best ∧
      (bytes "@", Bt.int 1) ∈ best.unknown ∧ (bytes "@", Bt.int 1) ∉ m.unknown := by
  have hcheck : mergeCheck forwardEnv none none 5 [first, newer] (fun _ best m =>
      encodeDict best.unknown = encodeDict [(bytes "@", .int 1)] && m.unknown.isEmpty) = true := by
    decide +kernel
  obtain ⟨configs, best, m, hp, hm, hmerged, hbest, hc⟩ := exists_of_mergeCheck hcheck
  obtain ⟨hbest', hm'⟩ := Bool.and_eq_true_iff.mp hc
  have hu : best.unknown = [(bytes "@", .int 1)] :=
    encodeDict_injective (of_decide_eq_true hbest')
  exact ⟨configs, best, m, hp, hm, hmerged, hbest, by simp [hu], by simp [isEmpty_iff.mp hm']⟩

end Bchat.Config
