import Bchat.Roundtrip.Message

/-!
# Serializing a message that was parsed

The parser accepts more than the writer writes: sections can be missing, and lagged diffs that are
too old are dropped. The message is then serialized in the writer's form, but with the signature
over the bytes received. Parsing it again succeeds only if the signature covers the writer's form as
well.
-/

namespace Bchat.Config

open Bencode ConfigMessage

variable {env : Env} {m : ConfigMessage} {verifier : Option Verifier} {signer : Option Signer}
  {enableSigning : Bool} {b : Bytes}

lemma serialize_of_trailer {sig : Signature} (h : m.trailer env m.diff enableSigning = some sig) :
    m.serialize env enableSigning =
      env.encode (m.pairs m.diff ++ [(bytes "~", Bt.str sig.val)]) := by
  unfold serialize serializeImpl
  rw [h]

lemma signatureAccepted_of_parse {m' : ConfigMessage} (h : m.WellFormed) {trust : Bool}
    (hp : ConfigMessage.parse env (m.serialize env enableSigning) verifier signer m.lag trust =
      .ok m') : SignatureAccepted env verifier m enableSigning := by
  intro f hf
  obtain ⟨sig, hsig, hok⟩ := (parse_inv hp).verified f hf
  -- without the verifier the parser trusts the same signature, which is the one written
  obtain ⟨sig', hnone, heq⟩ := parse_none hp none true
  rw [parse_serialize env h (signatureAccepted_none env m enableSigning) none true] at hnone
  have htrailer : m.trailer env m.diff enableSigning = sig' :=
    congrArg verifiedSignature (Except.ok.inj hnone)
  have hv : verifier.isSome := by
    rw [Option.mem_def.mp hf]
    rfl
  rw [heq hv rfl, Option.mem_def.mp hsig] at htrailer
  obtain ⟨u1, u2, u3, u4, hg, hpairs⟩ := h.gaps m.diff
  have hkeys : ∀ p ∈ m.pairs m.diff, p.1 ≠ bytes "~" := by
    rw [hpairs]
    exact fun p hp => (sectionPairs_key_lt hg p hp).ne
  refine ⟨sig, htrailer, ?_⟩
  rw [serialize_of_trailer htrailer, env.readUntil_encode _ hkeys] at hok
  exact hok

/-! ## Reparsed messages -/

lemma reparsed_pairs (env : Env) (verifier : Option Verifier) (signer : Option Signer)
    (m : ConfigMessage) (es trust : Bool) (currDiff : BtDict) :
    (m.reparsed env es verifier signer trust).pairs currDiff = m.pairs currDiff := by
  unfold pairs reparsed seqno
  simp [List.filter_filter]

lemma reparsed_trailer {trust : Bool} {lag : Int} (h : Parsed env b verifier signer lag trust m) :
    (m.reparsed env true verifier signer trust).trailer env m.diff true =
      m.trailer env m.diff true := by
  have hpairs := reparsed_pairs env verifier signer m true trust m.diff
  by_cases hkeep : (verifier.isSome || trust) = true
  · cases htr : m.trailer env m.diff true with
    | some sig =>
      unfold trailer
      simp [reparsed, hkeep, htr]
    | none =>
      have hsigner : signer = none := by
        cases hs : signer with
        | none => rfl
        | some s =>
          unfold trailer at htr
          rw [h.signer_eq, hs] at htr
          cases hv : m.verifiedSignature <;> simp [hv] at htr
      unfold trailer
      simp [reparsed, hkeep, htr, hsigner]
  have hnone : verifier = none ∧ trust = false := by simpa using hkeep
  have hunsigned := h.unverified hnone.1 hnone.2
  unfold trailer
  rw [hpairs, hunsigned, h.signer_eq]
  simp [reparsed, hkeep]

/-! ## The round trips -/

/-- The fields of a message that its bytes determine, apart from its hash. -/
def ConfigMessage.content (m : ConfigMessage) : Int × Dict × LaggedDiffs × BtDict × BtDict :=
  (m.seqno, m.data, m.laggedDiffs, m.diff, m.unknown)

def ReadsBack (env : Env) (verifier : Option Verifier) (signer : Option Signer) (trust : Bool)
    (m : ConfigMessage) : Prop :=
  ∃ m', ConfigMessage.parse env (m.serialize env true) verifier signer m.lag trust = .ok m' ∧
    m'.content = (m.seqno, m.data,
      m.laggedDiffs.filter (fun p => m.seqno - m.lag < p.1.seqno ∧ p.1.seqno < m.seqno),
      m.diff, m.unknown)

/-- The serialization of the message is parsed to the same content, and that is serialized to the
same bytes. -/
def Stable (env : Env) (verifier : Option Verifier) (signer : Option Signer) (lag : Int)
    (trust : Bool) (m : ConfigMessage) : Prop :=
  ∃ m', ConfigMessage.parse env (m.serialize env true) verifier signer lag trust = .ok m' ∧
    m'.content = m.content ∧ m'.serialize env true = m.serialize env true

section

variable {trust : Bool}

lemma readsBack_iff (h : m.WellFormed) :
    ReadsBack env verifier signer trust m ↔ SignatureAccepted env verifier m true := by
  constructor
  · rintro ⟨m', hp, -⟩
    exact signatureAccepted_of_parse h hp
  intro hsig
  refine ⟨_, parse_serialize env h hsig signer trust, ?_⟩
  have hfilter : m.laggedDiffs.filter (inWindow m.seqno m.lag) =
      m.laggedDiffs.filter (fun p => m.seqno - m.lag < p.1.seqno ∧ p.1.seqno < m.seqno) := by
    refine List.filter_congr fun p _ => ?_
    rw [Bool.eq_iff_iff, inWindow_iff, decide_eq_true_iff]
  show (m.seqno, m.data, m.laggedDiffs.filter (inWindow m.seqno m.lag), m.diff, m.unknown) = _
  rw [hfilter]

lemma stable_iff {lag : Int} (h : ConfigMessage.parse env b verifier signer lag trust = .ok m) :
    Stable env verifier signer lag trust m ↔ SignatureAccepted env verifier m true := by
  have hpar := parse_inv h
  constructor
  · rintro ⟨m', hp, -⟩
    rw [← hpar.lag_eq] at hp
    exact signatureAccepted_of_parse hpar.wf hp
  intro hsig
  have hp := parse_serialize env hpar.wf hsig signer trust
  rw [hpar.lag_eq] at hp
  refine ⟨_, hp, ?_, ?_⟩
  · -- every lagged diff of a parsed message is in the window already
    have hall : m.laggedDiffs.filter (inWindow m.seqno m.lag) = m.laggedDiffs :=
      List.filter_eq_self.mpr fun p hp => by rw [hpar.lag_eq]; exact hpar.window p hp
    show (m.seqno, m.data, m.laggedDiffs.filter (inWindow m.seqno m.lag), m.diff, m.unknown) =
      m.content
    rw [hall]
    rfl
  show (m.reparsed env true verifier signer trust).serializeImpl env m.diff true =
    m.serializeImpl env m.diff true
  unfold serializeImpl
  rw [reparsed_trailer hpar, reparsed_pairs]

end

/-- A message of a device that keeps lagged diffs for longer. -/
def longLagPairs : BtDict :=
  messagePairs 7 [(bytes "a", .scalar (.int 1))]
    [(⟨1, hashOfNat 0x5ed18d6b02c8e049777ea92264d280ef772c5773674d9b1811b3ecaaf6e4d729⟩,
      [(bytes "a", .str [])])] []

def longLagSignature : Signature :=
  signatureOfNat
    (0x623b4be1549705e04040a4b031c8ff88349810cd29f7bc1ab96d8ae902cddece * 2 ^ 256 +
      0x332a96e165fc8dd69b9399f545058a267996ae049216b43eee64b4b0fafa210d)

def longLag : Bytes := encodeDict (longLagPairs ++ [(bytes "~", .str longLagSignature.val)])

def shortLagPairs : BtDict := messagePairs 7 [(bytes "a", .scalar (.int 1))] [] []

def shortLagSignature : Signature :=
  signatureOfNat
    (0x9fb5cf6a02855d960dc822e3856fbbc8b36884b599eff90ff33c050133225559 * 2 ^ 256 +
      0xf7bb6a19299733db0603afab0d5d38ed46b474da2f6a4037b75f5f624a38d005)

def shortLag : Bytes := encodeDict (shortLagPairs ++ [(bytes "~", .str shortLagSignature.val)])

def reserialized : Bytes := encodeDict (shortLagPairs ++ [(bytes "~", .str longLagSignature.val)])

def signedEnv : Env :=
  Env.bencode (tableHash
    [(longLag, hashOfNat 0x960e83ab6551a8a600ad4c5d43773a3c021e783dee75f57fb03f837b4100035c),
      (shortLag, hashOfNat 0xd497f5c7c705d28bdaa21fcfc039c24d27ee0502153e868287245e4be099d104),
      (reserialized,
        hashOfNat 0x267427d3f4125153f696b2a939d1e088629e79bd5247c89081cdaad6a4bcf28d)])

/-- The signatures were made with one key; it accepts neither of them for the other message. -/
def sampleVerifier : Verifier :=
  tableVerifier [(Bencode.encodeOpen longLagPairs, longLagSignature),
    (Bencode.encodeOpen shortLagPairs, shortLagSignature)]

def signatureAcceptedCheck (env : Env) (f : Verifier) (b : Bytes) : Bool :=
  match ConfigMessage.parse env b (some f) none 5 false with
  | .ok m => (m.trailer env m.diff true).any (fun sig => f (env.encodeOpen (m.pairs m.diff)) sig)
  | .error _ => false

lemma signatureAccepted_of_check {f : Verifier} (h : signatureAcceptedCheck env f b = true) :
    ∃ m, ConfigMessage.parse env b (some f) none 5 false = .ok m ∧
      SignatureAccepted env (some f) m true := by
  unfold signatureAcceptedCheck at h
  split at h
  · next m hm =>
    refine ⟨m, hm, fun g hg => ?_⟩
    cases hg
    cases htr : m.trailer env m.diff true with
    | none =>
      rw [htr] at h
      cases h
    | some sig =>
      rw [htr] at h
      exact ⟨sig, rfl, h⟩
  · cases h

end Bchat.Config
