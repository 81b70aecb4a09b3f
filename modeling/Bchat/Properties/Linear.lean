import Bchat.Properties.Derive
import Bchat.Roundtrip.Reserialize

/-!
# Linear histories

A message derived from the one before it, in memory or after parsing, carries the diffs of all its
ancestors that are less than `lag` behind. The merge drops the older ones by their age, so a linear
history never conflicts.
-/

namespace Bchat.Config

open Bencode List ConfigMessage AnyMessage

variable {env : Env} {c : AnyMessage}

/-! ## Copies of a message -/

namespace AnyMessage

def wire (env : Env) (c : AnyMessage) : Bytes := (c.serialize env true).1

lemma wire_eq (env : Env) (c : AnyMessage) : c.wire env = c.refreshed.serialize env true :=
  serialize_fst env c true

/-- A message on some device: the object itself, also after it was serialized, or what was parsed
from the published bytes with any keys. -/
inductive Copy (env : Env) (c : AnyMessage) : AnyMessage → Prop
  | memory : Copy env c c
  | serialized (enableSigning : Bool) : Copy env c (c.serialize env enableSigning).2
  | parsed {verifier : Option Verifier} {signer : Option Signer} {trust : Bool}
      {m : ConfigMessage} :
      ConfigMessage.parse env (c.wire env) verifier signer c.base.lag trust = .ok m →
      Copy env c (.immutable m)

structure Publishable (env : Env) (c : AnyMessage) : Prop where
  wf : c.WellFormed
  ownHash : c.ownHash env = env.blake2b (c.wire env)

end AnyMessage

lemma MutableConfigMessage.refreshDiff_refreshDiff {m : MutableConfigMessage}
    (h : Dict.WF m.data) : m.refreshDiff.refreshDiff = m.refreshDiff := by
  have hp : prune (prune m.data) = prune m.data := prune_eq_self (wf_prune h) (pruned_prune h)
  unfold refreshDiff
  simp only [hp]

lemma MutableConfigMessage.WellFormed.refreshed_mutable {m : MutableConfigMessage}
    (h : m.WellFormed) : m.refreshDiff.WellFormed :=
  { h with dataWF := wf_prune h.dataWF }

namespace AnyMessage

section

variable {es : Bool}

lemma serialize_snd_refreshed (h : c.WellFormed) :
    (c.serialize env es).2.refreshed = c.refreshed := by
  cases c with
  | immutable m => rfl
  | mutable m =>
    exact congrArg MutableConfigMessage.toConfigMessage
      (MutableConfigMessage.refreshDiff_refreshDiff h.dataWF)

lemma serialize_snd_ownHash (h : c.WellFormed) :
    (c.serialize env es).2.ownHash env = c.ownHash env := by
  cases c with
  | immutable m => rfl
  | mutable m =>
    show env.blake2b (m.refreshDiff.serialize env true).1 = env.blake2b (m.serialize env true).1
    unfold MutableConfigMessage.serialize
    rw [MutableConfigMessage.refreshDiff_refreshDiff h.dataWF]

lemma WellFormed.serialize_snd (h : c.WellFormed) (env : Env) (es : Bool) :
    (c.serialize env es).2.WellFormed := by
  cases c with
  | immutable m => exact h
  | mutable m => exact MutableConfigMessage.WellFormed.refreshed_mutable h

end

/-- What every copy of a message has in common with it. -/
structure Matches (env : Env) (c p : AnyMessage) : Prop where
  wf : p.WellFormed
  ownHash : p.ownHash env = env.blake2b (c.wire env)
  seqno : p.seqno = c.seqno
  lag : p.base.lag = c.base.lag
  lagged : ∀ q ∈ c.refreshed.laggedDiffs, inWindow c.seqno c.base.lag q = true →
    q ∈ p.refreshed.laggedDiffs

lemma Copy.matches {env : Env} {c p : AnyMessage} (hp : Copy env c p)
    (hc : c.Publishable env) : c.Matches env p := by
  cases hp with
  | memory => exact ⟨hc.wf, hc.ownHash, rfl, rfl, fun q hq _ => hq⟩
  | serialized es =>
    refine ⟨hc.wf.serialize_snd env es, (serialize_snd_ownHash hc.wf).trans hc.ownHash, ?_, ?_, ?_⟩
    · cases c <;> rfl
    · cases c <;> rfl
    intro q hq _
    rw [serialize_snd_refreshed hc.wf]
    exact hq
  | parsed hm =>
    next m =>
    have hpar := parse_inv hm
    obtain ⟨sig, hnone, -⟩ := parse_none hm none false
    rw [wire_eq, ← refreshed_lag, parse_serialize env hc.wf.refreshed
      (signatureAccepted_none env _ _) none false] at hnone
    have heq := Except.ok.inj hnone
    refine ⟨hpar.wf, hpar.hash, ?_, hpar.lag_eq, fun q hq hw => ?_⟩
    · have hs := congrArg ConfigMessage.seqno heq
      rw [← refreshed_seqno c]
      exact hs.symm
    have hl := congrArg laggedDiffs heq
    show q ∈ m.laggedDiffs
    have hl' : c.refreshed.laggedDiffs.filter (inWindow c.refreshed.seqno c.refreshed.lag) =
        m.laggedDiffs := hl
    rw [← hl', refreshed_seqno, refreshed_lag]
    exact mem_filter.mpr ⟨hq, hw⟩

end AnyMessage

/-! ## Chains -/

/-- A linear history, the newest message first. -/
inductive Chain (env : Env) (lag : Int) : List AnyMessage → Prop
  | base {c : AnyMessage} : c.Publishable env → c.base.lag = lag → Chain env lag [c]
  | step {c p : AnyMessage} {older : List AnyMessage} {d : Dict} :
      Chain env lag (c :: older) → c.Copy env p → Dict.WF d → InInt64 (c.seqno + 1) →
      Chain env lag (.mutable (p.edited env d) :: c :: older)

/-- What a chain makes sure of. -/
structure Chain.Facts (env : Env) (lag : Int) (c : AnyMessage) (older : List AnyMessage) :
    Prop where
  publishable : ∀ o ∈ c :: older, o.Publishable env
  lag_eq : ∀ o ∈ c :: older, o.base.lag = lag
  descending : (c :: older).Pairwise (fun a b => b.seqno < a.seqno)
  includes : ∀ o ∈ older, c.seqno - lag < o.seqno →
    ∃ d, (⟨o.seqno, env.blake2b (o.wire env)⟩, d) ∈ c.refreshed.laggedDiffs

lemma Chain.Facts.step {env : Env} {lag : Int} {c p : AnyMessage} {older : List AnyMessage}
    {d : Dict} (h : Chain.Facts env lag c older) (hp : c.Copy env p) (hd : Dict.WF d)
    (hseq : InInt64 (c.seqno + 1)) :
    Chain.Facts env lag (.mutable (p.edited env d)) (c :: older) := by
  have hc := h.publishable c mem_cons_self
  have hlag := h.lag_eq c mem_cons_self
  have hm := hp.matches hc
  have hseqno : (mutable (p.edited env d)).seqno = c.seqno + 1 := by
    rw [← hm.seqno]
    exact increment_seqno env p
  have hlagged : (mutable (p.edited env d)).refreshed.laggedDiffs =
      p.refreshed.laggedDiffs.filter (inWindow c.seqno lag) ++
        [(⟨c.seqno, env.blake2b (c.wire env)⟩, p.refreshed.diff)] := by
    have hinc := increment_laggedDiffs env hm.wf
    rw [hm.seqno, hm.lag, hlag, hm.ownHash] at hinc
    exact hinc
  refine ⟨?_, ?_, ?_, ?_⟩
  · intro o ho
    rcases mem_cons.mp ho with rfl | ho
    · exact ⟨hm.wf.edited env (by rw [hm.seqno]; exact hseq) hd, rfl⟩
    · exact h.publishable o ho
  · intro o ho
    rcases mem_cons.mp ho with rfl | ho
    · exact (increment_lag env p).trans (hm.lag.trans hlag)
    · exact h.lag_eq o ho
  · refine pairwise_cons.mpr ⟨fun o ho => ?_, h.descending⟩
    rcases mem_cons.mp ho with rfl | ho
    · omega
    · have := (pairwise_cons.mp h.descending).1 o ho
      omega
  intro o ho hage
  rw [hlagged]
  rcases mem_cons.mp ho with rfl | ho
  · exact ⟨_, mem_append_right _ (mem_singleton_self _)⟩
  obtain ⟨df, hdf⟩ := h.includes o ho (by omega)
  have hlt := (pairwise_cons.mp h.descending).1 o ho
  -- the ancestor is strictly between the two ends of the window of its descendant
  have hw : inWindow c.seqno lag (⟨o.seqno, env.blake2b (o.wire env)⟩, df) = true :=
    inWindow_iff.mpr ⟨by show c.seqno - lag < o.seqno; omega, hlt⟩
  exact ⟨df, mem_append_left _ (mem_filter.mpr ⟨hm.lagged _ hdf (by rw [hlag]; exact hw), hw⟩)⟩

lemma Chain.facts {env : Env} {lag : Int} {l : List AnyMessage} (h : Chain env lag l) :
    ∃ c older, l = c :: older ∧ Chain.Facts env lag c older := by
  induction h with
  | base hc hlag =>
    refine ⟨_, [], rfl, ?_, ?_, pairwise_singleton _ _, ?_⟩
    · simpa using hc
    · simpa using hlag
    · simp
  | step _ hp hd hseq ih =>
    obtain ⟨c', older', heq, hf⟩ := ih
    cases heq
    exact ⟨_, _, rfl, hf.step hp hd hseq⟩

/-! ## Merging the messages of a chain -/

def SignedBy (env : Env) (signer : Option Signer) (c : AnyMessage) : Prop :=
  c.refreshed.trailer env c.refreshed.diff true =
    signer.map (fun s => s (env.encodeOpen (c.refreshed.pairs c.refreshed.diff)))

def AnyMessage.arrived (env : Env) (verifier : Option Verifier) (signer : Option Signer)
    (c : AnyMessage) : ConfigMessage :=
  c.refreshed.reparsed env true verifier signer false

section

variable {verifier : Option Verifier} {signer : Option Signer} {lag : Int} {older : List AnyMessage}

lemma accepts_arrived (signer : Option Signer) {o : AnyMessage} (ho : o.Publishable env)
    (hlag : o.base.lag = lag)
    (hsig : SignatureAccepted env verifier o.refreshed true) :
    Accepts env verifier signer lag (o.wire env) (o.arrived env verifier signer) := by
  have h := parse_serialize env ho.wf.refreshed hsig signer false
  rw [refreshed_lag, hlag, ← wire_eq] at h
  exact h

@[simp] lemma arrived_seqno (o : AnyMessage) :
    (o.arrived env verifier signer).seqno = o.seqno := refreshed_seqno o

lemma arrived_seqnoHash (o : AnyMessage) :
    (o.arrived env verifier signer).seqnoHash = ⟨o.seqno, env.blake2b (o.wire env)⟩ := by
  rw [wire_eq, ← refreshed_seqno]
  rfl

lemma arrived_laggedDiffs (o : AnyMessage) : (o.arrived env verifier signer).laggedDiffs =
    o.refreshed.laggedDiffs.filter (inWindow o.seqno o.base.lag) := by
  rw [← refreshed_seqno, ← refreshed_lag]
  rfl

lemma serialize_arrived (hsig : SignatureAccepted env verifier c.refreshed true)
    (hsame : verifier = none → SignedBy env signer c) (i : Option Nat) :
    ({ c.arrived env verifier signer with unmerged := i } : ConfigMessage).serialize env true =
      c.wire env := by
  have htrailer : (c.arrived env verifier signer).trailer env c.refreshed.diff true =
      c.refreshed.trailer env c.refreshed.diff true := by
    cases verifier with
    | some f =>
      obtain ⟨sig, hs, -⟩ := hsig f rfl
      unfold arrived reparsed
      rw [Option.mem_def.mp hs]
      rfl
    | none =>
      rw [hsame rfl, ← reparsed_pairs env none signer c.refreshed true false]
      cases signer <;> rfl
  rw [wire_eq]
  show (c.arrived env verifier signer).serializeImpl env c.refreshed.diff true =
    c.refreshed.serializeImpl env c.refreshed.diff true
  unfold serializeImpl
  rw [htrailer]
  unfold arrived
  rw [reparsed_pairs]

lemma Chain.Facts.seqno_le (h : Chain.Facts env lag c older) {o : AnyMessage}
    (ho : o ∈ c :: older) : o.seqno ≤ c.seqno := by
  rcases mem_cons.mp ho with rfl | ho
  · exact le_refl _
  · exact ((pairwise_cons.mp h.descending).1 o ho).le

lemma Chain.Facts.eq_of_seqno_eq (h : Chain.Facts env lag c older) {o o' : AnyMessage}
    (ho : o ∈ c :: older) (ho' : o' ∈ c :: older) (heq : o.seqno = o'.seqno) : o = o' := by
  by_contra hne
  have hdiff : (c :: older).Pairwise (fun a b => a.seqno ≠ b.seqno) :=
    h.descending.imp fun hlt => hlt.ne'
  have : Std.Symm (fun a b : AnyMessage => a.seqno ≠ b.seqno) := ⟨fun _ _ hab => hab.symm⟩
  exact hdiff.forall ho ho' hne heq

lemma Chain.Facts.coherent (h : Chain.Facts env lag c older) {L : List Bytes}
    {ms : List ConfigMessage} (hms : List.Forall₂ (Accepts env verifier signer lag) L ms)
    (hof : ∀ m ∈ ms, ∃ o ∈ c :: older, m = o.arrived env verifier signer) : Coherent ms := by
  refine coherent_of_distinct hms fun a ha b hb heq => ?_
  obtain ⟨o, ho, rfl⟩ := hof a ha
  obtain ⟨o', ho', rfl⟩ := hof b hb
  rw [arrived_seqnoHash, arrived_seqnoHash] at heq
  rw [h.eq_of_seqno_eq ho ho' (SeqnoHash.mk.inj heq).1]

lemma Chain.Facts.eq_of_live (h : Chain.Facts env lag c older) {ms : List ConfigMessage}
    (hms : ∀ m ∈ ms, ∃ o ∈ c :: older, m = o.arrived env verifier signer)
    (hc : c.arrived env verifier signer ∈ ms) {m : ConfigMessage} (hm : Live lag ms m) :
    m = c.arrived env verifier signer := by
  obtain ⟨o, ho, rfl⟩ := hms m hm.mem
  rcases mem_cons.mp ho with rfl | ho
  · rfl
  exfalso
  by_cases hage : c.seqno - lag < o.seqno
  · obtain ⟨df, hdf⟩ := h.includes o ho hage
    have hlt := (pairwise_cons.mp h.descending).1 o ho
    refine hm.notIncluded ⟨_, hc, SortedMap.find?_isSome_iff.mpr
      ⟨(⟨o.seqno, env.blake2b (o.wire env)⟩, df), ?_, (arrived_seqnoHash o).symm⟩⟩
    rw [arrived_laggedDiffs, h.lag_eq c mem_cons_self]
    exact mem_filter.mpr ⟨hdf, inWindow_iff.mpr ⟨hage, hlt⟩⟩
  refine hm.notTooOld ?_
  have hle := le_maxSeqno hc
  rw [arrived_seqno] at hle
  unfold TooOld
  rw [arrived_seqno]
  omega

end

/-! ## A history of three messages -/

def edit1 : Bytes :=
  messageBytes 1 [(bytes "a", .scalar (.int 1))] [(⟨0, initialHash⟩, [])] [(bytes "a", .str [])]

def edit1Hash : Hash := hashOfNat 0x2821b859f535c15a0680fed4d4109cd5a08e16909d211c9a3bd3681f9c93abb0

def edit2 : Bytes :=
  messageBytes 2 [(bytes "a", .scalar (.int 1)), (bytes "b", .scalar (.int 2))]
    [(⟨0, initialHash⟩, []), (⟨1, edit1Hash⟩, [(bytes "a", .str [])])] [(bytes "b", .str [])]

def edit2Hash : Hash := hashOfNat 0xc4c819947ab05aec40c5ac5d9349d38b3a391a5e7938e0c9d6aff26ae1f253fd

def historyEnv : Env :=
  Env.bencode (tableHash [(initial, initialHash), (edit1, edit1Hash), (edit2, edit2Hash)])

def history1 : AnyMessage :=
  .mutable ((AnyMessage.immutable (ConfigMessage.empty historyEnv)).edited historyEnv
    [(bytes "a", .scalar (.int 1))])

/-- Another device parses the first edit and makes one more. -/
def history2 : AnyMessage :=
  .mutable ((AnyMessage.immutable (history1.arrived historyEnv none none)).edited historyEnv
    [(bytes "a", .scalar (.int 1)), (bytes "b", .scalar (.int 2))])

lemma wf_scalars {d : Dict} (hs : SortedMap.Sorted d)
    (h : ∀ p ∈ d, ∃ s, p.2 = DictValue.scalar s) : Dict.WF d := by
  rw [Dict.wf_iff]
  refine ⟨hs, fun p hp => ?_⟩
  obtain ⟨s, hs⟩ := h p hp
  rw [hs]
  trivial

lemma history_chain : Chain historyEnv 5 [history2, history1, .immutable (empty historyEnv)] := by
  have h0 : Chain historyEnv 5 [.immutable (empty historyEnv)] :=
    .base ⟨empty_wellFormed historyEnv, rfl⟩ rfl
  have h1 : Chain historyEnv 5 [history1, .immutable (empty historyEnv)] :=
    .step h0 .memory (wf_scalars (by decide) (by simp)) (by decide)
  obtain ⟨c, older, heq, hf⟩ := h1.facts
  cases heq
  have hacc := accepts_arrived none (hf.publishable history1 (by simp))
    (hf.lag_eq history1 (by simp)) (signatureAccepted_none historyEnv _ true)
  exact .step h1 (.parsed hacc) (wf_scalars (by decide) (by simp)) (by decide +kernel)

end Bchat.Config
