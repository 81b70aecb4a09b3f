import Bchat.Config.Base
import Bchat.Properties.Derive
import Bchat.Properties.Replay

/-!
# What a merge does to a config object

The outcomes of the merging constructor and of `_merge`, so that later proofs need not unfold
them.
-/

namespace Bchat.Config

open Bencode List ConfigMessage

variable {bad : List Nat} {m : ConfigMessage} {received : List Row}
  {handler : Nat → Err → Except Err Unit} {L : List Bytes} {i k : Nat}
  {configs others : List ConfigMessage} {best : ConfigMessage}

/-! ## The merging constructor -/

section

variable {env : Env} {verifier : Option Verifier} {signer : Option Signer} {lag : Int}

lemma accepts_of_mem_parseAll
    (h : parseAll env verifier signer lag handler i L = .ok (configs, bad)) :
    ∀ m ∈ configs, ∃ b ∈ L, Accepts env verifier signer lag b m := by
  induction L generalizing i configs bad with
  | nil =>
    cases h
    simp
  | cons b rest ih =>
    rw [parseAll] at h
    split at h
    · next m hm =>
      obtain ⟨r, hr, h⟩ := bind_eq_ok.mp h
      cases h
      intro m' hm'
      rcases mem_cons.mp hm' with rfl | hm'
      · exact ⟨b, mem_cons_self, hm⟩
      · obtain ⟨b', hb', hacc⟩ := ih hr m' hm'
        exact ⟨b', mem_cons_of_mem _ hb', hacc⟩
    split at h
    · obtain ⟨-, -, h⟩ := bind_eq_ok.mp h
      obtain ⟨r, hr, h⟩ := bind_eq_ok.mp h
      cases h
      intro m' hm'
      obtain ⟨b', hb', hacc⟩ := ih hr m' hm'
      exact ⟨b', mem_cons_of_mem _ hb', hacc⟩
    · cases h

lemma mergeConfigs_inv (h : mergeConfigs env L verifier signer lag handler = .ok (m, bad)) :
    ∃ configs, parseAll env verifier signer lag handler 0 L = .ok (configs, bad) ∧ configs ≠ [] ∧
      mergeAccepted env verifier signer lag configs = .ok m := by
  obtain ⟨⟨configs, bad'⟩, hp, h⟩ := bind_eq_ok.mp h
  simp only at h
  split at h
  · cases h
  rename_i hne
  obtain ⟨m', hm', h⟩ := bind_eq_ok.mp h
  cases h
  exact ⟨configs, hp, by simpa using hne, hm'⟩

/-- What the conflict resolution produces. -/
structure Resolved (env : Env) (verifier : Option Verifier) (signer : Option Signer)
    (lag top : Int) (best : ConfigMessage) (others : List ConfigMessage)
    (m : ConfigMessage) : Prop where
  data : ∃ d, applyReplay (buildReplay (best :: others)) best.data = .ok d ∧ m.data = prune d
  diff : m.diff = []
  laggedDiffs : m.laggedDiffs = (buildReplay (best :: others)).map (fun p => (p.1, p.2.2))
  unknown : m.unknown = []
  seqno : m.seqno = top + 1
  unsigned : m.verifiedSignature = none
  merged : m.unmerged = none
  verifier_eq : m.verifier = verifier
  signer_eq : m.signer = signer
  lag_eq : m.lag = lag

lemma resolve_inv {top : Int} {survivors : List ConfigMessage}
    (h : resolve env verifier signer lag top survivors = .ok m) :
    ∃ best others, sortDescending survivors = best :: others ∧
      Resolved env verifier signer lag top best others m := by
  unfold resolve at h
  split at h
  · cases h
  rename_i best others hs
  obtain ⟨d, hd, h⟩ := bind_eq_ok.mp h
  cases h
  exact ⟨best, others, hs, ⟨d, hd, rfl⟩, rfl, rfl, rfl, rfl, rfl, rfl, rfl, rfl, rfl⟩

structure Highest (lag : Int) (configs : List ConfigMessage) (best : ConfigMessage) : Prop where
  survives : best ∈ survivors lag configs
  highest : ∀ c ∈ survivors lag configs, c.seqnoHash ≤ best.seqnoHash

lemma mem_and_le_of_sortDescending (h : sortDescending configs = best :: others) :
    best ∈ configs ∧ ∀ c ∈ configs, c.seqnoHash ≤ best.seqnoHash := by
  have hsorted := sortDescending_pairwise configs
  rw [h, pairwise_cons] at hsorted
  refine ⟨mem_sortDescending.mp (h ▸ mem_cons_self), fun c hc => ?_⟩
  have hc' : c ∈ best :: others := h ▸ mem_sortDescending.mpr hc
  rcases mem_cons.mp hc' with rfl | hc'
  · exact le_refl _
  · exact hsorted.1 c hc'

lemma Highest.of_sortDescending (h : sortDescending (survivors lag configs) = best :: others) :
    Highest lag configs best :=
  ⟨(mem_and_le_of_sortDescending h).1, (mem_and_le_of_sortDescending h).2⟩

lemma Highest.unique {a b : ConfigMessage} (ha : Highest lag configs a)
    (hb : Highest lag configs b) : a = b := by
  have hsymm : Std.Symm (fun a b : ConfigMessage => a.seqnoHash ≠ b.seqnoHash) :=
    ⟨fun _ _ h => h.symm⟩
  by_contra hne
  exact (survivors_pairwise lag configs).forall ha.survives hb.survives hne
    (le_antisymm (hb.highest a ha.survives) (ha.highest b hb.survives))

section

variable (hlag : 1 ≤ lag) (hne : configs ≠ [])
  (hlt : ∀ c ∈ configs, ∀ p ∈ c.laggedDiffs, p.1.seqno < c.seqno)
  (hmin : ∀ c ∈ configs, -2 ^ 63 ≤ c.seqno)

include hlag hne hlt hmin

lemma exists_survivor_top :
    ∃ c ∈ survivors lag configs, ∀ c' ∈ configs, c'.seqnoHash ≤ c.seqnoHash := by
  have htop : ∃ i : Nat, ∃ c : ConfigMessage, configs[i]? = some c ∧
      ∀ c' ∈ configs, c'.seqnoHash ≤ c.seqnoHash := by
    obtain ⟨m, hm⟩ := exists_mem_of_ne_nil configs hne
    obtain ⟨best, others, hsort⟩ :=
      exists_cons_of_ne_nil (ne_nil_of_mem (mem_sortDescending.mpr hm))
    obtain ⟨hbest, htop⟩ := mem_and_le_of_sortDescending hsort
    obtain ⟨i, hi⟩ := mem_iff_getElem?.mp hbest
    exact ⟨i, best, hi, htop⟩
  classical
  obtain ⟨c, hi, hc⟩ := Nat.find_spec htop
  have hfirst : ∀ j < Nat.find htop, ∀ c', configs[j]? = some c' → c'.seqnoHash ≠ c.seqnoHash :=
    fun j hj c' hc' heq => Nat.find_min htop hj ⟨c', hc', fun d hd => heq ▸ hc d hd⟩
  have hmax : maxSeqno configs ≤ c.seqno :=
    maxSeqno_le (hmin c (mem_of_getElem? hi)) fun d hd => SeqnoHash.seqno_le_of_le (hc d hd)
  generalize Nat.find htop = i at hi hfirst
  have hmem : ((c, false), i) ∈ survivorIdx lag configs := by
    refine mem_survivorIdx.mpr ⟨rfl, hi, isRedundant_eq_false_iff.mpr ?_, ?_⟩
    · intro j c' hj hij
      refine ⟨?_, fun hji => hfirst j hji c' hj⟩
      by_contra hs
      obtain ⟨p, hp, hk⟩ := SortedMap.find?_isSome_iff.mp (Option.isSome_iff_ne_none.mpr hs)
      have hlt' := hlt c' (mem_of_getElem? hj) p hp
      have hle := le_maxSeqno (mem_of_getElem? hj)
      rw [hk] at hlt'
      have : c.seqno < c'.seqno := hlt'
      omega
    · unfold TooOld
      omega
  exact ⟨c, mem_map_of_mem (f := fun p => p.1.1) hmem, hc⟩

lemma exists_survivor_maxSeqno : ∃ c ∈ survivors lag configs, c.seqno = maxSeqno configs := by
  obtain ⟨c, hc, htop⟩ := exists_survivor_top hlag hne hlt hmin
  have hmem := mem_of_mem_survivors hc
  exact ⟨c, hc, le_antisymm (le_maxSeqno hmem)
    (maxSeqno_le (hmin c hmem) fun d hd => SeqnoHash.seqno_le_of_le (htop d hd))⟩

end

lemma mergeAccepted_inv (hne : survivors lag configs ≠ [])
    (h : mergeAccepted env verifier signer lag configs = .ok m) :
    (∃ c i, ((c, false), i) ∈ survivorIdx lag configs ∧ m = { c with unmerged := some i }) ∨
      (¬(verifier.isSome ∧ signer = none) ∧
        resolve env verifier signer lag (maxSeqno configs) (survivors lag configs) = .ok m) := by
  by_cases hlen : (survivors lag configs).length = 1
  · obtain ⟨c, hc⟩ := length_eq_one_iff.mp hlen
    obtain ⟨i, hi, hm⟩ := mergeAccepted_single env verifier signer hc
    rw [h] at hm
    exact Or.inl ⟨c, i, hi, Except.ok.inj hm⟩
  by_cases hvs : verifier.isSome ∧ signer = none
  · obtain ⟨c, i, hi, -, hm⟩ := mergeAccepted_best env hlen hne hvs.1 hvs.2
    rw [h] at hm
    exact Or.inl ⟨c, i, hi, Except.ok.inj hm⟩
  · rw [mergeAccepted_resolve env hlen hvs] at h
    exact Or.inr ⟨hvs, h⟩

lemma mergeAccepted_merged_inv (h : mergeAccepted env verifier signer lag configs = .ok m)
    (hm : m.merged = true) :
    (survivors lag configs).length ≠ 1 ∧ ¬(verifier.isSome ∧ signer = none) ∧
      resolve env verifier signer lag (maxSeqno configs) (survivors lag configs) = .ok m := by
  have hlen : (survivors lag configs).length ≠ 1 := by
    intro hlen
    obtain ⟨c, hc⟩ := length_eq_one_iff.mp hlen
    obtain ⟨i, -, hs⟩ := mergeAccepted_single env verifier signer hc
    rw [h] at hs
    cases hs
    cases hm
  by_cases hvs : verifier.isSome ∧ signer = none
  · rw [mergeAccepted_of_ne_one env hlen] at h
    simp only [hvs.1, hvs.2, Option.isNone_none, Bool.and_self, if_true] at h
    split at h
    · cases h
      cases hm
    · cases h
  · exact ⟨hlen, hvs, mergeAccepted_resolve env hlen hvs ▸ h⟩

/-- Checks the messages a merge accepts, the highest of them and the message that resolves their
conflict. -/
def mergeCheck (env : Env) (verifier : Option Verifier) (signer : Option Signer) (lag : Int)
    (L : List Bytes) (check : List ConfigMessage → ConfigMessage → ConfigMessage → Bool) : Bool :=
  match parseAll env verifier signer lag skipHandler 0 L,
      mergeConfigs env L verifier signer lag skipHandler with
  | .ok (configs, bad), .ok (m, _) =>
    match sortDescending (survivors lag configs) with
    | best :: _ => bad.isEmpty && m.merged && check configs best m
    | [] => false
  | _, _ => false

lemma exists_of_mergeCheck {check : List ConfigMessage → ConfigMessage → ConfigMessage → Bool}
    (h : mergeCheck env verifier signer lag L check = true) :
    ∃ configs best m, parseAll env verifier signer lag skipHandler 0 L = .ok (configs, []) ∧
      mergeConfigs env L verifier signer lag skipHandler = .ok (m, []) ∧ m.merged = true ∧
      Highest lag configs best ∧ check configs best m = true := by
  unfold mergeCheck at h
  split at h
  · next configs bad m bad' hp hm =>
    split at h
    · next best others hs =>
      simp only [Bool.and_eq_true, List.isEmpty_iff] at h
      obtain ⟨⟨rfl, hmerged⟩, hcheck⟩ := h
      obtain ⟨configs', hp', -, -⟩ := mergeConfigs_inv hm
      rw [hp] at hp'
      cases hp'
      exact ⟨configs, best, m, hp, hm, hmerged, Highest.of_sortDescending hs, hcheck⟩
    · cases h
  · cases h

lemma mergeAccepted_taken_seqno (htop : ∃ c ∈ survivors lag configs, c.seqno = maxSeqno configs)
    (h : mergeAccepted env verifier signer lag configs = .ok m) (hk : m.unmerged = some k) :
    m.seqno = maxSeqno configs := by
  obtain ⟨top, htop, hmax⟩ := htop
  by_cases hlen : (survivors lag configs).length = 1
  · obtain ⟨c, hc⟩ := length_eq_one_iff.mp hlen
    obtain ⟨i, -, hm⟩ := mergeAccepted_single env verifier signer hc
    rw [h] at hm
    cases hm
    rw [hc, mem_singleton] at htop
    rw [← hmax, htop]
    rfl
  by_cases hvs : verifier.isSome ∧ signer = none
  · obtain ⟨c, i, hi, hle, hm⟩ := mergeAccepted_best env hlen (ne_nil_of_mem htop) hvs.1 hvs.2
    rw [h] at hm
    cases hm
    show c.seqno = maxSeqno configs
    refine le_antisymm (le_maxSeqno (mem_of_getElem? (mem_survivorIdx.mp hi).2.1)) ?_
    rw [← hmax]
    exact SeqnoHash.seqno_le_of_le (hle top htop)
  rw [mergeAccepted_resolve env hlen hvs] at h
  obtain ⟨best, others, -, hr⟩ := resolve_inv h
  rw [hr.merged] at hk
  cases hk

lemma mergeAccepted_single_inv (hw : ¬(verifier.isSome ∧ signer = none))
    (h : mergeAccepted env verifier signer lag configs = .ok m) (hk : m.unmerged = some k) :
    ∃ c, survivors lag configs = [c] ∧ ((c, false), k) ∈ survivorIdx lag configs ∧
      m = { c with unmerged := some k } := by
  by_cases hlen : (survivors lag configs).length = 1
  · obtain ⟨c, hc⟩ := length_eq_one_iff.mp hlen
    obtain ⟨i, hi, hm⟩ := mergeAccepted_single env verifier signer hc
    rw [h] at hm
    cases hm
    cases hk
    exact ⟨c, hc, hi, rfl⟩
  rw [mergeAccepted_resolve env hlen hw] at h
  obtain ⟨best, others, -, hr⟩ := resolve_inv h
  rw [hr.merged] at hk
  cases hk

end

/-! ## Serializing the own message -/

namespace AnyMessage

@[simp] lemma serialize_snd_seqno (env : Env) (c : AnyMessage) (es : Bool) :
    (c.serialize env es).2.seqno = c.seqno := by
  cases c <;> rfl

@[simp] lemma serialize_snd_verifier (env : Env) (c : AnyMessage) (es : Bool) :
    (c.serialize env es).2.base.verifier = c.base.verifier := by
  cases c <;> rfl

@[simp] lemma serialize_snd_signer (env : Env) (c : AnyMessage) (es : Bool) :
    (c.serialize env es).2.base.signer = c.base.signer := by
  cases c <;> rfl

end AnyMessage

namespace ConfigBase

@[simp] lemma setState_config (s : ConfigState) (cb : ConfigBase) :
    (cb.setState s).config = cb.config := by
  unfold setState
  split <;> rfl

@[simp] lemma setState_state (s : ConfigState) (cb : ConfigBase) : (cb.setState s).state = s := by
  unfold setState
  split <;> rfl

/-- The object after it has serialized its message for a merge. -/
def refresh (env : Env) (cb : ConfigBase) : ConfigBase := (cb.serializeMine env).2

section

variable (env : Env) (cb : ConfigBase)

@[simp] lemma refresh_state : (cb.refresh env).state = cb.state := by
  unfold refresh serializeMine
  split <;> rfl

@[simp] lemma refresh_currHashes : (cb.refresh env).currHashes = cb.currHashes := by
  unfold refresh serializeMine
  split <;> rfl

@[simp] lemma refresh_oldHashes : (cb.refresh env).oldHashes = cb.oldHashes := by
  unfold refresh serializeMine
  split <;> rfl

@[simp] lemma refresh_seqno : (cb.refresh env).config.seqno = cb.config.seqno := by
  unfold refresh serializeMine
  split
  · simp
  · rfl

@[simp] lemma refresh_verifier :
    (cb.refresh env).config.base.verifier = cb.config.base.verifier := by
  unfold refresh serializeMine
  split
  · simp
  · rfl

@[simp] lemma refresh_signer : (cb.refresh env).config.base.signer = cb.config.base.signer := by
  unfold refresh serializeMine
  split
  · simp
  · rfl

end

/-! ## The outcome of a merge -/

def rows (env : Env) (received : List Row) (cb : ConfigBase) : List Row :=
  cb.allRows (cb.serializeMine env).1 received

lemma refresh_allRows (env : Env) (received : List Row) (cb : ConfigBase) :
    (cb.refresh env).allRows (cb.serializeMine env).1 received = cb.rows env received := by
  unfold rows allRows
  rw [refresh_currHashes]

/-- The merging constructor called by `_merge` succeeds. -/
def MergesTo (env : Env) (debug : Bool) (received : List Row) (cb : ConfigBase)
    (m : ConfigMessage) (bad : List Nat) : Prop :=
  mergeConfigs env ((cb.rows env received).map Row.conf) cb.config.base.verifier
    cb.config.base.signer configLags (mergeHandler debug) = .ok (m, bad)

def accepted (env : Env) (debug : Bool) (received : List Row) (cb : ConfigBase) :
    List ConfigMessage :=
  match parseAll env cb.config.base.verifier cb.config.base.signer configLags (mergeHandler debug)
    0 ((cb.rows env received).map Row.conf) with
  | .ok r => r.1
  | .error _ => []

/-- No sum `seqno + lag` leaves `int64_t`, neither for the accepted messages nor for those derived
from them. -/
def SeqnosFit (env : Env) (debug : Bool) (received : List Row) (cb : ConfigBase) : Prop :=
  ∀ c ∈ cb.accepted env debug received, InInt64 c.seqno ∧ c.seqno + 1 + configLags < 2 ^ 63

/-- The source marks the accepted messages as the model does. -/
def MarksSame (env : Env) (debug : Bool) (received : List Row) (cb : ConfigBase) : Prop :=
  markRedundant64 configLags (cb.accepted env debug received) =
    markRedundant configLags (cb.accepted env debug received)

lemma SeqnosFit.marksSame {env : Env} {debug : Bool} {received : List Row} {cb : ConfigBase}
    (h : cb.SeqnosFit env debug received) : cb.MarksSame env debug received := by
  refine markRedundant64_eq fun c hc => ?_
  obtain ⟨hint, hlt⟩ := h c hc
  unfold InInt64 configLags at *
  omega

section

variable {env : Env} {debug : Bool} {cb : ConfigBase}

section

variable (h : cb.MergesTo env debug received m bad)

include h

lemma MergesTo.accepted : cb.accepted env debug received ≠ [] ∧
      mergeAccepted env cb.config.base.verifier cb.config.base.signer configLags
        (cb.accepted env debug received) = .ok m ∧
      ∀ c ∈ cb.accepted env debug received, ∃ b ∈ (cb.rows env received).map Row.conf,
        Accepts env cb.config.base.verifier cb.config.base.signer configLags b c := by
  obtain ⟨configs, hparse, hne, hacc⟩ := mergeConfigs_inv h
  have heq : cb.accepted env debug received = configs := by
    unfold ConfigBase.accepted
    rw [hparse]
  rw [heq]
  exact ⟨hne, hacc, accepts_of_mem_parseAll hparse⟩

lemma MergesTo.exists_survivor : ∃ c ∈ survivors configLags (cb.accepted env debug received),
      c.seqno = maxSeqno (cb.accepted env debug received) := by
  obtain ⟨hne, -, hparsed⟩ := h.accepted
  refine exists_survivor_maxSeqno (by decide) hne ?_ ?_
  · intro c hc p hp
    obtain ⟨b, -, hb⟩ := hparsed c hc
    exact (inWindow_iff.mp ((parse_inv hb).window p hp)).2
  intro c hc
  obtain ⟨b, -, hb⟩ := hparsed c hc
  exact (parse_inv hb).wf.seqno.1

lemma MergesTo.survivors_ne_nil : survivors configLags (cb.accepted env debug received) ≠ [] :=
  let ⟨_, hc, _⟩ := h.exists_survivor
  ne_nil_of_mem hc

lemma MergesTo.taken_seqno (hm : m.unmerged = some k) :
    m.seqno = maxSeqno (cb.accepted env debug received) :=
  mergeAccepted_taken_seqno h.exists_survivor h.accepted.2.1 hm

lemma MergesTo.resolved (hm : m.unmerged = none) : ∃ best others,
      sortDescending (survivors configLags (cb.accepted env debug received)) = best :: others ∧
      Resolved env cb.config.base.verifier cb.config.base.signer configLags
        (maxSeqno (cb.accepted env debug received)) best others m ∧
      (∀ c ∈ best :: others, c.WellFormed) ∧
      ¬(cb.config.base.verifier.isSome ∧ cb.config.base.signer = none) := by
  obtain ⟨-, hacc, hparsed⟩ := h.accepted
  rcases mergeAccepted_inv h.survivors_ne_nil hacc with ⟨c, i, -, rfl⟩ | ⟨hvs, hres⟩
  · cases hm
  obtain ⟨best, others, hsort, hr⟩ := resolve_inv hres
  refine ⟨best, others, hsort, hr, fun c hc => ?_, hvs⟩
  rw [← hsort, mem_sortDescending] at hc
  obtain ⟨b, -, hb⟩ := hparsed c (mem_of_mem_survivors hc)
  exact (parse_inv hb).wf

lemma MergesTo.taken (hm : m.unmerged = some k) :
    ∃ c b, ((c, false), k) ∈ survivorIdx configLags (cb.accepted env debug received) ∧
      b ∈ (cb.rows env received).map Row.conf ∧
      Accepts env cb.config.base.verifier cb.config.base.signer configLags b c ∧
      m = { c with unmerged := some k } := by
  obtain ⟨-, hacc, hparsed⟩ := h.accepted
  rcases mergeAccepted_inv h.survivors_ne_nil hacc with ⟨c, i, hi, rfl⟩ | ⟨-, hres⟩
  · cases hm
    obtain ⟨b, hb, hbc⟩ := hparsed c (mem_of_getElem? (mem_survivorIdx.mp hi).2.1)
    exact ⟨c, b, hi, hb, hbc, rfl⟩
  obtain ⟨best, others, -, hr⟩ := resolve_inv hres
  rw [hr.merged] at hm
  cases hm

end

end

def constructed (cb : ConfigBase) (m : ConfigMessage) : AnyMessage :=
  if cb.state = .dirty then .mutable (toMutable m) else .immutable m

lemma toMutable_unmerged (m : ConfigMessage) : (toMutable m).unmerged = m.unmerged := by
  unfold toMutable
  split <;> rfl

lemma toMutable_of_unmerged (env : Env) (h : m.unmerged = some k) :
    toMutable m = (AnyMessage.immutable m).increment env := by
  unfold toMutable
  simp only [merged, h]
  rfl

@[simp] lemma constructed_unmerged (cb : ConfigBase) (m : ConfigMessage) :
    (cb.constructed m).base.unmerged = m.unmerged := by
  unfold constructed
  split
  · exact toMutable_unmerged m
  · rfl

/-- The object with the superfluous messages marked, before it adopts the result. -/
def marked (env : Env) (received : List Row) (m : ConfigMessage) (bad : List Nat)
    (cb : ConfigBase) : ConfigBase :=
  { cb.refresh env with
    oldHashes := addObsolete m.unmerged bad (cb.rows env received) cb.oldHashes }

lemma mergeRows_of_mergesTo {env : Env} {debug : Bool} {received : List Row} {cb : ConfigBase}
    (h : cb.MergesTo env debug received m bad) (good : Finset MsgId) :
    ∃ ids, cb.mergeRows env debug received good =
      (((cb.marked env received m bad).adopt debug (cb.serializeMine env).1
          (cb.rows env received) (cb.constructed m)).1,
        ((cb.marked env received m bad).adopt debug (cb.serializeMine env).1
          (cb.rows env received) (cb.constructed m)).2.map fun _ => ids) := by
  have hne : (cb.rows env received).isEmpty = false := by
    cases hr : cb.rows env received with
    | nil =>
      unfold MergesTo at h
      rw [hr] at h
      cases h
    | cons r rs => rfl
  have hmake : makeConfigMessage env ((cb.refresh env).state == .dirty)
      ((cb.rows env received).map Row.conf) (cb.refresh env).config.base.verifier
      (cb.refresh env).config.base.signer configLags (mergeHandler debug) =
      .ok (cb.constructed m, bad) := by
    unfold makeConfigMessage constructed
    rw [refresh_state, refresh_verifier, refresh_signer, h]
    simp
  have hmark : { cb.refresh env with
      oldHashes := addObsolete m.unmerged bad (cb.rows env received) (cb.refresh env).oldHashes } =
      cb.marked env received m bad := by
    unfold marked
    rw [refresh_oldHashes]
  unfold mergeRows
  simp only
  rw [show (cb.serializeMine env).2 = cb.refresh env from rfl, refresh_allRows, hne]
  rw [hmake]
  simp only
  rw [constructed_unmerged, hmark]
  exact ⟨_, rfl⟩

/-! ## Adopting the result -/

section

variable (debug : Bool) (mine : Option Bytes) (rows : List Row) (newConf : AnyMessage)
  (cb : ConfigBase)

lemma adopt_same (h : newConf.seqno = cb.config.seqno) :
    cb.adopt debug mine rows newConf = (cb, .ok ()) := by
  unfold adopt
  simp [h]

lemma adopt_merged (h : newConf.seqno ≠ cb.config.seqno) (hm : newConf.base.unmerged = none)
    (hw : ¬(newConf.base.verifier.isSome ∧ newConf.base.signer = none)) :
    cb.adopt debug mine rows newConf = (setState .dirty { cb with
        config := if cb.state ≠ .dirty then .mutable newConf.retain else newConf }, .ok ()) := by
  have hmerged : newConf.base.merged = true := by simp [merged, hm]
  have hro : ∀ c : AnyMessage, c.base.verifier = newConf.base.verifier →
      c.base.signer = newConf.base.signer → isReadonly { cb with config := c } = false := by
    intro c hv hs
    unfold isReadonly
    simp only [hv, hs]
    simpa [Option.isSome_iff_ne_none] using hw
  unfold adopt setDirty
  rw [if_pos h]
  simp only [hmerged, if_true]
  rw [hro]
  · rfl
  · cases newConf <;> split <;> rfl
  · cases newConf <;> split <;> rfl

lemma adopt_kept (h : newConf.seqno = cb.config.seqno + 1) (hd : cb.state = .dirty)
    (hm : newConf.base.unmerged = some (cb.mineIndex mine rows)) :
    cb.adopt debug mine rows newConf = (cb, .ok ()) := by
  have hne : newConf.seqno ≠ cb.config.seqno := by omega
  unfold adopt
  rw [if_pos hne, if_neg (by simp [merged, hm]), if_pos ⟨hd, hm, h⟩]

section

variable (h : newConf.seqno ≠ cb.config.seqno) (hm : newConf.base.unmerged = some i)
  (hk : ¬(cb.state = .dirty ∧ i = cb.mineIndex mine rows ∧ newConf.seqno = cb.config.seqno + 1))

include h hm hk

lemma adopt_superset (hok : (cb.adopt debug mine rows newConf).2 ≠ .error .assertion) :
    cb.adopt debug mine rows newConf = ({ setState .clean { cb with config := newConf } with
      currHashes := superconfHashes (some i) rows }, .ok ()) := by
  have hk' : ¬(cb.state = .dirty ∧ newConf.base.unmerged = some (cb.mineIndex mine rows) ∧
      newConf.seqno = cb.config.seqno + 1) := by
    rw [hm, Option.some.injEq]
    exact hk
  unfold adopt at hok ⊢
  simp only at hok ⊢
  rw [if_pos h, if_neg (by simp [merged, hm]), if_neg hk'] at hok ⊢
  split at hok
  · exact absurd rfl hok
  · next hassert => rw [if_neg hassert, hm]

end

end

/-! ## What a merge can do -/

/-- The outcomes of a merge whose constructor call has succeeded. -/
inductive Outcome (env : Env) (received : List Row) (cb : ConfigBase) (m : ConfigMessage)
    (bad : List Nat) : ConfigBase → Prop
  /-- The result has the seqno of the current message and is dropped. -/
  | same : (cb.constructed m).seqno = cb.config.seqno →
      Outcome env received cb m bad (cb.marked env received m bad)
  /-- A conflict was resolved. -/
  | resolved : m.seqno ≠ cb.config.seqno → m.unmerged = none →
      Outcome env received cb m bad (setState .dirty { cb.marked env received m bad with
        config := .mutable { m with origData := if cb.state = .dirty then m.data else [] } })
  /-- The current message, which is Dirty, includes the others. -/
  | kept : cb.state = .dirty →
      m.unmerged = some (cb.mineIndex (cb.serializeMine env).1 (cb.rows env received)) →
      (cb.constructed m).seqno = cb.config.seqno + 1 →
      Outcome env received cb m bad (cb.marked env received m bad)
  /-- Another message includes the others. -/
  | superset (k : Nat) : (cb.constructed m).seqno ≠ cb.config.seqno → m.unmerged = some k →
      ¬(cb.state = .dirty ∧ k = cb.mineIndex (cb.serializeMine env).1 (cb.rows env received) ∧
        (cb.constructed m).seqno = cb.config.seqno + 1) →
      Outcome env received cb m bad
        { setState .clean { cb.marked env received m bad with config := cb.constructed m } with
          currHashes := superconfHashes (some k) (cb.rows env received) }

section

variable {env : Env} {debug : Bool} {cb : ConfigBase}

lemma constructed_of_merged (cb : ConfigBase) (hm : m.unmerged = none) :
    cb.constructed m = if cb.state = .dirty
      then .mutable { m with origData := m.data } else .immutable m := by
  unfold constructed toMutable
  simp [merged, hm]

lemma constructed_seqno_of_merged (cb : ConfigBase) (hm : m.unmerged = none) :
    (cb.constructed m).seqno = m.seqno := by
  rw [constructed_of_merged cb hm]
  split <;> rfl

lemma marked_mineIndex (mine : Option Bytes) (rows : List Row) :
    (cb.marked env received m bad).mineIndex mine rows = cb.mineIndex mine rows := by
  unfold mineIndex marked
  rw [refresh_currHashes]

@[simp] lemma marked_state : (cb.marked env received m bad).state = cb.state :=
  refresh_state env cb

@[simp] lemma marked_currHashes :
    (cb.marked env received m bad).currHashes = cb.currHashes := refresh_currHashes env cb

@[simp] lemma marked_seqno : (cb.marked env received m bad).config.seqno = cb.config.seqno :=
  refresh_seqno env cb

lemma mergeRows_outcome (good : Finset MsgId) (h : cb.MergesTo env debug received m bad)
    (hok : (cb.mergeRows env debug received good).2 ≠ .error .assertion) :
    Outcome env received cb m bad (cb.mergeRows env debug received good).1 := by
  obtain ⟨ids, hrun⟩ := mergeRows_of_mergesTo h good
  rw [hrun] at hok ⊢
  by_cases hs : (cb.constructed m).seqno = cb.config.seqno
  · rw [adopt_same debug _ _ _ _ (by rw [marked_seqno]; exact hs)]
    exact .same hs
  have hs' : (cb.constructed m).seqno ≠ (cb.marked env received m bad).config.seqno := by
    rw [marked_seqno]
    exact hs
  cases hm : m.unmerged with
  | none =>
    obtain ⟨best, others, -, hres, -, hvs⟩ := h.resolved hm
    have hbase : (cb.constructed m).base = m := by
      rw [constructed_of_merged cb hm]
      split <;> rfl
    rw [adopt_merged debug _ _ _ _ hs' (by rw [hbase]; exact hm)
      (by rw [hbase, hres.verifier_eq, hres.signer_eq]; exact hvs)]
    have hconf : (if (cb.marked env received m bad).state ≠ .dirty
        then AnyMessage.mutable (cb.constructed m).retain else cb.constructed m) =
        .mutable { m with origData := if cb.state = .dirty then m.data else [] } := by
      rw [marked_state, constructed_of_merged cb hm]
      by_cases hd : cb.state = .dirty <;> simp [hd, AnyMessage.retain]
    rw [hconf]
    rw [constructed_seqno_of_merged cb hm] at hs
    exact .resolved hs hm
  | some k =>
    have hk : (cb.constructed m).base.unmerged = some k := by
      rw [constructed_unmerged]
      exact hm
    by_cases hkept : cb.state = .dirty ∧
        k = cb.mineIndex (cb.serializeMine env).1 (cb.rows env received) ∧
        (cb.constructed m).seqno = cb.config.seqno + 1
    · obtain ⟨hd, hmine, hseq⟩ := hkept
      rw [adopt_kept debug _ _ _ _ (by rw [marked_seqno]; exact hseq)
        (by rw [marked_state]; exact hd) (by rw [marked_mineIndex, ← hmine]; exact hk)]
      exact .kept hd (by rw [hm, hmine]) hseq
    have hkept' : ¬((cb.marked env received m bad).state = .dirty ∧
        k = (cb.marked env received m bad).mineIndex (cb.serializeMine env).1
          (cb.rows env received) ∧
        (cb.constructed m).seqno = (cb.marked env received m bad).config.seqno + 1) := by
      rw [marked_state, marked_mineIndex, marked_seqno]
      exact hkept
    rw [adopt_superset debug _ _ _ _ hs' hk hkept' fun hass => hok (by rw [hass]; rfl)]
    exact .superset k hs hm hkept

lemma mergeRows_of_error {e : Err} (good : Finset MsgId)
    (h : mergeConfigs env ((cb.rows env received).map Row.conf) cb.config.base.verifier
      cb.config.base.signer configLags (mergeHandler debug) = .error e) :
    (cb.mergeRows env debug received good).1 = cb.refresh env ∧
      (cb.rows env received ≠ [] → (cb.mergeRows env debug received good).2 = .error e) := by
  have hmake : makeConfigMessage env ((cb.refresh env).state == .dirty)
      ((cb.rows env received).map Row.conf) (cb.refresh env).config.base.verifier
      (cb.refresh env).config.base.signer configLags (mergeHandler debug) = .error e := by
    unfold makeConfigMessage
    rw [refresh_verifier, refresh_signer, h]
    rfl
  unfold mergeRows
  simp only
  rw [show (cb.serializeMine env).2 = cb.refresh env from rfl, refresh_allRows]
  split
  · next hempty => exact ⟨rfl, fun hne => absurd (isEmpty_iff.mp hempty) hne⟩
  · rw [hmake]
    exact ⟨rfl, fun _ => rfl⟩

lemma mergeRows_cases (env : Env) (debug : Bool) (received : List Row) (good : Finset MsgId)
    (cb : ConfigBase) : (cb.mergeRows env debug received good).1 = cb.refresh env ∨
      ∃ m bad, cb.MergesTo env debug received m bad := by
  cases hm : mergeConfigs env ((cb.rows env received).map Row.conf) cb.config.base.verifier
      cb.config.base.signer configLags (mergeHandler debug) with
  | ok r => exact Or.inr ⟨r.1, r.2, hm⟩
  | error e => exact Or.inl (mergeRows_of_error good hm).1

end

end ConfigBase

end Bchat.Config
