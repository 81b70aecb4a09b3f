import Bchat.Properties.Survivors
import Bchat.Roundtrip.Message

/-!
# A merge does not depend on arrival order

The merging constructor gives the same result for two lists of messages when one is obtained from
the other by permuting, repeating, or adding messages that are already included.

The list only matters through its survivors, which are a set (`mem_survivors`) of messages with
different (seqno, hash), so sorting them gives one list.
-/

namespace Bchat.Config

open Bencode List

variable {m : ConfigMessage} {l l' : List ConfigMessage} {env : Env} {verifier : Option Verifier}
  {signer : Option Signer} {handler : Nat → Err → Except Err Unit} {i : Nat} {b : Bytes}

/-! ## On the messages that were accepted -/

/-- `configs'` has the messages of `configs` and others that are already included in them. An
added message must not know of an ancestor that nothing in `configs` makes redundant. -/
structure Extends (lag : Int) (configs configs' : List ConfigMessage) : Prop where
  subset : ∀ m ∈ configs, m ∈ configs'
  added : ∀ m ∈ configs', m ∉ configs → Included configs m.seqnoHash
  closed : ∀ m ∈ configs', m ∉ configs → ∀ c ∈ configs,
    (SortedMap.find? c.seqnoHash m.laggedDiffs).isSome →
      Included configs c.seqnoHash ∨ TooOld lag configs c

section

variable {lag : Int} {configs configs' : List ConfigMessage}

lemma Coherent.of_subset (h : Coherent configs') (hsub : ∀ m ∈ configs, m ∈ configs') :
    Coherent configs where
  lagged_lt c hc := h.lagged_lt c (hsub c hc)
  int64_min_le c hc := h.int64_min_le c (hsub c hc)
  eq_of_seqnoHash a ha b hb := h.eq_of_seqnoHash a (hsub a ha) b (hsub b hb)

lemma Extends.maxSeqno_eq (h : Extends lag configs configs') (hc : Coherent configs') :
    maxSeqno configs = maxSeqno configs' := by
  apply le_antisymm
  · exact maxSeqno_le (int64_min_le_maxSeqno _) fun c hm => le_maxSeqno (h.subset c hm)
  refine maxSeqno_le (int64_min_le_maxSeqno _) fun c hm => ?_
  by_cases hin : c ∈ configs
  · exact le_maxSeqno hin
  -- an added message is older than the one that includes it
  obtain ⟨c', hc', hs⟩ := h.added c hm hin
  obtain ⟨p, hp, hk⟩ := SortedMap.find?_isSome_iff.mp hs
  have hlt := hc.lagged_lt c' (h.subset c' hc') p hp
  rw [hk] at hlt
  exact hlt.le.trans (le_maxSeqno hc')

lemma Extends.live_iff (h : Extends lag configs configs') (hc : Coherent configs') :
    Live lag configs m ↔ Live lag configs' m := by
  have hmax := h.maxSeqno_eq hc
  constructor <;> rintro ⟨hm, hni, ho⟩
  · refine ⟨h.subset m hm, ?_, by rwa [TooOld, ← hmax]⟩
    rintro ⟨c, hcm, hs⟩
    by_cases hin : c ∈ configs
    · exact hni ⟨c, hin, hs⟩
    rcases h.closed c hcm hin m hm hs with hi | hold
    · exact hni hi
    · exact ho hold
  have hin : m ∈ configs := by
    by_contra hout
    obtain ⟨c, hcm, hs⟩ := h.added m hm hout
    exact hni ⟨c, h.subset c hcm, hs⟩
  refine ⟨hin, ?_, by rwa [TooOld, hmax]⟩
  rintro ⟨c, hcm, hs⟩
  exact hni ⟨c, h.subset c hcm, hs⟩

lemma survivors_nodup (lag : Int) (configs : List ConfigMessage) : (survivors lag configs).Nodup :=
  (survivors_pairwise lag configs).imp fun hne heq => hne (congrArg _ heq)

lemma Extends.survivors_perm (h : Extends lag configs configs') (hc : Coherent configs') :
    (survivors lag configs).Perm (survivors lag configs') := by
  refine (perm_ext_iff_of_nodup (survivors_nodup _ _) (survivors_nodup _ _)).mpr fun m => ?_
  rw [mem_survivors (hc.of_subset h.subset), mem_survivors hc, h.live_iff hc]

lemma survivors_eq_singleton (hc : Coherent configs) (hm : Live lag configs m)
    (hall : ∀ n, Live lag configs n → n = m) : survivors lag configs = [m] := by
  refine perm_singleton.mp ?_
  refine (perm_ext_iff_of_nodup (survivors_nodup _ _) (nodup_singleton m)).mpr fun n => ?_
  rw [mem_survivors hc, mem_singleton]
  exact ⟨hall n, fun heq => heq ▸ hm⟩

/-- The index is the only part of the result that may depend on the order. -/
def forgetIndex (m : ConfigMessage) : ConfigMessage × Bool :=
    ({ m with unmerged := none }, m.merged)

lemma sortDescending_pairwise (configs : List ConfigMessage) :
    (sortDescending configs).Pairwise (fun a b => b.seqnoHash ≤ a.seqnoHash) := by
  exact pairwise_insertionSort _ configs

lemma mem_sortDescending {configs : List ConfigMessage} :
    m ∈ sortDescending configs ↔ m ∈ configs :=
  (perm_insertionSort _ configs).mem_iff

lemma sortDescending_congr (h : l.Perm l')
    (hne : l.Pairwise (fun a b => a.seqnoHash ≠ b.seqnoHash)) :
    sortDescending l = sortDescending l' := by
  have hsymm : Std.Symm (fun a b : ConfigMessage => a.seqnoHash ≠ b.seqnoHash) :=
    ⟨fun _ _ h => h.symm⟩
  have hinj : ∀ a ∈ l, ∀ b ∈ l, a.seqnoHash = b.seqnoHash → a = b := by
    intro a ha b hb heq
    by_contra hab
    exact hne.forall ha hb hab heq
  have hp : (sortDescending l).Perm (sortDescending l') :=
    ((perm_insertionSort _ l).trans h).trans (perm_insertionSort _ l').symm
  refine hp.eq_of_pairwise ?_ (sortDescending_pairwise l) (sortDescending_pairwise l')
  intro a b ha hb hab hba
  exact hinj a (mem_sortDescending.mp ha) b (h.mem_iff.mpr (mem_sortDescending.mp hb))
    (le_antisymm hba hab)

lemma resolve_congr {top : Int} (h : sortDescending l = sortDescending l') :
    resolve env verifier signer lag top l = resolve env verifier signer lag top l' := by
  unfold resolve
  rw [h]

lemma Extends.mergeAccepted_eq (env : Env) (verifier : Option Verifier) (signer : Option Signer)
    (h : Extends lag configs configs') (hc : Coherent configs') (hlag : 1 ≤ lag)
    (hne : configs ≠ []) : (mergeAccepted env verifier signer lag configs).map forgetIndex =
      (mergeAccepted env verifier signer lag configs').map forgetIndex := by
  have hperm := h.survivors_perm hc
  have hc0 := hc.of_subset h.subset
  by_cases hone : (survivors lag configs).length = 1
  · obtain ⟨m, hm⟩ := length_eq_one_iff.mp hone
    have hm' : survivors lag configs' = [m] := (singleton_perm.mp (hm ▸ hperm)).symm
    obtain ⟨i, -, hi⟩ := mergeAccepted_single env verifier signer hm
    obtain ⟨j, -, hj⟩ := mergeAccepted_single env verifier signer hm'
    rw [hi, hj]
    rfl
  have hone' : (survivors lag configs').length ≠ 1 := hperm.length_eq ▸ hone
  by_cases hvs : verifier.isSome ∧ signer = none
  · obtain ⟨m0, hm0⟩ := hc0.exists_live hlag hne
    have hs : survivors lag configs ≠ [] := ne_nil_of_mem ((mem_survivors hc0).mpr hm0)
    have hs' : survivors lag configs' ≠ [] := fun h0 => hs (by simpa [h0] using hperm)
    obtain ⟨m, i, hmi, hmax, hi⟩ := mergeAccepted_best env hone hs hvs.1 hvs.2
    obtain ⟨n, j, hnj, hnmax, hj⟩ := mergeAccepted_best env hone' hs' hvs.1 hvs.2
    have hm : m ∈ survivors lag configs := mem_map.mpr ⟨_, hmi, rfl⟩
    have hn : n ∈ survivors lag configs' := mem_map.mpr ⟨_, hnj, rfl⟩
    have heq : m = n := by
      refine hc.eq_of_seqnoHash m ?_ n ((mem_survivors hc).mp hn).mem ?_
      · exact h.subset m ((mem_survivors hc0).mp hm).mem
      · exact le_antisymm (hnmax m (hperm.mem_iff.mp hm)) (hmax n (hperm.mem_iff.mpr hn))
    rw [hi, hj, heq]
    rfl
  · rw [mergeAccepted_resolve env hone hvs, mergeAccepted_resolve env hone' hvs, h.maxSeqno_eq hc,
      resolve_congr (sortDescending_congr hperm (survivors_pairwise _ _))]

end

/-! ## On serialized messages -/

section

variable (env : Env) (verifier : Option Verifier) (signer : Option Signer) (lag : Int)

def Accepts (b : Bytes) (m : ConfigMessage) : Prop :=
  ConfigMessage.parse env b verifier signer lag false = .ok m

def IncludedIn (L : List Bytes) (s : SeqnoHash) : Prop :=
  ∃ b ∈ L, ∃ m, Accepts env verifier signer lag b m ∧ (SortedMap.find? s m.laggedDiffs).isSome

def OutdatedIn (L : List Bytes) (s : SeqnoHash) : Prop :=
  ∃ b ∈ L, ∃ m, Accepts env verifier signer lag b m ∧ s.seqno + lag ≤ m.seqno

end

section

variable {env : Env} {verifier : Option Verifier} {signer : Option Signer} {lag : Int}
  {L L' : List Bytes} {ms ms' : List ConfigMessage}

lemma parseAll_of_accepts (h : List.Forall₂ (Accepts env verifier signer lag) L ms) :
    parseAll env verifier signer lag handler i L = .ok (ms, []) := by
  induction h generalizing i with
  | nil => rfl
  | cons hb hrest ih =>
    rw [parseAll, hb]
    rw [ih]
    rfl

lemma exists_accepts (h : ∀ b ∈ L, ∃ m, Accepts env verifier signer lag b m) :
    ∃ ms, List.Forall₂ (Accepts env verifier signer lag) L ms := by
  induction L with
  | nil => exact ⟨[], .nil⟩
  | cons b rest ih =>
    obtain ⟨m, hm⟩ := h b mem_cons_self
    obtain ⟨ms, hms⟩ := ih fun b' hb' => h b' (mem_cons_of_mem _ hb')
    exact ⟨m :: ms, .cons hm hms⟩

lemma accepts_unique {m' : ConfigMessage} (h : Accepts env verifier signer lag b m)
    (h' : Accepts env verifier signer lag b m') : m = m' := by
  unfold Accepts at h h'
  rw [h] at h'
  exact Except.ok.inj h'

section

variable (h : List.Forall₂ (Accepts env verifier signer lag) L ms)

include h

lemma exists_bytes_at (hm : ms[i]? = some m) :
    ∃ b, L[i]? = some b ∧ Accepts env verifier signer lag b m := by
  induction h generalizing i with
  | nil => simp at hm
  | cons hb _ ih =>
    cases i with
    | zero =>
      cases hm
      exact ⟨_, rfl, hb⟩
    | succ i => exact ih hm

lemma exists_message_at (hb : L[i]? = some b) :
    ∃ m, ms[i]? = some m ∧ Accepts env verifier signer lag b m := by
  induction h generalizing i with
  | nil => simp at hb
  | cons hacc _ ih =>
    cases i with
    | zero =>
      cases hb
      exact ⟨_, rfl, hacc⟩
    | succ i => exact ih hb

lemma exists_bytes (hm : m ∈ ms) : ∃ b ∈ L, Accepts env verifier signer lag b m := by
  obtain ⟨i, hi⟩ := mem_iff_getElem?.mp hm
  obtain ⟨b, hb, hacc⟩ := exists_bytes_at h hi
  exact ⟨b, mem_of_getElem? hb, hacc⟩

lemma mem_messages (hb : b ∈ L) (hm : Accepts env verifier signer lag b m) : m ∈ ms := by
  induction h with
  | nil => simp at hb
  | cons hb' _ ih =>
    rcases mem_cons.mp hb with rfl | hb
    · rw [accepts_unique hm hb']
      exact mem_cons_self
    · exact mem_cons_of_mem _ (ih hb)

lemma included_iff {s : SeqnoHash} : Included ms s ↔ IncludedIn env verifier signer lag L s := by
  constructor
  · rintro ⟨m, hm, hs⟩
    obtain ⟨b, hb, hacc⟩ := exists_bytes h hm
    exact ⟨b, hb, m, hacc, hs⟩
  · rintro ⟨b, hb, m, hacc, hs⟩
    exact ⟨m, mem_messages h hb hacc, hs⟩

lemma coherent_of_distinct
    (heq : ∀ a ∈ ms, ∀ b ∈ ms, a.seqnoHash = b.seqnoHash → a = b) : Coherent ms where
  lagged_lt c hc p hp := by
    obtain ⟨b, -, hacc⟩ := exists_bytes h hc
    exact (inWindow_iff.mp ((parse_inv hacc).window p hp)).2
  int64_min_le c hc := by
    obtain ⟨b, -, hacc⟩ := exists_bytes h hc
    exact (parse_inv hacc).wf.seqno.1
  eq_of_seqnoHash := heq

lemma coherent_of_accepts
    (hinj : Set.InjOn env.blake2b {b | b ∈ L}) : Coherent ms := by
  refine coherent_of_distinct h fun a ha b hb heq => ?_
  obtain ⟨x, hx, hxa⟩ := exists_bytes h ha
  obtain ⟨y, hy, hyb⟩ := exists_bytes h hb
  have hhash : env.blake2b x = env.blake2b y := by
    rw [← (parse_inv hxa).hash, ← (parse_inv hyb).hash, heq]
  rw [hinj hx hy hhash] at hxa
  exact accepts_unique hxa hyb

end

lemma extends_of_accepts (hms : List.Forall₂ (Accepts env verifier signer lag) L ms)
    (hms' : List.Forall₂ (Accepts env verifier signer lag) L' ms') (hsub : ∀ b ∈ L, b ∈ L')
    (hadded : ∀ b ∈ L', b ∉ L → ∀ m, Accepts env verifier signer lag b m →
      IncludedIn env verifier signer lag L m.seqnoHash)
    (hclosed : ∀ b ∈ L', b ∉ L → ∀ m, Accepts env verifier signer lag b m →
      ∀ b' ∈ L, ∀ m', Accepts env verifier signer lag b' m' →
        (SortedMap.find? m'.seqnoHash m.laggedDiffs).isSome →
          IncludedIn env verifier signer lag L m'.seqnoHash ∨
            OutdatedIn env verifier signer lag L m'.seqnoHash) : Extends lag ms ms' := by
  refine ⟨?_, ?_, ?_⟩
  · intro m hm
    obtain ⟨b, hb, hacc⟩ := exists_bytes hms hm
    exact mem_messages hms' (hsub b hb) hacc
  · intro m hm hout
    obtain ⟨b, hb, hacc⟩ := exists_bytes hms' hm
    have hbL : b ∉ L := fun hbL => hout (mem_messages hms hbL hacc)
    exact (included_iff hms).mpr (hadded b hb hbL m hacc)
  intro m hm hout c hcm hs
  obtain ⟨b, hb, hacc⟩ := exists_bytes hms' hm
  have hbL : b ∉ L := fun hbL => hout (mem_messages hms hbL hacc)
  obtain ⟨b', hb', hacc'⟩ := exists_bytes hms hcm
  rcases hclosed b hb hbL m hacc b' hb' c hacc' hs with hi | ⟨d, hd, n, hn, hold⟩
  · exact Or.inl ((included_iff hms).mpr hi)
  · exact Or.inr (hold.trans (le_maxSeqno (mem_messages hms hd hn)))

/-- No sum `seqno + lag` of the accepted messages leaves `int64_t`: the source marks them as the
model does. -/
def MarksExact (env : Env) (verifier : Option Verifier) (signer : Option Signer) (lag : Int)
    (L : List Bytes) : Prop :=
  ∀ ms, List.Forall₂ (Accepts env verifier signer lag) L ms →
    markRedundant64 lag ms = markRedundant lag ms

lemma marksExact_of_accepts (h : List.Forall₂ (Accepts env verifier signer lag) L ms)
    (hfit : ∀ m ∈ ms, InInt64 (m.seqno + lag)) : MarksExact env verifier signer lag L := by
  intro ms' hms'
  refine markRedundant64_eq fun m hm => ?_
  obtain ⟨b, hb, hacc⟩ := exists_bytes hms' hm
  exact hfit m (mem_messages h hb hacc)

lemma mergeConfigs_of_accepts (h : List.Forall₂ (Accepts env verifier signer lag) L ms)
    (hne : L ≠ []) : mergeConfigs env L verifier signer lag handler =
      (mergeAccepted env verifier signer lag ms).map (fun m => (m, [])) := by
  have hms : ms ≠ [] := by
    rintro rfl
    cases h
    exact hne rfl
  unfold mergeConfigs
  rw [parseAll_of_accepts h, ok_bind]
  simp only [List.isEmpty_iff, hms, if_false]
  cases mergeAccepted env verifier signer lag ms with
  | error e | ok m => rfl

end

/-! ## Order independence -/

structure Observation where
  seqno : Int
  data : Dict
  laggedDiffs : LaggedDiffs
  diff : BtDict
  serialized : Bytes
  merged : Bool

def ConfigMessage.observe (env : Env) (m : ConfigMessage) : Observation :=
  { seqno := m.seqno, data := m.data, laggedDiffs := m.laggedDiffs, diff := m.diff
    serialized := m.serialize env true, merged := m.merged }

/-- The outcome of the merging constructor up to the index it reports. -/
def mergeOutcome (env : Env) (L : List Bytes) (verifier : Option Verifier)
    (signer : Option Signer) (lag : Int) (handler : Nat → Err → Except Err Unit) :
    Except Err Observation :=
  (mergeConfigs env L verifier signer lag handler).map fun r => r.1.observe env

lemma observe_eq_of_forgetIndex (env : Env) {n : ConfigMessage}
    (h : forgetIndex m = forgetIndex n) : m.observe env = n.observe env := by
  obtain ⟨hmsg, hmerged⟩ := Prod.mk.inj h
  have hobs : ∀ c : ConfigMessage, c.observe env =
      { ({ c with unmerged := none } : ConfigMessage).observe env with merged := c.merged } :=
    fun c => rfl
  rw [hobs m, hobs n, hmsg, hmerged]

/-- **The merging constructor does not depend on order or duplication, and ignores added messages
that are already included**, provided an added message does not list as an ancestor a message of
the list that the list itself neither includes nor outdates. -/
theorem mergeConfigs_order_independent (env : Env) (verifier : Option Verifier)
    (signer : Option Signer) (lag : Int) (handler : Nat → Err → Except Err Unit)
    (L L' : List Bytes) (hlag : 1 ≤ lag) (hne : L ≠ [])
    (hparse : ∀ b ∈ L', ∃ m, Accepts env verifier signer lag b m)
    (hinj : Set.InjOn env.blake2b {b | b ∈ L'})
    (hsub : ∀ b ∈ L, b ∈ L')
    (hadded : ∀ b ∈ L', b ∉ L → ∀ m, Accepts env verifier signer lag b m →
      IncludedIn env verifier signer lag L m.seqnoHash)
    (hclosed : ∀ b ∈ L', b ∉ L → ∀ m, Accepts env verifier signer lag b m →
      ∀ b' ∈ L, ∀ m', Accepts env verifier signer lag b' m' →
        (SortedMap.find? m'.seqnoHash m.laggedDiffs).isSome →
          IncludedIn env verifier signer lag L m'.seqnoHash ∨
            OutdatedIn env verifier signer lag L m'.seqnoHash) :
    mergeOutcome env L verifier signer lag handler =
      mergeOutcome env L' verifier signer lag handler := by
  obtain ⟨ms', hms'⟩ := exists_accepts hparse
  obtain ⟨ms, hms⟩ := exists_accepts fun b hb => hparse b (hsub b hb)
  have hc := coherent_of_accepts hms' hinj
  have hne' : L' ≠ [] := by
    obtain ⟨b, hb⟩ := exists_mem_of_ne_nil L hne
    exact ne_nil_of_mem (hsub b hb)
  have hmsne : ms ≠ [] := by
    rintro rfl
    cases hms
    exact hne rfl
  have heq := (extends_of_accepts hms hms' hsub hadded hclosed).mergeAccepted_eq env verifier
    signer hc hlag hmsne
  unfold mergeOutcome
  rw [mergeConfigs_of_accepts hms hne, mergeConfigs_of_accepts hms' hne']
  generalize mergeAccepted env verifier signer lag ms = x at heq ⊢
  generalize mergeAccepted env verifier signer lag ms' = y at heq ⊢
  rcases x with e | m <;> rcases y with e' | n
  · cases heq
    rfl
  · cases heq
  · cases heq
  · simp only [Except.map, observe_eq_of_forgetIndex env (Except.ok.inj heq)]

/-! ## Messages whose ancestors their descendants do not know -/

def initial : Bytes := messageBytes 0 [] [] []

def initialHash : Hash :=
  hashOfNat 0xea173b57beca8af18c3519a7bbf69c3e7a05d1c049fa9558341d8ebb48b0c965

def first : Bytes := messageBytes 1 [(bytes "a", .scalar (.int 1))] [] [(bytes "a", .str [])]

def firstHash : Hash := hashOfNat 0x5ed18d6b02c8e049777ea92264d280ef772c5773674d9b1811b3ecaaf6e4d729

def second : Bytes :=
  messageBytes 2 [(bytes "a", .scalar (.int 1))] [(⟨1, firstHash⟩, [(bytes "a", .str [])])] []

def secondHash : Hash :=
  hashOfNat 0x2346bd1e8ec98879ea153f14b8d32c1fee955601f499bc9e3228de12e89f5f3f

def fork : Bytes :=
  messageBytes 2 [(bytes "a", .scalar (.int 1)), (bytes "c", .scalar (.int 3))]
    [(⟨1, firstHash⟩, [(bytes "a", .str [])])] [(bytes "c", .str [])]

def forkHash : Hash := hashOfNat 0xefcba82de0d867f3edba9aaf87f9ac64102b111404cf485d444cc885d6ea007f

/-- A message that lists `second` as its ancestor, but not the ancestor of `second`. -/
def forgetful : Bytes :=
  messageBytes 3 [(bytes "b", .scalar (.int 2))] [(⟨2, secondHash⟩, [])] [(bytes "b", .str [])]

def forgetfulHash : Hash :=
  hashOfNat 0x58125042449d8c4d00fba3c3a051f3249eb147bad0bcfe07f8e9f24f6c0d0194

def sampleEnv : Env :=
  Env.bencode (tableHash [(first, firstHash), (second, secondHash), (fork, forkHash),
    (forgetful, forgetfulHash)])

lemma exists_accepts_of_isSome {lag : Int}
    (h : (ConfigMessage.parse env b verifier signer lag false).toOption.isSome) :
    ∃ m, Accepts env verifier signer lag b m := by
  unfold Accepts
  cases hp : ConfigMessage.parse env b verifier signer lag false with
  | error e => rw [hp] at h; simp [Except.toOption] at h
  | ok m => exact ⟨m, rfl⟩

def includesBytes (env : Env) (verifier : Option Verifier) (signer : Option Signer) (lag : Int)
    (b b' : Bytes) : Bool :=
  match ConfigMessage.parse env b verifier signer lag false,
      ConfigMessage.parse env b' verifier signer lag false with
  | .ok m, .ok m' => (SortedMap.find? m'.seqnoHash m.laggedDiffs).isSome
  | _, _ => false

lemma includedIn_of_includesBytes {lag : Int} {L : List Bytes} {b' : Bytes} (hb : b ∈ L)
    (hm : Accepts env verifier signer lag b' m)
    (h : includesBytes env verifier signer lag b b' = true) :
    IncludedIn env verifier signer lag L m.seqnoHash := by
  unfold includesBytes at h
  split at h
  · next m0 m1 h0 h1 =>
    rw [accepts_unique hm h1]
    exact ⟨b, hb, m0, h0, h⟩
  · simp at h

lemma sampleEnv_parses : ∀ b ∈ [first, second, fork, forgetful],
    (ConfigMessage.parse sampleEnv b none none 5 false).toOption.isSome = true := by
  decide +kernel

lemma sampleEnv_injOn : ∀ b ∈ [first, second, fork, forgetful],
    ∀ b' ∈ [first, second, fork, forgetful], sampleEnv.blake2b b = sampleEnv.blake2b b' →
      b = b' := by
  decide +kernel

/-- A conflict to which a copy and the common ancestor of its messages are added. -/
theorem mergeConfigs_order_independent_fork :
    mergeOutcome sampleEnv [second, fork] none none 5 skipHandler =
      mergeOutcome sampleEnv [first, fork, second, second] none none 5 skipHandler := by
  have hsub : ∀ b ∈ [first, fork, second, second], b ∈ [first, second, fork, forgetful] := by
    decide +kernel
  have hfirst : ∀ b ∈ [first, fork, second, second], b ∉ [second, fork] → b = first := by simp
  have hnone : ∀ m, Accepts sampleEnv none none 5 first m → m.laggedDiffs = [] := by
    intro m hm
    have hl : (ConfigMessage.parse sampleEnv first none none 5 false).toOption.map
        (fun m => m.laggedDiffs.isEmpty) = some true := by decide +kernel
    rw [show ConfigMessage.parse sampleEnv first none none 5 false = .ok m from hm] at hl
    simpa [Except.toOption] using hl
  refine mergeConfigs_order_independent sampleEnv none none 5 skipHandler _ _ (by decide)
    (by simp) ?_ ?_ (by simp) ?_ ?_
  · exact fun b hb => exists_accepts_of_isSome (sampleEnv_parses b (hsub b hb))
  · exact fun b hb b' hb' => sampleEnv_injOn b (hsub b hb) b' (hsub b' hb')
  · intro b hb hout m hm
    rw [hfirst b hb hout] at hm
    exact includedIn_of_includesBytes (b := second) (by simp) hm (by decide +kernel)
  intro b hb hout m hm b' hb' m' hm' hs
  rw [hfirst b hb hout] at hm
  rw [hnone m hm] at hs
  simp at hs

/-- Without the condition on the ancestors the result can change: `second` is included in
`forgetful`, but adding it makes `first` redundant, which the list without it does not. -/
theorem mergeConfigs_added_ancestor_differs :
    (∀ b ∈ [forgetful, first, second], ∃ m, Accepts sampleEnv none none 5 b m) ∧
    Set.InjOn sampleEnv.blake2b {b | b ∈ [forgetful, first, second]} ∧
    (∀ m, Accepts sampleEnv none none 5 second m →
      IncludedIn sampleEnv none none 5 [forgetful, first] m.seqnoHash) ∧
    mergeOutcome sampleEnv [forgetful, first] none none 5 skipHandler ≠
      mergeOutcome sampleEnv [forgetful, first, second] none none 5 skipHandler := by
  have hsub : ∀ b ∈ [forgetful, first, second], b ∈ [first, second, fork, forgetful] := by
    decide +kernel
  refine ⟨fun b hb => exists_accepts_of_isSome (sampleEnv_parses b (hsub b hb)),
    fun b hb b' hb' => sampleEnv_injOn b (hsub b hb) b' (hsub b' hb'), ?_, ?_⟩
  · intro m hm
    exact includedIn_of_includesBytes (b := forgetful) (by simp) hm (by decide +kernel)
  intro heq
  have h4 : (mergeOutcome sampleEnv [forgetful, first] none none 5 skipHandler).toOption.map
      Observation.seqno = some 4 := by decide +kernel
  have h3 : (mergeOutcome sampleEnv [forgetful, first, second] none none 5
      skipHandler).toOption.map Observation.seqno = some 3 := by decide +kernel
  rw [heq, h3] at h4
  simp at h4

end Bchat.Config
