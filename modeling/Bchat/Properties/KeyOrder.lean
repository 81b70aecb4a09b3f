import Bchat.Properties.KeyList

/-!
# Loading key messages in any order

Old generations expire against the last key at that time. When timestamps follow the generations
this gives one list of keys, whatever the order of the messages. When they do not, a key can be
dropped in one order and kept in another; but the last key, which encrypts, is always the same.
-/

namespace Bchat.Groups

open Config List Keys

variable (env : Env) (hash : MsgId) (news : List KeyInfo) (na : Sodium) (who : Identity)

/-! ## What no order drops -/

def Lasting (all : List KeyInfo) (k : KeyInfo) : Prop :=
  ∀ a ∈ all, ∀ b ∈ all, k.generation < a.generation → a.generation ≤ b.generation →
    ¬Superseded a b

/-- If a key not before it supersedes a key, the last key of all supersedes it too, and with it
every key before it that has an earlier generation to be dropped. -/
def Orderly (all : List KeyInfo) : Prop :=
  ∀ a ∈ all, ∀ b ∈ all, a.generation ≤ b.generation → Superseded a b →
    ∀ last ∈ all, (∀ c ∈ all, c ≤ last) →
      ∀ c ∈ all, c ≤ a → (∃ d ∈ all, d.generation < c.generation) → Superseded c last

lemma Orderly.of_timestamps {all : List KeyInfo} (h : ∀ a ∈ all, ∀ b ∈ all,
    a.generation < b.generation → a.timestamp ≤ b.timestamp) : Orderly all := by
  have hle : ∀ a ∈ all, ∀ b ∈ all, a ≤ b → a.timestamp ≤ b.timestamp := by
    intro a ha b hb hab
    rcases hab.lt_or_eq with hlt | rfl
    · rcases KeyInfo.lt_iff.mp hlt with hg | ⟨-, ht | ⟨ht, -⟩⟩
      · exact h a ha b hb hg
      · exact ht.le
      · exact ht.le
    · exact le_refl _
  intro a ha b hb _ hsup last hlast hmax c hc hca _
  have hbl := hle b hb last hlast (hmax b hb)
  have hct := hle c hc a ha hca
  unfold Superseded at hsup ⊢
  omega

/-- The keys an object has, of those it was given so far, when `all` are given to it in the end. -/
structure Collects (all given keys : List KeyInfo) : Prop where
  sorted : Sorted keys
  settled : Settled keys
  subset : ∀ k ∈ keys, k ∈ given
  lasting : ∀ k ∈ given, Lasting all k → k ∈ keys

lemma collects_nil (all : List KeyInfo) : Collects all [] [] where
  sorted := Pairwise.nil
  settled := by
    intro front last hf
    cases hf
  subset := by simp
  lasting := by simp

/-! ## One key -/

section

variable {all given : List KeyInfo} {k : Keys}

lemma Collects.insertKey (h : Collects all given k.keys) (hdistinct : Distinct all)
    (hall : ∀ i ∈ given, i ∈ all) {new : KeyInfo} (hnew : new ∈ all) (hash : MsgId) :
    Collects all (given ++ [new]) (k.insertKey hash new).keys := by
  have hkeys : ∀ i ∈ k.keys, i ∈ all := fun i hi => hall i (h.subset i hi)
  have hsub : ∀ i ∈ k.keys, i ∈ given ++ [new] := fun i hi =>
    mem_append_left _ (h.subset i hi)
  obtain ⟨⟨i, hi, hg, hk⟩, heq⟩ | ⟨-, heq, front, last, hf, hl, hlt, hsup⟩ | ⟨-, hnotin, heq⟩ :=
    insertKey_cases hash new h.sorted
  · -- the key is there, with the one timestamp it comes with
    rw [heq]
    refine ⟨h.sorted, h.settled, hsub, fun j hj hlast => ?_⟩
    rcases mem_append.mp hj with hj | hj
    · exact h.lasting j hj hlast
    · rw [mem_singleton.mp hj, ← hdistinct i (hkeys i hi) new hnew hg hk]
      exact hi
  · rw [heq]
    refine ⟨h.sorted, h.settled, hsub, fun j hj hlast => ?_⟩
    rcases mem_append.mp hj with hj | hj
    · exact h.lasting j hj hlast
    rw [mem_singleton.mp hj] at hlast
    have hfm := mem_of_mem_head? hf
    have hlm := mem_of_getLast? hl
    exact absurd hsup (hlast front (hkeys front hfm) last (hkeys last hlm) hlt
      (KeyInfo.generation_le_of_le (h.sorted.le_getLast hl hfm)))
  rw [heq]
  have hsorted := sorted_insertSorted h.sorted hnotin
  have hins : ∀ i ∈ insertSorted new k.keys, i ∈ all := fun i hi => by
    rcases mem_insertSorted.mp hi with rfl | hi
    · exact hnew
    · exact hkeys i hi
  refine ⟨sorted_unexpired hsorted, settled_unexpired hsorted, fun i hi => ?_, ?_⟩
  · rcases mem_insertSorted.mp (mem_of_mem_unexpired hsorted hi) with rfl | hi
    · simp
    · exact hsub i hi
  intro j hj hlast
  have hjin : j ∈ insertSorted new k.keys := by
    rw [mem_insertSorted]
    rcases mem_append.mp hj with hj | hj
    · exact Or.inr (h.lasting j hj hlast)
    · exact Or.inl (mem_singleton.mp hj)
  by_contra hdrop
  obtain ⟨front, hf, last, hl, hlt, hsup⟩ := superseded_of_not_mem_unexpired hsorted hjin hdrop
  exact hlast front (hins front hf) last (hins last (mem_of_getLast? hl)) hlt
    (KeyInfo.generation_le_of_le (hsorted.le_getLast hl hf)) hsup

lemma Collects.insertKeys (hdistinct : Distinct all) (hash : MsgId) :
    ∀ {news given : List KeyInfo} {k : Keys}, Collects all given k.keys →
      (∀ i ∈ given, i ∈ all) → (∀ i ∈ news, i ∈ all) →
      Collects all (given ++ news) (news.foldl (fun k new => k.insertKey hash new) k).keys
  | [], given, k, h, _, _ => by simpa using h
  | new :: news, given, k, h, hall, hnews => by
    obtain ⟨hnew, hnews⟩ := forall_mem_cons.mp hnews
    have hstep := h.insertKey hdistinct hall hnew hash
    have hall' : ∀ i ∈ given ++ [new], i ∈ all := by
      intro i hi
      rcases mem_append.mp hi with hi | hi
      · exact hall i hi
      · rw [mem_singleton.mp hi]
        exact hnew
    have hrest := Collects.insertKeys hdistinct hash hstep hall' hnews
    rw [append_assoc, singleton_append] at hrest
    exact hrest

@[simp] lemma Keys.settlePending_keys (k : Keys) : (k.settlePending news).keys = k.keys := by
  unfold settlePending
  split
  · split <;> rfl
  · rfl

lemma Collects.applyContent (h : Collects all given k.keys) (hdistinct : Distinct all)
    (hall : ∀ i ∈ given, i ∈ all) {content : KeyContent} (hnews : ∀ i ∈ content.newKeys, i ∈ all)
    (hash : MsgId) :
    Collects all (given ++ content.newKeys) (k.applyContent hash content).2.keys := by
  have hk : Collects all given (k.settlePending content.newKeys).keys := by
    rw [Keys.settlePending_keys]
    exact h
  unfold Keys.applyContent
  generalize k.settlePending content.newKeys = k' at hk
  cases hn : content.newKeys with
  | nil =>
    rw [List.append_nil]
    cases content.maxGen with
    | none => exact hk
    | some gen =>
      show Collects all given (Keys.unexpired k'.keys)
      rw [unexpired_eq_self hk.sorted hk.settled]
      exact hk
  | cons new news =>
    rw [hn] at hnews
    exact Collects.insertKeys hdistinct hash hk hall hnews

end

/-! ## Sequences of messages -/

structure KeyMessage where
  hash : MsgId
  data : Bytes
  timestampMs : Int
  deriving DecidableEq

def KeyMessage.brings (m : KeyMessage) : List KeyInfo :=
  match readKeyMessage env na who m.data m.timestampMs with
  | .ok content => content.newKeys
  | .error _ => []

namespace Keys

/-- `load_key_message` as it is to be called: an exception leaves the object as it is. -/
def receive (k : Keys) (m : KeyMessage) : Keys :=
  match k.loadKeyMessage env na m.hash m.data m.timestampMs with
  | .ok r => r.2
  | .error _ => k

def receiveAll (L : List KeyMessage) (k : Keys) : Keys := L.foldl (receive env na) k

lemma receive_eq (k : Keys) (m : KeyMessage) :
    (∃ content, readKeyMessage env na k.toIdentity m.data m.timestampMs = .ok content ∧
      receive env na k m = (k.applyContent m.hash content).2 ∧
      m.brings env na k.toIdentity = content.newKeys) ∨
    (receive env na k m = k ∧ m.brings env na k.toIdentity = []) := by
  unfold receive loadKeyMessage KeyMessage.brings
  cases readKeyMessage env na k.toIdentity m.data m.timestampMs with
  | error e => exact Or.inr ⟨rfl, rfl⟩
  | ok content => exact Or.inl ⟨content, rfl, rfl, rfl⟩

/-! Loading a message changes neither who the reader is nor, without a pending key, what is
pending. -/

@[simp] lemma settlePending_toIdentity (k : Keys) :
    (k.settlePending news).toIdentity = k.toIdentity := by
  unfold settlePending
  split
  · split <;> rfl
  · rfl

@[simp] lemma insertKey_toIdentity (new : KeyInfo) (k : Keys) :
    (k.insertKey hash new).toIdentity = k.toIdentity := by
  unfold insertKey
  split
  · rfl
  · split <;> rfl

@[simp] lemma insertKey_pendingKeyConfig (new : KeyInfo) (k : Keys) :
    (k.insertKey hash new).pendingKeyConfig = k.pendingKeyConfig := by
  unfold insertKey
  split
  · rfl
  · split <;> rfl

lemma foldl_insertKey_toIdentity (k : Keys) :
    (news.foldl (fun k new => k.insertKey hash new) k).toIdentity = k.toIdentity := by
  induction news generalizing k with
  | nil => rfl
  | cons new news ih => rw [foldl_cons, ih, insertKey_toIdentity]

lemma foldl_insertKey_pendingKeyConfig (k : Keys) :
    (news.foldl (fun k new => k.insertKey hash new) k).pendingKeyConfig = k.pendingKeyConfig := by
  induction news generalizing k with
  | nil => rfl
  | cons new news ih => rw [foldl_cons, ih, insertKey_pendingKeyConfig]

lemma applyContent_toIdentity (content : KeyContent) (k : Keys) :
    (k.applyContent hash content).2.toIdentity = k.toIdentity := by
  rw [← settlePending_toIdentity content.newKeys k]
  unfold applyContent
  cases content.newKeys with
  | nil => cases content.maxGen <;> rfl
  | cons new news => exact foldl_insertKey_toIdentity hash (new :: news) _

lemma applyContent_pendingKeyConfig (content : KeyContent) {k : Keys}
    (h : k.pendingKeyConfig = []) : (k.applyContent hash content).2.pendingKeyConfig = [] := by
  have hk : (k.settlePending content.newKeys).pendingKeyConfig = [] := by
    unfold settlePending
    split
    · split
      · rfl
      · exact h
    · exact h
  unfold applyContent
  cases hn : content.newKeys with
  | nil =>
    rw [hn] at hk
    cases content.maxGen with
    | none | some gen => exact hk
  | cons new news =>
    rw [hn] at hk
    exact (foldl_insertKey_pendingKeyConfig hash (new :: news) _).trans hk

@[simp] lemma receive_toIdentity (k : Keys) (m : KeyMessage) :
    (receive env na k m).toIdentity = k.toIdentity := by
  obtain ⟨content, -, heq, -⟩ | ⟨heq, -⟩ := receive_eq env na k m
  · rw [heq, applyContent_toIdentity]
  · rw [heq]

lemma receive_pendingKeyConfig {k : Keys} (m : KeyMessage) (h : k.pendingKeyConfig = []) :
    (receive env na k m).pendingKeyConfig = [] := by
  obtain ⟨content, -, heq, -⟩ | ⟨heq, -⟩ := receive_eq env na k m
  · rw [heq, applyContent_pendingKeyConfig m.hash content h]
  · rw [heq, h]

lemma receiveAll_collects (env : Env) (na : Sodium) {who : Identity} {all : List KeyInfo}
    (hdistinct : Distinct all) :
    ∀ {L : List KeyMessage} {given : List KeyInfo} {k : Keys}, k.toIdentity = who →
      k.pendingKeyConfig = [] → Collects all given k.keys → (∀ i ∈ given, i ∈ all) →
      (∀ m ∈ L, ∀ i ∈ m.brings env na who, i ∈ all) →
      Collects all (given ++ L.flatMap (KeyMessage.brings env na who))
          (receiveAll env na L k).keys ∧
        (receiveAll env na L k).pendingKeyConfig = []
  | [], given, k, _, hpend, h, _, _ => ⟨by simpa [receiveAll] using h, hpend⟩
  | m :: L, given, k, hwho, hpend, h, hall, hL => by
    obtain ⟨hm, hL⟩ := forall_mem_cons.mp hL
    have hstep : Collects all (given ++ m.brings env na who) (receive env na k m).keys := by
      obtain ⟨content, -, heq, hb⟩ | ⟨heq, hb⟩ := receive_eq env na k m <;> rw [hwho] at hb
      · rw [heq, hb]
        exact h.applyContent hdistinct hall (hb ▸ hm) m.hash
      rw [heq, hb, append_nil]
      exact h
    have hall' : ∀ i ∈ given ++ m.brings env na who, i ∈ all := by
      intro i hi
      rcases mem_append.mp hi with hi | hi
      · exact hall i hi
      · exact hm i hi
    have hrest := receiveAll_collects env na hdistinct ((receive_toIdentity env na k m).trans hwho)
      (receive_pendingKeyConfig env na m hpend) hstep hall' hL
    rw [append_assoc] at hrest
    exact hrest

end Keys

/-! ## The end of a sequence -/

section

variable {all given keys : List KeyInfo}

lemma lasting_of_max {last : KeyInfo} (hmax : ∀ c ∈ all, c ≤ last) : Lasting all last := by
  intro a ha b _ hlt
  have := KeyInfo.generation_le_of_le (hmax a ha)
  omega

lemma Collects.getLast? (h : Collects all given keys) (hgiven : ∀ i, i ∈ given ↔ i ∈ all)
    {last : KeyInfo} (hlast : last ∈ all) (hmax : ∀ c ∈ all, c ≤ last) :
    keys.getLast? = some last := by
  have hmem : last ∈ keys := h.lasting last ((hgiven last).mpr hlast) (lasting_of_max hmax)
  cases hl : keys.getLast? with
  | none =>
    rw [getLast?_eq_none_iff.mp hl] at hmem
    cases hmem
  | some last' =>
    have hl' := (hgiven last').mp (h.subset last' (mem_of_getLast? hl))
    rw [le_antisymm (hmax last' hl') (h.sorted.le_getLast hl hmem)]

lemma exists_latest_superseded {a b : KeyInfo} (ha : a ∈ all) (hb : b ∈ all)
    (hab : a.generation ≤ b.generation) (hsup : Superseded a b) :
    ∃ a' ∈ all, ∃ b' ∈ all, a.generation ≤ a'.generation ∧ a'.generation ≤ b'.generation ∧
      Superseded a' b' ∧ Lasting all a' := by
  classical
  let superseded := all.toFinset.filter
    (fun a => ∃ b ∈ all, a.generation ≤ b.generation ∧ Superseded a b)
  have hmem : ∀ x, x ∈ superseded ↔
      x ∈ all ∧ ∃ b ∈ all, x.generation ≤ b.generation ∧ Superseded x b := by
    simp [superseded]
  obtain ⟨a', ha', hmax⟩ := Finset.exists_max_image superseded KeyInfo.generation
    ⟨a, (hmem a).mpr ⟨ha, b, hb, hab, hsup⟩⟩
  obtain ⟨haa, b', hb', hab', hsup'⟩ := (hmem a').mp ha'
  refine ⟨a', haa, b', hb', hmax a ((hmem a).mpr ⟨ha, b, hb, hab, hsup⟩), hab', hsup', ?_⟩
  intro x hx y hy hlt hxy hxs
  have := hmax x ((hmem x).mpr ⟨hx, y, hy, hxy, hxs⟩)
  omega

lemma Collects.mem_iff (h : Collects all given keys) (hgiven : ∀ i, i ∈ given ↔ i ∈ all)
    (horderly : Orderly all) (i : KeyInfo) : i ∈ keys ↔ i ∈ all ∧ Lasting all i := by
  constructor
  · intro hi
    refine ⟨(hgiven i).mp (h.subset i hi), ?_⟩
    by_contra hnot
    unfold Lasting at hnot
    push Not at hnot
    obtain ⟨a₀, ha₀, b₀, hb₀, hia₀, hab₀, hsup₀⟩ := hnot
    obtain ⟨a, ha, b, hb, hle, hab, hsup, hlasting⟩ := exists_latest_superseded ha₀ hb₀ hab₀ hsup₀
    have hakeys : a ∈ keys := h.lasting a ((hgiven a).mpr ha) hlasting
    obtain ⟨last, hl⟩ : ∃ last, keys.getLast? = some last :=
      Option.ne_none_iff_exists'.mp (mt getLast?_eq_none_iff.mp (ne_nil_of_mem hi))
    have hlall : last ∈ all := (hgiven last).mp (h.subset last (mem_of_getLast? hl))
    have hmax : ∀ c ∈ all, c ≤ last := by
      obtain ⟨top, htop, hle⟩ := Finset.exists_max_image all.toFinset id ⟨a, by simpa using ha⟩
      have htop' : keys.getLast? = some top :=
        h.getLast? hgiven (by simpa using htop) fun c hc => hle c (by simpa using hc)
      rw [hl] at htop'
      cases htop'
      exact fun c hc => hle c (by simpa using hc)
    obtain ⟨front, hf⟩ : ∃ front, keys.head? = some front :=
      Option.ne_none_iff_exists'.mp (mt head?_eq_none_iff.mp (ne_nil_of_mem hi))
    have hfi := KeyInfo.generation_le_of_le (h.sorted.head_le hf hi)
    -- the first key after the front generation is not after `a`, so it is superseded
    obtain ⟨next, hnext, hleast⟩ := Finset.exists_min_image
      (keys.toFinset.filter fun c => front.generation < c.generation) id
      ⟨a, by simp [hakeys]; omega⟩
    simp only [Finset.mem_filter, mem_toFinset, id_eq] at hnext hleast
    have hnall := (hgiven next).mp (h.subset next hnext.1)
    have hna : next ≤ a := hleast a ⟨hakeys, by omega⟩
    have hfall := (hgiven front).mp (h.subset front (mem_of_mem_head? hf))
    have hnsup : Superseded next last :=
      horderly a ha b hb hab hsup last hlall hmax next hnall hna ⟨front, hfall, hnext.2⟩
    exact h.settled front last hf hl next hnext.1 hnext.2 (fun c hc hlt => hleast c ⟨hc, hlt⟩) hnsup
  · rintro ⟨hi, hlasting⟩
    exact h.lasting i ((hgiven i).mpr hi) hlasting

end

def keysOf (L : List KeyMessage) : List KeyInfo := L.flatMap (KeyMessage.brings env na who)

/-- **Loading the same messages in two orders**, with repetitions: the same key encrypts, both
orders keep the keys that last, and if the keys are orderly both end with the same list. The
timestamps fit into the clock, so that all comparisons are exact. -/
theorem keys_order_independent (L L' : List KeyMessage) (hsame : ∀ m, m ∈ L ↔ m ∈ L')
    (hdistinct : Distinct (keysOf env na who L))
    (htimes : ∀ i ∈ keysOf env na who L, InSysTime i.timestamp) :
    let k := receiveAll env na L (empty na who)
    let k' := receiveAll env na L' (empty na who)
    TimesExact (keysOf env na who L) ∧ k.groupEncKey = k'.groupEncKey ∧
    (∀ i ∈ keysOf env na who L, Lasting (keysOf env na who L) i → i ∈ k.keys ∧ i ∈ k'.keys) ∧
    (Orderly (keysOf env na who L) → k.keys = k'.keys ∧ k.groupKeys = k'.groupKeys) := by
  intro k k'
  have hmem : ∀ i, i ∈ keysOf env na who L' ↔ i ∈ keysOf env na who L := by
    intro i
    simp only [keysOf, mem_flatMap, hsame]
  have hstart : Collects (keysOf env na who L) [] (empty na who).keys := collects_nil _
  have hbrings : ∀ M : List KeyMessage, (∀ m ∈ M, m ∈ L) →
      ∀ m ∈ M, ∀ i ∈ m.brings env na who, i ∈ keysOf env na who L :=
    fun M hM m hm i hi => mem_flatMap.mpr ⟨m, hM m hm, hi⟩
  obtain ⟨hk, hp⟩ := receiveAll_collects env na hdistinct rfl rfl hstart (by simp)
    (hbrings L fun m hm => hm)
  obtain ⟨hk', hp'⟩ := receiveAll_collects env na hdistinct rfl rfl hstart (by simp)
    (hbrings L' fun m hm => (hsame m).mpr hm)
  rw [nil_append] at hk hk'
  have hpend : k.pendingKeyConfig = [] := hp
  have hpend' : k'.pendingKeyConfig = [] := hp'
  have hlast : k.keys.getLast? = k'.keys.getLast? := by
    by_cases hnil : keysOf env na who L = []
    · have hnone : ∀ M : List KeyInfo, (∀ i ∈ M, i ∈ keysOf env na who L) → M = [] := fun M hM =>
        eq_nil_iff_forall_not_mem.mpr fun i hi => by simpa [hnil] using hM i hi
      have h1 : k.keys = [] := hnone _ hk.subset
      have h2 : k'.keys = [] := hnone _ fun i hi => (hmem i).mp (hk'.subset i hi)
      rw [h1, h2]
    obtain ⟨i, hi⟩ := exists_mem_of_ne_nil _ hnil
    obtain ⟨last, hl, hmax⟩ := Finset.exists_max_image (keysOf env na who L).toFinset id
      ⟨i, by simpa using hi⟩
    have hl' : last ∈ keysOf env na who L := by simpa using hl
    have hmax' : ∀ c ∈ keysOf env na who L, c ≤ last := fun c hc => hmax c (by simpa using hc)
    exact (hk.getLast? (fun i => Iff.rfl) hl' hmax').trans (hk'.getLast? hmem hl' hmax').symm
  refine ⟨timesExact_of_inSysTime htimes, ?_, fun i hi hlasting => ⟨hk.lasting i hi hlasting,
    hk'.lasting i ((hmem i).mpr hi) hlasting⟩, fun horderly => ?_⟩
  · simp [groupEncKey, hpend, hpend', hlast]
  have hkeys : k.keys = k'.keys := hk.sorted.ext hk'.sorted fun i => by
    rw [hk.mem_iff (fun i => Iff.rfl) horderly, hk'.mem_iff hmem horderly]
  exact ⟨hkeys, by simp [groupKeys, hpend, hpend', hkeys]⟩

def sampleEnv : Env := Env.bencode (tableHash [])

def sampleAdmin : Identity :=
  let sk := SecretKey.ofSeed ⟨List.replicate 32 1, by decide⟩ ⟨List.replicate 32 2, by decide⟩
  ⟨sk, sk.pk, some sk⟩

def sampleRekey (generation day : Int) : KeyMessage where
  hash := bytes (toString generation)
  data :=
    let sk := sampleAdmin.userSk
    signedMessage sampleEnv plainSodium sk
      (Keys.rekeyPairs plainSodium sk (Keys.rekeyHash plainSodium sk [] generation) generation [])
  timestampMs := day * (24 * 60 * 60 * 1000)

/-- Keys whose timestamps follow the generations: the first is dropped, whatever comes last. -/
theorem keys_order_independent_rotation :
    let L := [sampleRekey 0 0, sampleRekey 1 10, sampleRekey 2 100]
    let L' := [sampleRekey 2 100, sampleRekey 1 10, sampleRekey 2 100, sampleRekey 0 0]
    let all := keysOf sampleEnv plainSodium sampleAdmin L
    let load := fun L => receiveAll sampleEnv plainSodium L (empty plainSodium sampleAdmin)
    Distinct all ∧ Orderly all ∧ (load L).keys.map KeyInfo.generation = [1, 2] ∧
      (load L).keys = (load L').keys := by
  have hsame : ∀ a b c m : KeyMessage, m ∈ [a, b, c] ↔ m ∈ [c, b, c, a] := by
    intro a b c m
    simp only [mem_cons, not_mem_nil, or_false]
    tauto
  have hdistinct : Distinct (keysOf sampleEnv plainSodium sampleAdmin
      [sampleRekey 0 0, sampleRekey 1 10, sampleRekey 2 100]) := by decide +kernel
  have horderly : Orderly (keysOf sampleEnv plainSodium sampleAdmin
      [sampleRekey 0 0, sampleRekey 1 10, sampleRekey 2 100]) :=
    Orderly.of_timestamps (by decide +kernel)
  have htimes : ∀ i ∈ keysOf sampleEnv plainSodium sampleAdmin
      [sampleRekey 0 0, sampleRekey 1 10, sampleRekey 2 100], InSysTime i.timestamp := by
    decide +kernel
  refine ⟨hdistinct, horderly, by decide +kernel, ?_⟩
  exact ((keys_order_independent sampleEnv plainSodium sampleAdmin _ _ (hsame _ _ _) hdistinct
    htimes).2.2.2 horderly).1

/-- **The order decides which keys are left.** Generation 3 was stored before generation 2, so the
first generation is dropped only while generation 2 is the last. -/
theorem keys_depend_on_order :
    let load := fun L => receiveAll sampleEnv plainSodium L (empty plainSodium sampleAdmin)
    let k := load [sampleRekey 0 0, sampleRekey 1 10, sampleRekey 2 100, sampleRekey 3 20]
    let k' := load [sampleRekey 0 0, sampleRekey 1 10, sampleRekey 3 20, sampleRekey 2 100]
    Distinct (keysOf sampleEnv plainSodium sampleAdmin
      [sampleRekey 0 0, sampleRekey 1 10, sampleRekey 2 100, sampleRekey 3 20]) ∧
    k.keys.map KeyInfo.generation = [1, 2, 3] ∧ k'.keys.map KeyInfo.generation = [0, 1, 2, 3] ∧
    k.keys ≠ k'.keys ∧ k.groupKeys.length = 3 ∧ k'.groupKeys.length = 4 := by
  decide +kernel

end Bchat.Groups
