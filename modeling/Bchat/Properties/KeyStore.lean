import Bchat.Properties.KeyOrder

/-!
# Runs of a keys object

What holds of the keys and of the active messages after any sequence of loaded messages, rekeys,
dumps and restarts. Beside the object stand the generations accepted so far, and the dumps, each
with the generations accepted until then.
-/

namespace Bchat.Groups

open Config Bencode List SortedMap Keys

variable {gens : List Int} {k k' : Keys} {active : ActiveMsgs}

/-! ## The invariant -/

/-- The keys are in order and without duplicates, among them one of the highest generation that was
accepted, and no message is from before the first key. -/
structure Keeps (gens : List Int) (k : Keys) : Prop where
  sorted : Sorted k.keys
  distinct : Distinct k.keys
  highest : ∀ g ∈ gens, ∃ last ∈ k.keys.getLast?, g ≤ last.generation
  accepted : ∀ i ∈ k.keys, i.generation ∈ gens
  activeSorted : SortedMap.Sorted k.activeMsgs
  active : ∀ p ∈ k.activeMsgs, ∃ front ∈ k.keys.head?, front.generation ≤ p.1

lemma keeps_empty (na : Sodium) (who : Identity) : Keeps [] (empty na who) where
  sorted := Pairwise.nil
  distinct := by
    intro a ha
    cases ha
  highest := by simp
  accepted := by
    intro i hi
    cases hi
  activeSorted := sorted_nil
  active := by
    intro p hp
    cases hp

lemma Keeps.congr (h : Keeps gens k) (hkeys : k'.keys = k.keys)
    (hactive : k'.activeMsgs = k.activeMsgs) : Keeps gens k' := by
  refine ⟨?_, ?_, ?_, ?_, ?_, ?_⟩
  · exact hkeys ▸ h.sorted
  · exact hkeys ▸ h.distinct
  · exact hkeys ▸ h.highest
  · exact hkeys ▸ h.accepted
  · exact hactive ▸ h.activeSorted
  · exact hkeys ▸ hactive ▸ h.active

lemma Keeps.exists_highest (h : Keeps gens k) {g : Int} (hg : g ∈ gens)
    (hmax : ∀ g' ∈ gens, g' ≤ g) : ∃ i ∈ k.keys, i.generation = g := by
  obtain ⟨last, hl, hle⟩ := h.highest g hg
  have hmem := mem_of_getLast? hl
  exact ⟨last, hmem, le_antisymm (hmax _ (h.accepted last hmem)) hle⟩

/-! ## Messages -/

lemma ActiveMsgs.sorted_add (h : SortedMap.Sorted active) (g : Int) (hash : MsgId) :
    SortedMap.Sorted (active.add g hash) :=
  h.insert

lemma ActiveMsgs.mem_add {g : Int} {hash : MsgId} {p : Int × Finset MsgId}
    (h : p ∈ active.add g hash) : p.1 = g ∨ p ∈ active := by
  rcases mem_insert h with rfl | hp
  · exact Or.inl rfl
  · exact Or.inr hp

lemma activeFor_spec (h : SortedMap.Sorted active) (keys : List KeyInfo) :
    SortedMap.Sorted (activeFor keys active) ∧
      ∀ p ∈ activeFor keys active, ∃ front ∈ keys.head?, front.generation ≤ p.1 := by
  cases keys with
  | nil => exact ⟨sorted_nil, by simp [activeFor]⟩
  | cons front rest =>
    have heq : activeFor (front :: rest) active =
        active.filter (fun p => !decide (p.1 < front.generation)) := by
      have hmono : ∀ g g' : Int, g < g' → decide (g' < front.generation) = true →
          decide (g < front.generation) = true := by
        intro g g' hgg hlt
        simp only [decide_eq_true_eq] at hlt ⊢
        omega
      rw [activeFor, h.dropWhile_eq_filter hmono]
    rw [heq]
    refine ⟨h.filter _, fun p hp => ⟨front, rfl, ?_⟩⟩
    have := (mem_filter.mp hp).2
    simpa using this

section

variable {gens : List Int} {k : Keys}

lemma Keeps.removeExpired (hsorted : Sorted k.keys) (hdistinct : Distinct k.keys)
    (hhighest : ∀ g ∈ gens, ∃ last ∈ k.keys.getLast?, g ≤ last.generation)
    (haccepted : ∀ i ∈ k.keys, i.generation ∈ gens) (hactive : SortedMap.Sorted k.activeMsgs) :
    Keeps gens k.removeExpired := by
  obtain ⟨hs, hfront⟩ := activeFor_spec hactive (unexpired k.keys)
  have hsub : ∀ i ∈ unexpired k.keys, i ∈ k.keys := fun i => mem_of_mem_unexpired hsorted
  refine ⟨sorted_unexpired hsorted, ?_, ?_, fun i hi => haccepted i (hsub i hi), hs, hfront⟩
  · exact fun a ha b hb => hdistinct a (hsub a ha) b (hsub b hb)
  intro g hg
  show ∃ last ∈ (unexpired k.keys).getLast?, g ≤ last.generation
  rw [getLast?_unexpired hsorted]
  exact hhighest g hg

lemma Keeps.insertKey (h : Keeps gens k) (hash : MsgId) (new : KeyInfo) :
    Keeps (gens ++ [new.generation]) (k.insertKey hash new) := by
  have hacc : ∀ i ∈ k.keys, i.generation ∈ gens ++ [new.generation] := fun i hi =>
    mem_append_left _ (h.accepted i hi)
  -- the last key is not before the new one, if that is not the last
  have hhighest : ∀ i ∈ k.keys, new.generation ≤ i.generation →
      ∀ g ∈ gens ++ [new.generation], ∃ last ∈ k.keys.getLast?, g ≤ last.generation := by
    intro i hi hle g hg
    rcases mem_append.mp hg with hg | hg
    · exact h.highest g hg
    obtain ⟨last, hl, hil⟩ := h.highest i.generation (h.accepted i hi)
    rw [mem_singleton.mp hg]
    exact ⟨last, hl, hle.trans hil⟩
  obtain ⟨⟨i, hi, hg, -⟩, heq⟩ | ⟨-, heq, front, last, hf, -, hlt, -⟩ | ⟨hknown, hnotin, heq⟩ :=
    insertKey_cases hash new h.sorted <;> rw [heq]
  · refine ⟨h.sorted, h.distinct, hhighest i hi hg.ge, hacc,
      ActiveMsgs.sorted_add h.activeSorted _ _, fun p hp => ?_⟩
    rcases ActiveMsgs.mem_add hp with hpg | hp
    · obtain ⟨front, hf⟩ : ∃ front, k.keys.head? = some front :=
        Option.ne_none_iff_exists'.mp (mt head?_eq_none_iff.mp (ne_nil_of_mem hi))
      have hle := KeyInfo.generation_le_of_le (h.sorted.head_le hf hi)
      exact ⟨front, hf, by omega⟩
    · exact h.active p hp
  · exact ⟨h.sorted, h.distinct, hhighest front (mem_of_mem_head? hf) hlt.le, hacc,
      h.activeSorted, h.active⟩
  refine Keeps.congr (Keeps.removeExpired (sorted_insertSorted h.sorted hnotin) ?_ ?_ ?_
    (ActiveMsgs.sorted_add h.activeSorted _ _)) rfl rfl
  · intro a ha b hb hg hk
    rcases mem_insertSorted.mp ha with han | ha'
    · rcases mem_insertSorted.mp hb with hbn | hb'
      · rw [han, hbn]
      · rw [han] at hg hk
        exact absurd ⟨b, hb', hg.symm, hk.symm⟩ hknown
    rcases mem_insertSorted.mp hb with hbn | hb'
    · rw [hbn] at hg hk
      exact absurd ⟨a, ha', hg, hk⟩ hknown
    · exact h.distinct a ha' b hb' hg hk
  · intro g hg
    have hsorted := sorted_insertSorted h.sorted hnotin
    have hmem : new ∈ insertSorted new k.keys := mem_insertSorted.mpr (Or.inl rfl)
    obtain ⟨last, hl⟩ : ∃ last, (insertSorted new k.keys).getLast? = some last :=
      Option.ne_none_iff_exists'.mp (mt getLast?_eq_none_iff.mp (ne_nil_of_mem hmem))
    refine ⟨last, hl, ?_⟩
    rcases mem_append.mp hg with hg | hg
    · obtain ⟨last', hl', hle⟩ := h.highest g hg
      have hin : last' ∈ insertSorted new k.keys :=
        mem_insertSorted.mpr (Or.inr (mem_of_getLast? hl'))
      exact hle.trans (KeyInfo.generation_le_of_le (hsorted.le_getLast hl hin))
    · rw [mem_singleton.mp hg]
      exact KeyInfo.generation_le_of_le (hsorted.le_getLast hl hmem)
  intro i hi
  rcases mem_insertSorted.mp hi with rfl | hi
  · simp
  · exact hacc i hi

lemma Keeps.insertKeys (hash : MsgId) (news : List KeyInfo) (h : Keeps gens k) :
    Keeps (gens ++ news.map KeyInfo.generation)
      (news.foldl (fun k new => k.insertKey hash new) k) := by
  induction news generalizing gens k with
  | nil => simpa using h
  | cons new news ih =>
    have hrest := ih (h.insertKey hash new)
    rw [append_assoc, singleton_append] at hrest
    exact hrest

@[simp] lemma Keys.settlePending_activeMsgs (news : List KeyInfo) (k : Keys) :
    (k.settlePending news).activeMsgs = k.activeMsgs := by
  unfold settlePending
  split
  · split <;> rfl
  · rfl

lemma Keeps.applyContent (h : Keeps gens k) (hash : MsgId) (content : KeyContent) :
    Keeps (gens ++ content.newKeys.map KeyInfo.generation) (k.applyContent hash content).2 := by
  have hk : Keeps gens (k.settlePending content.newKeys) :=
    h.congr (settlePending_keys _ _) (settlePending_activeMsgs _ _)
  unfold Keys.applyContent
  generalize k.settlePending content.newKeys = k' at hk
  cases content.newKeys with
  | nil =>
    rw [map_nil, append_nil]
    cases content.maxGen with
    | none => exact hk
    | some gen =>
      exact Keeps.congr (k :=
          Keys.removeExpired { k' with activeMsgs := k'.activeMsgs.add gen hash })
        (Keeps.removeExpired hk.sorted hk.distinct hk.highest hk.accepted
          (ActiveMsgs.sorted_add hk.activeSorted gen hash)) rfl rfl
  | cons new news => exact hk.insertKeys hash (new :: news)

end

/-! ## Restarts -/

lemma InSysTime.inInt64 {ms : Int} (h : InSysTime ms) : InInt64 ms := by
  unfold InSysTime at h
  unfold InInt64
  omega

lemma readKeyInfo_keyInfoPairs (errors : Keys.KeyInfoErrors) {i : KeyInfo}
    (hg : InInt64 i.generation) (ht : InInt64 i.timestamp) :
    readKeyInfo errors (.dict (keyInfoPairs i)) = .ok i := by
  simp [readKeyInfo, keyInfoPairs, requireInt64, requireStr, skipUntil_cons_self, hg, ht, i.key.2]

lemma eq_of_readKeyInfo {errors : Keys.KeyInfoErrors} {i k : KeyInfo}
    (h : readKeyInfo errors (.dict (keyInfoPairs i)) = .ok k) : k = i := by
  by_cases hg : InInt64 i.generation
  · by_cases ht : InInt64 i.timestamp
    · rw [readKeyInfo_keyInfoPairs errors hg ht] at h
      exact (Except.ok.inj h).symm
    · simp [readKeyInfo, keyInfoPairs, requireInt64, requireStr,
        skipUntil_cons_self, hg, ht, i.key.2, bind, Except.bind] at h
  · simp [readKeyInfo, keyInfoPairs, requireInt64, skipUntil_cons_self, hg, bind, Except.bind] at h

lemma loadKeys_keyInfoPairs {keys ks : List KeyInfo} {prev : Option KeyInfo}
    (h : loadKeys prev (keys.map fun i => .dict (keyInfoPairs i)) = .ok ks) : ks = keys := by
  induction keys generalizing prev ks with
  | nil =>
    cases h
    rfl
  | cons i keys ih =>
    obtain ⟨k, hk, h⟩ := bind_eq_ok.mp h
    split at h
    · cases h
    obtain ⟨ks', hks, h⟩ := bind_eq_ok.mp h
    cases h
    rw [eq_of_readKeyInfo hk, ih hks]

lemma loadActive_activeRow {acc out : ActiveMsgs} (hsorted : SortedMap.Sorted (acc ++ active))
    (h : loadActive (active.map activeRow) acc = .ok out) : out = acc ++ active := by
  induction active generalizing acc with
  | nil =>
    cases h
    simp
  | cons p active ih =>
    obtain ⟨g, ids⟩ := p
    obtain ⟨-, -, hlt⟩ := sorted_append.mp hsorted
    have hlt' : ∀ q ∈ acc, q.1 < g := fun q hq => hlt q hq (g, ids) mem_cons_self
    have hnone : SortedMap.find? g acc = none := find?_eq_none_iff.mpr fun q hq => (hlt' q hq).ne
    rw [map_cons, activeRow, loadActive] at h
    split at h
    · have hins := insert_eq_append (v := ids) hlt'
      rw [idsOfBt_map_str, Finset.sort_toFinset, hnone, ok_bind, Option.getD_none,
        Finset.empty_union, hins] at h
      rw [← singleton_append, ← append_assoc] at hsorted ⊢
      exact ih hsorted h
    · cases h

lemma loadPending_spec {d : BtDict} (h : k.loadPending d = .ok k') :
    k'.keys = k.keys ∧ k'.activeMsgs = k.activeMsgs := by
  obtain ⟨⟨config, d⟩, -, h⟩ := bind_eq_ok.mp h
  obtain ⟨⟨gen, d⟩, -, h⟩ := bind_eq_ok.mp h
  obtain ⟨⟨key, d⟩, -, h⟩ := bind_eq_ok.mp h
  dsimp only at h
  split at h
  · cases h
    exact ⟨rfl, rfl⟩
  · cases h

lemma loadDump_dumpPairs {env : Env} {na : Sodium} {who : Identity}
    (hactive : SortedMap.Sorted k.activeMsgs)
    (h : (empty na who).loadDump env (env.encode k.dumpPairs) = .ok k') :
    k'.keys = k.keys ∧ k'.activeMsgs = k.activeMsgs := by
  simp only [loadDump, env.read_encode, dumpPairs, cons_append, nil_append,
    skipUntil_cons_self] at h
  obtain ⟨active, hact, h⟩ := bind_eq_ok.mp h
  obtain ⟨keys, hkeys, h⟩ := bind_eq_ok.mp h
  have hact' : active = [] ++ k.activeMsgs := loadActive_activeRow hactive hact
  have hkeys' : keys = k.keys := loadKeys_keyInfoPairs hkeys
  rw [hact', hkeys'] at h
  split at h
  · cases h
    exact ⟨rfl, rfl⟩
  · obtain ⟨hk, ha⟩ := loadPending_spec h
    exact ⟨hk, ha⟩
  · cases h

lemma Keeps.make {env : Env} {na : Sodium} {userSk : SecretKey} {groupPk : Key}
    {groupSk : Option SecretKey} (h : Keeps gens k)
    (hk : make env na userSk groupPk groupSk (some (k.dump env).1) = .ok k') : Keeps gens k' := by
  obtain ⟨who, -, hk⟩ := bind_eq_ok.mp hk
  obtain ⟨hkeys, hactive⟩ := loadDump_dumpPairs h.activeSorted hk
  exact h.congr hkeys hactive

/-! ## Runs -/

structure KeyStore where
  object : Keys
  accepted : List Int
  dumps : List (Bytes × List Int)

/-- What can be done with a store. A restart names the dump it loads. -/
inductive KeyOp
  | load (m : KeyMessage)
  | rekey (members : List Bytes)
  | loadAdminKey (secret : Bytes)
  | dump
  | restore (userSk : SecretKey) (groupPk : Key) (groupSk : Option SecretKey) (i : Nat)

namespace KeyStore

variable (env : Env) (na : Sodium)

def step (s : KeyStore) : KeyOp → KeyStore
  | .load m =>
    { s with
      object := s.object.receive env na m
      accepted := s.accepted ++ (m.brings env na s.object.toIdentity).map KeyInfo.generation }
  | .rekey members =>
    match s.object.rekey env na members with
    | .ok r => { s with object := r.2 }
    | .error _ => s
  | .loadAdminKey secret =>
    match s.object.loadAdminKey na secret with
    | .ok k => { s with object := k }
    | .error _ => s
  | .dump =>
    let r := s.object.dump env
    { s with object := r.2, dumps := s.dumps ++ [(r.1, s.accepted)] }
  | .restore userSk groupPk groupSk i =>
    match s.dumps[i]? with
    | some (dumped, accepted) =>
      match Keys.make env na userSk groupPk groupSk (some dumped) with
      | .ok k => { s with object := k, accepted := accepted }
      | .error _ => s
    | none => s

def start (who : Identity) : KeyStore := ⟨Keys.empty na who, [], []⟩

def run (ops : List KeyOp) (s : KeyStore) : KeyStore := ops.foldl (step env na) s

structure Good (s : KeyStore) : Prop where
  object : Keeps s.accepted s.object
  dumps : ∀ d ∈ s.dumps, ∃ k, d.1 = (Keys.dump env k).1 ∧ Keeps d.2 k

variable {env na}

lemma rekey_spec {members : List Bytes} {r : Bytes × Keys} (h : k.rekey env na members = .ok r) :
    r.2.keys = k.keys ∧ r.2.activeMsgs = k.activeMsgs := by
  unfold rekey at h
  split at h
  · cases h
  obtain ⟨xpk, -, h⟩ := bind_eq_ok.mp h
  obtain ⟨xpks, -, h⟩ := bind_eq_ok.mp h
  obtain ⟨memberKeys, -, h⟩ := bind_eq_ok.mp h
  cases h
  exact ⟨rfl, rfl⟩

lemma loadAdminKey_spec {secret : Bytes} (h : k.loadAdminKey na secret = .ok k') :
    k'.keys = k.keys ∧ k'.activeMsgs = k.activeMsgs := by
  unfold loadAdminKey at h
  split at h
  · cases h
    exact ⟨rfl, rfl⟩
  split at h
  · dsimp only at h
    split at h
    · cases h
    · cases h
      exact ⟨rfl, rfl⟩
  · cases h

/-- What a call does that is not a message: the object stays the same as far as its keys go, which
may be recorded in a dump, or it is made from a dump. -/
lemma step_cases (s : KeyStore) (op : KeyOp) : (∃ m, op = .load m) ∨
    (∃ k', k'.keys = s.object.keys ∧ k'.activeMsgs = s.object.activeMsgs ∧
      (s.step env na op = { s with object := k' } ∨ s.step env na op = { s with
        object := k', dumps := s.dumps ++ [((s.object.dump env).1, s.accepted)] })) ∨
    ∃ d ∈ s.dumps, ∃ userSk groupPk groupSk k', make env na userSk groupPk groupSk (some d.1) =
      .ok k' ∧ s.step env na op = { s with object := k', accepted := d.2 } := by
  cases op with
  | load m => exact .inl ⟨m, rfl⟩
  | rekey members =>
    cases hr : s.object.rekey env na members with
    | error e => exact .inr (.inl ⟨s.object, rfl, rfl, .inl (by simp only [KeyStore.step, hr])⟩)
    | ok r =>
      obtain ⟨hkeys, hactive⟩ := rekey_spec hr
      exact .inr (.inl ⟨r.2, hkeys, hactive, .inl (by simp only [KeyStore.step, hr])⟩)
  | loadAdminKey secret =>
    cases hr : s.object.loadAdminKey na secret with
    | error e => exact .inr (.inl ⟨s.object, rfl, rfl, .inl (by simp only [KeyStore.step, hr])⟩)
    | ok k =>
      obtain ⟨hkeys, hactive⟩ := loadAdminKey_spec hr
      exact .inr (.inl ⟨k, hkeys, hactive, .inl (by simp only [KeyStore.step, hr])⟩)
  | dump => exact .inr (.inl ⟨(s.object.dump env).2, rfl, rfl, .inr rfl⟩)
  | restore userSk groupPk groupSk i =>
    cases hd : s.dumps[i]? with
    | none => exact .inr (.inl ⟨s.object, rfl, rfl, .inl (by simp only [KeyStore.step, hd])⟩)
    | some d =>
      cases hm : make env na userSk groupPk groupSk (some d.1) with
      | error e =>
        exact .inr (.inl ⟨s.object, rfl, rfl, .inl (by simp only [KeyStore.step, hd, hm])⟩)
      | ok k' => exact .inr (.inr ⟨d, mem_of_getElem? hd, userSk, groupPk, groupSk, k', hm,
          by simp only [KeyStore.step, hd, hm]⟩)

lemma Good.step {s : KeyStore} (h : Good env s) (op : KeyOp) : Good env (s.step env na op) := by
  rcases step_cases s op with ⟨m, rfl⟩ | ⟨k', hkeys, hactive, heq | heq⟩ |
    ⟨d, hd, userSk, groupPk, groupSk, k', hm, heq⟩
  · refine ⟨?_, h.dumps⟩
    show Keeps (s.accepted ++ (m.brings env na s.object.toIdentity).map KeyInfo.generation)
      (s.object.receive env na m)
    obtain ⟨content, -, heq, hb⟩ | ⟨heq, hb⟩ := receive_eq env na s.object m
    · rw [heq, hb]
      exact h.object.applyContent m.hash content
    · rw [heq, hb, map_nil, append_nil]
      exact h.object
  · rw [heq]
    exact ⟨h.object.congr hkeys hactive, h.dumps⟩
  · rw [heq]
    exact ⟨h.object.congr hkeys hactive,
      forall_mem_append.mpr ⟨h.dumps, forall_mem_singleton.mpr ⟨s.object, rfl, h.object⟩⟩⟩
  obtain ⟨k, hk, hkeeps⟩ := h.dumps d hd
  rw [heq]
  exact ⟨hkeeps.make (hk ▸ hm), h.dumps⟩

lemma run_good (who : Identity) (ops : List KeyOp) : Good env (run env na ops (start na who)) := by
  have hrun : ∀ (ops : List KeyOp) (s : KeyStore), Good env s → Good env (run env na ops s) := by
    intro ops
    induction ops with
    | nil => exact fun s hs => hs
    | cons op ops ih => exact fun s hs => ih (s.step env na op) (hs.step op)
  exact hrun ops (start na who) ⟨keeps_empty na who, by simp [start]⟩

end KeyStore

lemma groupEncKey_eq (k : Keys) : k.groupEncKey = match k.groupKeys with
    | key :: _ => .ok key
    | [] => .error (.runtime "group_enc_key failed: Keys object has no keys at all!") := by
  unfold groupEncKey groupKeys
  by_cases hp : k.pendingKeyConfig.isEmpty = true
  · cases hl : k.keys.getLast? with
    | none =>
      rw [getLast?_eq_none_iff.mp hl]
      simp [hp]
    | some last =>
      obtain ⟨init, heq⟩ := getLast?_eq_some_iff.mp hl
      rw [heq]
      simp [hp]
  · simp [hp]

/-- **The key store in any run** from an object without keys: the keys are strictly increasing, a
key of the highest generation accepted is among them, no message is active from before the first
key, and the first of the group keys encrypts. -/
theorem key_store_invariant (env : Env) (na : Sodium) (who : Identity) (ops : List KeyOp) :
    let s := KeyStore.run env na ops (KeyStore.start na who)
    s.object.keys.Pairwise (· < ·) ∧
    (∀ a ∈ s.object.keys, ∀ b ∈ s.object.keys,
      a.generation = b.generation → a.key = b.key → a = b) ∧
    (∀ g ∈ s.accepted, (∀ g' ∈ s.accepted, g' ≤ g) → ∃ i ∈ s.object.keys, i.generation = g) ∧
    (∀ p ∈ s.object.activeMsgs, ∀ i ∈ s.object.keys.head?, i.generation ≤ p.1) ∧
    (s.object.keys = [] → s.object.activeMsgs = []) ∧
    s.object.groupEncKey = (match s.object.groupKeys with
      | key :: _ => .ok key
      | [] => .error (.runtime "group_enc_key failed: Keys object has no keys at all!")) := by
  intro s
  have h : Keeps s.accepted s.object := (KeyStore.run_good who ops).object
  refine ⟨h.sorted, h.distinct, fun g hg hmax => h.exists_highest hg hmax, ?_, ?_,
    groupEncKey_eq s.object⟩
  · intro p hp i hi
    obtain ⟨front, hf, hle⟩ := h.active p hp
    rw [Option.mem_unique hi hf]
    exact hle
  intro hnil
  refine eq_nil_iff_forall_not_mem.mpr fun p hp => ?_
  obtain ⟨front, hf, -⟩ := h.active p hp
  rw [hnil] at hf
  cases hf

end Bchat.Groups
