import Bchat.Properties.KeyContent
import Bchat.Properties.KeyStore

/-!
# What a keys object forgets to save

An object that has changed since its last dump has to say so (`needs_dump()`), and a dump has to
bring everything back.
-/

namespace Bchat.Groups

open Config Bencode List Keys

variable {active : ActiveMsgs} {new : KeyInfo} {news keys : List KeyInfo} {content : KeyContent}

/-! ## The active messages -/

def ActiveMsgs.of (g : Int) (active : ActiveMsgs) : Finset MsgId :=
  (SortedMap.find? g active).getD ∅

lemma ActiveMsgs.of_add (g g' : Int) (hash : MsgId) (active : ActiveMsgs) :
    (active.add g hash).of g' = if g = g' then insert hash (active.of g) else active.of g' := by
  rw [of, add, SortedMap.find?_insert]
  split
  · rfl
  · rfl

lemma ActiveMsgs.of_subset_add (g g' : Int) (hash : MsgId) (active : ActiveMsgs) :
    active.of g' ⊆ (active.add g hash).of g' := by
  rw [of_add]
  split
  · next hg =>
    rw [hg]
    exact Finset.subset_insert _ _
  · exact Finset.Subset.refl _

lemma ActiveMsgs.add_of_mem {g : Int} {hash : MsgId} (hs : SortedMap.Sorted active)
    (h : hash ∈ active.of g) : active.add g hash = active := by
  cases hf : SortedMap.find? g active with
  | none =>
    rw [of, hf] at h
    simp at h
  | some ids =>
    have hmem : hash ∈ ids := by simpa [of, hf] using h
    refine SortedMap.ext hs.insert hs fun g' => ?_
    rw [add, SortedMap.find?_insert]
    split
    · next hg => rw [← hg, hf, Option.getD_some, Finset.insert_eq_of_mem hmem]
    · rfl

lemma activeRow_injective : Function.Injective activeRow := by
  rintro ⟨g, ids⟩ ⟨g', ids'⟩ h
  have hrow : Bt.int g :: ids.sort.map Bt.str = Bt.int g' :: ids'.sort.map Bt.str := Bt.list.inj h
  obtain ⟨hg, hids⟩ := cons.inj hrow
  have hsort : ids.sort = ids'.sort := map_injective_iff.mpr (fun a b hab => Bt.str.inj hab) hids
  have hset : ids = ids' := by
    have := congrArg toFinset hsort
    rwa [Finset.sort_toFinset, Finset.sort_toFinset] at this
  rw [Bt.int.inj hg, hset]

lemma activeMsgs_of_dumpPairs {k k' : Keys} (h : k.dumpPairs = k'.dumpPairs) :
    k.activeMsgs = k'.activeMsgs := by
  have hrows : Bt.list (k.activeMsgs.map activeRow) = Bt.list (k'.activeMsgs.map activeRow) :=
    (Prod.mk.inj (cons.inj h).1).2
  exact map_injective_iff.mpr activeRow_injective (Bt.list.inj hrows)

/-! ## The flag -/

namespace Keys

variable {k : Keys} {hash : MsgId}

lemma insertKey_needsDump_of_true (new : KeyInfo) (h : k.needsDump = true) :
    (k.insertKey hash new).needsDump = true := by
  unfold insertKey
  split
  · exact h
  split
  · exact h
  · rfl

lemma foldl_insertKey_needsDump_of_true (news : List KeyInfo) (h : k.needsDump = true) :
    (news.foldl (fun k new => k.insertKey hash new) k).needsDump = true := by
  induction news generalizing k with
  | nil => exact h
  | cons new news ih => exact ih (insertKey_needsDump_of_true new h)

def Adds (k : Keys) (new : KeyInfo) : Prop := ¬k.Knows new ∧ isStale new k.keys = false

instance (k : Keys) (new : KeyInfo) : Decidable (k.Adds new) :=
  inferInstanceAs (Decidable (¬(∃ i ∈ k.keys, _) ∧ _))

def recordOne (keys : List KeyInfo) (hash : MsgId) (active : ActiveMsgs) (new : KeyInfo) :
    ActiveMsgs :=
  if (equalRange new.generation keys).any (fun i => i.key = new.key)
  then active.add new.generation hash else active

/-- The active messages after the keys of a message of which none is added. -/
def recordKnown (keys : List KeyInfo) (hash : MsgId) (news : List KeyInfo) (active : ActiveMsgs) :
    ActiveMsgs :=
  news.foldl (recordOne keys hash) active

lemma insertKey_of_not_adds (hash : MsgId) (hs : Sorted k.keys) (h : ¬k.Adds new) :
    k.insertKey hash new = { k with activeMsgs := recordOne k.keys hash k.activeMsgs new } := by
  unfold insertKey recordOne
  by_cases hany : (equalRange new.generation k.keys).any (fun i => i.key = new.key) = true
  · rw [if_pos hany, if_pos hany]
  have hstale : isStale new k.keys = true := by
    by_contra hno
    exact h ⟨fun hk => hany ((any_equalRange_iff hs new).mpr hk), by simpa using hno⟩
  rw [if_neg hany, if_neg hany, if_pos hstale]

/-- **Keys of which none is added change the active messages only.** -/
lemma foldl_insertKey_of_not_adds (hash : MsgId) (hs : Sorted k.keys)
    (h : ∀ new ∈ news, ¬k.Adds new) : news.foldl (fun k new => k.insertKey hash new) k =
      { k with activeMsgs := recordKnown k.keys hash news k.activeMsgs } := by
  induction news generalizing k with
  | nil => rfl
  | cons new news ih =>
    obtain ⟨hnew, hnews⟩ := forall_mem_cons.mp h
    rw [foldl_cons, insertKey_of_not_adds hash hs hnew]
    exact ih (k := { k with activeMsgs := recordOne k.keys hash k.activeMsgs new }) hs hnews

lemma subset_recordKnown (keys news : List KeyInfo) (hash : MsgId) (active : ActiveMsgs) (g : Int) :
    active.of g ⊆ (recordKnown keys hash news active).of g := by
  induction news generalizing active with
  | nil => exact Finset.Subset.refl _
  | cons new news ih =>
    refine Finset.Subset.trans ?_ (ih (recordOne keys hash active new))
    unfold recordOne
    split
    · exact ActiveMsgs.of_subset_add _ _ _ _
    · exact Finset.Subset.refl _

lemma mem_recordKnown (hash : MsgId) (active : ActiveMsgs) (hnew : new ∈ news)
    (hany : (equalRange new.generation keys).any (fun i => i.key = new.key) = true) :
    hash ∈ (recordKnown keys hash news active).of new.generation := by
  induction news generalizing active with
  | nil => cases hnew
  | cons new' news ih =>
    rcases mem_cons.mp hnew with rfl | hnew
    · refine subset_recordKnown keys news hash (recordOne keys hash active new) _ ?_
      rw [recordOne, if_pos hany, ActiveMsgs.of_add, if_pos rfl]
      exact Finset.mem_insert_self _ _
    · exact ih _ hnew

lemma recordKnown_eq_self (hs : SortedMap.Sorted active)
    (h : ∀ new ∈ news, (equalRange new.generation keys).any (fun i => i.key = new.key) = true →
      hash ∈ active.of new.generation) : recordKnown keys hash news active = active := by
  induction news with
  | nil => rfl
  | cons new news ih =>
    obtain ⟨hnew, hnews⟩ := forall_mem_cons.mp h
    have hone : recordOne keys hash active new = active := by
      unfold recordOne
      split
      · next hany => exact ActiveMsgs.add_of_mem hs (hnew hany)
      · rfl
    rw [recordKnown, foldl_cons, hone]
    exact ih hnews

lemma foldl_insertKey_needsDump_of_adds (hs : Sorted k.keys) (h : ∃ new ∈ news, k.Adds new) :
    (news.foldl (fun k new => k.insertKey hash new) k).needsDump = true := by
  induction news generalizing k with
  | nil =>
    obtain ⟨new, hnew, -⟩ := h
    cases hnew
  | cons new news ih =>
    rw [foldl_cons]
    by_cases hadds : k.Adds new
    · refine foldl_insertKey_needsDump_of_true news ?_
      rcases insertKey_cases hash new hs with ⟨hk, -⟩ | ⟨-, -, hstale⟩ | ⟨-, -, heq⟩
      · exact absurd hk hadds.1
      · exact absurd ((isStale_iff hs).mpr hstale) (by simp [hadds.2])
      · rw [heq]
    -- the list of keys is still the same, so the key that is added is still to come
    rw [insertKey_of_not_adds hash hs hadds]
    obtain ⟨new', hnew', hadds'⟩ := h
    refine ih (k := { k with activeMsgs := _ }) hs ⟨new', ?_, hadds'⟩
    rcases mem_cons.mp hnew' with rfl | hnew'
    · exact absurd hadds' hadds
    · exact hnew'

def Settles (k : Keys) (news : List KeyInfo) : Prop :=
  ∃ first ∈ news.head?, k.admin = true ∧ k.pendingKeyConfig ≠ [] ∧
    (k.pendingGen < first.generation ∨ first.key = k.pendingKey)

lemma settlePending_cases (k : Keys) (news : List KeyInfo) :
    (k.Settles news ∧ k.settlePending news = { k with pendingKeyConfig := [], needsDump := true }) ∨
      (¬k.Settles news ∧ k.settlePending news = k) := by
  cases news with
  | nil => exact .inr ⟨by simp [Settles], rfl⟩
  | cons first news =>
    unfold settlePending
    dsimp only
    split
    · next h => exact .inl ⟨⟨first, rfl, h.1, by simpa using h.2.1, h.2.2⟩, rfl⟩
    rename_i h
    refine .inr ⟨?_, rfl⟩
    rintro ⟨first', hf, hadmin, hpend, hor⟩
    cases hf
    exact h ⟨hadmin, by simpa using hpend, hor⟩

/-- **When a message leaves no change without the flag**: the flag is set before, the message
settles the pending key or adds a key, or it is active already for every known key it brings. -/
def RecordsSaved (k : Keys) (hash : MsgId) (news : List KeyInfo) : Prop :=
  k.needsDump = true ∨ k.Settles news ∨ (∃ new ∈ news, k.Adds new) ∨
    ∀ new ∈ news, k.Knows new → hash ∈ k.activeMsgs.of new.generation

lemma saved_applyContent_iff (hs : Sorted k.keys) (hactive : SortedMap.Sorted k.activeMsgs)
    (hash : MsgId) (content : KeyContent) :
    ((k.applyContent hash content).2.dumpPairs ≠ k.dumpPairs →
        (k.applyContent hash content).2.needsDump = true) ↔
      k.RecordsSaved hash content.newKeys := by
  obtain ⟨news, maxGen, rest⟩ := content
  cases news with
  | nil =>
    refine iff_of_true ?_ (.inr (.inr (.inr (by simp))))
    cases maxGen with
    | none => exact fun h => absurd rfl h
    | some gen => exact fun _ => rfl
  | cons new news =>
    have heq : (k.applyContent hash ⟨new :: news, maxGen, rest⟩).2 =
        (new :: news).foldl (fun k new => k.insertKey hash new)
          (k.settlePending (new :: news)) := rfl
    rw [heq]
    generalize new :: news = news
    rcases settlePending_cases k news with ⟨hset, hk⟩ | ⟨hset, hk⟩
    · rw [hk]
      exact iff_of_true (fun _ => foldl_insertKey_needsDump_of_true news rfl) (.inr (.inl hset))
    rw [hk]
    by_cases hnd : k.needsDump = true
    · exact iff_of_true (fun _ => foldl_insertKey_needsDump_of_true news hnd) (.inl hnd)
    by_cases hadds : ∃ new ∈ news, k.Adds new
    · exact iff_of_true (fun _ => foldl_insertKey_needsDump_of_adds hs hadds)
        (.inr (.inr (.inl hadds)))
    -- only the active messages can change, and the flag stays as it is
    have hnot : ∀ new ∈ news, ¬k.Adds new := fun new hnew ha => hadds ⟨new, hnew, ha⟩
    rw [foldl_insertKey_of_not_adds hash hs hnot]
    constructor
    · intro hsaved
      refine .inr (.inr (.inr fun new hnew hknows => ?_))
      have hsame : ({ k with activeMsgs := recordKnown k.keys hash news k.activeMsgs } :
          Keys).dumpPairs = k.dumpPairs := by
        by_contra hne
        exact hnd (hsaved hne)
      have hrec : recordKnown k.keys hash news k.activeMsgs = k.activeMsgs :=
        activeMsgs_of_dumpPairs hsame
      rw [← hrec]
      exact mem_recordKnown hash k.activeMsgs hnew ((any_equalRange_iff hs new).mpr hknows)
    rintro (h | h | h | h) hne
    · exact absurd h hnd
    · exact absurd h hset
    · exact absurd h hadds
    refine absurd ?_ hne
    rw [recordKnown_eq_self hactive fun new hnew hany =>
      h new hnew ((any_equalRange_iff hs new).mp hany)]

end Keys

/-! ## Numbers that fit -/

def KeyInfo.Fits (i : KeyInfo) : Prop := InInt64 i.generation ∧ InSysTime i.timestamp

/-- The numbers of an object, except for those of a pending key, are `int64_t` values, and its
timestamps fit into the clock. -/
structure Keys.Fits (k : Keys) : Prop where
  keys : ∀ i ∈ k.keys, i.Fits
  active : ∀ p ∈ k.activeMsgs, InInt64 p.1

/-- The numbers a message brings are `int64_t` values. -/
structure KeyContent.Fits (content : KeyContent) : Prop where
  newKeys : ∀ i ∈ content.newKeys, i.Fits
  maxGen : ∀ g ∈ content.maxGen, InInt64 g

section

variable {env : Env} {na : Sodium}

lemma inInt64_of_requireInt64 {key : Bytes} {missing : String} {d rest : BtDict} {i : Int}
    (h : requireInt64 key missing d = .ok (i, rest)) : InInt64 i := by
  unfold requireInt64 at h
  split at h
  · split at h
    · next hin =>
      cases h
      exact hin
    · cases h
  · cases h
  · cases h

lemma inInt64_of_readKeyInfo {errors : Keys.KeyInfoErrors} {v : Bt} {i : KeyInfo}
    (h : readKeyInfo errors v = .ok i) : InInt64 i.generation := by
  unfold readKeyInfo at h
  split at h
  · obtain ⟨⟨g, d⟩, hg, h⟩ := bind_eq_ok.mp h
    obtain ⟨⟨key, d⟩, -, h⟩ := bind_eq_ok.mp h
    dsimp only at h
    split at h
    · obtain ⟨⟨t, d⟩, -, h⟩ := bind_eq_ok.mp h
      cases h
      exact inInt64_of_requireInt64 hg
    · cases h
  · cases h

lemma inInt64_of_readKeyInfos {items : List Bt} (h : readKeyInfos items = .ok keys) :
    ∀ i ∈ keys, InInt64 i.generation := by
  induction items generalizing keys with
  | nil =>
    cases h
    simp
  | cons v items ih =>
    obtain ⟨k, hk, h⟩ := bind_eq_ok.mp h
    obtain ⟨ks, hks, h⟩ := bind_eq_ok.mp h
    cases h
    exact forall_mem_cons.mpr ⟨inInt64_of_readKeyInfo hk, ih hks⟩

lemma inInt64_of_readSuppKeys {plaintext : Bytes} (h : readSuppKeys plaintext = .ok keys) :
    ∀ i ∈ keys, InInt64 i.generation := by
  unfold readSuppKeys at h
  split at h
  · cases h
  obtain ⟨ks, hks, h⟩ := bind_eq_ok.mp h
  split at h
  · cases h
    exact inInt64_of_readKeyInfos hks
  · cases h

/-- **What a message brings fits**, given the timestamp of the swarm does. -/
lemma fits_of_readKeyMessage {who : Identity} {data : Bytes} {timestampMs : Int}
    (ht : ∀ i ∈ content.newKeys, InSysTime i.timestamp)
    (h : readKeyMessage env na who data timestampMs = .ok content) : content.Fits := by
  obtain ⟨pairs, closed, xpk, nonce, rest, curve, rest', r, -, -, -, -, hbody, -⟩ :=
    readKeyMessage_inv h
  rcases hbody with ⟨supp, -, h⟩ | ⟨-, h⟩
  · obtain ⟨newKeys, g, rest₁, -, hg, hkeys, rfl⟩ := readSupplement_inv h
    refine ⟨?_, by simpa using hg⟩
    rcases hkeys with rfl | ⟨plaintext, hkeys⟩
    · simp
    · exact fun i hi => ⟨inInt64_of_readSuppKeys hkeys i hi, ht i hi⟩
  obtain ⟨g, -, -, -, -, -, rest₃, key, -, hg, -, -, -, -, -, -, rfl⟩ := readFull_inv h
  cases key with
  | none => exact ⟨by simp [fullContent], by simpa [fullContent] using hg⟩
  | some key =>
    refine ⟨fun i hi => ⟨?_, ht i hi⟩, by simp [fullContent]⟩
    rw [show i.generation = g by simp_all [fullContent]]
    exact hg

end

/-! ## Every call keeps to the range -/

namespace Keys

variable {k : Keys}

lemma fits_empty (na : Sodium) (who : Identity) : (empty na who).Fits :=
  ⟨by simp [empty], by simp [empty]⟩

lemma Fits.congr {k' : Keys} (h : k.Fits) (hkeys : k'.keys = k.keys)
    (hactive : k'.activeMsgs = k.activeMsgs) : k'.Fits :=
  ⟨hkeys ▸ h.keys, hactive ▸ h.active⟩

lemma Fits.removeExpired (h : k.Fits) (hs : Sorted k.keys) : k.removeExpired.Fits := by
  refine ⟨fun i hi => h.keys i (mem_of_mem_unexpired hs hi), fun p hp => ?_⟩
  have hsub : ∀ keys, (activeFor keys k.activeMsgs).Sublist k.activeMsgs := by
    intro keys
    cases keys with
    | nil => exact nil_sublist _
    | cons front rest => exact dropWhile_sublist _
  exact h.active p ((hsub _).mem hp)

lemma Fits.addActive (h : k.Fits) {g : Int} (hg : InInt64 g) (hash : MsgId) :
    ∀ p ∈ k.activeMsgs.add g hash, InInt64 p.1 := by
  intro p hp
  rcases ActiveMsgs.mem_add hp with hp | hp
  · rw [hp]
    exact hg
  · exact h.active p hp

lemma Fits.insertKey (h : k.Fits) (hs : Sorted k.keys) (hnew : new.Fits) (hash : MsgId) :
    (k.insertKey hash new).Fits := by
  rcases insertKey_cases hash new hs with ⟨-, heq⟩ | ⟨-, heq, -⟩ | ⟨-, hmem, heq⟩ <;> rw [heq]
  · exact ⟨h.keys, h.addActive hnew.1 hash⟩
  · exact h
  refine Fits.congr (Fits.removeExpired (k := { k with
    activeMsgs := k.activeMsgs.add new.generation hash, keys := insertSorted new k.keys })
    ⟨fun i hi => ?_, h.addActive hnew.1 hash⟩ (sorted_insertSorted hs hmem)) rfl rfl
  rcases mem_insertSorted.mp hi with rfl | hi
  · exact hnew
  · exact h.keys i hi

lemma Fits.insertKeys {gens : List Int} (h : k.Fits) (hk : Keeps gens k)
    (hnews : ∀ i ∈ news, i.Fits) (hash : MsgId) :
    (news.foldl (fun k new => k.insertKey hash new) k).Fits := by
  induction news generalizing gens k with
  | nil => exact h
  | cons new news ih =>
    obtain ⟨hnew, hnews⟩ := forall_mem_cons.mp hnews
    exact ih (h.insertKey hk.sorted hnew hash) (hk.insertKey hash new) hnews

lemma Fits.applyContent {gens : List Int} (h : k.Fits) (hk : Keeps gens k) (hc : content.Fits)
    (hash : MsgId) : (k.applyContent hash content).2.Fits := by
  have hfits : (k.settlePending content.newKeys).Fits :=
    h.congr (settlePending_keys _ _) (settlePending_activeMsgs _ _)
  have hkeeps : Keeps gens (k.settlePending content.newKeys) :=
    hk.congr (settlePending_keys _ _) (settlePending_activeMsgs _ _)
  obtain ⟨news, maxGen, rest⟩ := content
  cases news with
  | nil =>
    cases maxGen with
    | none => exact hfits
    | some gen =>
      have hadd := hfits.addActive (hc.maxGen gen rfl) hash
      exact Fits.congr (Fits.removeExpired (k := { k with activeMsgs := k.activeMsgs.add gen hash })
        ⟨h.keys, hadd⟩ hk.sorted) rfl rfl
  | cons new news => exact hfits.insertKeys hkeeps hc.newKeys hash

end Keys

/-- The keys that an operation brings have timestamps that fit into the clock. -/
def KeyOp.InRange (env : Env) (na : Sodium) (k : Keys) : KeyOp → Prop
  | .load m => ∀ i ∈ m.brings env na k.toIdentity, InSysTime i.timestamp
  | _ => True

namespace KeyStore

/-- So it is with every operation of a run. -/
def RunInRange (env : Env) (na : Sodium) : List KeyOp → KeyStore → Prop
  | [], _ => True
  | op :: ops, s => op.InRange env na s.object ∧ RunInRange env na ops (s.step env na op)

variable {env : Env} {na : Sodium}

structure Fits (env : Env) (s : KeyStore) : Prop where
  object : s.object.Fits
  dumps : ∀ d ∈ s.dumps, ∃ k, d.1 = (Keys.dump env k).1 ∧ SortedMap.Sorted k.activeMsgs ∧ k.Fits

lemma Fits.step {s : KeyStore} (h : Fits env s) (hg : Good env s) {op : KeyOp}
    (hop : op.InRange env na s.object) : Fits env (s.step env na op) := by
  rcases step_cases s op with ⟨m, rfl⟩ | ⟨k', hkeys, hactive, heq | heq⟩ |
    ⟨d, hd, userSk, groupPk, groupSk, k', hm, heq⟩
  · refine ⟨?_, h.dumps⟩
    show (s.object.receive env na m).Fits
    obtain ⟨content, hread, heq, hb⟩ | ⟨heq, -⟩ := receive_eq env na s.object m <;> rw [heq]
    · exact h.object.applyContent hg.object (fits_of_readKeyMessage (hb ▸ hop) hread) m.hash
    · exact h.object
  · rw [heq]
    exact ⟨h.object.congr hkeys hactive, h.dumps⟩
  · rw [heq]
    exact ⟨h.object.congr hkeys hactive, forall_mem_append.mpr ⟨h.dumps,
      forall_mem_singleton.mpr ⟨s.object, rfl, hg.object.activeSorted, h.object⟩⟩⟩
  obtain ⟨k, hk, hsorted, hfits⟩ := h.dumps d hd
  rw [hk] at hm
  obtain ⟨who, -, hm⟩ := bind_eq_ok.mp hm
  obtain ⟨hkeys, hactive⟩ := loadDump_dumpPairs hsorted hm
  rw [heq]
  exact ⟨hfits.congr hkeys hactive, h.dumps⟩

lemma runInRange_append {ops ops' : List KeyOp} {s : KeyStore} :
    RunInRange env na (ops ++ ops') s ↔
      RunInRange env na ops s ∧ RunInRange env na ops' (run env na ops s) := by
  induction ops generalizing s with
  | nil => exact ⟨fun h => ⟨trivial, h⟩, And.right⟩
  | cons op ops ih => exact (and_congr_right fun _ => ih).trans and_assoc.symm

lemma run_fits (who : Identity) {ops : List KeyOp} (hops : RunInRange env na ops (start na who)) :
    Fits env (run env na ops (start na who)) := by
  have hrun : ∀ (ops : List KeyOp) (s : KeyStore), RunInRange env na ops s → Good env s →
      Fits env s → Fits env (run env na ops s) := by
    intro ops
    induction ops with
    | nil => exact fun s _ _ hs => hs
    | cons op ops ih =>
      intro s hops hg hs
      obtain ⟨hop, hops⟩ := hops
      exact ih (s.step env na op) hops (hg.step op) (hs.step hg hop)
  exact hrun ops (start na who) hops ⟨keeps_empty na who, by simp [start]⟩
    ⟨fits_empty na who, by simp [start]⟩

end KeyStore

/-! ## Restoring -/

lemma exists_loadKeys (hs : Sorted keys) (hf : ∀ i ∈ keys, i.Fits) {prev : Option KeyInfo}
    (hprev : ∀ p ∈ prev, ∀ i ∈ keys, p < i) :
    loadKeys prev (keys.map fun i => .dict (keyInfoPairs i)) = .ok keys := by
  induction keys generalizing prev with
  | nil => rfl
  | cons i keys ih =>
    obtain ⟨hi, hkeys⟩ := forall_mem_cons.mp hf
    obtain ⟨hlt, hs'⟩ := pairwise_cons.mp hs
    have hnot : prev.any (i ≤ ·) = false := by
      cases prev with
      | none => rfl
      | some p => simpa using hprev p rfl i mem_cons_self
    have hrest : loadKeys (some i) (keys.map fun i => .dict (keyInfoPairs i)) = .ok keys :=
      ih hs' hkeys (by simpa using hlt)
    rw [map_cons, loadKeys, readKeyInfo_keyInfoPairs _ hi.1 hi.2.inInt64, ok_bind, hnot,
      if_neg Bool.false_ne_true, hrest, ok_bind]

lemma exists_loadActive {acc : ActiveMsgs} (hsorted : SortedMap.Sorted (acc ++ active))
    (hf : ∀ p ∈ active, InInt64 p.1) :
    loadActive (active.map activeRow) acc = .ok (acc ++ active) := by
  have hok : ∃ out, loadActive (active.map activeRow) acc = .ok out := by
    clear hsorted
    induction active generalizing acc with
    | nil => exact ⟨acc, rfl⟩
    | cons p active ih =>
      obtain ⟨hp, hactive⟩ := forall_mem_cons.mp hf
      rw [map_cons, activeRow, loadActive, if_pos hp, idsOfBt_map_str, ok_bind]
      exact ih hactive
  obtain ⟨out, hout⟩ := hok
  rw [hout, loadActive_activeRow hsorted hout]

/-- The pending part of two objects is the same as far as anything looks at it. -/
def SamePending (k k' : Keys) : Prop :=
  k'.pendingKeyConfig = k.pendingKeyConfig ∧
    (k.pendingKeyConfig ≠ [] → k'.pendingKey = k.pendingKey ∧ k'.pendingGen = k.pendingGen)

/-- **Every object whose numbers fit is restored from its dump.** -/
lemma exists_loadDump (env : Env) (na : Sodium) (who : Identity) {k : Keys} (hs : Sorted k.keys)
    (hactive : SortedMap.Sorted k.activeMsgs) (hf : k.Fits)
    (hpend : k.pendingKeyConfig ≠ [] → InInt64 k.pendingGen) :
    ∃ k', (empty na who).loadDump env (env.encode k.dumpPairs) = .ok k' ∧
      k'.keys = k.keys ∧ k'.activeMsgs = k.activeMsgs ∧ SamePending k k' := by
  have hact : loadActive (k.activeMsgs.map activeRow) [] = .ok k.activeMsgs :=
    exists_loadActive hactive hf.active
  have hkeys : loadKeys none (k.keys.map fun i => .dict (keyInfoPairs i)) = .ok k.keys :=
    exists_loadKeys hs hf.keys (by simp)
  by_cases hp : k.pendingKeyConfig = []
  · refine ⟨{ empty na who with activeMsgs := k.activeMsgs, keys := k.keys }, ?_, rfl, rfl,
      by simp [SamePending, hp, empty]⟩
    simp only [loadDump, env.read_encode, dumpPairs, hp, isEmpty_nil, if_true,
      append_nil, skipUntil_cons_self, empty, hact, ok_bind, getLast?_nil, hkeys,
      nil_append]
    rfl
  refine ⟨{ empty na who with
    activeMsgs := k.activeMsgs, keys := k.keys, pendingKeyConfig := k.pendingKeyConfig
    pendingGen := k.pendingGen, pendingKey := k.pendingKey }, ?_, rfl, rfl,
    ⟨rfl, fun _ => ⟨rfl, rfl⟩⟩⟩
  have hne : k.pendingKeyConfig.isEmpty = false := by simpa using hp
  simp only [loadDump, env.read_encode, dumpPairs, hne, Bool.false_eq_true, if_false,
    cons_append, nil_append, skipUntil_cons_self, empty, hact, ok_bind,
    getLast?_nil, hkeys]
  simp [loadPending, requireStr, requireInt64, skipUntil_cons_self, hpend hp, k.pendingKey.2]

/-! ## Nothing is forgotten -/

/-- **In any run, a `rekey` sets the flag, a message leaves no change without the flag exactly if
`RecordsSaved` holds before it, and a dump brings back the keys, the active messages and what is
pending.** -/
theorem keys_saved_iff (env : Env) (na : Sodium) (who : Identity) (ops : List KeyOp)
    (hops : KeyStore.RunInRange env na ops (KeyStore.start na who)) :
    let k := (KeyStore.run env na ops (KeyStore.start na who)).object
    (∀ members r, k.rekey env na members = .ok r → r.2.needsDump = true) ∧
    (∀ m, (((k.receive env na m).dump env).1 ≠ (k.dump env).1 →
        (k.receive env na m).needsDump = true) ↔
      k.RecordsSaved m.hash (m.brings env na k.toIdentity)) ∧
    ((k.pendingKeyConfig ≠ [] → InInt64 k.pendingGen) → ∀ who',
      ∃ k', (Keys.empty na who').loadDump env (k.dump env).1 = .ok k' ∧ k'.keys = k.keys ∧
        k'.activeMsgs = k.activeMsgs ∧ SamePending k k') := by
  intro k
  have hkeeps : Keeps _ k := (KeyStore.run_good who ops).object
  have hfits : k.Fits := (KeyStore.run_fits who hops).object
  refine ⟨fun members r hr => ?_, fun m => ?_, fun hpend who' => ?_⟩
  · unfold rekey at hr
    split at hr
    · cases hr
    obtain ⟨xpk, -, hr⟩ := bind_eq_ok.mp hr
    obtain ⟨xpks, -, hr⟩ := bind_eq_ok.mp hr
    obtain ⟨memberKeys, -, hr⟩ := bind_eq_ok.mp hr
    cases hr
    rfl
  · have hdump : ∀ k' : Keys, (k'.dump env).1 ≠ (k.dump env).1 ↔ k'.dumpPairs ≠ k.dumpPairs :=
      fun k' => env.encode_injective.ne_iff
    rw [hdump]
    obtain ⟨content, -, heq, hb⟩ | ⟨heq, hb⟩ := receive_eq env na k m <;> rw [heq, hb]
    · exact saved_applyContent_iff hkeeps.sorted hkeeps.activeSorted m.hash content
    · exact iff_of_true (fun h => absurd rfl h) (.inr (.inr (.inr (by simp))))
  · exact exists_loadDump env na who' hkeeps.sorted hkeeps.activeSorted hfits hpend

/-- A run with a new key after a dump, which sets the flag. -/
theorem keys_saved_newKey :
    let k := (KeyStore.run sampleEnv plainSodium [.load (sampleRekey 0 0), .dump]
      (KeyStore.start plainSodium sampleAdmin)).object
    k.needsDump = false ∧ (k.receive sampleEnv plainSodium (sampleRekey 1 10)).needsDump = true ∧
      ∃ k', (Keys.empty plainSodium sampleAdmin).loadDump sampleEnv (k.dump sampleEnv).1 = .ok k' ∧
        k'.keys = k.keys := by
  have htimes : ∀ i ∈ (sampleRekey 0 0).brings sampleEnv plainSodium sampleAdmin,
      InSysTime i.timestamp := by decide +kernel
  have hops : KeyStore.RunInRange sampleEnv plainSodium [.load (sampleRekey 0 0), .dump]
      (KeyStore.start plainSodium sampleAdmin) := ⟨htimes, trivial, trivial⟩
  obtain ⟨-, hload, hrestore⟩ := keys_saved_iff sampleEnv plainSodium sampleAdmin _ hops
  refine ⟨by decide +kernel, ?_, ?_⟩
  · refine (hload (sampleRekey 1 10)).mpr (.inr (.inr (.inl ?_))) fun h => ?_
    · decide +kernel
    · exact absurd (activeMsgs_of_dumpPairs (sampleEnv.encode_injective h)) (by decide +kernel)
  · obtain ⟨k', hk', hkeys, -⟩ := hrestore (fun h => absurd (by decide +kernel) h) sampleAdmin
    exact ⟨k', hk', hkeys⟩

/-- **A message that brings a known key under another id is forgotten**: it is active, so the dump
changes, but the flag is not set. -/
theorem known_key_not_saved :
    let k := (KeyStore.run sampleEnv plainSodium [.load (sampleRekey 0 0), .dump]
      (KeyStore.start plainSodium sampleAdmin)).object
    let k' := k.receive sampleEnv plainSodium { sampleRekey 0 0 with hash := bytes "again" }
    (k'.dump sampleEnv).1 ≠ (k.dump sampleEnv).1 ∧ k'.needsDump = false ∧
      bytes "again" ∈ k'.activeHashes ∧ bytes "again" ∉ k.activeHashes := by
  refine ⟨fun h => ?_, by decide +kernel, by decide +kernel, by decide +kernel⟩
  exact absurd (activeMsgs_of_dumpPairs (sampleEnv.encode_injective h)) (by decide +kernel)

end Bchat.Groups
