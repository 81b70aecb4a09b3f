import Bchat.Properties.KeyStore
import Bchat.Properties.KeySaving

/-!
# Expired keys

A key leaves the list, or is not let in, only if a later generation was replaced long ago: some key
of a later generation is more than `KEY_EXPIRY` before the last key. The generations go as a whole.
-/

namespace Bchat.Groups

open Config List Keys

variable {k : Keys} {sk : SecretKey}

def Lapsed (keys : List KeyInfo) (generation : Int) : Prop :=
  ∃ j ∈ keys, ∃ last, keys.getLast? = some last ∧ generation < j.generation ∧
    j.timestamp + keyExpiry < last.timestamp

structure Justified (keys kept : List KeyInfo) : Prop where
  subset : ∀ i ∈ kept, i ∈ keys
  lapsed : ∀ i ∈ keys, i ∉ kept → Lapsed keys i.generation
  together : ∀ a ∈ keys, ∀ b ∈ keys, a.generation = b.generation → a ∈ kept → b ∈ kept

lemma justified_refl (keys : List KeyInfo) : Justified keys keys :=
  ⟨fun _ h => h, fun _ h hno => absurd h hno, fun _ _ _ hb _ _ => hb⟩

/-- **`remove_expired` drops whole generations that have lapsed.** -/
lemma unexpired_justified {keys : List KeyInfo} (h : Sorted keys) :
    Justified keys (Keys.unexpired keys) where
  subset _ hi := mem_of_mem_unexpired h hi
  lapsed _ hi hdrop := superseded_of_not_mem_unexpired h hi hdrop
  together a _ b hb hgen ha := by
    by_contra hdrop
    obtain ⟨last, hl⟩ : ∃ last, keys.getLast? = some last :=
      Option.ne_none_iff_exists'.mp (mt getLast?_eq_none_iff.mp (ne_nil_of_mem hb))
    obtain ⟨dropped, heq, hlt, -⟩ := (unexpired_spec h hl).suffix
    have hbd : b ∈ dropped := by
      rw [heq] at hb
      exact (mem_append.mp hb).resolve_right hdrop
    have := hlt b hbd a ha
    omega

/-! ## The calls of a message -/

structure InsertCall where
  before : Keys
  new : KeyInfo
  after : Keys

def insertCalls (hash : MsgId) : List KeyInfo → Keys → List InsertCall
  | [], _ => []
  | new :: news, k => ⟨k, new, k.insertKey hash new⟩ :: insertCalls hash news (k.insertKey hash new)

/-- What a call may do: nothing for a known key; refuse a key whose generation has lapsed; or insert
it, and drop what has lapsed then. -/
def InsertCall.Sound (c : InsertCall) : Prop :=
  (c.before.Knows c.new ∧ c.after.keys = c.before.keys) ∨
  (¬c.before.Knows c.new ∧ c.after.keys = c.before.keys ∧
    Lapsed c.before.keys c.new.generation) ∨
  (¬c.before.Knows c.new ∧ Justified (Keys.insertSorted c.new c.before.keys) c.after.keys)

lemma insertKey_sound {k : Keys} (hs : Sorted k.keys) (hash : MsgId) (new : KeyInfo) :
    (⟨k, new, k.insertKey hash new⟩ : InsertCall).Sound := by
  rcases insertKey_cases hash new hs with
    ⟨hknown, heq⟩ | ⟨hknown, heq, front, last, hf, hl, hlt, hsup⟩ | ⟨hknown, hnotin, heq⟩
  · exact Or.inl ⟨hknown, by rw [heq]⟩
  · exact Or.inr (Or.inl ⟨hknown, by rw [heq], front, mem_of_mem_head? hf, last, hl, hlt, hsup⟩)
  refine Or.inr (Or.inr ⟨hknown, ?_⟩)
  rw [heq]
  exact unexpired_justified (sorted_insertSorted hs hnotin)

lemma insertCalls_sound {gens : List Int} {k : Keys} (h : Keeps gens k) (hash : MsgId)
    (news : List KeyInfo) : ∀ c ∈ insertCalls hash news k, c.Sound := by
  induction news generalizing gens k with
  | nil => simp [insertCalls]
  | cons new news ih =>
    exact forall_mem_cons.mpr ⟨insertKey_sound h.sorted hash new, ih (h.insertKey hash new)⟩

lemma getLast?_insertCalls (hash : MsgId) (news : List KeyInfo) (k : Keys) :
    news.foldl (fun k new => k.insertKey hash new) k =
      (((insertCalls hash news k).getLast?).map InsertCall.after).getD k := by
  induction news generalizing k with
  | nil => rfl
  | cons new news ih =>
    rw [foldl_cons, ih, insertCalls, getLast?_cons]
    cases (insertCalls hash news (k.insertKey hash new)).getLast? <;> rfl

lemma applyContent_of_ne_nil (hash : MsgId) {content : KeyContent} (k : Keys)
    (h : content.newKeys ≠ []) : ((insertCalls hash content.newKeys
      (k.settlePending content.newKeys)).getLast?).map InsertCall.after =
        some (k.applyContent hash content).2 := by
  obtain ⟨news, maxGen, rest⟩ := content
  cases news with
  | nil => exact absurd rfl h
  | cons new news =>
    have hfold := getLast?_insertCalls hash (new :: news) (k.settlePending (new :: news))
    exact congrArg some hfold.symm

lemma applyContent_of_nil (hash : MsgId) {content : KeyContent} {k : Keys} (hs : Sorted k.keys)
    (h : content.newKeys = []) : Justified k.keys (k.applyContent hash content).2.keys := by
  obtain ⟨news, maxGen, rest⟩ := content
  cases h
  cases maxGen with
  | none => exact justified_refl _
  | some gen => exact unexpired_justified hs

/-- **No key expires too early**, in any run and for any next message whose timestamps fit into the
clock: the comparisons are exact, every call of `insert_key` is sound, the last leaves the keys the
object then has, and a message without keys drops only what has lapsed. -/
theorem no_premature_expiry (env : Env) (na : Sodium) (who : Identity) (ops : List KeyOp)
    (m : KeyMessage)
    (hops : KeyStore.RunInRange env na (ops ++ [.load m]) (KeyStore.start na who)) :
    let k := (KeyStore.run env na ops (KeyStore.start na who)).object
    let news := m.brings env na k.toIdentity
    let calls := insertCalls m.hash news (k.settlePending news)
    TimesExact (k.keys ++ news) ∧ (∀ c ∈ calls, c.Sound) ∧
      (news ≠ [] → (calls.getLast?).map InsertCall.after = some (k.receive env na m)) ∧
      (news = [] → Justified k.keys (k.receive env na m).keys) := by
  intro k news calls
  have hk : Keeps _ k := (KeyStore.run_good who ops).object
  have hsettled : Keeps _ (k.settlePending news) :=
    hk.congr (settlePending_keys _ _) (settlePending_activeMsgs _ _)
  obtain ⟨hbefore, hm⟩ := KeyStore.runInRange_append.mp hops
  have hfits := (KeyStore.run_fits who hbefore).object
  have htimes : TimesExact (k.keys ++ news) := timesExact_of_inSysTime
    (forall_mem_append.mpr ⟨fun i hi => (hfits.keys i hi).2, hm.1⟩)
  refine ⟨htimes, insertCalls_sound hsettled m.hash news, fun hne => ?_, fun hnil => ?_⟩
  · obtain ⟨content, -, heq, hb⟩ | ⟨-, hb⟩ := receive_eq env na k m
    · have hcalls : calls =
        insertCalls m.hash content.newKeys (k.settlePending content.newKeys) := by
        rw [← hb]
      rw [hcalls, heq]
      exact applyContent_of_ne_nil m.hash k (hb ▸ hne)
    · exact absurd hb hne
  obtain ⟨content, -, heq, hb⟩ | ⟨heq, -⟩ := receive_eq env na k m
  · rw [heq]
    exact applyContent_of_nil m.hash hk.sorted (hb ▸ hnil)
  · rw [heq]
    exact justified_refl _

/-- A second key, two months after the first: both calls are there. -/
theorem no_premature_expiry_rotation :
    let k := (KeyStore.run sampleEnv plainSodium [.load (sampleRekey 0 0)]
      (KeyStore.start plainSodium sampleAdmin)).object
    let news := (sampleRekey 1 70).brings sampleEnv plainSodium k.toIdentity
    news ≠ [] ∧ TimesExact (k.keys ++ news) ∧
      ∀ c ∈ insertCalls (sampleRekey 1 70).hash news (k.settlePending news), c.Sound := by
  have htimes : ∀ i ∈ (sampleRekey 0 0).brings sampleEnv plainSodium sampleAdmin,
      InSysTime i.timestamp := by decide +kernel
  have htimes' : ∀ i ∈ (sampleRekey 1 70).brings sampleEnv plainSodium
      (KeyStore.run sampleEnv plainSodium [.load (sampleRekey 0 0)]
        (KeyStore.start plainSodium sampleAdmin)).object.toIdentity,
      InSysTime i.timestamp := by decide +kernel
  have h := no_premature_expiry sampleEnv plainSodium sampleAdmin [.load (sampleRekey 0 0)]
    (sampleRekey 1 70) ⟨htimes, htimes', trivial⟩
  exact ⟨by decide +kernel, h.1, h.2.1⟩

/-! ## The encryption key over time

A device of a group makes rekeys of its own, if it is an admin, and loads the rekeys of all admins
in any order.
-/

section

open Bencode Option

variable {k' : Keys} {i : KeyInfo} {members : List Bytes} {r : Bytes × Keys} {gens : List Int}

/-! ## The message of a rekey -/

section

variable {env : Env} {na : Sodium} {sender : Keys} {members : List Bytes} {r : Bytes × Keys}

lemma rekey_inv (h : sender.rekey env na members = .ok r) :
    ∃ sk h1 memberKeys, sender.signSk = some sk ∧ r.1 = signedMessage env na sk
        (rekeyPairs na sk h1 sender.nextGeneration memberKeys) ∧
      r.2 = { sender with
        pendingGen := sender.nextGeneration, pendingKey := rekeyKey h1
        pendingKeyConfig := r.1, needsDump := true } := by
  unfold rekey at h
  split at h
  · cases h
  rename_i sk hsk
  obtain ⟨xpk, -, h⟩ := bind_eq_ok.mp h
  obtain ⟨xpks, -, h⟩ := bind_eq_ok.mp h
  obtain ⟨memberKeys, -, h⟩ := bind_eq_ok.mp h
  cases h
  exact ⟨sk, _, memberKeys, hsk, rfl, rfl⟩

lemma readMemberKeys_of_found {curve : Curve} {nonce : Bytes} {key : Key} {keyList : List Bt}
    {result : Option Key} (h : readMemberKeys na curve nonce (some key) keyList = .ok result) :
    result = some key := by
  obtain ⟨opened, hopened, h⟩ := bind_eq_ok.mp h
  obtain ⟨nonce24, -, hopened⟩ := bind_eq_ok.mp hopened
  obtain ⟨k, -, hopened⟩ := bind_eq_ok.mp hopened
  obtain ⟨count, -, hopened⟩ := bind_eq_ok.mp hopened
  cases hopened
  obtain ⟨found, hfound, h⟩ := bind_eq_ok.mp h
  cases hfound
  obtain ⟨count', -, h⟩ := bind_eq_ok.mp h
  split at h
  · cases h
  · exact (Except.ok.inj h).symm

lemma openAdminKey_aeadEncrypt (sk : SecretKey) (nonce : Nonce) (key : Key) :
    openAdminKey na sk nonce.val
      (na.aeadEncrypt (seedHash na sk encKeyAdminHashKey) nonce key.val) = .ok key := by
  rw [openAdminKey, dif_pos nonce.2]
  simp only [na.aeadDecrypt_encrypt, key.2, dite_true]

/-- **What a rekey brings to a reader**: at most one key, of the generation of the rekey; and to an
admin the key of the rekey. -/
lemma readKeyMessage_of_rekey (h : sender.rekey env na members = .ok r) {who : Identity} {ts : Int}
    {content : KeyContent} (hread : readKeyMessage env na who r.1 ts = .ok content) :
    ∃ rest result, content = fullContent ts r.2.pendingGen rest result ∧ 0 ≤ r.2.pendingGen ∧
      (who.admin = true → who.signSk = sender.signSk → result = some r.2.pendingKey) := by
  obtain ⟨sk, h1, memberKeys, hsk, hmsg, hr⟩ := rekey_inv h
  obtain ⟨pairs, closed, xpk, nonce, rest, curve, rest', sig, hpairs, -, hnonce, -, hbody, -⟩ :=
    readKeyMessage_inv hread
  rw [hmsg, signedMessage, env.read_encode] at hpairs
  cases hpairs
  rw [rekeyPairs, cons_append, seek_cons_self] at hnonce
  cases hnonce
  have hlt : bytes "+" < bytes "G" := by decide
  rcases hbody with ⟨supp, hsupp, -⟩ | ⟨hrest, hfull⟩
  · cases hsupp
  cases hrest
  obtain ⟨g, rest₁, adminKey, rest₂, found, keyList, rest₃, key, hG, -, hg, hK, -, hfound, -, hkey,
    heq⟩ := readFull_inv hfull
  cases hG
  cases hK
  rw [hr]
  refine ⟨rest₃, key, heq, hg, fun _ hsame => ?_⟩
  rw [hsame, hsk, foundKey, openAdminKey_aeadEncrypt] at hfound
  cases hfound
  exact readMemberKeys_of_found hkey

end

/-! ## Calls -/

inductive GroupCall
  | rekey (members : List Bytes)
  | load (sender : Keys) (members : List Bytes) (hash : MsgId) (timestampMs : Int)

variable {cs : List GroupCall}

def GroupCall.Of (sk : SecretKey) : GroupCall → Prop
  | .rekey _ => True
  | .load sender _ _ _ => sender.signSk = some sk

/-- The timestamp of a message that is loaded fits into the clock. -/
def GroupCall.InRange : GroupCall → Prop
  | .rekey _ => True
  | .load _ _ _ timestampMs => InSysTime timestampMs

namespace Keys

variable (env : Env) (na : Sodium)

def call (k : Keys) : GroupCall → Keys
  | .rekey members =>
    match k.rekey env na members with
    | .ok r => r.2
    | .error _ => k
  | .load sender members hash timestampMs =>
    match sender.rekey env na members with
    | .ok r => k.receive env na ⟨hash, r.1, timestampMs⟩
    | .error _ => k

def calls (cs : List GroupCall) (k : Keys) : Keys := cs.foldl (call env na) k

def made (k : Keys) : GroupCall → Option (Int × Key)
  | .rekey members =>
    (k.rekey env na members).toOption.map fun r => (r.2.pendingGen, r.2.pendingKey)
  | .load sender members _ _ =>
    (sender.rekey env na members).toOption.map fun r => (r.2.pendingGen, r.2.pendingKey)

/-- The generations and the keys of all rekeys of a run. -/
def madeAll : List GroupCall → Keys → List (Int × Key)
  | [], _ => []
  | c :: cs, k => (k.made env na c).toList ++ madeAll cs (k.call env na c)

def encKey (k : Keys) : Option (Int × Key) :=
  if k.pendingKeyConfig.isEmpty then k.keys.getLast?.map fun i => (i.generation, i.key)
  else some (k.pendingGen, k.pendingKey)

def encGeneration (k : Keys) : Option Int := k.encKey.map Prod.fst

/-- The lists in which a call looks for lapsed generations: the keys as they are, and with the key
of the message. -/
def lists (k : Keys) : GroupCall → List (List KeyInfo)
  | .rekey _ => []
  | .load sender members hash timestampMs =>
    match sender.rekey env na members with
    | .ok r => k.keys :: ((⟨hash, r.1, timestampMs⟩ : KeyMessage).brings env na k.toIdentity).map
        fun new => insertSorted new k.keys
    | .error _ => []

variable {env na}

lemma insertKey_pending (hash : MsgId) (new : KeyInfo) (k : Keys) :
    (k.insertKey hash new).pendingKey = k.pendingKey ∧
      (k.insertKey hash new).pendingGen = k.pendingGen := by
  unfold insertKey
  split
  · exact ⟨rfl, rfl⟩
  · split <;> exact ⟨rfl, rfl⟩

lemma mem_insertKey (hs : Sorted k.keys) {hash : MsgId} {new : KeyInfo}
    (h : i ∈ (k.insertKey hash new).keys) : i = new ∨ i ∈ k.keys := by
  rcases insertKey_cases hash new hs with ⟨-, heq⟩ | ⟨-, heq, -⟩ | ⟨-, hnotin, heq⟩ <;>
    rw [heq] at h
  · exact .inr h
  · exact .inr h
  · exact mem_insertSorted.mp (mem_of_mem_unexpired (sorted_insertSorted hs hnotin) h)

lemma receive_rekey {sender : Keys} (h : sender.rekey env na members = .ok r) (k : Keys)
    (hash : MsgId) (ts : Int) :
    (k.receive env na ⟨hash, r.1, ts⟩ = k ∧ ∃ e, k.loadKeyMessage env na hash r.1 ts = .error e) ∨
    (k.receive env na ⟨hash, r.1, ts⟩ =
      { ({ k with activeMsgs := k.activeMsgs.add r.2.pendingGen hash } : Keys).removeExpired with
        needsDump := true } ∧ ¬(k.admin = true ∧ k.signSk = sender.signSk)) ∨
    ∃ key, k.receive env na ⟨hash, r.1, ts⟩ =
        (k.settlePending [⟨key, ts, r.2.pendingGen⟩]).insertKey hash ⟨key, ts, r.2.pendingGen⟩ ∧
      (⟨hash, r.1, ts⟩ : KeyMessage).brings env na k.toIdentity = [⟨key, ts, r.2.pendingGen⟩] ∧
      0 ≤ r.2.pendingGen ∧
      (k.admin = true → k.signSk = sender.signSk → key = r.2.pendingKey) := by
  unfold receive KeyMessage.brings loadKeyMessage
  cases hread : readKeyMessage env na k.toIdentity r.1 ts with
  | error e => exact .inl ⟨rfl, e, rfl⟩
  | ok content =>
    obtain ⟨rest, result, rfl, hg, hadmin⟩ := readKeyMessage_of_rekey h hread
    cases result with
    | none =>
      refine .inr (.inl ⟨rfl, fun ⟨ha, hsk⟩ => ?_⟩)
      cases hadmin ha hsk
    | some key => exact .inr (.inr ⟨key, rfl, rfl, hg, fun ha hsk => some.inj (hadmin ha hsk)⟩)

end Keys

/-! ## What a device keeps to -/

structure IsPending (env : Env) (na : Sodium) (sk : SecretKey) (made : List (Int × Key))
    (k : Keys) : Prop where
  admin : k.admin = true
  made : (k.pendingGen, k.pendingKey) ∈ made
  origin : ∃ sender members r, Keys.rekey env na members sender = .ok r ∧
    sender.signSk = some sk ∧ r.1 = k.pendingKeyConfig ∧ r.2.pendingGen = k.pendingGen ∧
    r.2.pendingKey = k.pendingKey
  last_le : ∀ last ∈ k.keys.getLast?, last.generation ≤ k.pendingGen
  le_next : k.pendingGen ≤ k.nextGeneration

structure Tracks (env : Env) (na : Sodium) (sk : SecretKey) (made : List (Int × Key)) (k : Keys) :
    Prop where
  secret : ∀ sk' ∈ k.signSk, sk' = sk
  keeps : ∃ gens, Keeps gens k
  pending : k.pendingKeyConfig ≠ [] → IsPending env na sk made k

def NotBack (k k' : Keys) : Prop := ∀ g ∈ k.encGeneration, ∃ g' ∈ k'.encGeneration, g ≤ g'

lemma NotBack.refl (k : Keys) : NotBack k k := fun g hg => ⟨g, hg, le_refl g⟩

lemma NotBack.trans {k'' : Keys} (h : NotBack k k') (h' : NotBack k' k'') : NotBack k k'' := by
  intro g hg
  obtain ⟨g', hg', hle⟩ := h g hg
  obtain ⟨g'', hg'', hle'⟩ := h' g' hg'
  exact ⟨g'', hg'', hle.trans hle'⟩

lemma encGeneration_of_pending (h : k.pendingKeyConfig ≠ []) :
    k.encGeneration = some k.pendingGen := by
  rw [encGeneration, encKey, if_neg (by simpa using h), map_some]

lemma encGeneration_of_settled (h : k.pendingKeyConfig = []) :
    k.encGeneration = k.keys.getLast?.map KeyInfo.generation := by
  rw [encGeneration, encKey, if_pos (by simpa using h), Option.map_map]
  rfl

lemma notBack_of_last (hp : k'.pendingKeyConfig = k.pendingKeyConfig)
    (hg : k'.pendingGen = k.pendingGen)
    (hlast : ∀ last ∈ k.keys.getLast?, ∃ last' ∈ k'.keys.getLast?,
      last.generation ≤ last'.generation) : NotBack k k' := by
  intro g hk
  by_cases hpend : k.pendingKeyConfig = []
  · rw [encGeneration_of_settled hpend] at hk
    obtain ⟨last, hl, rfl⟩ := mem_map.mp hk
    obtain ⟨last', hl', hle⟩ := hlast last hl
    rw [encGeneration_of_settled (hp.trans hpend)]
    exact ⟨last'.generation, mem_map_of_mem _ hl', hle⟩
  rw [encGeneration_of_pending hpend] at hk
  cases hk
  rw [encGeneration_of_pending (hp ▸ hpend), hg]
  exact ⟨_, rfl, le_refl _⟩

section

variable {env : Env} {na : Sodium} {made : List (Int × Key)}

lemma tracks_empty {who : Identity} (hwho : ∀ sk' ∈ who.signSk, sk' = sk)
    (made : List (Int × Key)) : Tracks env na sk made (empty na who) where
  secret := hwho
  keeps := ⟨[], keeps_empty na who⟩
  pending h := absurd rfl h

lemma IsPending.congr (h : IsPending env na sk made k) (hwho : k'.toIdentity = k.toIdentity)
    (hconf : k'.pendingKeyConfig = k.pendingKeyConfig) (hkey : k'.pendingKey = k.pendingKey)
    (hgen : k'.pendingGen = k.pendingGen)
    (hle : ∀ last' ∈ k'.keys.getLast?, last'.generation ≤ k.pendingGen)
    (hnext : k.nextGeneration ≤ k'.nextGeneration) : IsPending env na sk made k' where
  admin := by rw [hwho]; exact h.admin
  made := by rw [hkey, hgen]; exact h.made
  origin := by rw [hconf, hkey, hgen]; exact h.origin
  last_le last' hl' := by rw [hgen]; exact hle last' hl'
  le_next := by rw [hgen]; exact h.le_next.trans hnext

lemma Tracks.rekey (h : Tracks env na sk made k) (hencode : ∀ d, env.encode d ≠ [])
    (hr : k.rekey env na members = .ok r) (hmade : (r.2.pendingGen, r.2.pendingKey) ∈ made) :
    Tracks env na sk made r.2 ∧ NotBack k r.2 := by
  obtain ⟨sk', h1, memberKeys, hsk, hmsg, heq⟩ := rekey_inv hr
  obtain ⟨gens, hkeeps⟩ := h.keeps
  have hpend : r.2.pendingKeyConfig ≠ [] := by
    rw [heq, hmsg]
    exact hencode _
  have hgen : r.2.pendingGen = k.nextGeneration := by rw [heq]
  have hlast : ∀ last ∈ k.keys.getLast?, last.generation + 1 = k.nextGeneration := by
    intro last hl
    rw [nextGeneration, mem_def.mp hl]
  have hkeys : r.2.keys = k.keys := by rw [heq]
  refine ⟨⟨?_, ⟨gens, hkeeps.congr hkeys (by rw [heq])⟩, fun _ => ⟨?_, hmade, ?_, ?_, ?_⟩⟩, ?_⟩
  · rw [heq]
    exact h.secret
  · rw [heq, Identity.admin, hsk]
    rfl
  · refine ⟨k, members, r, hr, ?_, by rw [heq], rfl, rfl⟩
    rw [hsk, h.secret sk' hsk]
  · intro last hl
    rw [hkeys] at hl
    have := hlast last hl
    omega
  · rw [hgen, nextGeneration, nextGeneration, hkeys]
  intro g hg
  rw [encGeneration_of_pending hpend, hgen]
  refine ⟨_, rfl, ?_⟩
  by_cases hp : k.pendingKeyConfig = []
  · rw [encGeneration_of_settled hp] at hg
    obtain ⟨last, hl, rfl⟩ := mem_map.mp hg
    have := hlast last hl
    omega
  rw [encGeneration_of_pending hp] at hg
  cases hg
  exact (h.pending hp).le_next

lemma exists_last_insertKey (hk : Keeps gens k) (hash : MsgId) (new : KeyInfo) :
    (∃ last' ∈ (k.insertKey hash new).keys.getLast?, new.generation ≤ last'.generation) ∧
      ∀ last ∈ k.keys.getLast?, ∃ last' ∈ (k.insertKey hash new).keys.getLast?,
        last.generation ≤ last'.generation := by
  have h' := hk.insertKey hash new
  exact ⟨h'.highest _ (by simp), fun last hl =>
    h'.highest _ (mem_append_left _ (hk.accepted last (mem_of_getLast? hl)))⟩

lemma nextGeneration_le (hlast : ∀ last ∈ k.keys.getLast?,
      ∃ last' ∈ k'.keys.getLast?, last.generation ≤ last'.generation)
    (hnonneg : ∀ last' ∈ k'.keys.getLast?, k.keys = [] → 0 ≤ last'.generation) :
    k.nextGeneration ≤ k'.nextGeneration := by
  unfold nextGeneration
  cases hl : k.keys.getLast? with
  | some last =>
    obtain ⟨last', hl', hle⟩ := hlast last hl
    rw [mem_def.mp hl']
    exact Int.add_le_add_right hle 1
  | none =>
    have hnil := getLast?_eq_none_iff.mp hl
    cases hl' : k'.keys.getLast? with
    | none => exact le_refl _
    | some last' =>
      have := hnonneg last' hl' hnil
      show 0 ≤ last'.generation + 1
      omega

section

variable (h : Tracks env na sk made k)

include h

lemma Tracks.insertKey {new : KeyInfo} (hnew : 0 ≤ new.generation)
    (hle : k.pendingKeyConfig ≠ [] → new.generation ≤ k.pendingGen) (hash : MsgId) :
    Tracks env na sk made (k.insertKey hash new) ∧ NotBack k (k.insertKey hash new) := by
  obtain ⟨gens, hkeeps⟩ := h.keeps
  obtain ⟨-, hlast⟩ := exists_last_insertKey hkeeps hash new
  obtain ⟨hkey, hgen⟩ := insertKey_pending hash new k
  have hconf := insertKey_pendingKeyConfig hash new k
  refine ⟨⟨?_, ⟨_, hkeeps.insertKey hash new⟩, fun hp => ?_⟩, notBack_of_last hconf hgen hlast⟩
  · rw [insertKey_toIdentity]
    exact h.secret
  rw [hconf] at hp
  refine (h.pending hp).congr (insertKey_toIdentity _ _ _) hconf hkey hgen (fun last' hl' => ?_)
    (nextGeneration_le hlast fun last' hl' hnil => ?_)
  · rcases mem_insertKey hkeeps.sorted (mem_of_getLast? hl') with rfl | hmem
    · exact hle hp
    · obtain ⟨last, hl, hle'⟩ := hkeeps.highest _ (hkeeps.accepted last' hmem)
      exact hle'.trans ((h.pending hp).last_le last hl)
  rcases mem_insertKey hkeeps.sorted (mem_of_getLast? hl') with rfl | hmem
  · exact hnew
  · rw [hnil] at hmem
    cases hmem

lemma Tracks.record (g : Int) (hash : MsgId) :
    let k' := { ({ k with activeMsgs := k.activeMsgs.add g hash } : Keys).removeExpired with
      needsDump := true }
    Tracks env na sk made k' ∧ NotBack k k' := by
  intro k'
  obtain ⟨gens, hk⟩ := h.keeps
  have hlast : k'.keys.getLast? = k.keys.getLast? := getLast?_unexpired hk.sorted
  have hkeeps : Keeps gens k' := Keeps.congr
    (k := removeExpired { k with activeMsgs := k.activeMsgs.add g hash })
    (Keeps.removeExpired hk.sorted hk.distinct hk.highest hk.accepted
      (ActiveMsgs.sorted_add hk.activeSorted g hash)) rfl rfl
  refine ⟨⟨h.secret, ⟨gens, hkeeps⟩, fun hp => ?_⟩, notBack_of_last rfl rfl fun last hl =>
    ⟨last, hlast ▸ hl, le_refl _⟩⟩
  refine (h.pending hp).congr rfl rfl rfl rfl (fun last hl => ?_) ?_
  · rw [hlast] at hl
    exact (h.pending hp).last_le last hl
  · rw [nextGeneration, nextGeneration, hlast]

lemma Tracks.signSk_eq (hadmin : k.admin = true) : k.signSk = some sk := by
  obtain ⟨sk', hsk⟩ := isSome_iff_exists.mp hadmin
  rw [hsk, h.secret sk' hsk]

lemma Tracks.load (hdistinct : ∀ a ∈ made, ∀ b ∈ made, a.2 = b.2 → a.1 = b.1) {sender : Keys}
    (hr : sender.rekey env na members = .ok r) (hsender : sender.signSk = some sk)
    (hmade : (r.2.pendingGen, r.2.pendingKey) ∈ made) (hash : MsgId) (ts : Int) :
    Tracks env na sk made (k.receive env na ⟨hash, r.1, ts⟩) ∧
      NotBack k (k.receive env na ⟨hash, r.1, ts⟩) := by
  rcases receive_rekey hr k hash ts with ⟨heq, -⟩ | ⟨heq, -⟩ | ⟨key, heq, -, hg, hkey⟩ <;> rw [heq]
  · exact ⟨h, NotBack.refl k⟩
  · exact h.record _ hash
  rcases settlePending_cases k [⟨key, ts, r.2.pendingGen⟩] with ⟨hset, hk⟩ | ⟨hset, hk⟩
  · rw [hk]
    obtain ⟨first, hf, hadmin, hpend, hor⟩ := hset
    cases hf
    obtain ⟨gens, hkeeps⟩ := h.keeps
    have htracks : Tracks env na sk made { k with pendingKeyConfig := [], needsDump := true } :=
      ⟨h.secret, ⟨gens, hkeeps.congr rfl rfl⟩, fun hp => absurd rfl hp⟩
    refine ⟨(htracks.insertKey hg (fun hp => absurd rfl hp) hash).1, fun g hgk => ?_⟩
    -- the pending key gives way to a key that is not from before it
    have hle : k.pendingGen ≤ r.2.pendingGen := by
      rcases hor with hlt | hsame
      · exact le_of_lt hlt
      · have hmine := hkey hadmin ((h.signSk_eq hadmin).trans hsender.symm)
        exact (hdistinct _ (h.pending hpend).made _ hmade (hsame.symm.trans hmine)).le
    rw [encGeneration_of_pending hpend] at hgk
    cases hgk
    obtain ⟨⟨last', hl', hle'⟩, -⟩ := exists_last_insertKey
      (k := { k with pendingKeyConfig := [], needsDump := true }) (hkeeps.congr rfl rfl) hash
      ⟨key, ts, r.2.pendingGen⟩
    rw [encGeneration_of_settled (insertKey_pendingKeyConfig _ _ _)]
    exact ⟨last'.generation, mem_map_of_mem _ hl', hle.trans hle'⟩
  rw [hk]
  refine h.insertKey hg (fun hp => ?_) hash
  by_contra hlt
  exact hset ⟨_, rfl, (h.pending hp).admin, hp, .inl (not_le.mp hlt)⟩

lemma Tracks.call (hencode : ∀ d, env.encode d ≠ [])
    (hdistinct : ∀ a ∈ made, ∀ b ∈ made, a.2 = b.2 → a.1 = b.1) {c : GroupCall} (hc : c.Of sk)
    (hmade : ∀ p ∈ k.made env na c, p ∈ made) :
    Tracks env na sk made (k.call env na c) ∧ NotBack k (k.call env na c) := by
  cases c with
  | rekey members =>
    cases hr : k.rekey env na members with
    | error e =>
      simp only [Keys.call, hr]
      exact ⟨h, NotBack.refl k⟩
    | ok r =>
      simp only [Keys.call, hr]
      exact h.rekey hencode hr (hmade _ (by simp [Keys.made, hr, Except.toOption]))
  | load sender members hash ts =>
    cases hr : sender.rekey env na members with
    | error e =>
      simp only [Keys.call, hr]
      exact ⟨h, NotBack.refl k⟩
    | ok r =>
      simp only [Keys.call, hr]
      exact h.load hdistinct hr hc (hmade _ (by simp [Keys.made, hr, Except.toOption])) hash ts

end

lemma Tracks.calls (hencode : ∀ d, env.encode d ≠ [])
    (hdistinct : ∀ a ∈ made, ∀ b ∈ made, a.2 = b.2 → a.1 = b.1) (hcs : ∀ c ∈ cs, c.Of sk)
    (h : Tracks env na sk made k) (hmade : ∀ p ∈ madeAll env na cs k, p ∈ made) :
    Tracks env na sk made (calls env na cs k) ∧ NotBack k (calls env na cs k) := by
  induction cs generalizing k with
  | nil => exact ⟨h, NotBack.refl k⟩
  | cons c cs ih =>
    obtain ⟨hc, hcs⟩ := forall_mem_cons.mp hcs
    obtain ⟨hone, hback⟩ := h.call hencode hdistinct hc fun p hp =>
      hmade p (mem_append_left _ (mem_toList.mpr hp))
    obtain ⟨hall, hback'⟩ := ih hcs hone fun p hp => hmade p (mem_append_right _ hp)
    exact ⟨hall, hback.trans hback'⟩

end

/-! ## The pending key -/

section

variable {env : Env} {na : Sodium} {made : List (Int × Key)}

/-- A call that leaves a pending key of this generation pending: no rekey, and no message of a later
generation or with the key itself. -/
def GroupCall.Spares (env : Env) (na : Sodium) (gen : Int) (key : Key) : GroupCall → Prop
  | .rekey _ => False
  | .load sender members _ _ => ∀ r, sender.rekey env na members = .ok r →
    r.2.pendingGen ≤ gen ∧ r.2.pendingKey ≠ key

structure PendingSame (k k' : Keys) : Prop where
  config : k'.pendingKeyConfig = k.pendingKeyConfig
  gen : k'.pendingGen = k.pendingGen
  key : k'.pendingKey = k.pendingKey

lemma Tracks.pending_call (h : Tracks env na sk made k) (hp : k.pendingKeyConfig ≠ [])
    {c : GroupCall} (hc : c.Of sk) (hspares : c.Spares env na k.pendingGen k.pendingKey) :
    PendingSame k (k.call env na c) := by
  cases c with
  | rekey members => exact absurd hspares id
  | load sender members hash ts =>
    cases hr : sender.rekey env na members with
    | error e =>
      simp only [Keys.call, hr]
      exact ⟨rfl, rfl, rfl⟩
    | ok r =>
      simp only [Keys.call, hr]
      obtain ⟨hle, hne⟩ := hspares r hr
      rcases receive_rekey hr k hash ts with ⟨heq, -⟩ | ⟨heq, -⟩ | ⟨key, heq, -, -, hkey⟩
      · rw [heq]
        exact ⟨rfl, rfl, rfl⟩
      · rw [heq]
        exact ⟨rfl, rfl, rfl⟩
      have hadmin := (h.pending hp).admin
      have hmine := hkey hadmin ((h.signSk_eq hadmin).trans hc.symm)
      rcases settlePending_cases k [⟨key, ts, r.2.pendingGen⟩] with ⟨hset, -⟩ | ⟨-, hk⟩
      · obtain ⟨first, hf, -, -, hor⟩ := hset
        cases hf
        rcases hor with hlt | hsame
        · exact absurd hlt (not_lt.mpr hle)
        · exact absurd (hmine.symm.trans hsame) hne
      rw [heq, hk]
      exact ⟨insertKey_pendingKeyConfig _ _ _, (insertKey_pending _ _ _).2,
        (insertKey_pending _ _ _).1⟩

lemma Tracks.pending_calls (hencode : ∀ d, env.encode d ≠ [])
    (hdistinct : ∀ a ∈ made, ∀ b ∈ made, a.2 = b.2 → a.1 = b.1) (hcs : ∀ c ∈ cs, c.Of sk)
    (h : Tracks env na sk made k) (hp : k.pendingKeyConfig ≠ [])
    (hmade : ∀ p ∈ madeAll env na cs k, p ∈ made)
    (hspares : ∀ c ∈ cs, c.Spares env na k.pendingGen k.pendingKey) :
    PendingSame k (Keys.calls env na cs k) := by
  induction cs generalizing k with
  | nil => exact ⟨rfl, rfl, rfl⟩
  | cons c cs ih =>
    obtain ⟨hc, hcs⟩ := forall_mem_cons.mp hcs
    obtain ⟨hsc, hspares⟩ := forall_mem_cons.mp hspares
    have hsame := h.pending_call hp hc hsc
    obtain ⟨hone, -⟩ := h.call hencode hdistinct hc fun p hp =>
      hmade p (mem_append_left _ (mem_toList.mpr hp))
    have hrest := ih hcs hone (hsame.config ▸ hp) (fun p hp => hmade p (mem_append_right _ hp))
      (by rw [hsame.gen, hsame.key]; exact hspares)
    exact ⟨hrest.config.trans hsame.config, hrest.gen.trans hsame.gen, hrest.key.trans hsame.key⟩

lemma IsPending.not_lapsed (h : IsPending env na sk made k) (hs : Sorted k.keys)
    {keys : List KeyInfo} (hkeys : ∀ i ∈ keys, i ∈ k.keys ∨ i.generation ≤ k.pendingGen) :
    ¬Lapsed keys k.pendingGen := by
  rintro ⟨j, hj, -, -, hlt, -⟩
  rcases hkeys j hj with hmem | hle
  · obtain ⟨last, hl⟩ : ∃ last, k.keys.getLast? = some last :=
      ne_none_iff_exists'.mp (mt getLast?_eq_none_iff.mp (ne_nil_of_mem hmem))
    have := h.last_le last hl
    have := KeyInfo.generation_le_of_le (hs.le_getLast hl hmem)
    omega
  · omega

lemma Tracks.exists_of_own (h : Tracks env na sk made k) (hp : k.pendingKeyConfig ≠ [])
    {hash : MsgId} {ts : Int} {s : Bool × Keys}
    (hload : k.loadKeyMessage env na hash k.pendingKeyConfig ts = .ok s) :
    ∃ i ∈ s.2.keys, i.generation = k.pendingGen ∧ i.key = k.pendingKey := by
  have hpend := h.pending hp
  obtain ⟨gens, hkeeps⟩ := h.keeps
  obtain ⟨sender, members, r, hr, hsender, hmsg, hgen, hkey⟩ := hpend.origin
  have hrec : k.receive env na ⟨hash, r.1, ts⟩ = s.2 := by rw [receive, hmsg, hload]
  have hsk := (h.signSk_eq hpend.admin).trans hsender.symm
  rcases receive_rekey hr k hash ts with ⟨-, e, he⟩ | ⟨-, hno⟩ | ⟨key, heq, -, -, hmine⟩
  · rw [hmsg, hload] at he
    cases he
  · exact absurd ⟨hpend.admin, hsk⟩ hno
  rw [hmine hpend.admin hsk, hkey, hgen, hrec] at heq
  rw [heq]
  have hkeys := settlePending_keys [⟨k.pendingKey, ts, k.pendingGen⟩] k
  have hsorted : Sorted (k.settlePending [⟨k.pendingKey, ts, k.pendingGen⟩]).keys :=
    hkeys ▸ hkeeps.sorted
  rcases insertKey_sound hsorted hash ⟨k.pendingKey, ts, k.pendingGen⟩ with
    ⟨⟨i, hi, hg, hk⟩, hafter⟩ | ⟨-, -, hlapsed⟩ | ⟨-, hjust⟩
  · exact ⟨i, hafter ▸ hi, hg, hk⟩
  · exact absurd hlapsed (hpend.not_lapsed hkeeps.sorted fun i hi => .inl (hkeys ▸ hi))
  refine ⟨⟨k.pendingKey, ts, k.pendingGen⟩, ?_, rfl, rfl⟩
  by_contra hdrop
  refine hpend.not_lapsed hkeeps.sorted (fun i hi => ?_)
    (hjust.lapsed _ (mem_insertSorted.mpr (.inl rfl)) hdrop)
  rcases mem_insertSorted.mp hi with rfl | hi
  · exact .inr (le_refl _)
  · exact .inl (hkeys ▸ hi)

end

/-! ## A key in the list -/

section

variable (env : Env) (na : Sodium)

lemma Keeps.exists_call (h : Keeps gens k) (c : GroupCall) :
    ∃ gens', Keeps gens' (k.call env na c) := by
  cases c with
  | rekey members =>
    cases hr : k.rekey env na members with
    | error e =>
      simp only [call, hr]
      exact ⟨gens, h⟩
    | ok r =>
      simp only [call, hr]
      exact ⟨gens, h.congr (KeyStore.rekey_spec hr).1 (KeyStore.rekey_spec hr).2⟩
  | load sender members hash ts =>
    cases hr : sender.rekey env na members with
    | error e =>
      simp only [call, hr]
      exact ⟨gens, h⟩
    | ok r =>
      simp only [call, hr]
      obtain ⟨content, -, heq, -⟩ | ⟨heq, -⟩ := receive_eq env na k ⟨hash, r.1, ts⟩ <;> rw [heq]
      · exact ⟨_, h.applyContent hash content⟩
      · exact ⟨gens, h⟩

lemma inSysTime_call (hs : Sorted k.keys) (h : ∀ i ∈ k.keys, InSysTime i.timestamp) {c : GroupCall}
    (hc : c.InRange) : ∀ i ∈ (k.call env na c).keys, InSysTime i.timestamp := by
  cases c with
  | rekey members =>
    cases hr : k.rekey env na members with
    | error e =>
      simp only [call, hr]
      exact h
    | ok r =>
      simp only [call, hr, (KeyStore.rekey_spec hr).1]
      exact h
  | load sender members hash ts =>
    cases hr : sender.rekey env na members with
    | error e =>
      simp only [call, hr]
      exact h
    | ok r =>
      simp only [call, hr]
      rcases receive_rekey hr k hash ts with ⟨heq, -⟩ | ⟨heq, -⟩ | ⟨key, heq, -, -, -⟩ <;> rw [heq]
      · exact h
      · exact fun i hi => h i (mem_of_mem_unexpired hs hi)
      have hkeys := settlePending_keys [⟨key, ts, r.2.pendingGen⟩] k
      intro i hi
      rcases mem_insertKey (hkeys ▸ hs) hi with rfl | hi
      · exact hc
      · exact h i (hkeys ▸ hi)

lemma inSysTime_calls (hk : Keeps gens k) (h : ∀ i ∈ k.keys, InSysTime i.timestamp)
    {cs : List GroupCall} (hcs : ∀ c ∈ cs, c.InRange) :
    ∀ i ∈ (calls env na cs k).keys, InSysTime i.timestamp := by
  induction cs generalizing gens k with
  | nil => exact h
  | cons c cs ih =>
    obtain ⟨hc, hcs⟩ := forall_mem_cons.mp hcs
    obtain ⟨gens', hk'⟩ := hk.exists_call env na c
    exact ih hk' (inSysTime_call env na hk.sorted h hc) hcs

/-- **A key stays in the list unless its generation has lapsed.** -/
lemma mem_call_or_lapsed (hs : Sorted k.keys) (hi : i ∈ k.keys) (c : GroupCall) :
    i ∈ (k.call env na c).keys ∨ ∃ l ∈ k.lists env na c, Lapsed l i.generation := by
  cases c with
  | rekey members =>
    cases hr : k.rekey env na members with
    | error e =>
      simp only [call, hr]
      exact .inl hi
    | ok r =>
      simp only [call, hr, (KeyStore.rekey_spec hr).1]
      exact .inl hi
  | load sender members hash ts =>
    cases hr : sender.rekey env na members with
    | error e =>
      simp only [call, hr]
      exact .inl hi
    | ok r =>
      simp only [call, lists, hr]
      rcases receive_rekey hr k hash ts with ⟨heq, -⟩ | ⟨heq, -⟩ | ⟨key, heq, hb, -, -⟩
      · rw [heq]
        exact .inl hi
      · rw [heq]
        by_cases hdrop : i ∈ unexpired k.keys
        · exact .inl hdrop
        · exact .inr ⟨k.keys, mem_cons_self, (unexpired_justified hs).lapsed i hi hdrop⟩
      rw [heq, hb]
      have hkeys := settlePending_keys [⟨key, ts, r.2.pendingGen⟩] k
      rcases insertKey_sound (hkeys ▸ hs) hash ⟨key, ts, r.2.pendingGen⟩ with
        ⟨-, hafter⟩ | ⟨-, hafter, -⟩ | ⟨-, hjust⟩
      · exact .inl (by rw [hafter, hkeys]; exact hi)
      · exact .inl (by rw [hafter, hkeys]; exact hi)
      rw [hkeys] at hjust
      by_cases hdrop : i ∈ ((k.settlePending [⟨key, ts, r.2.pendingGen⟩]).insertKey hash
          ⟨key, ts, r.2.pendingGen⟩).keys
      · exact .inl hdrop
      · exact .inr ⟨_, mem_cons_of_mem _ (mem_map_of_mem mem_cons_self),
          hjust.lapsed i (mem_insertSorted.mpr (.inr hi)) hdrop⟩

def LapsesIn (cs : List GroupCall) (k : Keys) (generation : Int) : Prop :=
  ∃ pre c post, cs = pre ++ c :: post ∧
    ∃ l ∈ (Keys.calls env na pre k).lists env na c, Lapsed l generation

lemma mem_calls_or_lapses (h : Keeps gens k) (hi : i ∈ k.keys) (cs : List GroupCall) :
    i ∈ (calls env na cs k).keys ∨ LapsesIn env na cs k i.generation := by
  induction cs generalizing gens k with
  | nil => exact .inl hi
  | cons c cs ih =>
    rcases mem_call_or_lapsed env na h.sorted hi c with hone | hlapsed
    · obtain ⟨gens', h'⟩ := h.exists_call env na c
      rcases ih h' hone with hall | ⟨pre, c', post, rfl, hl⟩
      · exact .inl hall
      · exact .inr ⟨c :: pre, c', post, rfl, hl⟩
    · exact .inr ⟨[], c, cs, rfl, hlapsed⟩

end

lemma madeAll_append (env : Env) (na : Sodium) (cs cs' : List GroupCall) (k : Keys) :
    madeAll env na (cs ++ cs') k =
      madeAll env na cs k ++ madeAll env na cs' (calls env na cs k) := by
  induction cs generalizing k with
  | nil => rfl
  | cons c cs ih =>
    rw [cons_append, madeAll, ih, madeAll, append_assoc]
    rfl

lemma mem_groupKeys (h : i ∈ k.keys) : i.key ∈ k.groupKeys :=
  mem_append_right _ (mem_map_of_mem (mem_reverse.mpr h))

/-- **The encryption key never moves backwards**, for a device of the group in any run: its
generation never gets lower; while only messages of other keys and of no later generation are
loaded, the pending key encrypts; and once its own message is loaded the key is available until its
generation has lapsed. Timestamps fit into the clock and generations into `int64_t`, so that all
comparisons are exact. -/
theorem enc_key_never_back (env : Env) (na : Sodium) (sk : SecretKey) (who : Identity)
    (cs cs' : List GroupCall) (hencode : ∀ d, env.encode d ≠ [])
    (hwho : ∀ sk' ∈ who.signSk, sk' = sk) (hcs : ∀ c ∈ cs ++ cs', c.Of sk)
    (hdistinct : ∀ a ∈ Keys.madeAll env na (cs ++ cs') (Keys.empty na who),
      ∀ b ∈ Keys.madeAll env na (cs ++ cs') (Keys.empty na who), a.2 = b.2 → a.1 = b.1)
    (htimes : ∀ c ∈ cs ++ cs', c.InRange)
    (hgens : ∀ a ∈ Keys.madeAll env na (cs ++ cs') (Keys.empty na who), InInt64 a.1) :
    let k := calls env na cs (empty na who)
    let k' := calls env na cs' k
    ((∀ a ∈ Keys.madeAll env na (cs ++ cs') (Keys.empty na who), wrap64 a.1 = a.1) ∧
      TimesExact k.keys ∧ TimesExact k'.keys) ∧
    (∀ g ∈ k.encGeneration, ∃ g' ∈ k'.encGeneration, g ≤ g') ∧
    (k.pendingKeyConfig ≠ [] → (∀ c ∈ cs', c.Spares env na k.pendingGen k.pendingKey) →
      k'.groupEncKey = .ok k.pendingKey) ∧
    (k.pendingKeyConfig ≠ [] → ∀ hash ts s, InSysTime ts →
      k.loadKeyMessage env na hash k.pendingKeyConfig ts = .ok s → ∀ later,
        (∀ c ∈ later, c.InRange) → TimesExact (calls env na later s.2).keys ∧
        (k.pendingKey ∈ (calls env na later s.2).groupKeys ∨
          LapsesIn env na later s.2 k.pendingGen)) := by
  intro k k'
  obtain ⟨hof, hof'⟩ := forall_mem_append.mp hcs
  have hmade := madeAll_append env na cs cs' (empty na who)
  obtain ⟨htracks, -⟩ := Tracks.calls hencode hdistinct hof (tracks_empty hwho _)
    fun p hp => hmade ▸ mem_append_left _ hp
  have hmade' : ∀ p ∈ madeAll env na cs' k, p ∈ madeAll env na (cs ++ cs') (empty na who) :=
    fun p hp => hmade ▸ mem_append_right _ hp
  obtain ⟨gens, hkeeps⟩ := htracks.keeps
  obtain ⟨htimes₁, htimes₂⟩ := forall_mem_append.mp htimes
  have hin : ∀ i ∈ k.keys, InSysTime i.timestamp :=
    inSysTime_calls env na (keeps_empty na who) (by simp [empty]) htimes₁
  refine ⟨⟨fun a ha => wrap64_of_inInt64 (hgens a ha), timesExact_of_inSysTime hin,
    timesExact_of_inSysTime (inSysTime_calls env na hkeeps hin htimes₂)⟩,
    (htracks.calls hencode hdistinct hof' hmade').2, fun hp hspares => ?_,
    fun hp hash ts s hts hload later hlater => ?_⟩
  · have hsame := htracks.pending_calls hencode hdistinct hof' hp hmade' hspares
    have hne : ¬k'.pendingKeyConfig.isEmpty = true := by
      rw [hsame.config]
      simpa using hp
    rw [groupEncKey, if_pos hne, hsame.key]
  obtain ⟨i, hi, hgen, hkey⟩ := htracks.exists_of_own hp hload
  obtain ⟨sender, members, r, hr, -, hmsg, -, -⟩ := (htracks.pending hp).origin
  have hcall : k.call env na (.load sender members hash ts) = s.2 := by
    simp only [call, hr]
    rw [receive, hmsg, hload]
  have hin' : ∀ i ∈ s.2.keys, InSysTime i.timestamp :=
    hcall ▸ inSysTime_call env na hkeeps.sorted hin (c := .load sender members hash ts) hts
  obtain ⟨content, -, hs⟩ := bind_eq_ok.mp hload
  have hkeeps' : Keeps (gens ++ content.newKeys.map KeyInfo.generation) s.2 := by
    rw [← Except.ok.inj hs]
    exact hkeeps.applyContent hash content
  refine ⟨timesExact_of_inSysTime (inSysTime_calls env na hkeeps' hin' hlater), ?_⟩
  rcases mem_calls_or_lapses env na hkeeps' hi later with hmem | hlapsed
  · exact .inl (hkey ▸ mem_groupKeys hmem)
  · exact .inr (hgen ▸ hlapsed)

/-- A run in which an admin makes a rekey and then gets its own message. -/
theorem enc_key_never_back_own :
    let k := calls sampleEnv plainSodium [.rekey []] (empty plainSodium sampleAdmin)
    let k' := calls sampleEnv plainSodium
      [.load (empty plainSodium sampleAdmin) [] (bytes "id") 0] k
    k.encGeneration = some 0 ∧ k.pendingKeyConfig ≠ [] ∧ k'.pendingKeyConfig = [] ∧
      ∃ g' ∈ k'.encGeneration, 0 ≤ g' := by
  have hencode : ∀ d, sampleEnv.encode d ≠ [] := fun d => cons_ne_nil _ _
  have hgen : (calls sampleEnv plainSodium [.rekey []]
      (empty plainSodium sampleAdmin)).encGeneration = some 0 := by decide +kernel
  refine ⟨hgen, by decide +kernel, by decide +kernel, ?_⟩
  refine (enc_key_never_back sampleEnv plainSodium sampleAdmin.userSk sampleAdmin [.rekey []]
    [.load (empty plainSodium sampleAdmin) [] (bytes "id") 0] hencode ?_ ?_
    (by decide +kernel) ?_ (by decide +kernel)).2.1 0 hgen
  · intro sk' hsk
    exact (mem_some_iff.mp hsk).symm
  · intro c hc
    rcases mem_cons.mp hc with rfl | hc
    · trivial
    · rw [mem_singleton.mp hc]
      rfl
  · intro c hc
    rcases mem_cons.mp hc with rfl | hc
    · trivial
    · rw [mem_singleton.mp hc]
      exact (by decide : InSysTime 0)

def firstMember : Bytes :=
    bytes "050303030303030303030303030303030303030303030303030303030303030303"

/-- **A second rekey replaces the pending key**, without any message: the admin makes another one
before it has seen its own message. -/
theorem second_rekey_replaces_pending :
    let k := calls sampleEnv plainSodium [.rekey []] (empty plainSodium sampleAdmin)
    let k' := calls sampleEnv plainSodium [.rekey [firstMember]] k
    k.pendingKeyConfig ≠ [] ∧ k.groupEncKey.toOption ≠ k'.groupEncKey.toOption ∧
      k.encGeneration = some 0 ∧ k'.encGeneration = some 0 := by
  decide +kernel

end

/-! ## Contested keys -/

/-- Two keys share the highest generation. -/
def Contested (keys : List KeyInfo) : Prop :=
  ∃ a ∈ keys, ∃ b ∈ keys, a ≠ b ∧ a.generation = b.generation ∧
    ∀ i ∈ keys, i.generation ≤ a.generation

lemma needsRekey_iff (hs : Sorted k.keys) :
    k.needsRekey = true ↔ k.admin = true ∧ Contested k.keys := by
  have hrev : k.keys.reverse.Pairwise fun i j => j < i := pairwise_reverse.mpr hs
  have hmem : ∀ i, i ∈ k.keys ↔ i ∈ k.keys.reverse := fun i => mem_reverse.symm
  simp only [needsRekey, Contested, hmem]
  generalize k.keys.reverse = l at hrev
  rcases l with _ | ⟨last, _ | ⟨second, rest⟩⟩
  · simp
  · simp
  obtain ⟨hlast, hrest⟩ := pairwise_cons.mp hrev
  have hle : ∀ i ∈ second :: rest, i.generation ≤ second.generation := fun i hi => by
    rcases mem_cons.mp hi with rfl | hi
    · exact le_refl _
    · exact KeyInfo.generation_le_of_le ((pairwise_cons.mp hrest).1 i hi).le
  have htop := KeyInfo.generation_le_of_le (hlast second mem_cons_self).le
  simp only [Bool.and_eq_true, decide_eq_true_eq, and_congr_right_iff]
  intro _
  constructor
  · intro heq
    refine ⟨last, mem_cons_self, second, by simp, (hlast second mem_cons_self).ne', heq, ?_⟩
    intro i hi
    rcases mem_cons.mp hi with rfl | hi
    · exact le_refl _
    · exact (hle i hi).trans htop
  · rintro ⟨a, ha, b, hb, hne, heq, hmax⟩
    have hmost := hmax last mem_cons_self
    -- at most one of the two is the last key
    rcases mem_cons.mp ha with rfl | ha
    · have := hle b ((mem_cons.mp hb).resolve_left hne.symm)
      omega
    · have := hle a ha
      omega

lemma lt_nextGeneration (hs : Sorted k.keys) {i : KeyInfo} (hi : i ∈ k.keys) :
    i.generation < k.nextGeneration := by
  unfold nextGeneration
  cases hl : k.keys.getLast? with
  | none => exact absurd (getLast?_eq_none_iff.mp hl) (ne_nil_of_mem hi)
  | some last => exact Int.lt_add_one_of_le (KeyInfo.generation_le_of_le (hs.le_getLast hl hi))

lemma inInt64_nextGeneration (h : ∀ i ∈ k.keys, InInt64 i.generation)
    (hlt : ∀ i ∈ k.keys, i.generation + 1 < 2 ^ 63) : InInt64 k.nextGeneration := by
  unfold nextGeneration
  cases hl : k.keys.getLast? with
  | none => decide
  | some last =>
    have hlast := h last (mem_of_getLast? hl)
    have htop := hlt last (mem_of_getLast? hl)
    unfold InInt64 at *
    dsimp only
    omega

lemma needsRekey_insertKey (h : Keeps gens k) {new : KeyInfo}
    (hnew : ∀ i ∈ k.keys, i.generation < new.generation) (hash : MsgId) :
    (k.insertKey hash new).needsRekey = false := by
  by_contra hneeds
  rw [Bool.not_eq_false, needsRekey_iff (h.insertKey hash new).sorted] at hneeds
  obtain ⟨-, a, ha, b, hb, hne, heq, hmax⟩ := hneeds
  obtain ⟨last, hl, hle⟩ := (exists_last_insertKey h hash new).1
  have hlast := hmax last (mem_of_getLast? hl)
  have hnewest : ∀ i ∈ (k.insertKey hash new).keys, i.generation = a.generation → i = new :=
    fun i hi hi' => (mem_insertKey h.sorted hi).resolve_right fun hmem => by
      have := hnew i hmem
      omega
  exact hne ((hnewest a ha rfl).trans (hnewest b hb heq.symm).symm)

/-- **An admin is told to rekey exactly if two keys share the highest generation, and the new key,
loaded right after the rekey, settles the conflict.** Timestamps fit into the clock, and there is an
`int64_t` behind every generation. -/
theorem rekey_settles_conflict (env : Env) (na : Sodium) (who : Identity) (ops : List KeyOp)
    (hops : KeyStore.RunInRange env na ops (KeyStore.start na who)) :
    let k := (KeyStore.run env na ops (KeyStore.start na who)).object
    (k.needsRekey = true ↔ k.admin = true ∧ Contested k.keys) ∧ TimesExact k.keys ∧
    ((∀ i ∈ k.keys, i.generation + 1 < 2 ^ 63) → ∀ members r hash ts s, InSysTime ts →
      k.rekey env na members = .ok r → r.2.loadKeyMessage env na hash r.1 ts = .ok s →
        InInt64 r.2.pendingGen ∧ TimesExact s.2.keys ∧ s.2.needsRekey = false) := by
  intro k
  have hk : Keeps _ k := (KeyStore.run_good who ops).object
  have hfits := (KeyStore.run_fits who hops).object
  have hin : ∀ i ∈ k.keys, InSysTime i.timestamp := fun i hi => (hfits.keys i hi).2
  refine ⟨needsRekey_iff hk.sorted, timesExact_of_inSysTime hin,
    fun hgens members r hash ts s hts hr hload => ?_⟩
  obtain ⟨sk, h1, memberKeys, hsk, -, heq⟩ := rekey_inv hr
  have hrec : r.2.receive env na ⟨hash, r.1, ts⟩ = s.2 := by rw [receive, hload]
  rcases receive_rekey hr r.2 hash ts with ⟨-, e, he⟩ | ⟨-, hno⟩ | ⟨key, hins, -, -, -⟩
  · rw [hload] at he
    cases he
  · refine absurd ⟨?_, by rw [heq]⟩ hno
    rw [heq, Identity.admin, hsk]
    rfl
  have hsettled : (r.2.settlePending [⟨key, ts, r.2.pendingGen⟩]).keys = k.keys ∧
      (r.2.settlePending [⟨key, ts, r.2.pendingGen⟩]).activeMsgs = k.activeMsgs := by
    rcases settlePending_cases r.2 [⟨key, ts, r.2.pendingGen⟩] with ⟨-, h⟩ | ⟨-, h⟩ <;> rw [h] <;>
      exact KeyStore.rekey_spec hr
  have hgen : r.2.pendingGen = k.nextGeneration := by rw [heq]
  have hsorted : Sorted (r.2.settlePending [⟨key, ts, r.2.pendingGen⟩]).keys :=
    hsettled.1 ▸ hk.sorted
  refine ⟨hgen ▸ inInt64_nextGeneration (fun i hi => (hfits.keys i hi).1) hgens, ?_, ?_⟩
  · rw [← hrec, hins]
    refine timesExact_of_inSysTime fun i hi => ?_
    rcases mem_insertKey hsorted hi with rfl | hi
    · exact hts
    · exact hin i (hsettled.1 ▸ hi)
  rw [← hrec, hins]
  refine needsRekey_insertKey (hk.congr hsettled.1 hsettled.2) (fun i hi => ?_) hash
  rw [hsettled.1] at hi
  rw [hgen]
  exact lt_nextGeneration hk.sorted hi

/-- A rekey behind one key that was loaded. -/
theorem rekey_settles_sample :
    let k := (KeyStore.run sampleEnv plainSodium [.load (sampleRekey 0 0)]
      (KeyStore.start plainSodium sampleAdmin)).object
    ∃ r s, k.rekey sampleEnv plainSodium [] = .ok r ∧
      r.2.loadKeyMessage sampleEnv plainSodium (bytes "id") r.1 5 = .ok s ∧
      s.2.needsRekey = false := by
  intro k
  have htimes : ∀ i ∈ (sampleRekey 0 0).brings sampleEnv plainSodium sampleAdmin,
      InSysTime i.timestamp := by decide +kernel
  have hgens : ∀ i ∈ k.keys, i.generation + 1 < 2 ^ 63 := by decide +kernel
  have hrun : ((k.rekey sampleEnv plainSodium []).bind fun r =>
      r.2.loadKeyMessage sampleEnv plainSodium (bytes "id") r.1 5).isOk = true := by decide +kernel
  cases hr : k.rekey sampleEnv plainSodium [] with
  | error e =>
    rw [hr] at hrun
    cases hrun
  | ok r =>
    rw [hr] at hrun
    cases hs : r.2.loadKeyMessage sampleEnv plainSodium (bytes "id") r.1 5 with
    | error e => simp [Except.bind, hs, Except.isOk, Except.toBool] at hrun
    | ok s =>
      exact ⟨r, s, rfl, hs, ((rekey_settles_conflict sampleEnv plainSodium sampleAdmin
        [.load (sampleRekey 0 0)] ⟨htimes, trivial⟩).2.2 hgens [] r _ 5 s (by decide) hr hs).2.2⟩

end Bchat.Groups
