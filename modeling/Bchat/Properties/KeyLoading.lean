import Bchat.Groups.KeyLoading
import Bchat.Properties.KeyContent
import Bchat.Properties.KeyOrder

/-!
# What loading a key message does on the way
-/

namespace Bchat.Groups

open Config Bencode Effect List EmitsOnly

variable {who : Identity} {data : Bytes} {na : Sodium} {check : Nat → Bytes → Except Err Unit}
  {signSk : Option SecretKey} {closed : Bool} {rest : BtDict} {keys : List Bytes}
  {timestampMs : Int} {content : KeyContent}

/-! ## The decryption calls -/

section

variable {P : DecryptCall → Prop} {nonce : Bytes}

def MultiCalls (P : DecryptCall → Prop) : Prop :=
  ∀ nonce ciphertext : Bytes, 24 ≤ nonce.length → 16 ≤ ciphertext.length →
    P (.decryptMultiImpl nonce ciphertext)

lemma openNextM_emitsOnly {key : Key} {nonce24 : Nonce}
    (hP : ∀ pos c, check pos c = .ok () → P (.decryptMultiImpl nonce c)) (pos : Nat)
    (list : List Bt) : EmitsOnly P (openNextM na key nonce nonce24 check pos list)
      (openNext na key nonce24 check pos list) := by
  induction list generalizing pos with
  | nil => exact lift P _
  | cons v rest ih =>
    cases v with
    | str c =>
      refine (lift P (check pos c)).bind fun _ hc => ?_
      refine note_bind (hP pos c hc) ?_
      cases decryptMulti na key nonce24 c with
      | some m => exact lift P _
      | none => exact ih (pos + 1)
    | int i | list l | dict d => exact lift P _

lemma le_of_nonceOf {n : Nonce} (h : nonceOf nonce = .ok n) : 24 ≤ nonce.length := by
  unfold nonceOf at h
  split at h
  · assumption
  · cases h

lemma decryptForMultipleM_emitsOnly (hP : MultiCalls P)
    (hcheck : ∀ pos c, check pos c = .ok () → 16 ≤ c.length) (skip : Bool) (list : List Bt)
    (privkey pubkey senderPubkey : Key) (domain : Bytes) :
    EmitsOnly P (decryptForMultipleM na skip check list nonce privkey pubkey senderPubkey domain)
      (decryptForMultiple na skip check list nonce privkey pubkey senderPubkey domain) := by
  refine (lift P (nonceOf nonce)).bind fun nonce24 hn => ?_
  refine (lift P _).bind fun key _ => ?_
  cases skip with
  | true => exact lift P _
  | false =>
    exact openNextM_emitsOnly (fun pos c hc => hP nonce c (le_of_nonceOf hn) (hcheck pos c hc)) 0
        list

lemma le_of_checkSupplement (pos : Nat) (c : Bytes) (h : checkSupplement pos c = .ok ()) :
    16 ≤ c.length := by
  unfold checkSupplement at h
  split at h
  · cases h
  · omega

lemma le_of_checkMemberKey (pos : Nat) (c : Bytes) (h : checkMemberKey pos c = .ok ()) :
    16 ≤ c.length := by
  unfold checkMemberKey at h
  split at h
  · cases h
  rename_i hlen
  rw [not_not.mp hlen]
  decide

lemma readSupplementM_emitsOnly (hP : MultiCalls P) (admin closed : Bool) (curve : Curve)
    (supp : List Bt) (rest : BtDict) :
    EmitsOnly P (readSupplementM na admin closed curve nonce supp rest)
      (readSupplement na admin closed curve nonce supp rest) :=
  (decryptForMultipleM_emitsOnly hP le_of_checkSupplement _ _ _ _ _ _).bind fun _ _ =>
    lift P _

lemma readMemberKeysM_emitsOnly (hP : MultiCalls P) (curve : Curve) (found : Option Key)
    (keyList : List Bt) : EmitsOnly P (readMemberKeysM na curve nonce found keyList)
      (readMemberKeys na curve nonce found keyList) :=
  (decryptForMultipleM_emitsOnly hP le_of_checkMemberKey _ _ _ _ _ _).bind fun _ _ =>
    lift P _

lemma openAdminKeyM_emitsOnly {adminKey : Bytes}
    (hP : signSk.isSome → P (.tryDecrypting nonce adminKey)) :
    EmitsOnly P (openAdminKeyM na signSk nonce adminKey) (foundKey na signSk nonce adminKey) := by
  cases signSk with
  | none => exact lift P _
  | some sk => exact note_bind (hP rfl) (lift P _)

def readMemberList (na : Sodium) (closed : Bool) (curve : Curve) (nonce : Bytes)
    (timestampMs generation : Int) (rest : BtDict) (found : Option Key) :
    Except Err KeyContent := do
  match ← seek closed (bytes "k") rest with
  | (none, _) => .error (.value "Config is missing member keys list (k)")
  | (some (.list keyList), rest) => do
    match ← readMemberKeys na curve nonce found keyList with
    | some key => .ok ⟨[⟨key, timestampMs, generation⟩], none, rest⟩
    | none => .ok ⟨[], some generation, rest⟩
  | (some _, _) => .error .oxenc

lemma readMemberListM_emitsOnly (hP : MultiCalls P) (closed : Bool) (curve : Curve)
    (timestampMs generation : Int) (rest : BtDict) (found : Option Key) :
    EmitsOnly P (readMemberListM na closed curve nonce timestampMs generation rest found)
      (readMemberList na closed curve nonce timestampMs generation rest found) := by
  refine (lift P _).bind fun a _ => ?_
  obtain ⟨_ | v, rest⟩ := a
  · exact lift P _
  cases v with
  | list keyList =>
    refine (readMemberKeysM_emitsOnly hP curve found keyList).bind fun r _ => ?_
    cases r <;> exact lift P _
  | int i | str s | dict d => exact lift P _

/-- The admin key of a full message, as far as `load_key_message` looks before it decrypts it. -/
def AdminKeyAt (closed : Bool) (rest : BtDict) (adminKey : Bytes) : Prop :=
  ∃ g rest' rest'', seek closed (bytes "G") rest = .ok (some (.int g), rest') ∧ InInt64 g ∧ 0 ≤ g ∧
    seek closed (bytes "K") rest' = .ok (some (.str adminKey), rest'') ∧
    adminKey.length = encryptedKeySize

lemma readFullM_emitsOnly (hP : MultiCalls P)
    (hadmin : ∀ adminKey, signSk.isSome → AdminKeyAt closed rest adminKey →
      P (.tryDecrypting nonce adminKey)) (curve : Curve) (timestampMs : Int) :
    EmitsOnly P (readFullM na signSk closed curve nonce timestampMs rest)
      (readFull na signSk closed curve nonce timestampMs rest) := by
  refine (lift P _).bind fun a hG => ?_
  obtain ⟨_ | v, rest'⟩ := a
  · exact lift P _
  cases v with
  | str s | list l | dict d => exact lift P _
  | int g =>
    dsimp only
    by_cases hin : ¬InInt64 g
    · rw [if_pos hin, if_pos hin]
      exact lift P _
    rw [if_neg hin, if_neg hin]
    by_cases hneg : g < 0
    · rw [if_pos hneg, if_pos hneg]
      exact lift P _
    rw [if_neg hneg, if_neg hneg]
    refine (lift P _).bind fun a hK => ?_
    obtain ⟨_ | v, rest''⟩ := a
    · exact lift P _
    cases v with
    | int i | list l | dict d => exact lift P _
    | str adminKey =>
      dsimp only
      by_cases hlen : adminKey.length ≠ encryptedKeySize
      · rw [if_pos hlen, if_pos hlen]
        exact lift P _
      rw [if_neg hlen, if_neg hlen]
      have hat : AdminKeyAt closed rest adminKey :=
        ⟨g, rest', rest'', hG, not_not.mp hin, not_lt.mp hneg, hK, not_not.mp hlen⟩
      have hlists : EmitsOnly P
          (do
            let found ← openAdminKeyM na signSk nonce adminKey
            readMemberListM na closed curve nonce timestampMs g rest'' found)
          (do
            let found ← foundKey na signSk nonce adminKey
            readMemberList na closed curve nonce timestampMs g rest'' found) :=
        (openAdminKeyM_emitsOnly fun hs => hadmin adminKey hs hat).bind fun found _ =>
          readMemberListM_emitsOnly hP closed curve timestampMs g rest'' found
      cases signSk <;> exact hlists

variable {env : Env}

/-- A full message with this nonce and this admin key, as far as an admin looks before it decrypts
the key. -/
def AdminKeyRead (env : Env) (na : Sodium) (who : Identity) (data nonce adminKey : Bytes) : Prop :=
  who.admin = true ∧ (∃ xpk, computeXpk na who.signPk = .ok xpk) ∧
    ∃ pairs closed rest rest', env.read data = some (pairs, closed) ∧
      seek closed (bytes "#") pairs = .ok (some (.str nonce), rest) ∧
      seek closed (bytes "+") rest = .ok (none, rest') ∧ AdminKeyAt closed rest' adminKey

lemma verify_emitsOnly (closed : Bool) (content : KeyContent) : EmitsOnly P
    (do
      let _ ← lift (verifyConfigSig env data content.rest closed (some (na.verify who.signPk))
          false)
      lift (.ok content) : LoadM KeyContent)
    (do
      let _ ← verifyConfigSig env data content.rest closed (some (na.verify who.signPk)) false
      .ok content) :=
  (lift P _).bind fun _ _ => lift P _

/-- **The part up to the signature changes no object**; its calls of `decrypt_multi_impl` have a
long enough nonce and ciphertext, those of `try_decrypting` what the message has. -/
lemma readKeyMessageM_emitsOnly (hP : MultiCalls P)
    (hadmin : ∀ nonce adminKey, AdminKeyRead env na who data nonce adminKey →
      P (.tryDecrypting nonce adminKey)) (timestampMs : Int) :
    EmitsOnly P (readKeyMessageM env na who data timestampMs)
      (readKeyMessage env na who data timestampMs) := by
  rw [readKeyMessageM, readKeyMessage]
  cases hread : env.read data with
  | none => exact lift P _
  | some r =>
    obtain ⟨pairs, closed⟩ := r
    refine (lift P _).bind fun xpk hxpk => ?_
    refine (lift P _).bind fun a hnonce => ?_
    obtain ⟨_ | v, rest⟩ := a
    · exact lift P _
    cases v with
    | int i | list l | dict d => exact lift P _
    | str nonce =>
      refine (lift P _).bind fun curve _ => ?_
      refine (lift P _).bind fun a hplus => ?_
      obtain ⟨_ | v, rest'⟩ := a
      · refine (readFullM_emitsOnly hP (fun adminKey hs hat => hadmin nonce adminKey ?_) curve
          timestampMs).bind fun content _ => verify_emitsOnly closed content
        exact ⟨hs, ⟨xpk, hxpk⟩, pairs, closed, rest, rest', hread, hnonce, hplus, hat⟩
      cases v with
      | list supp =>
        exact (readSupplementM_emitsOnly hP who.admin closed curve supp rest').bind
          fun content _ => verify_emitsOnly closed content
      | int i | str s | dict d => exact lift P _

end

/-! ## After the signature -/

section

variable (env : Env)

lemma addKey_of_length {key : Bytes} (h : key.length = 32) (dev : Device) :
    ∃ dev', dev.addKey env key false false = .ok dev' := by
  unfold Device.addKey
  rw [dif_pos h]
  split
  · exact ⟨_, rfl⟩
  split
  all_goals exact ⟨_, rfl⟩

lemma addKeys_of_length (h : ∀ key ∈ keys, key.length = 32) (dev : Device) :
    ∃ dev', Device.addKeys env keys dev = .ok dev' := by
  induction keys generalizing dev with
  | nil => exact ⟨dev, rfl⟩
  | cons key keys ih =>
    obtain ⟨dev₁, h₁⟩ := addKey_of_length env (h key mem_cons_self) dev
    obtain ⟨dev₂, h₂⟩ := ih (fun k hk => h k (mem_cons_of_mem _ hk)) dev₁
    exact ⟨dev₂, by rw [Device.addKeys, h₁]; exact h₂⟩

lemma replaceKeys_of_length (h : ∀ key ∈ keys, key.length = 32) (dev : Device) :
    ∃ dev', dev.replaceKeys env keys false = .ok dev' := by
  unfold Device.replaceKeys
  split
  · split
    · exact ⟨dev, rfl⟩
    · exact ⟨_, rfl⟩
  rw [if_neg (by simpa using h)]
  obtain ⟨dev', hdev⟩ := addKeys_of_length env h { dev with keys := [] }
  rw [hdev]
  exact ⟨dev', rfl⟩

def Keys.inWorld (w : World Group DecryptCall) (k : Keys) : World Group DecryptCall :=
  { w with state := { w.state with keys := k } }

lemma exec_insertKeysM (hash : MsgId) (news : List KeyInfo) (w : World Group DecryptCall) :
    exec (insertKeysM hash news) w =
      (.ok (), (news.foldl (fun k new => k.insertKey hash new) w.state.keys).inWorld w) := by
  induction news generalizing w with
  | nil => rfl
  | cons new rest ih => exact ih ((w.state.keys.insertKey hash new).inWorld w)

lemma exec_replaceGroupKeysM (w : World Group DecryptCall) :
    ∃ info members, exec (replaceGroupKeysM env) w =
      (.ok (), { w with state := { w.state with info := info, members := members } }) := by
  have hlen : ∀ key ∈ w.state.keys.groupKeys.map Subtype.val, key.length = 32 := by
    intro key hkey
    obtain ⟨k, -, rfl⟩ := mem_map.mp hkey
    exact k.2
  obtain ⟨members, hm⟩ := replaceKeys_of_length env hlen w.state.members
  obtain ⟨info, hi⟩ := replaceKeys_of_length env hlen w.state.info
  refine ⟨info, members, ?_⟩
  rw [replaceGroupKeysM, exec_bind_ok (exec_readState w)]
  dsimp only
  rw [hm, hi]
  rfl

/-- **Nothing fails after the signature**, and the keys object changes as `applyContent` says. -/
lemma exec_applyContentM (hash : MsgId) (content : KeyContent) (w : World Group DecryptCall) :
    ∃ info members, exec (applyContentM env hash content) w =
      (.ok (w.state.keys.applyContent hash content).1,
        ⟨⟨(w.state.keys.applyContent hash content).2, info, members⟩, w.log⟩) := by
  obtain ⟨newKeys, maxGen, rest⟩ := content
  cases newKeys with
  | nil =>
    refine ⟨w.state.info, w.state.members, ?_⟩
    cases maxGen <;> rfl
  | cons new news =>
    obtain ⟨info, members, h⟩ := exec_replaceGroupKeysM env
      ((w.state.keys.applyContent hash ⟨new :: news, maxGen, rest⟩).2.inWorld w)
    refine ⟨info, members, ?_⟩
    have hsettle : exec (updateKeys (·.settlePending (new :: news))) w =
        (.ok (), (w.state.keys.settlePending (new :: news)).inWorld w) := rfl
    rw [applyContentM, exec_bind_ok hsettle, if_pos (cons_ne_nil _ _),
      exec_bind_ok (exec_insertKeysM hash (new :: news) _)]
    exact exec_bind_ok h

end

/-! ## The signature -/

section

variable {env : Env}

def SignatureVerifies (env : Env) (na : Sodium) (pk : Key) (data : Bytes) : Prop :=
  ∃ pairs closed, env.read data = some (pairs, closed) ∧
    ∃ sig : Signature, (bytes "~", Bt.str sig.val) ∈ pairs ∧
      na.verify pk (env.readUntil (bytes "~") data) sig = true

lemma mem_of_seek {k : Bytes} {d : BtDict} {v : Option Bt} (h : seek closed k d = .ok (v, rest)) :
    ∀ p ∈ rest, p ∈ d := by
  unfold seek at h
  split at h
  · cases h
  have hskip : skipUntil k d = (v, rest) := Except.ok.inj h
  have hsub := dropWhile_sublist (fun p : Bytes × Bt => decide (p.1 < k)) (l := d)
  unfold skipUntil at hskip
  intro p hp
  split at hskip
  · next k' v' tail hdrop =>
    rw [hdrop] at hsub
    split at hskip
    · cases hskip
      exact hsub.mem (mem_cons_of_mem _ hp)
    · cases hskip
      exact hsub.mem hp
  · cases hskip
    cases hp

lemma mem_of_readBody {curve : Curve} {nonce : Bytes} {rest' : BtDict}
    (h : ReadBody na who closed curve nonce timestampMs rest rest' content) :
    ∀ p ∈ content.rest, p ∈ rest := by
  intro p hp
  rcases h with ⟨supp, hplus, h⟩ | ⟨hplus, h⟩
  · obtain ⟨newKeys, g, rest₁, hG, -, -, rfl⟩ := readSupplement_inv h
    exact mem_of_seek hplus p (mem_of_seek hG p hp)
  obtain ⟨g, rest₁, adminKey, rest₂, found, keyList, rest₃, key, hG, -, -, hK, -, -, hk, -, rfl⟩ :=
    readFull_inv h
  have hrest : p ∈ rest₃ := by cases key <;> exact hp
  exact mem_of_seek hplus p (mem_of_seek hG p (mem_of_seek hK p (mem_of_seek hk p hrest)))

lemma verifies_of_verifyConfigSig {v : Verifier} {r : Option Signature}
    (h : verifyConfigSig env data rest closed (some v) false = .ok r) :
    ∃ sig : Signature, (bytes "~", Bt.str sig.val) ∈ rest ∧
      v (env.readUntil (bytes "~") data) sig = true := by
  unfold verifyConfigSig at h
  split at h
  · split at h <;> cases h
  rename_i key val rest' hdrop
  split at h
  · next hkey =>
    split at h
    · next sig =>
      split at h
      · next hlen =>
        split at h
        · cases h
        rename_i hv
        refine ⟨⟨sig, hlen⟩, ?_, by simpa using hv⟩
        have hmem : (key, Bt.str sig) ∈ rest :=
          (dropWhile_sublist _).mem (hdrop ▸ mem_cons_self)
        exact hkey ▸ hmem
      · cases h
    · cases h
  · split at h <;> cases h

lemma verifies_of_readKeyMessage (h : readKeyMessage env na who data timestampMs = .ok content) :
    SignatureVerifies env na who.signPk data := by
  obtain ⟨pairs, closed, xpk, nonce, rest, curve, rest', r, hread, -, hnonce, -, hbody, hv⟩ :=
    readKeyMessage_inv h
  obtain ⟨sig, hmem, hsig⟩ := verifies_of_verifyConfigSig hv
  exact ⟨pairs, closed, hread, sig, mem_of_seek hnonce _ (mem_of_readBody hbody _ hmem), hsig⟩

end

/-! ## The whole of it -/

/-- The program with its effects computes what `loadKeyMessage` does, and nothing is changed where
it throws. -/
lemma exec_loadKeyMessageM (env : Env) (na : Sodium) (hash : MsgId) (data : Bytes)
    (timestampMs : Int) (w : World Group DecryptCall) :
    (∃ e, w.state.keys.loadKeyMessage env na hash data timestampMs = .error e ∧
      (exec (loadKeyMessageM env na hash data timestampMs) w).1 = .error e ∧
      (exec (loadKeyMessageM env na hash data timestampMs) w).2.state = w.state) ∨
    (∃ r, w.state.keys.loadKeyMessage env na hash data timestampMs = .ok r ∧
      SignatureVerifies env na w.state.keys.signPk data ∧
      (exec (loadKeyMessageM env na hash data timestampMs) w).1 = .ok r.1 ∧
      (exec (loadKeyMessageM env na hash data timestampMs) w).2.state.keys = r.2) := by
  have honly : EmitsOnly (fun _ => True)
      (readKeyMessageM env na w.state.keys.toIdentity data timestampMs)
      (readKeyMessage env na w.state.keys.toIdentity data timestampMs) :=
    readKeyMessageM_emitsOnly (fun _ _ _ _ => trivial) (fun _ _ _ => trivial) timestampMs
  obtain ⟨es, hes, -⟩ := honly
  rw [loadKeyMessageM, exec_bind_ok (exec_readState w)]
  cases hread : readKeyMessage env na w.state.keys.toIdentity data timestampMs with
  | error e =>
    rw [hread] at hes
    refine Or.inl ⟨e, by rw [Keys.loadKeyMessage, hread]; rfl, ?_, ?_⟩
    all_goals rw [exec_bind_error (hes w)]
  | ok content =>
    rw [hread] at hes
    obtain ⟨info, members, happly⟩ := exec_applyContentM env hash content
      { w with log := w.log ++ es }
    refine Or.inr ⟨w.state.keys.applyContent hash content,
      by rw [Keys.loadKeyMessage, hread]; rfl, verifies_of_readKeyMessage hread, ?_, ?_⟩
    all_goals rw [exec_bind_ok (hes w), happly]

/-- **Loading a key message is all or nothing**: if `load_key_message` throws, then no object has
changed, and a message without a valid signature of the group changes none. -/
theorem key_message_all_or_nothing (env : Env) (na : Sodium) (hash : MsgId) (data : Bytes)
    (timestampMs : Int) (w : World Group DecryptCall) :
    (∀ e, (exec (loadKeyMessageM env na hash data timestampMs) w).1 = .error e →
      (exec (loadKeyMessageM env na hash data timestampMs) w).2.state = w.state) ∧
    (¬SignatureVerifies env na w.state.keys.signPk data →
      (exec (loadKeyMessageM env na hash data timestampMs) w).2.state = w.state) := by
  rcases exec_loadKeyMessageM env na hash data timestampMs w with
    ⟨e, -, -, hstate⟩ | ⟨s, -, hsig, hr, -⟩
  · exact ⟨fun _ _ => hstate, fun _ => hstate⟩
  refine ⟨fun e he => ?_, fun hno => absurd hsig hno⟩
  rw [hr] at he
  cases he

/-! ## What the decryption functions rely on -/

/-- The preconditions of `try_decrypting` and of `decrypt_multi_impl`. -/
def DecryptCall.Ok : DecryptCall → Prop
  | .tryDecrypting nonce encrypted => nonce.length = 24 ∧ 16 ≤ encrypted.length
  | .decryptMultiImpl nonce ciphertext => 24 ≤ nonce.length ∧ 16 ≤ ciphertext.length

lemma multiCalls_ok : MultiCalls DecryptCall.Ok := fun _ _ hn hc => ⟨hn, hc⟩

lemma readKeyMessageM_logs {env : Env} {na : Sodium} {nonce adminKey : Bytes}
    (h : AdminKeyRead env na who data nonce adminKey) (timestampMs : Int) :
    Logs (.tryDecrypting nonce adminKey) (readKeyMessageM env na who data timestampMs) := by
  obtain ⟨hadmin, ⟨xpk, hxpk⟩, pairs, closed, rest, rest', hread, hnonce, hplus, hat⟩ := h
  obtain ⟨g, rest₁, rest₂, hG, hin, hg, hK, hlen⟩ := hat
  obtain ⟨sk, hsk⟩ := Option.isSome_iff_exists.mp hadmin
  have hcurve : who.curve na xpk = .ok ⟨na.uninitialized, na.uninitialized, xpk⟩ := by
    rw [Identity.curve, if_pos hadmin]
  have hlists : Logs (.tryDecrypting nonce adminKey)
      (readFullM na who.signSk closed ⟨na.uninitialized, na.uninitialized, xpk⟩ nonce timestampMs
        rest') := by
    rw [hsk]
    refine Logs.lift_bind hG ?_
    dsimp only
    rw [if_neg (not_not.mpr hin), if_neg (not_lt.mpr hg)]
    refine Logs.lift_bind hK ?_
    dsimp only
    rw [if_neg (not_not.mpr hlen)]
    refine Logs.before ⟨_, _, (emits_note _).bind_ok (emits_lift _), by simp⟩ fun found => ?_
    obtain ⟨es, hes, -⟩ := readMemberListM_emitsOnly (P := DecryptCall.Ok) multiCalls_ok closed
      ⟨na.uninitialized, na.uninitialized, xpk⟩ timestampMs g rest₂ found
    exact ⟨_, es, hes⟩
  rw [readKeyMessageM, hread]
  refine Logs.lift_bind hxpk (Logs.lift_bind hnonce (Logs.lift_bind hcurve
    (Logs.lift_bind hplus (hlists.before fun content => ?_))))
  obtain ⟨es, hes, -⟩ := verify_emitsOnly (P := DecryptCall.Ok) closed content
  exact ⟨_, es, hes⟩

/-- **Every decryption call has a nonce of 24 bytes, or at least 24 for `decrypt_multi_impl`, and at
least 16 bytes to decrypt, exactly if the nonce of the message has 24 bytes whenever an admin reads
its admin key.** Nothing checks that nonce before the call. -/
theorem decrypt_preconditions_iff (env : Env) (na : Sodium) (hash : MsgId) (data : Bytes)
    (timestampMs : Int) (g : Group) :
    (∀ c ∈ (exec (loadKeyMessageM env na hash data timestampMs) ⟨g, []⟩).2.log, c.Ok) ↔
      ∀ nonce adminKey, AdminKeyRead env na g.keys.toIdentity data nonce adminKey →
        nonce.length = 24 := by
  have hlog : ∀ {r es}, Emits (readKeyMessageM env na g.keys.toIdentity data timestampMs) r es →
      (exec (loadKeyMessageM env na hash data timestampMs) ⟨g, []⟩).2.log = es := by
    intro r es hes
    rw [loadKeyMessageM, exec_bind_ok (exec_readState _)]
    cases r with
    | error e => rw [exec_bind_error (hes _), nil_append]
    | ok content =>
      obtain ⟨info, members, happly⟩ := exec_applyContentM env hash content ⟨g, [] ++ es⟩
      rw [exec_bind_ok (hes _), happly, nil_append]
  constructor
  · intro hok nonce adminKey hread
    obtain ⟨r, es, hes, hmem⟩ := readKeyMessageM_logs hread timestampMs
    rw [hlog hes] at hok
    exact (hok _ hmem).1
  intro hnonce
  have honly : EmitsOnly DecryptCall.Ok
      (readKeyMessageM env na g.keys.toIdentity data timestampMs)
      (readKeyMessage env na g.keys.toIdentity data timestampMs) := by
    refine readKeyMessageM_emitsOnly multiCalls_ok (fun nonce adminKey hread => ?_) timestampMs
    refine ⟨hnonce nonce adminKey hread, ?_⟩
    obtain ⟨-, -, -, -, -, -, -, -, -, -, -, -, -, -, -, -, hlen⟩ := hread
    rw [hlen]
    decide
  obtain ⟨es, hes, hall⟩ := honly
  rw [hlog hes]
  exact hall

def sampleGroup : Group where
  keys := Keys.empty plainSodium sampleAdmin
  info := ⟨ConfigBase.fresh sampleEnv .none, [], []⟩
  members := ⟨ConfigBase.fresh sampleEnv .none, [], []⟩

def shortNonceMessage : Bytes :=
  sampleEnv.encode [(bytes "#", .str (bytes "abc")), (bytes "G", .int 0),
    (bytes "K", .str (List.replicate 48 0))]

/-- An admin that is given such a message calls `try_decrypting` with three bytes for the nonce. -/
theorem decrypt_short_nonce :
    (exec (loadKeyMessageM sampleEnv plainSodium (bytes "id") shortNonceMessage 0)
        ⟨sampleGroup, []⟩).2.log = [.tryDecrypting (bytes "abc") (List.replicate 48 0)] ∧
      ¬DecryptCall.Ok (.tryDecrypting (bytes "abc") (List.replicate 48 0)) := by
  refine ⟨by decide +kernel, fun h => ?_⟩
  exact absurd h.1 (by decide)

end Bchat.Groups
