import Bchat.Groups.Keys

/-!
# What a key message brings

Inversion of the readers of key messages: what a message must have looked like that got through, and
what its content is then.
-/

namespace Bchat.Groups

open Config Bencode

variable {env : Env} {na : Sodium} {closed : Bool} {curve : Curve} {nonce : Bytes} {rest : BtDict}
  {content : KeyContent}

def fullContent (ts generation : Int) (rest : BtDict) : Option Key → KeyContent
  | some key => ⟨[⟨key, ts, generation⟩], none, rest⟩
  | none => ⟨[], some generation, rest⟩

def foundKey (na : Sodium) (signSk : Option SecretKey) (nonce adminKey : Bytes) :
    Except Err (Option Key) :=
  match signSk with
  | some sk => (openAdminKey na sk nonce adminKey).map some
  | none => .ok none

lemma readFull_inv {signSk : Option SecretKey} {timestampMs : Int}
    (h : readFull na signSk closed curve nonce timestampMs rest = .ok content) :
    ∃ g rest₁ adminKey rest₂ found keyList rest₃ key,
      seek closed (bytes "G") rest = .ok (some (.int g), rest₁) ∧ InInt64 g ∧ 0 ≤ g ∧
      seek closed (bytes "K") rest₁ = .ok (some (.str adminKey), rest₂) ∧
      adminKey.length = encryptedKeySize ∧ foundKey na signSk nonce adminKey = .ok found ∧
      seek closed (bytes "k") rest₂ = .ok (some (.list keyList), rest₃) ∧
      readMemberKeys na curve nonce found keyList = .ok key ∧
      content = fullContent timestampMs g rest₃ key := by
  obtain ⟨⟨v, rest₁⟩, hG, h⟩ := bind_eq_ok.mp h
  split at h
  · cases h
  · next g tail heq =>
    cases heq
    split at h
    · cases h
    next hin =>
    split at h
    · cases h
    next hneg =>
    obtain ⟨⟨v, rest₂⟩, hK, h⟩ := bind_eq_ok.mp h
    split at h
    · cases h
    · next adminKey tail heq =>
      cases heq
      split at h
      · cases h
      next hlen =>
      cases signSk <;>
      · obtain ⟨found, hf, h⟩ := bind_eq_ok.mp h
        obtain ⟨⟨v, rest₃⟩, hk, h⟩ := bind_eq_ok.mp h
        split at h
        · cases h
        · next keyList tail heq =>
          cases heq
          obtain ⟨key, hkey, h⟩ := bind_eq_ok.mp h
          refine ⟨g, rest₁, adminKey, rest₂, found, keyList, rest₃, key, hG, not_not.mp hin,
            not_lt.mp hneg, hK, not_not.mp hlen, hf, hk, hkey, ?_⟩
          split at h <;> exact (Except.ok.inj h).symm
        · cases h
    · cases h
  · cases h

lemma readSupplement_inv {admin : Bool} {supp : List Bt}
    (h : readSupplement na admin closed curve nonce supp rest = .ok content) :
    ∃ newKeys g rest', seek closed (bytes "G") rest = .ok (some (.int g), rest') ∧ InInt64 g ∧
      (newKeys = [] ∨ ∃ plaintext, readSuppKeys plaintext = .ok newKeys) ∧
      content = ⟨newKeys, some g, rest'⟩ := by
  obtain ⟨opened, -, h⟩ := bind_eq_ok.mp h
  split at h
  · next plaintext hplain =>
    obtain ⟨newKeys, hkeys, h⟩ := bind_eq_ok.mp h
    obtain ⟨count, -, h⟩ := bind_eq_ok.mp h
    obtain ⟨⟨v, rest'⟩, hG, h⟩ := bind_eq_ok.mp h
    split at h
    · next g tail heq =>
      cases heq
      split at h
      · next hin =>
        exact ⟨newKeys, g, rest', hG, hin, .inr ⟨plaintext, hkeys⟩, (Except.ok.inj h).symm⟩
      · cases h
    · cases h
    · cases h
  · obtain ⟨_, hkeys, h⟩ := bind_eq_ok.mp h
    cases hkeys
    obtain ⟨count, -, h⟩ := bind_eq_ok.mp h
    obtain ⟨⟨v, rest'⟩, hG, h⟩ := bind_eq_ok.mp h
    split at h
    · next g tail heq =>
      cases heq
      split at h
      · next hin =>
        exact ⟨[], g, rest', hG, hin, .inl rfl, (Except.ok.inj h).symm⟩
      · cases h
    · cases h
    · cases h

/-- The part after `"+"` of a message that got through. -/
def ReadBody (na : Sodium) (who : Identity) (closed : Bool) (curve : Curve) (nonce : Bytes)
    (timestampMs : Int) (rest rest' : BtDict) (content : KeyContent) : Prop :=
  (∃ supp, seek closed (bytes "+") rest = .ok (some (.list supp), rest') ∧
    readSupplement na who.admin closed curve nonce supp rest' = .ok content) ∨
  (seek closed (bytes "+") rest = .ok (none, rest') ∧
    readFull na who.signSk closed curve nonce timestampMs rest' = .ok content)

lemma readKeyMessage_inv {who : Identity} {data : Bytes} {timestampMs : Int}
    (h : readKeyMessage env na who data timestampMs = .ok content) :
    ∃ pairs closed xpk nonce rest curve rest' sig, env.read data = some (pairs, closed) ∧
      computeXpk na who.signPk = .ok xpk ∧
      seek closed (bytes "#") pairs = .ok (some (.str nonce), rest) ∧ who.curve na xpk = .ok curve ∧
      ReadBody na who closed curve nonce timestampMs rest rest' content ∧
      verifyConfigSig env data content.rest closed (some (na.verify who.signPk)) false =
          .ok sig := by
  rw [readKeyMessage] at h
  split at h
  · cases h
  rename_i pairs closed hread
  obtain ⟨xpk, hxpk, h⟩ := bind_eq_ok.mp h
  obtain ⟨⟨v, rest⟩, hnonce, h⟩ := bind_eq_ok.mp h
  split at h
  · cases h
  · next nonce tail heq =>
    cases heq
    obtain ⟨curve, hcurve, h⟩ := bind_eq_ok.mp h
    obtain ⟨⟨v, rest'⟩, hplus, h⟩ := bind_eq_ok.mp h
    have hsig : ∀ c : KeyContent, ReadBody na who closed curve nonce timestampMs rest rest' c → (do
          let _ ← verifyConfigSig env data c.rest closed (some (na.verify who.signPk)) false
          .ok c) = .ok content →
        ReadBody na who closed curve nonce timestampMs rest rest' content ∧
          ∃ sig, verifyConfigSig env data content.rest closed (some (na.verify who.signPk)) false =
            .ok sig := by
      intro c hc h
      obtain ⟨sig, hr, h⟩ := bind_eq_ok.mp h
      cases h
      exact ⟨hc, sig, hr⟩
    split at h
    · next supp tail heq =>
      cases heq
      obtain ⟨c, hc, h⟩ := bind_eq_ok.mp h
      obtain ⟨hbody, sig, hv⟩ := hsig c (.inl ⟨supp, hplus, hc⟩) h
      exact ⟨pairs, closed, xpk, nonce, rest, curve, rest', sig, hread, hxpk, hnonce, hcurve,
        hbody, hv⟩
    · cases h
    rename_i tail heq
    cases heq
    obtain ⟨c, hc, h⟩ := bind_eq_ok.mp h
    obtain ⟨hbody, sig, hv⟩ := hsig c (.inr ⟨hplus, hc⟩) h
    exact ⟨pairs, closed, xpk, nonce, rest, curve, rest', sig, hread, hxpk, hnonce, hcurve,
      hbody, hv⟩
  · cases h

end Bchat.Groups
