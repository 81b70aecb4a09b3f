import Bchat.Lib.Errors
import Bchat.Lib.ScalarAction
import Bchat.Messages.Blinded
import Bchat.Roundtrip.GroupMessage

/-!
# Messages to a blinded recipient open on both sides

Each side has one secret scalar, and of the other only the blinded key. With the curve as an action
of a field (`Ideal`) every quantity of the code is a point with a known value, and both sides arrive
at the same one.
-/

namespace Bchat.Messages

open Config Groups List

variable {na : Sodium} {ed : Ed25519} {serverPk : Key} {b : Blinding} {F : Type} [Field F]
variable {privkey senderId seed kA jB server recipientId : Bytes} {result : Bytes × Bytes}
  {pk : Key}

/-! ## The setting -/

/-- Bit 255 is clear, which libsodium drops from a scalar. -/
def IsScalar (k : Key) : Prop := isNegative k = false

/-- The curve acts as it should, and clearing the sign of a point gives the positive one of the two
opposite points. Different multiples of the base point have different encodings. -/
structure Ideal (ed : Ed25519) (val : Key → F) (point : F → Key) : Prop where
  injective : Function.Injective point
  action : ScalarAction IsScalar ed.scalarMul ed.scalarNegate ed.scalarmultBase ed.scalarmult val
    point
  reduce : ∀ h, IsScalar (ed.scalarReduce h)
  clear : ∀ x, clearSign (point x) = if isNegative (point x) then point (-x) else point x

/-- A key pair of a user: the public key is the multiple of the base point by the secret scalar, and
it has a BChat id. -/
structure IsUser (na : Sodium) (val : Key → F) (point : F → Key) (sk : SecretKey) (xPk : Key) :
    Prop where
  scalar : IsScalar (na.skToCurve sk)
  pk : sk.pk = point (val (na.skToCurve sk))
  ne_zero : val (na.skToCurve sk) ≠ 0
  curve : na.pkToCurve sk.pk = some xPk

inductive Blinding
  | fifteen
  | twentyFive
  deriving DecidableEq

def Blinding.tag : Blinding → UInt8
  | .fifteen => 0x15
  | .twentyFive => 0x25

def Blinding.keyPair (na : Sodium) (ed : Ed25519) (b : Blinding) (privkey serverPk : Bytes) :
    Except Err BlindedKeyPair :=
  match b with
  | .fifteen => blind15KeyPair na ed privkey serverPk
  | .twentyFive => blind25KeyPair na ed privkey serverPk

def Blinding.id (na : Sodium) (ed : Ed25519) (b : Blinding) (privkey serverPk : Bytes) :
    Except Err Bytes :=
  (b.keyPair na ed privkey serverPk).map fun pair => b.tag :: pair.A.val

def Blinding.factor (na : Sodium) (ed : Ed25519) (b : Blinding) (pk xPk serverPk : Key) : Key :=
  match b with
  | .fifteen => blind15Factor na ed serverPk
  | .twentyFive =>
    let k := blind25Factor na ed xPk.val serverPk
    if isNegative pk then ed.scalarNegate k else k

section

variable {val : Key → F} {point : F → Key} {sk : SecretKey} {xPk : Key}

lemma fullSecretKey_val (sk : SecretKey) : fullSecretKey na sk.val = some sk := by
  rw [fullSecretKey, dif_neg (by rw [sk.2]; decide), dif_pos sk.2]

lemma asKey_val (k : Key) (err : Err) : asKey k.val err = .ok k := dif_pos k.2

lemma blind25Factor_prefixed (xPk serverPk : Key) :
    blind25Factor na ed (0x05 :: xPk.val) serverPk = blind25Factor na ed xPk.val serverPk := by
  unfold blind25Factor
  rw [if_neg (by rw [length_cons, xPk.2]; decide), if_pos xPk.2]

lemma keyPair_eq (hsk : fullSecretKey na privkey = some sk)
    (hcurve : na.pkToCurve sk.pk = some xPk) : b.keyPair na ed privkey serverPk.val =
      .ok (blindKeyPair na ed sk (b.factor na ed sk.pk xPk serverPk)) := by
  cases b with
  | fifteen =>
    unfold Blinding.keyPair blind15KeyPair
    rw [hsk]
    rw [asKey_val]
    rfl
  | twentyFive =>
    unfold Blinding.keyPair blind25KeyPair
    rw [hsk]
    dsimp only
    rw [asKey_val, ok_bind, hcurve]
    rfl

def blindedVal (na : Sodium) (ed : Ed25519) (val : Key → F) (b : Blinding) (sk : SecretKey)
    (xPk serverPk : Key) : F :=
  val (b.factor na ed sk.pk xPk serverPk) * val (na.skToCurve sk)

/-- The value a party multiplies the other's blinded key with. With prefix `0x15` it has no factor
of its own. -/
def ownVal (na : Sodium) (ed : Ed25519) (val : Key → F) (b : Blinding) (sk : SecretKey)
    (xPk serverPk : Key) : F :=
  match b with
  | .fifteen => val (na.skToCurve sk)
  | .twentyFive => val (na.skToCurve sk) * val (b.factor na ed sk.pk xPk serverPk)

def idOf (point : F → Key) (b : Blinding) (x : F) : Bytes := b.tag :: (point x).val

omit [Field F] in
lemma length_idOf (b : Blinding) (x : F) : (idOf point b x).length = 33 := by
  rw [idOf, length_cons, (point x).2]

section

variable (ideal : Ideal ed val point)

include ideal

lemma isScalar_factor : IsScalar (b.factor na ed sk.pk xPk serverPk) := by
  cases b with
  | fifteen => exact ideal.reduce _
  | twentyFive =>
    unfold Blinding.factor
    dsimp only
    split
    · exact ideal.action.valid_neg _ (ideal.reduce _)
    · exact ideal.reduce _

lemma blindKeyPair_A (user : IsUser na val point sk xPk) :
    (blindKeyPair na ed sk (b.factor na ed sk.pk xPk serverPk)).A =
      point (blindedVal na ed val b sk xPk serverPk) := by
  unfold blindKeyPair
  dsimp only
  rw [ideal.action.base_eq _ (ideal.action.valid_mul _ _ (isScalar_factor ideal) user.scalar),
    ideal.action.val_mul _ _ (isScalar_factor ideal) user.scalar]
  rfl

lemma id_eq (hsk : fullSecretKey na privkey = some sk) (user : IsUser na val point sk xPk) :
    b.id na ed privkey serverPk.val =
      .ok (idOf point b (blindedVal na ed val b sk xPk serverPk)) := by
  unfold Blinding.id
  rw [keyPair_eq hsk user.curve]
  exact congrArg (fun k : Key => Except.ok (b.tag :: k.val)) (blindKeyPair_A ideal user)

lemma factor_mul_clear (user : IsUser na val point sk xPk)
    (serverPk : Key) : ∃ x, clearSign sk.pk = point x ∧
        val (blind25Factor na ed xPk.val serverPk) * x =
      blindedVal na ed val .twentyFive sk xPk serverPk := by
  have hclear := ideal.clear (val (na.skToCurve sk))
  rw [← user.pk] at hclear
  unfold blindedVal Blinding.factor
  cases hneg : isNegative sk.pk with
  | true =>
    rw [hneg, if_pos rfl] at hclear
    exact ⟨_, hclear, by
      rw [if_pos rfl, ideal.action.val_neg (blind25Factor na ed xPk.val serverPk) (ideal.reduce _),
        mul_neg, neg_mul]⟩
  | false =>
    rw [hneg, if_neg Bool.false_ne_true, user.pk] at hclear
    exact ⟨_, by rw [user.pk, hclear], by rw [if_neg Bool.false_ne_true]⟩

lemma blindedIdFromEd_eq (user : IsUser na val point sk xPk)
    (hfactor : val (b.factor na ed sk.pk xPk serverPk) ≠ 0) (given : Bool) :
    ∃ own, blindedIdFromEd na ed b.tag sk.pk serverPk.val (if given then some [] else none) =
      .ok (idOf point b (blindedVal na ed val b sk xPk serverPk), own) := by
  have hne : blindedVal na ed val b sk xPk serverPk ≠ 0 := mul_ne_zero hfactor user.ne_zero
  have hid : bchatIdFromEd na sk.pk = .ok (0x05 :: xPk.val) := by rw [bchatIdFromEd, user.curve]
  cases b with
  | fifteen =>
    have hpoint : blindPoint ed 0x15 (blind15Factor na ed serverPk) sk.pk =
        .ok (idOf point .fifteen (blindedVal na ed val .fifteen sk xPk serverPk)) := by
      rw [blindPoint, user.pk,
        ideal.action.mult_point (blind15Factor na ed serverPk) _ (ideal.reduce _) hne]
      rfl
    unfold blindedIdFromEd Blinding.tag
    rw [if_neg (by decide), blinded15IdFromEd, asKey_val, ok_bind]
    cases given with
    | true => exact ⟨some (0x05 :: xPk.val), by simp only [if_true, hid, hpoint, ok_bind]; rfl⟩
    | false => exact ⟨none, by simp only [Bool.false_eq_true, if_false, hpoint, ok_bind]; rfl⟩
  | twentyFive =>
    obtain ⟨x, hclear, hx⟩ := factor_mul_clear ideal user serverPk
    have hpoint : blindPoint ed 0x25 (blind25Factor na ed (0x05 :: xPk.val) serverPk)
        (clearSign sk.pk) =
        .ok (idOf point .twentyFive (blindedVal na ed val .twentyFive sk xPk serverPk)) := by
      rw [blind25Factor_prefixed, blindPoint, hclear,
        ideal.action.mult_point (blind25Factor na ed xPk.val serverPk) _ (ideal.reduce _)
          (hx ▸ hne), hx]
      rfl
    unfold blindedIdFromEd Blinding.tag
    rw [if_pos rfl, blinded25IdFromEd, asKey_val, ok_bind]
    cases given with
    | true => exact ⟨some (0x05 :: xPk.val), by simp [hid, hpoint, ok_bind]⟩
    | false => exact ⟨none, by simp [hid, hpoint, ok_bind]⟩

end

/-! ## The shared key -/

def keyMaterial (point : F → Key) (shared sender recipient : F) : Bytes :=
  (point shared).val ++ (point sender).val ++ (point recipient).val

lemma blindedSharedSecret_eq (ideal : Ideal ed val point) (user : IsUser na val point sk xPk)
    (hfactor : val (b.factor na ed sk.pk xPk serverPk) ≠ 0)
    (hsk : fullSecretKey na privkey = some sk) {x y : F} (hy : y ≠ 0) (sending : Bool) :
    blindedSharedSecret na ed privkey (idOf point b x) (idOf point b y) serverPk.val sending =
      .ok (na.hash 32 [] (keyMaterial point (ownVal na ed val b sk xPk serverPk * y)
        (if sending then x else y) (if sending then y else x))) := by
  have hpair : keyPairFor na ed privkey (idOf point b x) (idOf point b y) serverPk.val =
      .ok (blindKeyPair na ed sk (b.factor na ed sk.pk xPk serverPk)) := by
    rw [← keyPair_eq hsk user.curve]
    cases b <;> rfl
  have hown : ∃ ka, IsScalar ka ∧ val ka = ownVal na ed val b sk xPk serverPk ∧
      ka = if (idOf point b x).head? = some 0x25
        then ed.scalarMul (na.skToCurve sk) (b.factor na ed sk.pk xPk serverPk)
        else na.skToCurve sk := by
    cases b with
    | fifteen =>
      exact ⟨na.skToCurve sk, user.scalar, rfl, (if_neg (by simp [idOf, Blinding.tag])).symm⟩
    | twentyFive =>
      exact ⟨_, ideal.action.valid_mul _ _ user.scalar (isScalar_factor ideal),
        ideal.action.val_mul _ _ user.scalar (isScalar_factor ideal), (if_pos rfl).symm⟩
  obtain ⟨ka, hscalar, hka, heq⟩ := hown
  have hka0 : val ka ≠ 0 := by
    rw [hka]
    cases b with
    | fifteen => exact user.ne_zero
    | twentyFive => exact mul_ne_zero user.ne_zero hfactor
  unfold blindedSharedSecret
  rw [hsk]
  dsimp only
  rw [if_neg (not_not.mpr serverPk.2), if_neg (not_not.mpr (length_idOf b x)),
    dif_neg (not_not.mpr (length_idOf b y)), hpair, ok_bind]
  unfold blindKeyPair
  rw [← heq, show (⟨(idOf point b y).drop 1, _⟩ : Key) = point y from rfl,
    ideal.action.mult_point _ _ hscalar (mul_ne_zero hka0 hy), hka]
  cases sending <;> rfl

end

/-! ## Both ends -/

def blindedCiphertext (na : Sodium) (key : Key) (nonce : Nonce) (plain : Bytes) : Bytes :=
  blindedEncryptVersion :: (na.aeadEncrypt key nonce plain ++ nonce.val)

section

variable {val : Key → F} {point : F → Key} {s r : SecretKey} {xS xR : Key} {message plain : Bytes}
  {key decKey : Key} {nonce : Nonce}

lemma length_blindedCiphertext :
    (blindedCiphertext na key nonce plain).length = plain.length + 41 := by
  rw [blindedCiphertext, length_cons, length_append, na.aeadEncrypt_length, nonce.2]

lemma encryptForBlindedRecipient_eq (ideal : Ideal ed val point) (us : IsUser na val point s xS)
    (fs : val (b.factor na ed s.pk xS serverPk) ≠ 0) (hs : fullSecretKey na privkey = some s)
    {y : F} (hy : y ≠ 0) :
    encryptForBlindedRecipient na ed privkey serverPk.val (idOf point b y) message nonce =
      .ok (blindedCiphertext na (na.hash 32 [] (keyMaterial point
        (ownVal na ed val b s xS serverPk * y) (blindedVal na ed val b s xS serverPk) y))
        nonce (message ++ s.pk.val)) := by
  have hpair : b.keyPair na ed privkey serverPk.val =
    .ok (blindKeyPair na ed s (b.factor na ed s.pk xS serverPk)) := keyPair_eq hs us.curve
  have hid : b.tag :: (blindKeyPair na ed s (b.factor na ed s.pk xS serverPk)).A.val =
      idOf point b (blindedVal na ed val b s xS serverPk) :=
    congrArg (fun k : Key => b.tag :: k.val) (blindKeyPair_A ideal us)
  have hsecret := blindedSharedSecret_eq ideal us fs hs
    (x := blindedVal na ed val b s xS serverPk) hy true
  unfold encryptForBlindedRecipient
  rw [hs]
  dsimp only
  rw [if_neg (not_not.mpr serverPk.2), if_neg (not_not.mpr (length_idOf b y))]
  cases b with
  | fifteen =>
    rw [show blind15KeyPair na ed privkey serverPk.val = _ from hpair]
    change blindedSharedSecret na ed privkey (Blinding.fifteen.tag :: _) _ _ _ >>= _ = _
    rw [hid, hsecret]
    rfl
  | twentyFive =>
    rw [show blind25KeyPair na ed privkey serverPk.val = _ from hpair]
    change blindedSharedSecret na ed privkey (Blinding.twentyFive.tag :: _) _ _ _ >>= _ = _
    rw [hid, hsecret]
    rfl

lemma openBlinded_blindedCiphertext {tag : UInt8} (hplain : 32 ≤ plain.length)
    (hsize : 24 + 1 + aeadOverhead ≤ (blindedCiphertext na key nonce plain).length) :
    openBlinded na ed tag serverPk.val senderId decKey (blindedCiphertext na key nonce plain)
        hsize =
      match na.aeadDecrypt decKey nonce (na.aeadEncrypt key nonce plain) with
      | none => .error (.invalidArgument "Decryption failed")
      | some buf =>
        if hbuf : buf.length = plain.length then
          readBlinded na ed tag serverPk.val senderId buf (hbuf ▸ hplain)
        else .error .assertion := by
  have hmsg : (blindedCiphertext na key nonce plain).length - aeadOverhead - 1 - 24 =
      plain.length := by
    rw [length_blindedCiphertext]
    unfold aeadOverhead
    omega
  have hct : ((blindedCiphertext na key nonce plain).drop 1).take (plain.length + aeadOverhead) =
      na.aeadEncrypt key nonce plain :=
    take_left' (na.aeadEncrypt_length key nonce plain)
  have hnonce : (blindedCiphertext na key nonce plain).drop (plain.length + 1 + aeadOverhead) =
      nonce.val := by
    exact drop_left' (na.aeadEncrypt_length key nonce plain)
  unfold openBlinded
  have hversion : (blindedCiphertext na key nonce plain).head? = some blindedEncryptVersion := rfl
  rw [if_neg (not_not.mpr hversion), dif_neg (by omega)]
  have hn : (⟨(blindedCiphertext na key nonce plain).drop
      ((blindedCiphertext na key nonce plain).length - aeadOverhead - 1 - 24 + 1 + aeadOverhead),
      by rw [hmsg, hnonce]; exact nonce.2⟩ : Nonce) = nonce := by
    apply Subtype.ext
    dsimp only
    rw [hmsg, hnonce]
  rw [hn]
  cases hdec : na.aeadDecrypt decKey nonce (na.aeadEncrypt key nonce plain) with
  | none => simp only [hmsg, hct, hdec]
  | some buf => simp only [hmsg, hct, hdec]

section

variable (ideal : Ideal ed val point) (us : IsUser na val point s xS)
  (fs : val (b.factor na ed s.pk xS serverPk) ≠ 0)

include ideal us fs

lemma readBlinded_append (h : 32 ≤ (message ++ s.pk.val).length) :
    readBlinded na ed b.tag serverPk.val (idOf point b (blindedVal na ed val b s xS serverPk))
      (message ++ s.pk.val) h = .ok (message, bchatIdOf xS) := by
  have hlen : (message ++ s.pk.val).length - 32 = message.length := by
    rw [length_append, s.pk.2]
    omega
  have hpk : (⟨(message ++ s.pk.val).drop ((message ++ s.pk.val).length - 32), by
      rw [length_drop]; omega⟩ : Key) = s.pk := by
    apply Subtype.ext
    dsimp only
    rw [hlen, drop_left]
  obtain ⟨own, hid⟩ := blindedIdFromEd_eq ideal us fs true
  rw [if_pos rfl] at hid
  unfold readBlinded
  dsimp only
  rw [hpk, us.curve]
  dsimp only
  rw [hid, ok_bind, hlen, take_left]
  rw [if_pos (by rw [matchesSender, beq_self_eq_true, Bool.true_or])]
  rfl

lemma openBlinded_own (hsize : 24 + 1 + aeadOverhead ≤
      (blindedCiphertext na key nonce (message ++ s.pk.val)).length) :
    openBlinded na ed b.tag serverPk.val (idOf point b (blindedVal na ed val b s xS serverPk)) key
      (blindedCiphertext na key nonce (message ++ s.pk.val)) hsize =
      .ok (message, bchatIdOf xS) := by
  have hplain : 32 ≤ (message ++ s.pk.val).length := by
    rw [length_append, s.pk.2]
    omega
  rw [openBlinded_blindedCiphertext hplain, na.aeadDecrypt_encrypt]
  dsimp only
  rw [dif_pos rfl, readBlinded_append ideal us fs]

end

lemma ownVal_mul_blindedVal :
    ownVal na ed val b s xS serverPk * blindedVal na ed val b r xR serverPk =
      ownVal na ed val b r xR serverPk * blindedVal na ed val b s xS serverPk := by
  cases b with
  | fifteen =>
    simp only [ownVal, blindedVal, Blinding.factor]
    ring
  | twentyFive =>
    simp only [ownVal, blindedVal]
    ring

lemma ownVal_congr (fs : val (b.factor na ed s.pk xS serverPk) ≠ 0)
    (h : blindedVal na ed val b s xS serverPk = blindedVal na ed val b r xR serverPk) :
    ownVal na ed val b s xS serverPk = ownVal na ed val b r xR serverPk := by
  cases b with
  | fifteen => exact mul_left_cancel₀ fs h
  | twentyFive =>
    rw [ownVal, ownVal, mul_comm, mul_comm (val (na.skToCurve r))]
    exact h

/-- **Any party of a message decrypts it.** The party is the sender or the recipient; which of the
two it is, it sees from the ids. -/
lemma decryptFromBlindedRecipient_eq (ideal : Ideal ed val point) (us : IsUser na val point s xS)
    (ur : IsUser na val point r xR) (fs : val (b.factor na ed s.pk xS serverPk) ≠ 0)
    (fr : val (b.factor na ed r.pk xR serverPk) ≠ 0) {p : SecretKey}
    (hp : fullSecretKey na privkey = some p) (hparty : p = s ∨ p = r)
    (hkey : key = na.hash 32 [] (keyMaterial point
      (ownVal na ed val b s xS serverPk * blindedVal na ed val b r xR serverPk)
      (blindedVal na ed val b s xS serverPk) (blindedVal na ed val b r xR serverPk))) :
    decryptFromBlindedRecipient na ed privkey serverPk.val
        (idOf point b (blindedVal na ed val b s xS serverPk))
        (idOf point b (blindedVal na ed val b r xR serverPk))
        (blindedCiphertext na key nonce (message ++ s.pk.val)) = .ok (message, bchatIdOf xS) := by
  have hs0 : blindedVal na ed val b s xS serverPk ≠ 0 := mul_ne_zero fs us.ne_zero
  have hr0 : blindedVal na ed val b r xR serverPk ≠ 0 := mul_ne_zero fr ur.ne_zero
  have hsize : 24 + 1 + aeadOverhead ≤
      (blindedCiphertext na key nonce (message ++ s.pk.val)).length := by
    rw [length_blindedCiphertext]
    unfold aeadOverhead
    omega
  unfold decryptFromBlindedRecipient
  rw [hp]
  dsimp only
  rw [dif_pos hsize, show (idOf point b (blindedVal na ed val b r xR serverPk)).head? = some b.tag
    from rfl]
  dsimp only
  obtain rfl | rfl := hparty
  · obtain ⟨own, hid⟩ := blindedIdFromEd_eq ideal us fs false
    rw [if_neg Bool.false_ne_true] at hid
    rw [hid, ok_bind]
    rw [if_pos rfl, blindedSharedSecret_eq ideal us fs (fullSecretKey_val p) hr0 true, ok_bind,
      if_pos rfl, if_pos rfl, ← hkey, openBlinded_own ideal us fs]
  obtain ⟨own, hid⟩ := blindedIdFromEd_eq ideal ur fr false
  rw [if_neg Bool.false_ne_true] at hid
  rw [hid, ok_bind]
  by_cases hsame : idOf point b (blindedVal na ed val b s xS serverPk) =
      idOf point b (blindedVal na ed val b p xR serverPk)
  · -- the recipient takes the message for an own one, and it is
    have hval : blindedVal na ed val b s xS serverPk = blindedVal na ed val b p xR serverPk :=
      ideal.injective (Subtype.ext (tail_eq_of_cons_eq hsame))
    rw [if_pos hsame, blindedSharedSecret_eq ideal ur fr (fullSecretKey_val p) hr0 true, ok_bind,
      if_pos rfl, if_pos rfl, ← ownVal_congr fs hval, ← hkey, openBlinded_own ideal us fs]
  rw [if_neg hsame, blindedSharedSecret_eq ideal ur fr (fullSecretKey_val p) hs0 false, ok_bind,
    if_neg Bool.false_ne_true, if_neg Bool.false_ne_true, ← ownVal_mul_blindedVal, ← hkey,
    openBlinded_own ideal us fs]

/-! ## Other ids -/

lemma exists_key_of_head? {id : Bytes} {tag : UInt8} (hlen : id.length = 33)
    (hhead : id.head? = some tag) : ∃ k : Key, id = tag :: k.val := by
  cases id with
  | nil => cases hhead
  | cons t rest =>
    cases hhead
    exact ⟨⟨rest, Nat.succ.inj hlen⟩, rfl⟩

lemma blindedSharedSecret_inv {sending : Bool}
    (h : blindedSharedSecret na ed seed kA jB server sending = .ok key) :
    ∃ (b' : Blinding) (A B shared : Key), kA = b'.tag :: A.val ∧ jB = b'.tag :: B.val ∧
      key = na.hash 32 [] (shared.val ++ (if sending then A else B).val ++
        (if sending then B else A).val) := by
  unfold blindedSharedSecret at h
  split at h
  · cases h
  split at h
  · cases h
  split at h
  · cases h
  next hA =>
    split at h
    · cases h
    next hB =>
      obtain ⟨pair, hpair, h⟩ := bind_eq_ok.mp h
      dsimp only at h
      split at h
      · cases h
      next shared _ =>
        cases h
        obtain ⟨b', hkA, hjB⟩ : ∃ b' : Blinding, kA.head? = some b'.tag ∧ jB.head? =
            some b'.tag := by
          unfold keyPairFor at hpair
          split at hpair
          next h15 => exact ⟨.fifteen, h15⟩
          split at hpair
          next h25 => exact ⟨.twentyFive, h25⟩
          · cases hpair
        obtain ⟨A, rfl⟩ := exists_key_of_head? (not_not.mp hA) hkA
        obtain ⟨B, rfl⟩ := exists_key_of_head? (not_not.mp hB) hjB
        refine ⟨b', A, B, shared, rfl, rfl, ?_⟩
        cases sending <;> rfl

lemma decryptFromBlindedRecipient_inv {ciphertext : Bytes}
    (h : decryptFromBlindedRecipient na ed privkey server senderId recipientId ciphertext =
      .ok result) : ∃ (b' : Blinding) (sender recipient shared : Key) (hsize : _),
      senderId = b'.tag :: sender.val ∧ recipientId = b'.tag :: recipient.val ∧
      openBlinded na ed b'.tag server senderId
        (na.hash 32 [] (shared.val ++ sender.val ++ recipient.val)) ciphertext hsize =
        .ok result := by
  unfold decryptFromBlindedRecipient at h
  split at h
  · cases h
  split at h
  next hsize =>
    split at h
    · cases h
    next tag htag =>
      obtain ⟨⟨blindedId, own⟩, -, h⟩ := bind_eq_ok.mp h
      dsimp only at h
      split at h
      · obtain ⟨decKey, hkey, h⟩ := bind_eq_ok.mp h
        obtain ⟨b', A, B, shared, rfl, rfl, rfl⟩ := blindedSharedSecret_inv hkey
        cases htag
        exact ⟨b', A, B, shared, hsize, rfl, rfl, h⟩
      obtain ⟨decKey, hkey, h⟩ := bind_eq_ok.mp h
      obtain ⟨b', A, B, shared, rfl, rfl, rfl⟩ := blindedSharedSecret_inv hkey
      cases htag
      exact ⟨b', B, A, shared, hsize, rfl, rfl, h⟩
  · cases h

lemma take_of_matchesSender {extracted : Bytes} (h : matchesSender senderId extracted = true) :
    (senderId.drop 1).take 30 = (extracted.drop 1).take 30 := by
  unfold matchesSender at h
  rw [Bool.or_eq_true, Bool.and_eq_true, beq_iff_eq, beq_iff_eq, beq_iff_eq] at h
  obtain rfl | ⟨-, rfl⟩ := h
  · rfl
  have htake : (extracted.modify 31 (· ^^^ 0x80)).take 31 = extracted.take 31 := by
    apply ext_getElem?
    intro i
    rw [getElem?_take, getElem?_take, getElem?_modify]
    split
    next hi =>
      have hne : ¬31 = i := by omega
      simp [hne]
    · rfl
  have hdrop := congrArg (drop 1) htake
  rwa [drop_take, drop_take] at hdrop

lemma readBlinded_inv {tag : UInt8} (h32 : 32 ≤ (message ++ s.pk.val).length)
    (h : readBlinded na ed tag server senderId (message ++ s.pk.val) h32 = .ok result) :
    ∃ id own, blindedIdFromEd na ed tag s.pk server (some []) = .ok (id, own) ∧
      matchesSender senderId id = true := by
  have hpk : (⟨(message ++ s.pk.val).drop ((message ++ s.pk.val).length - 32), by
      rw [length_drop]; omega⟩ : Key) = s.pk := by
    apply Subtype.ext
    dsimp only
    rw [length_append, s.pk.2, Nat.add_sub_cancel, drop_left]
  unfold readBlinded at h
  dsimp only at h
  rw [hpk] at h
  split at h
  · cases h
  obtain ⟨⟨id, own⟩, hid, h⟩ := bind_eq_ok.mp h
  split at h
  next hmatch => exact ⟨id, own, hid, hmatch⟩
  · cases h

/-- The blinded keys of the sender in the two blindings are told apart by their first 30 bytes. -/
def BlindingsDiffer (na : Sodium) (ed : Ed25519) (b : Blinding) (pk serverPk blindedKey : Key) :
    Prop :=
  ∀ b' ≠ b, ∀ id own, blindedIdFromEd na ed b'.tag pk serverPk.val (some []) = .ok (id, own) →
    (id.drop 1).take 30 ≠ blindedKey.val.take 30

def HashesAlone (na : Sodium) (input : Bytes) : Prop :=
  ∀ input', na.hash 32 [] input' = na.hash 32 [] input → input' = input

omit [Field F] in
lemma decrypt_other_ids {shared sender recipient : F}
    (hhash : HashesAlone na (keyMaterial point shared sender recipient))
    (hkey : key = na.hash 32 [] (keyMaterial point shared sender recipient))
    (honly : OnlyKey na key nonce) (hdiff : BlindingsDiffer na ed b s.pk serverPk (point sender))
    (hother : ¬(senderId = idOf point b sender ∧ recipientId = idOf point b recipient))
    (result : Bytes × Bytes) :
    decryptFromBlindedRecipient na ed privkey serverPk.val senderId recipientId
      (blindedCiphertext na key nonce (message ++ s.pk.val)) ≠ .ok result := by
  intro h
  obtain ⟨b', S, R, shared', hsize, rfl, rfl, hopen⟩ := decryptFromBlindedRecipient_inv h
  have hplain : 32 ≤ (message ++ s.pk.val).length := by
    rw [length_append, s.pk.2]
    omega
  rw [openBlinded_blindedCiphertext hplain] at hopen
  -- the key must be the one of the message, and with it both blinded keys
  by_cases hsame : na.hash 32 [] (shared'.val ++ S.val ++ R.val) = key
  · have hmaterial := hhash _ (hsame.trans hkey)
    rw [keyMaterial, append_assoc, append_assoc] at hmaterial
    obtain ⟨-, hrest⟩ := append_inj hmaterial (by rw [shared'.2, (point shared).2])
    obtain ⟨hS, hR⟩ := append_inj hrest (by rw [S.2, (point sender).2])
    have hb : b' ≠ b := by
      rintro rfl
      exact hother ⟨by rw [hS, idOf], by rw [hR, idOf]⟩
    rw [hsame, na.aeadDecrypt_encrypt] at hopen
    dsimp only at hopen
    rw [dif_pos rfl] at hopen
    obtain ⟨id, own, hid, hmatch⟩ := readBlinded_inv hplain hopen
    refine hdiff b' hb id own hid ?_
    rw [← hS]
    exact (take_of_matchesSender hmatch).symm
  · rw [honly _ hsame] at hopen
    cases hopen

/-! ## Failures are exceptions -/

def Throws {α : Type} (x : Except Err α) : Prop := ErrorsIn (fun e => e.isException = true) x

lemma throws_asKey {k : Bytes} {err : Err} (h : err.isException = true) : Throws (asKey k err) := by
  unfold asKey
  split
  · exact errorsIn_ok _
  · exact errorsIn_error.mpr h

lemma throws_bchatIdFromEd : Throws (bchatIdFromEd na pk) := by
  unfold bchatIdFromEd
  split
  · exact errorsIn_ok _
  · exact errorsIn_error.mpr rfl

lemma throws_blindPoint {tag : UInt8} {k : Key} : Throws (blindPoint ed tag k pk) := by
  unfold blindPoint
  split
  · exact errorsIn_ok _
  · exact errorsIn_error.mpr rfl

lemma throws_blindedIdFromEd {tag : UInt8} {given : Option Bytes} :
    Throws (blindedIdFromEd na ed tag pk server given) := by
  unfold blindedIdFromEd
  split <;> refine ErrorsIn.bind (throws_asKey rfl) fun serverPk _ => ?_
  · dsimp only
    split
    · exact errorsIn_error.mpr rfl
    split
    · exact throws_bchatIdFromEd.bind fun own _ => throws_blindPoint.bind fun id _ => errorsIn_ok _
    · exact throws_blindPoint.bind fun id _ => errorsIn_ok _
  split
  · exact throws_blindPoint.bind fun id _ => errorsIn_ok _
  · exact throws_bchatIdFromEd.bind fun own _ =>
      throws_blindPoint.bind fun id _ => errorsIn_ok _
  · exact errorsIn_error.mpr rfl

lemma throws_keyPairFor : Throws (keyPairFor na ed seed kA jB server) := by
  unfold keyPairFor
  split
  · unfold blind15KeyPair
    split
    · exact errorsIn_error.mpr rfl
    · exact (throws_asKey rfl).bind fun serverPk _ => errorsIn_ok _
  split
  · unfold blind25KeyPair
    split
    · exact errorsIn_error.mpr rfl
    refine ErrorsIn.bind (throws_asKey rfl) fun serverPk _ => ?_
    split
    · exact errorsIn_error.mpr rfl
    · exact errorsIn_ok _
  · exact errorsIn_error.mpr rfl

lemma throws_blindedSharedSecret {sending : Bool} :
    Throws (blindedSharedSecret na ed seed kA jB server sending) := by
  unfold blindedSharedSecret
  split
  · exact errorsIn_error.mpr rfl
  split
  · exact errorsIn_error.mpr rfl
  split
  · exact errorsIn_error.mpr rfl
  split
  · exact errorsIn_error.mpr rfl
  refine ErrorsIn.bind throws_keyPairFor fun pair _ => ?_
  dsimp only
  split
  · exact errorsIn_error.mpr rfl
  · exact errorsIn_ok _

lemma throws_readBlinded {tag : UInt8} {buf : Bytes} (h : 32 ≤ buf.length) :
    Throws (readBlinded na ed tag server senderId buf h) := by
  unfold readBlinded
  dsimp only
  split
  · exact errorsIn_error.mpr rfl
  refine ErrorsIn.bind throws_blindedIdFromEd fun extracted _ => ?_
  split
  · exact errorsIn_ok _
  · exact errorsIn_error.mpr rfl

lemma throws_decryptFromBlindedRecipient (honly : OnlyKey na key nonce)
    (hplain : 32 ≤ plain.length) (hne : recipientId ≠ []) :
    Throws (decryptFromBlindedRecipient na ed privkey serverPk.val senderId recipientId
      (blindedCiphertext na key nonce plain)) := by
  have hopen : ∀ tag decKey hsize, Throws (openBlinded na ed tag serverPk.val senderId decKey
      (blindedCiphertext na key nonce plain) hsize) := by
    intro tag decKey hsize
    rw [openBlinded_blindedCiphertext hplain]
    by_cases hkey : decKey = key
    · rw [hkey, na.aeadDecrypt_encrypt]
      dsimp only
      rw [dif_pos rfl]
      exact throws_readBlinded _
    · rw [honly _ hkey]
      exact errorsIn_error.mpr rfl
  unfold decryptFromBlindedRecipient
  split
  · exact errorsIn_error.mpr rfl
  split
  · split
    next hnone => exact absurd (head?_eq_none_iff.mp hnone) hne
    · refine ErrorsIn.bind throws_blindedIdFromEd fun id _ => ?_
      dsimp only
      split
      all_goals exact throws_blindedSharedSecret.bind fun decKey _ => hopen _ _ _
  · exact errorsIn_error.mpr rfl

end

/-- **Blinded messages open on both sides.** For any two users, any server and both blindings: the
message for the recipient's id comes back, with the sender's own id, from the keys of the recipient
and of the sender; and with any other pair of ids nobody reads it. -/
theorem blinded_message_opens_both {na : Sodium} {ed : Ed25519} {val : Key → F} {point : F → Key}
    (ideal : Ideal ed val point) (serverPk : Key) (b : Blinding)
    {senderPrivkey recipientPrivkey : Bytes} {s r : SecretKey} {xS xR : Key}
    (hs : fullSecretKey na senderPrivkey = some s) (hr : fullSecretKey na recipientPrivkey = some r)
    (us : IsUser na val point s xS) (ur : IsUser na val point r xR)
    (fs : val (b.factor na ed s.pk xS serverPk) ≠ 0)
    (fr : val (b.factor na ed r.pk xR serverPk) ≠ 0) (message : Bytes) (nonce : Nonce)
    {input : Bytes} (hinput : input = keyMaterial point
      (ownVal na ed val b s xS serverPk * blindedVal na ed val b r xR serverPk)
      (blindedVal na ed val b s xS serverPk) (blindedVal na ed val b r xR serverPk))
    (hhash : HashesAlone na input) (honly : OnlyKey na (na.hash 32 [] input) nonce)
    (hdiff : BlindingsDiffer na ed b s.pk serverPk (point (blindedVal na ed val b s xS serverPk))) :
    ∃ senderId recipientId ciphertext, b.id na ed senderPrivkey serverPk.val = .ok senderId ∧
      b.id na ed recipientPrivkey serverPk.val = .ok recipientId ∧
      encryptForBlindedRecipient na ed senderPrivkey serverPk.val recipientId message nonce =
        .ok ciphertext ∧
      decryptFromBlindedRecipient na ed recipientPrivkey serverPk.val senderId recipientId
        ciphertext = .ok (message, bchatIdOf xS) ∧
      decryptFromBlindedRecipient na ed senderPrivkey serverPk.val senderId recipientId
        ciphertext = .ok (message, bchatIdOf xS) ∧
      ∀ privkey senderId' recipientId', recipientId' ≠ [] →
        ¬(senderId' = senderId ∧ recipientId' = recipientId) →
        ∃ e, e.isException = true ∧ decryptFromBlindedRecipient na ed privkey serverPk.val senderId'
          recipientId' ciphertext = .error e := by
  subst hinput
  refine ⟨_, _, _, id_eq ideal hs us, id_eq ideal hr ur,
    encryptForBlindedRecipient_eq ideal us fs hs (mul_ne_zero fr ur.ne_zero),
    decryptFromBlindedRecipient_eq ideal us ur fs fr hr (Or.inr rfl) rfl,
    decryptFromBlindedRecipient_eq ideal us ur fs fr hs (Or.inl rfl) rfl, ?_⟩
  intro privkey senderId' recipientId' hne hother
  cases h : decryptFromBlindedRecipient na ed privkey serverPk.val senderId' recipientId' _ with
  | ok result => exact absurd h (decrypt_other_ids hhash rfl honly hdiff hother result)
  | error e =>
    have hplain : 32 ≤ (message ++ s.pk.val).length := by
      rw [length_append, s.pk.2]
      omega
    exact ⟨e, throws_decryptFromBlindedRecipient honly hplain hne e h, rfl⟩

/-! ## A sample

A curve with five points. A point is written as its absolute value and its sign. -/

instance primeFive : Fact (Nat.Prime 5) := ⟨Nat.prime_five⟩

def endsKey (first last : UInt8) : Key := ⟨first :: (List.replicate 30 0 ++ [last]), by simp⟩

def smallVal (k : Key) : ZMod 5 :=
  if isNegative k then -((k.val.headD 0).toNat : ZMod 5) else ((k.val.headD 0).toNat : ZMod 5)

def smallPoint (x : ZMod 5) : Key :=
  if x.val ≤ 2 then endsKey (UInt8.ofNat x.val) 0 else endsKey (UInt8.ofNat (5 - x.val)) 0x80

def smallScalar (x : ZMod 5) : Key := endsKey (UInt8.ofNat x.val) 0

lemma smallVal_smallScalar : ∀ x, smallVal (smallScalar x) = x := by decide +kernel

lemma isScalar_smallScalar : ∀ x, IsScalar (smallScalar x) := by
  unfold IsScalar
  decide +kernel

lemma smallVal_smallPoint : ∀ x, smallVal (smallPoint x) = x := by decide +kernel

def smallEd25519 : Ed25519 where
  scalarReduce h := smallScalar (h.val.headD 0).toNat
  scalarMul a b := smallScalar (smallVal a * smallVal b)
  scalarNegate a := smallScalar (-smallVal a)
  scalarmult n p := some (smallPoint (smallVal n * smallVal p))
  scalarmultBase a := smallPoint (smallVal a)

lemma ideal_smallEd25519 : Ideal smallEd25519 smallVal smallPoint where
  injective := Function.LeftInverse.injective smallVal_smallPoint
  action := {
    valid_mul := fun _ _ _ _ => isScalar_smallScalar _
    valid_neg := fun _ _ => isScalar_smallScalar _
    val_mul := fun _ _ _ _ => smallVal_smallScalar _
    val_neg := fun _ _ => smallVal_smallScalar _
    base_eq := fun _ _ => rfl
    mult_point := fun n x _ _ => by
      change some (smallPoint (smallVal n * smallVal (smallPoint x))) = _
      rw [smallVal_smallPoint] }
  reduce := fun _ => isScalar_smallScalar _
  clear := by decide +kernel

def smallInput : Bytes := keyMaterial smallPoint 3 2 4

/-- One input of the short hash, and the key made of it, are unlike all others. The long hash gives
one factor for a server and another one for a user on it. -/
def smallSodium : Sodium :=
  { singledSodium (groupSampleKey 1) [] with
    skToCurve := fun sk => smallScalar (smallVal sk.pk)
    hash := fun size _ data =>
      if size = 32 then ⟨List.replicate size (if data = smallInput then 1 else 0), by simp⟩
      else ⟨(List.replicate size 0).set 0 (if data.length = 32 then 1 else 2), by simp⟩ }

lemma isUser_smallSodium (x : ZMod 5) (hx : x ≠ 0) :
    IsUser smallSodium smallVal smallPoint (SecretKey.ofSeed (smallPoint x) (smallPoint x))
      (smallPoint x) where
  scalar := isScalar_smallScalar _
  pk := by
    change _ = smallPoint (smallVal (smallScalar (smallVal (SecretKey.pk _))))
    rw [smallVal_smallScalar, SecretKey.pk_ofSeed, smallVal_smallPoint]
  ne_zero := by
    change smallVal (smallScalar (smallVal (SecretKey.pk _))) ≠ 0
    rwa [smallVal_smallScalar, SecretKey.pk_ofSeed, smallVal_smallPoint]
  curve := congrArg some (SecretKey.pk_ofSeed _ _)

lemma hashesAlone_smallSodium : HashesAlone smallSodium smallInput := by
  intro input h
  by_contra hne
  have hval := congrArg Subtype.val h
  change replicate 32 (if input = smallInput then (1 : UInt8) else 0) =
    replicate 32 (if smallInput = smallInput then (1 : UInt8) else 0) at hval
  rw [if_neg hne, if_pos rfl] at hval
  exact absurd hval (by decide)

lemma blindingsDiffer_smallSodium :
    BlindingsDiffer smallSodium smallEd25519 .twentyFive (smallPoint 1) (groupSampleKey 8)
      (smallPoint 2) := by
  intro b hb id own h
  cases b with
  | fifteen =>
    have hid : blindedIdFromEd smallSodium smallEd25519 0x15 (smallPoint 1) (groupSampleKey 8).val
        (some []) = .ok (0x15 :: (smallPoint 1).val, some (0x05 :: (smallPoint 1).val)) := by
      decide +kernel
    cases hid.symm.trans h
    decide +kernel
  | twentyFive => exact absurd rfl hb

/-- A message from a user with a positive key, given by its seed, to one with a negative key. -/
theorem blinded_message_opens_both_small : ∃ senderId recipientId ciphertext,
      encryptForBlindedRecipient smallSodium smallEd25519 (smallPoint 1).val (groupSampleKey 8).val
        recipientId (bytes "hello") groupSampleNonce = .ok ciphertext ∧
      decryptFromBlindedRecipient smallSodium smallEd25519 (smallPoint 3).val (groupSampleKey 8).val
        senderId recipientId ciphertext = .ok (bytes "hello", bchatIdOf (smallPoint 1)) ∧
      decryptFromBlindedRecipient smallSodium smallEd25519 (smallPoint 1).val (groupSampleKey 8).val
        senderId recipientId ciphertext = .ok (bytes "hello", bchatIdOf (smallPoint 1)) := by
  have hs : fullSecretKey smallSodium (smallPoint 1).val =
    some (SecretKey.ofSeed (smallPoint 1) (smallPoint 1)) := rfl
  have hr : fullSecretKey smallSodium (smallPoint 3).val =
    some (SecretKey.ofSeed (smallPoint 3) (smallPoint 3)) := rfl
  have honly : OnlyKey smallSodium (smallSodium.hash 32 [] smallInput) groupSampleNonce :=
    onlyKey_singledSodium (groupSampleKey 1) [] groupSampleNonce
  obtain ⟨senderId, recipientId, ciphertext, -, -, henc, hrecipient, hsender, -⟩ :=
    blinded_message_opens_both ideal_smallEd25519 (groupSampleKey 8) .twentyFive hs hr
      (isUser_smallSodium 1 (by decide)) (isUser_smallSodium 3 (by decide)) (by decide +kernel)
      (by decide +kernel) (bytes "hello") groupSampleNonce (by decide +kernel)
      hashesAlone_smallSodium honly blindingsDiffer_smallSodium
  exact ⟨senderId, recipientId, ciphertext, henc, hrecipient, hsender⟩

end Bchat.Messages
