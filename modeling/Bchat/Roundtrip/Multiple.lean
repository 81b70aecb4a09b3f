import Bchat.Messages.Multiple
import Bchat.Roundtrip.GroupMessage

/-!
# Messages for several recipients and back

Every recipient finds its own message among the entries of `encrypt_for_multiple_simple`. The junk
that hides the number of recipients has the size of a message before encryption, and there is none
for empty messages; so the entries are alike exactly where no junk is needed.
-/

namespace Bchat.Messages

open Config Groups Bencode List

variable {messages : List Bytes} {recipients : List Key}
  {random : Nat → (size : Nat) → {b : Bytes // b.length = size}} {na : Sodium}
  {privkey pubkey : Key} {domain : Bytes} {pad size : Nat} {r b : Key} {pairs : List (Key × Bytes)}
  {entries : List Bytes} {p : Key × Bytes}

/-! ## The entries -/

section

variable {nonce : Nonce}

lemma nonceOf_val (nonce : Nonce) : nonceOf nonce.val = .ok nonce := by
  unfold nonceOf
  rw [dif_pos nonce.2.ge]
  congr 1
  apply Subtype.ext
  exact take_of_length_le nonce.2.le

lemma decryptMulti_aeadEncrypt {key : Key} {m : Bytes} (k : Key) :
    decryptMulti na key nonce (na.aeadEncrypt k nonce m) =
      na.aeadDecrypt key nonce (na.aeadEncrypt k nonce m) := by
  refine if_neg ?_
  rw [na.aeadEncrypt_length]
  unfold aeadOverhead
  omega

def addressed (messages : List Bytes) (recipients : List Key) : List (Key × Bytes) :=
  match messages with
  | [m] => recipients.map (·, m)
  | _ => recipients.zip messages

def ownMessage (messages : List Bytes) (recipients : List Key) (r : Key) : Option Bytes :=
  ((addressed messages recipients).find? fun p => p.1 = r).map Prod.snd

def sharedKey (na : Sodium) (privkey pubkey : Key) (domain : Bytes) (r : Key) : Key :=
  na.hash 32 domain (((na.scalarmult privkey r).getD r).val ++ pubkey.val ++ r.val)

def entry (na : Sodium) (nonce : Nonce) (privkey pubkey : Key) (domain : Bytes) (p : Key × Bytes) :
    Bytes :=
  na.aeadEncrypt (sharedKey na privkey pubkey domain p.1) nonce p.2

lemma encryptMultiKey_valid (h : (na.scalarmult privkey r).isSome) :
    encryptMultiKey na privkey pubkey r true domain =
        .ok (sharedKey na privkey pubkey domain r) := by
  obtain ⟨buf, hbuf⟩ := Option.isSome_iff_exists.1 h
  rw [encryptMultiKey, sharedKey, hbuf]
  rfl

lemma encryptMultiKey_recipient (h : (na.scalarmult privkey r).isSome)
    (hagree : na.scalarmult b pubkey = na.scalarmult privkey r) :
    encryptMultiKey na b r pubkey false domain = .ok (sharedKey na privkey pubkey domain r) := by
  obtain ⟨buf, hbuf⟩ := Option.isSome_iff_exists.1 h
  rw [encryptMultiKey, sharedKey, hagree, hbuf]
  rfl

lemma encryptEach_valid (h : ∀ p ∈ pairs, (na.scalarmult privkey p.1).isSome) :
    encryptEach na nonce privkey pubkey domain false pairs =
      .ok (pairs.map (entry na nonce privkey pubkey domain)) := by
  induction pairs with
  | nil => rfl
  | cons p pairs ih =>
    obtain ⟨hr, hpairs⟩ := forall_mem_cons.1 h
    rw [encryptEach, encryptMultiKey_valid hr, ih hpairs]
    rfl

lemma mem_recipients_of_addressed (h : p ∈ addressed messages recipients) : p.1 ∈ recipients := by
  unfold addressed at h
  split at h
  · obtain ⟨r, hr, rfl⟩ := mem_map.1 h
    exact hr
  · exact (of_mem_zip h).1

lemma mem_messages_of_addressed (h : p ∈ addressed messages recipients) : p.2 ∈ messages := by
  unfold addressed at h
  split at h
  · obtain ⟨r, -, rfl⟩ := mem_map.1 h
    exact mem_singleton.2 rfl
  · exact (of_mem_zip h).2

section

variable (hcount : messages.length = 1 ∨ messages.length = recipients.length)

include hcount

lemma map_fst_addressed : (addressed messages recipients).map Prod.fst = recipients := by
  match messages, hcount with
  | [m], _ =>
    change (recipients.map (·, m)).map Prod.fst = recipients
    rw [map_map]
    exact map_id _
  | [], hcount | _ :: _ :: _, hcount => exact map_fst_zip (hcount.resolve_left (by simp)).ge

lemma length_addressed : (addressed messages recipients).length = recipients.length := by
  rw [← length_map (f := Prod.fst), map_fst_addressed hcount]

lemma encryptForMultiple_eq :
    encryptForMultiple na messages recipients nonce.val privkey pubkey domain false =
      encryptEach na nonce privkey pubkey domain false (addressed messages recipients) := by
  rw [encryptForMultiple, nonceOf_val, ok_bind]
  rcases messages with _ | ⟨m, _ | ⟨m', rest⟩⟩
  · exact if_neg (not_not.2 (hcount.resolve_left (by simp)))
  · rfl
  · exact if_neg (not_not.2 (hcount.resolve_left (by simp)))

end

def OpensOwn (na : Sodium) (nonce : Nonce) (privkey pubkey : Key) (domain : Bytes)
    (messages : List Bytes) (recipients : List Key) : Prop :=
  ∀ r ∈ recipients, ∀ r' ∈ recipients, r' ≠ r → ∀ m ∈ messages,
    na.aeadDecrypt (sharedKey na privkey pubkey domain r) nonce
      (entry na nonce privkey pubkey domain (r', m)) = none

lemma openNext_entries (rest : List Bt)
    (hclosed : ∀ p ∈ pairs, p.1 ≠ r → na.aeadDecrypt (sharedKey na privkey pubkey domain r) nonce
      (entry na nonce privkey pubkey domain p) = none)
    (hfind : pairs.find? (fun p => p.1 = r) = some p) (pos : Nat) :
    ∃ count rest', openNext na (sharedKey na privkey pubkey domain r) nonce (fun _ _ => .ok ()) pos
      ((pairs.map (entry na nonce privkey pubkey domain)).map Bt.str ++ rest) =
        .ok ⟨some p.2, count, rest'⟩ := by
  induction pairs generalizing pos with
  | nil => cases hfind
  | cons q pairs ih =>
    obtain ⟨hq, hpairs⟩ := forall_mem_cons.1 hclosed
    rw [map_cons, map_cons, cons_append, openNext, ok_bind]
    rw [entry, decryptMulti_aeadEncrypt]
    by_cases hr : q.1 = r
    · rw [find?_cons_of_pos (by simpa using hr)] at hfind
      cases hfind
      rw [hr, na.aeadDecrypt_encrypt]
      exact ⟨_, _, rfl⟩
    rw [find?_cons_of_neg (by simpa using hr)] at hfind
    rw [← entry, hq hr]
    exact ih hpairs hfind (pos + 1)

lemma decryptForMultipleSimple_encodeSimple {m : Bytes} {count : Nat} {rest : List Bt}
    (hkey : encryptMultiKey na b r pubkey false domain = .ok (sharedKey na privkey pubkey domain r))
    (hopen : openNext na (sharedKey na privkey pubkey domain r) nonce (fun _ _ => .ok ()) 0
      (entries.map Bt.str) = .ok ⟨some m, count, rest⟩) :
    decryptForMultipleSimple na (encodeSimple nonce entries) b r pubkey domain = some m := by
  unfold decryptForMultipleSimple encodeSimple
  rw [readDict_encodeDict]
  dsimp only
  rw [seek_cons_self]
  dsimp only
  rw [if_neg (not_not.2 nonce.2), seek_cons_self]
  dsimp only
  rw [decryptForMultiple, nonceOf_val, ok_bind, hkey, ok_bind, if_neg Bool.false_ne_true, hopen]

lemma exists_ownMessage (hcount : messages.length = 1 ∨ messages.length = recipients.length)
    (hr : r ∈ recipients) :
    ∃ p, (addressed messages recipients).find? (fun p => p.1 = r) = some p := by
  rw [← map_fst_addressed hcount] at hr
  obtain ⟨p, hp, rfl⟩ := mem_map.1 hr
  rw [← Option.isSome_iff_exists, find?_isSome]
  exact ⟨p, hp, by simp⟩

end

/-! ## The junk -/

section

variable {n : Nat}

lemma padSize_eq (hne : messages ≠ []) (hsize : ∀ m ∈ messages, m.length = size) (hpad : 1 < pad) :
    padSize messages pad = toInt32 size := by
  match messages, hne with
  | m :: rest, _ => rw [padSize, if_pos (by exact_mod_cast hpad), hsize m mem_cons_self]

lemma junkEntries_of_dvd (hn : pad ∣ n) (hfits : 0 ≤ padSize messages pad) :
    junkEntries random messages pad n = .ok [] := by
  have hloop : ∀ junk fuel, junkLoop pad junk fuel n = [] := by
    intro junk fuel
    cases fuel with
    | zero => rfl
    | succ fuel => rw [junkLoop, if_neg (not_not.2 (Nat.mod_eq_zero_of_dvd hn))]
  unfold junkEntries
  dsimp only
  split
  · rfl
  · rw [if_neg (Int.not_lt.2 hfits), Int.toNat_natCast, hloop]

lemma junkEntries_of_not_dvd {junk : List Bytes} (hne : messages ≠ [])
    (hsize : ∀ m ∈ messages, m.length = size) (hpad : 1 < pad) (hn : ¬pad ∣ n)
    (h : junkEntries random messages pad n = .ok junk) :
    junk = [] ∨ ∃ c ∈ junk, c.length ≤ size := by
  have hle : (toInt32 size).toNat ≤ size := by
    unfold toInt32
    rw [Int.toNat_le, Int.bmod_def]
    split <;> omega
  unfold junkEntries at h
  dsimp only at h
  rw [padSize_eq hne hsize hpad] at h
  split at h
  · cases h
    exact .inl rfl
  split at h
  · cases h
  cases h
  refine .inr ⟨_, ?_, ((random n (toInt32 size).toNat).2.trans_le hle)⟩
  rw [Int.toNat_natCast]
  obtain ⟨pad, rfl⟩ : ∃ p, pad = p + 1 := ⟨pad - 1, by omega⟩
  rw [junkLoop, if_pos fun h => hn (Nat.dvd_of_mod_eq_zero h)]
  exact mem_cons_self

end

/-! ## The message -/

/-- The call succeeds, the number of entries is a multiple of `pad`, all entries have one length,
and every recipient gets its own message. -/
def PadsAlike (na : Sodium) (drawn : Nonce)
    (random : Nat → (size : Nat) → {b : Bytes // b.length = size}) (messages : List Bytes)
    (recipients : List Key) (privkey pubkey : Key) (domain : Bytes) (nonce : Option Bytes)
    (pad : Nat) : Prop :=
  ∃ n entries, encryptForMultipleSimple na drawn random messages recipients privkey pubkey domain
      nonce pad = .ok (encodeSimple n entries) ∧
    pad ∣ entries.length ∧ (∀ c ∈ entries, ∀ c' ∈ entries, c.length = c'.length) ∧
    ∀ r ∈ recipients, ∀ b, na.scalarmult b pubkey = na.scalarmult privkey r →
      ∃ m, ownMessage messages recipients r = some m ∧
        decryptForMultipleSimple na (encodeSimple n entries) b r pubkey domain = some m

section

variable {drawn n : Nonce} {nonce : Option Bytes}

lemma encodeSimple_inj {n n' : Nonce} {entries' : List Bytes}
    (h : encodeSimple n entries = encodeSimple n' entries') : entries = entries' := by
  have hread := congrArg readDict h
  rw [encodeSimple, encodeSimple, readDict_encodeDict, readDict_encodeDict] at hread
  simp only [Option.some.injEq, Prod.mk.injEq, cons.injEq, Bt.list.injEq, true_and,
    and_true] at hread
  exact map_injective_iff.2 (fun _ _ h => Bt.str.inj h) hread.2

lemma encryptForMultipleSimple_eq (hnonce : simpleNonce drawn nonce = .ok n)
    (hcount : messages.length = 1 ∨ messages.length = recipients.length)
    (hvalid : ∀ r ∈ recipients, (na.scalarmult privkey r).isSome) (pad : Int) :
    encryptForMultipleSimple na drawn random messages recipients privkey pubkey domain nonce pad =
      (junkEntries random messages pad recipients.length).map fun junk => encodeSimple n
        ((addressed messages recipients).map (entry na n privkey pubkey domain) ++ junk) := by
  have hlen : ((addressed messages recipients).map (entry na n privkey pubkey domain)).length =
      recipients.length := by
    rw [length_map, length_addressed hcount]
  unfold encryptForMultipleSimple
  rw [hnonce, ok_bind, encryptForMultiple_eq hcount,
    encryptEach_valid fun p hp => hvalid p.1 (mem_recipients_of_addressed hp), ok_bind, hlen]
  cases junkEntries random messages pad recipients.length <;> rfl

lemma decryptForMultipleSimple_own
    (hcount : messages.length = 1 ∨ messages.length = recipients.length)
    (hvalid : ∀ r ∈ recipients, (na.scalarmult privkey r).isSome)
    (hideal : OpensOwn na n privkey pubkey domain messages recipients) (junk : List Bytes)
    (hr : r ∈ recipients) (hagree : na.scalarmult b pubkey = na.scalarmult privkey r) :
    ∃ m, ownMessage messages recipients r = some m ∧ decryptForMultipleSimple na (encodeSimple n
        ((addressed messages recipients).map (entry na n privkey pubkey domain) ++ junk)) b r pubkey
          domain = some m := by
  obtain ⟨p, hp⟩ := exists_ownMessage hcount hr
  refine ⟨p.2, by rw [ownMessage, hp]; rfl, ?_⟩
  have hclosed : ∀ q ∈ addressed messages recipients, q.1 ≠ r →
      na.aeadDecrypt (sharedKey na privkey pubkey domain r) n
        (entry na n privkey pubkey domain q) = none := fun q hq hne =>
    hideal r hr q.1 (mem_recipients_of_addressed hq) hne q.2 (mem_messages_of_addressed hq)
  obtain ⟨count, rest, hopen⟩ := openNext_entries (junk.map Bt.str) hclosed hp 0
  rw [← map_append] at hopen
  exact decryptForMultipleSimple_encodeSimple (encryptMultiKey_recipient (hvalid r hr) hagree) hopen

lemma length_of_mem_entries (hsize : ∀ m ∈ messages, m.length = size) {c : Bytes}
    (hc : c ∈ (addressed messages recipients).map (entry na n privkey pubkey domain)) :
    c.length = size + aeadOverhead := by
  obtain ⟨p, hp, rfl⟩ := mem_map.1 hc
  rw [entry, na.aeadEncrypt_length, hsize _ (mem_messages_of_addressed hp), aeadOverhead]

/-- **The entries are alike and as many as `pad` asks for exactly where no junk is needed**: where
the number of recipients is a multiple of `pad`, and the size of a message is not negative as an
`int`. The number of entries fits into the `int` that counts them. -/
theorem junk_alike_iff (hnonce : simpleNonce drawn nonce = .ok n) (hne : messages ≠ [])
    (hsize : ∀ m ∈ messages, m.length = size)
    (hcount : messages.length = 1 ∨ messages.length = recipients.length)
    (hvalid : ∀ r ∈ recipients, (na.scalarmult privkey r).isSome)
    (hideal : OpensOwn na n privkey pubkey domain messages recipients) (hpad : 1 < pad)
    (hmany : recipients.length + pad ≤ 2 ^ 31) :
    (∀ msgCount < recipients.length + pad, toInt32 msgCount = msgCount) ∧
    (PadsAlike na drawn random messages recipients privkey pubkey domain nonce pad ↔
      pad ∣ recipients.length ∧ size % 2 ^ 32 < 2 ^ 31) := by
  refine ⟨fun msgCount hlt => ?_, ?_⟩
  · unfold toInt32
    rw [Int.bmod_def]
    split <;> omega
  have hsign : 0 ≤ toInt32 size ↔ size % 2 ^ 32 < 2 ^ 31 := by
    unfold toInt32
    rw [Int.bmod_def]
    split <;> omega
  have hreal : ((addressed messages recipients).map (entry na n privkey pubkey domain)).length =
      recipients.length := by
    rw [length_map, length_addressed hcount]
  have hpadSize := padSize_eq hne hsize hpad
  unfold PadsAlike
  rw [encryptForMultipleSimple_eq hnonce hcount hvalid]
  constructor
  · rintro ⟨n', entries, hok, hdvd, halike, -⟩
    cases hjunk : junkEntries random messages pad recipients.length with
    | error e =>
      rw [hjunk] at hok
      cases hok
    | ok junk =>
      rw [hjunk] at hok
      obtain rfl := encodeSimple_inj (Except.ok.inj hok)
      have hfits : 0 ≤ toInt32 size := by
        by_contra hneg
        unfold junkEntries at hjunk
        dsimp only at hjunk
        rw [hpadSize, if_neg (by omega), if_pos (by omega)] at hjunk
        cases hjunk
      refine ⟨?_, hsign.1 hfits⟩
      by_contra hn
      obtain rfl | ⟨c, hc, hlen⟩ := junkEntries_of_not_dvd hne hsize hpad hn hjunk
      · rw [append_nil, hreal] at hdvd
        exact hn hdvd
      obtain ⟨e, he⟩ : ∃ e, e ∈ (addressed messages recipients).map
          (entry na n privkey pubkey domain) := by
        refine exists_mem_of_length_pos (Nat.pos_of_ne_zero fun h0 => hn ?_)
        rw [← hreal, h0]
        exact dvd_zero pad
      have := halike e (mem_append_left _ he) c (mem_append_right _ hc)
      rw [length_of_mem_entries hsize he, aeadOverhead] at this
      omega
  rintro ⟨hn, hfits⟩
  have hjunk : junkEntries random messages pad recipients.length = .ok [] :=
    junkEntries_of_dvd hn (hpadSize ▸ hsign.2 hfits)
  refine ⟨n, (addressed messages recipients).map (entry na n privkey pubkey domain), ?_, ?_, ?_, ?_⟩
  · rw [hjunk]
    exact congrArg (fun l => Except.ok (encodeSimple n l)) (append_nil _)
  · rwa [hreal]
  · intro c hc c' hc'
    rw [length_of_mem_entries hsize hc, length_of_mem_entries hsize hc']
  intro r hr b hagree
  have := decryptForMultipleSimple_own hcount hvalid hideal [] hr hagree
  rwa [append_nil] at this

end

/-! ## A sample -/

def multiNonce : Nonce := ⟨List.replicate 24 7, by simp⟩

def zeroJunk (_ size : Nat) : {b : Bytes // b.length = size} :=
  ⟨List.replicate size 0, length_zeros size⟩

/-- Two recipients, padded to two. -/
theorem junk_alike_two :
    PadsAlike plainSodium multiNonce zeroJunk [[1]] [groupSampleKey 3, groupSampleKey 4]
        (groupSampleKey 1)
      (groupSampleKey 1) [] none 2 := by
  have hvalid : ∀ r ∈ [groupSampleKey 3, groupSampleKey 4],
      (plainSodium.scalarmult (groupSampleKey 1) r).isSome := fun r _ => rfl
  have hideal : OpensOwn plainSodium multiNonce (groupSampleKey 1) (groupSampleKey 1) [] [[1]]
      [groupSampleKey 3, groupSampleKey 4] := by
    unfold OpensOwn
    decide +kernel
  have hsize : ∀ m ∈ [([1] : Bytes)], m.length = 1 := by decide
  exact (junk_alike_iff rfl (by decide) hsize (.inl rfl) hvalid hideal (by decide)
    (by decide)).2.mpr (by decide)

/-- One recipient, padded to two: a message of one byte gets an entry of 17 bytes and junk of one
byte, and an empty message gets no junk. -/
theorem junk_is_short :
    encryptForMultipleSimple plainSodium multiNonce zeroJunk [[1]] [groupSampleKey 3]
        (groupSampleKey 1)
        (groupSampleKey 1) [] none 2 =
            .ok (encodeSimple multiNonce [1 :: List.replicate 16 3, [0]]) ∧
      encryptForMultipleSimple plainSodium multiNonce zeroJunk [[]] [groupSampleKey 3]
          (groupSampleKey 1)
        (groupSampleKey 1) [] none 2 = .ok (encodeSimple multiNonce [List.replicate 16 3]) := by
  decide +kernel

end Bchat.Messages
