import Bchat.Properties.UrlGrammar

/-!
# Room links and back

A link is the base URL, the room token and the public key, joined by `/` or `/r/` and by
`?public_key=`. `parse_full_url` looks for the separators from the back, so each has to be the last
one of its kind: the text of a key has no question mark, a room token no slash, and a canonical base
URL no `/r/`.
-/

namespace Bchat.Config

open Bencode List

/-! ## The texts of a key -/

section

variable {alphabet : Bytes} {w : Nat}

def IsAlphabet (alphabet : Bytes) (w : Nat) : Prop :=
  ∀ d < 2 ^ w, alphabet.getD d 0 ∈ alphabet ∧ digitValue alphabet (alphabet.getD d 0) = d

lemma length_encodeDigits (alphabet : Bytes) (w : Nat) (b : Bytes) :
    (encodeDigits alphabet w b).length = (8 * b.length + (w - 1)) / w := by
  rw [encodeDigits, length_map, unpackDigits, length_bitDigits]

lemma mem_of_mem_encodeDigits (h : IsAlphabet alphabet w) {b : Bytes} {c : UInt8}
    (hc : c ∈ encodeDigits alphabet w b) : c ∈ alphabet := by
  obtain ⟨d, hd, rfl⟩ := mem_map.1 hc
  exact (h d (bitDigits_lt d hd)).1

lemma map_digitValue_encodeDigits (h : IsAlphabet alphabet w) (b : Bytes) :
    (encodeDigits alphabet w b).map (digitValue alphabet) = unpackDigits w b := by
  rw [encodeDigits, map_map]
  refine (map_congr_left fun d hd => ?_).trans (map_id _)
  exact (h d (bitDigits_lt d hd)).2

lemma packDigits_encodeDigits (h : IsAlphabet alphabet w) (hpos : 0 < w) (hle : w ≤ 8) (b : Bytes) :
    packDigits w ((encodeDigits alphabet w b).map (digitValue alphabet)) = b := by
  rw [map_digitValue_encodeDigits h, packDigits_unpackDigits hpos hle]

end

lemma isAlphabet_hex : IsAlphabet (bytes "0123456789abcdef") 4 := by
  unfold IsAlphabet
  decide +kernel

lemma isAlphabet_base64 : IsAlphabet base64Alphabet 6 := by
  unfold IsAlphabet
  decide +kernel

lemma isAlphabet_base32z : IsAlphabet base32zAlphabet 5 := by
  unfold IsAlphabet
  decide +kernel

/-- The texts a key can be given in: hex and base32z in any letter case, base64 with or without its
padding. -/
inductive IsKeyText (k : Bytes) : Bytes → Prop
  | hex {t : Bytes} (h : t.map lowerCase = toHexText k) : IsKeyText k t
  | base64 : IsKeyText k (toBase64 k)
  | base64Unpadded : IsKeyText k (toBase64Unpadded k)
  | base32z {t : Bytes} (h : t.map lowerCase = toBase32z k) : IsKeyText k t

lemma length_of_map_lowerCase {t s : Bytes} (h : t.map lowerCase = s) : t.length = s.length := by
  rw [← h, length_map]

lemma digits_of_map_lowerCase {alphabet t k : Bytes} {w : Nat} (halpha : IsAlphabet alphabet w)
    (hpos : 0 < w) (hle : w ≤ 8) (h : t.map lowerCase = encodeDigits alphabet w k) :
    t.all (fun c => alphabet.contains (lowerCase c)) = true ∧
      packDigits w (t.map fun c => digitValue alphabet (lowerCase c)) = k := by
  refine ⟨?_, ?_⟩
  · rw [all_eq_true]
    intro c hc
    have hmem : lowerCase c ∈ encodeDigits alphabet w k := h ▸ mem_map_of_mem hc
    simpa using mem_of_mem_encodeDigits halpha hmem
  have hmap : t.map (fun c => digitValue alphabet (lowerCase c)) =
      (t.map lowerCase).map (digitValue alphabet) := by
    rw [map_map]
    rfl
  rw [hmap, h, packDigits_encodeDigits halpha hpos hle]

lemma equals_notMem_base64 (b : Bytes) : ascii '=' ∉ toBase64Unpadded b := fun h =>
  absurd (mem_of_mem_encodeDigits isAlphabet_base64 h) (by decide)

variable {k : Bytes}

section

variable (hk : k.length = 32)

include hk

lemma length_toBase64Unpadded : (toBase64Unpadded k).length = 43 := by
  rw [toBase64Unpadded, length_encodeDigits, hk]

lemma toBase64_eq : toBase64 k = toBase64Unpadded k ++ bytes "=" := by
  rw [toBase64, hk]
  rfl

lemma take_base64 (t : Bytes)
    (ht : t = toBase64Unpadded k ∨ t = toBase64Unpadded k ++ bytes "=") :
    t.take (t.length - base64Padding t) = toBase64Unpadded k := by
  have hlen := length_toBase64Unpadded hk
  obtain rfl | rfl := ht
  · rw [base64Padding, hlen, if_neg (by decide)]
    exact take_of_length_le hlen.le
  have h44 : (toBase64Unpadded k ++ bytes "=").length = 44 := by
    rw [length_append, hlen]
    rfl
  have hone : ¬bytes "==" <:+ toBase64Unpadded k ++ bytes "=" := by
    rintro ⟨x, hx⟩
    have heq : (x ++ bytes "=") ++ bytes "=" = toBase64Unpadded k ++ bytes "=" := by
      rw [append_assoc]
      exact hx
    refine equals_notMem_base64 k ?_
    rw [← append_cancel_right heq]
    exact mem_append_right x (mem_singleton.2 rfl)
  rw [base64Padding, h44, if_pos (by decide), if_neg hone, if_pos (suffix_append _ _)]
  exact take_left' hlen

lemma decodePubkey_base64 {t : Bytes}
    (ht : t = toBase64Unpadded k ∨ t = toBase64Unpadded k ++ bytes "=") :
    decodePubkey .standard t = .ok k := by
  have hlen : t.length = 43 ∨ (t.length = 44 ∧ bytes "=" <:+ t) := by
    obtain rfl | rfl := ht
    · exact Or.inl (length_toBase64Unpadded hk)
    refine Or.inr ⟨?_, suffix_append _ _⟩
    rw [length_append, length_toBase64Unpadded hk]
    rfl
  have htake := take_base64 hk t ht
  have hvalid : Encodings.standard.isBase64 t = true := by
    have hmod : (t.length % 4 != 1) = true := by
      obtain h | h := hlen
      · rw [h]
        rfl
      · rw [h.1]
        rfl
    have hall : (toBase64Unpadded k).all base64Alphabet.contains = true := by
      rw [all_eq_true]
      exact fun c hc => by simpa using mem_of_mem_encodeDigits isAlphabet_base64 hc
    change (_ && (t.take _).all _) = true
    rw [htake, hmod, hall]
    rfl
  have hvalue : Encodings.standard.fromBase64 t = k := by
    change packDigits 6 ((t.take _).map _) = k
    rw [htake]
    exact packDigits_encodeDigits isAlphabet_base64 (by decide) (by decide) k
  unfold decodePubkey
  rw [if_neg (fun h => by omega), if_pos ⟨hlen, hvalid⟩, hvalue]

lemma decodePubkey_keyText {t : Bytes} (ht : IsKeyText k t) : decodePubkey .standard t = .ok k := by
  cases ht with
  | hex h =>
    have hlen : t.length = 64 := by
      rw [length_of_map_lowerCase h, toHexText, length_encodeDigits, hk]
    obtain ⟨hall, hvalue⟩ := digits_of_map_lowerCase isAlphabet_hex (by decide) (by decide) h
    have hvalid : Encodings.standard.isHex t = true := by
      change (t.length % 2 == 0 && _) = true
      rw [hall, hlen]
      rfl
    unfold decodePubkey
    rw [if_pos ⟨hlen, hvalid⟩]
    exact congrArg _ hvalue
  | base64 => exact decodePubkey_base64 hk (Or.inr (toBase64_eq hk))
  | base64Unpadded => exact decodePubkey_base64 hk (Or.inl rfl)
  | base32z h =>
    have hlen : t.length = 52 := by
      rw [length_of_map_lowerCase h, toBase32z, length_encodeDigits, hk]
    obtain ⟨hall, hvalue⟩ := digits_of_map_lowerCase isAlphabet_base32z (by decide) (by decide) h
    have hvalid : Encodings.standard.isBase32z t = true := by
      change (!([1, 3, 6].contains (t.length % 8)) && _) = true
      rw [hall, hlen]
      rfl
    unfold decodePubkey
    rw [if_neg (fun h => by omega), if_neg (fun h => by omega), if_pos ⟨hlen, hvalid⟩]
    exact congrArg _ hvalue

end

lemma question_notMem_keyText {t : Bytes} (ht : IsKeyText k t) : ascii '?' ∉ t := by
  have hlow : lowerCase (ascii '?') = ascii '?' := by decide
  intro hmem
  cases ht with
  | hex h =>
    have hc : ascii '?' ∈ toHexText k := h ▸ hlow ▸ mem_map_of_mem hmem
    exact absurd (mem_of_mem_encodeDigits isAlphabet_hex hc) (by decide)
  | base64 =>
    obtain hmem | hmem := mem_append.1 hmem
    · exact absurd (mem_of_mem_encodeDigits isAlphabet_base64 hmem) (by decide)
    · exact absurd (eq_of_mem_replicate hmem) (by decide)
  | base64Unpadded => exact absurd (mem_of_mem_encodeDigits isAlphabet_base64 hmem) (by decide)
  | base32z h =>
    have hc : ascii '?' ∈ toBase32z k := h ▸ hlow ▸ mem_map_of_mem hmem
    exact absurd (mem_of_mem_encodeDigits isAlphabet_base32z hc) (by decide)

lemma isKeyText_toHexText (k : Bytes) : IsKeyText k (toHexText k) := by
  refine .hex ((map_congr_left fun c hc => ?_).trans (map_id _))
  have hlow : ∀ c ∈ bytes "0123456789abcdef", lowerCase c = c := by decide +kernel
  exact hlow c (mem_of_mem_encodeDigits isAlphabet_hex hc)

/-! ## The room -/

structure ValidRoom (room : Bytes) : Prop where
  nonempty : 1 ≤ room.length
  short : room.length ≤ roomMaxLength
  chars : ∀ c ∈ room, lowerCase c ∈ bytes "-0123456789_abcdefghijklmnopqrstuvwxyz"

variable {base room : Bytes}

lemma slash_notMem_room (h : ValidRoom room) : ascii '/' ∉ room := fun hmem =>
  absurd (h.chars _ hmem) (by decide)

lemma takeRoom_r (h : ValidRoom room) : takeRoom (base ++ bytes "/r/" ++ room) = (room, base) := by
  have hlast : IsLastSplit (bytes "/r/") (base ++ bytes "/r/" ++ room) base room :=
    isLastSplit_of_notMem (bytes "/r") [] (slash_notMem_room h)
  rw [takeRoom, hlast.splitLast_eq]

lemma canonicalUrl_slashes (hbase : canonicalUrl base = .ok base) :
    ∃ name rest, base = name ++ ascii '/' :: ascii '/' :: rest ∧ ascii '/' ∉ name ∧
      ascii '/' ∉ rest ∧ 4 ≤ rest.length := by
  obtain ⟨p, -, hwf, -, -, -, hcanon⟩ := canonicalUrl_iff.1 hbase
  have hslash : ascii '/' ∉ p.host.map lowerCase ++ portSuffix p.portValue := by
    intro hmem
    obtain hmem | hmem := mem_append.1 hmem
    · obtain hc | hc := (isHost_map_lowerCase.2 hwf.host).chars _ hmem
      all_goals exact absurd hc (by decide)
    have hport := isPort_portSuffix hwf
    generalize portSuffix p.portValue = port at hmem hport
    cases hport with
    | absent => cases hmem
    | digits _ hds _ =>
      obtain h | h := mem_cons.1 hmem
      · exact absurd h (by decide)
      · exact absurd (hds _ h) (by decide)
  have hlen : 4 ≤ (p.host.map lowerCase ++ portSuffix p.portValue).length := by
    rw [length_append, length_map]
    exact Nat.le_add_right_of_le hwf.host.long
  have hproto : ∃ name, p.proto = name ++ [ascii '/', ascii '/'] ∧ ascii '/' ∉ name := by
    unfold UrlParts.proto
    split
    · exact ⟨bytes "http:", by decide, by decide⟩
    · exact ⟨bytes "https:", by decide, by decide⟩
  obtain ⟨name, hname, hno⟩ := hproto
  refine ⟨name, _, ?_, hno, hslash, hlen⟩
  rw [hcanon, UrlParts.canonical, hname]
  simp

lemma no_r_separator (hbase : canonicalUrl base = .ok base) (hroom : ValidRoom room) (x y : Bytes) :
    base ++ bytes "/" ++ room ≠ x ++ bytes "/r/" ++ y := by
  intro heq
  obtain ⟨name, rest, rfl, hname, hrest, hlen⟩ := canonicalUrl_slashes hbase
  have hroomSlash := slash_notMem_room hroom
  have htext : name ++ ascii '/' :: ([] ++ ascii '/' :: (rest ++ ascii '/' :: room)) =
      x ++ ascii '/' :: (ascii 'r' :: ascii '/' :: y) := by
    have hr : bytes "/r/" = [ascii '/', ascii 'r', ascii '/'] := rfl
    have hs : bytes "/" = [ascii '/'] := rfl
    rw [hr, hs] at heq
    simpa using heq
  -- the slashes of the link are taken one by one for the first one of the separator
  obtain ⟨-, h⟩ | ⟨x', -, h⟩ := append_cons_eq_append_cons hname htext
  · exact absurd (cons.inj h).1 (by decide)
  obtain ⟨-, h⟩ | ⟨x'', -, h⟩ := append_cons_eq_append_cons not_mem_nil h
  · match rest, hlen with
    | c :: d :: rest, _ =>
      obtain ⟨-, h⟩ := cons.inj h
      obtain ⟨rfl, -⟩ := cons.inj h
      exact hrest (mem_cons_of_mem _ mem_cons_self)
  obtain ⟨-, h⟩ | ⟨w, -, h⟩ := append_cons_eq_append_cons hrest h <;> rw [h] at hroomSlash
  · exact hroomSlash (mem_cons_of_mem _ mem_cons_self)
  · exact hroomSlash (mem_append_right _ mem_cons_self)

lemma takeRoom_slash (hbase : canonicalUrl base = .ok base) (hroom : ValidRoom room) :
    takeRoom (base ++ bytes "/" ++ room) = (room, base) := by
  have hnone : splitLast (bytes "/r/") (base ++ bytes "/" ++ room) = none := by
    cases hs : splitLast (bytes "/r/") (base ++ bytes "/" ++ room) with
    | none => rfl
    | some p => exact absurd (splitLast_eq_some hs).eq (no_r_separator hbase hroom _ _)
  have hlast : IsLastSplit (bytes "/") (base ++ bytes "/" ++ room) base room :=
    isLastSplit_of_notMem [] [] (slash_notMem_room hroom)
  rw [takeRoom, hnone, hlast.splitLast_eq]

/-! ## The link -/

lemma takePubkey_link (hk : k.length = 32) (head : Bytes) {t : Bytes} (ht : IsKeyText k t) :
    takePubkey .standard (head ++ qsPubkey ++ t) = .ok (some k, head) := by
  have hno : ascii '?' ∉ bytes "public_key=" ++ t := by
    intro hmem
    obtain hmem | hmem := mem_append.1 hmem
    · exact absurd hmem (by decide)
    · exact question_notMem_keyText ht hmem
  have hlast : IsLastSplit qsPubkey (head ++ qsPubkey ++ t) head t :=
    isLastSplit_of_notMem [] (bytes "public_key=") hno
  rw [takePubkey, hlast.splitLast_eq]
  dsimp only
  rw [decodePubkey_keyText hk ht]
  rfl

lemma parseFullUrl_link (hk : k.length = 32) (hbase : canonicalUrl base = .ok base) {head t : Bytes}
    (hhead : takeRoom head = (room, base)) (ht : IsKeyText k t) :
    parseFullUrl .standard (head ++ qsPubkey ++ t) = .ok (base, room, k) := by
  unfold parseFullUrl parsePartialUrl
  rw [takePubkey_link hk head ht, ok_bind]
  dsimp only
  rw [hhead]
  rw [hbase]
  rfl

/-- **A room link is read back**: the one `full_url` makes, and one with either separator before the
room and the key in any of its texts. -/
theorem room_url_roundtrip (hbase : canonicalUrl base = .ok base) (hroom : ValidRoom room)
    (hk : k.length = 32) : parseFullUrl .standard (fullUrl base room k) = .ok (base, room, k) ∧
      ∀ t, IsKeyText k t →
        parseFullUrl .standard (base ++ bytes "/" ++ room ++ qsPubkey ++ t) = .ok (base, room, k) ∧
        parseFullUrl .standard (base ++ bytes "/r/" ++ room ++ qsPubkey ++ t) =
          .ok (base, room, k) := by
  have hslash := takeRoom_slash hbase hroom
  exact ⟨parseFullUrl_link hk hbase hslash (isKeyText_toHexText k), fun t ht =>
    ⟨parseFullUrl_link hk hbase hslash ht, parseFullUrl_link hk hbase (takeRoom_r hroom) ht⟩⟩

/-- A room called `r` at a host that starts with one. -/
theorem room_url_roundtrip_r : parseFullUrl .standard (bytes "http://r.io:8080/r/R?public_key=" ++
        toBase64 (List.replicate 32 0xff)) =
      .ok (bytes "http://r.io:8080", bytes "R", List.replicate 32 0xff) := by
  have hbase : canonicalUrl (bytes "http://r.io:8080") = .ok (bytes "http://r.io:8080") := by
    decide +kernel
  have hroom : ValidRoom (bytes "R") :=
    ⟨by decide +kernel, by decide +kernel, by decide +kernel⟩
  exact ((room_url_roundtrip hbase hroom (by decide)).2 _ .base64).2

lemma validRoom_of_canonicalRoom {canonical : Bytes} (h : canonicalRoom room = .ok canonical) :
    ValidRoom room := by
  unfold canonicalRoom at h
  dsimp only at h
  split at h
  · cases h
  next hlen =>
  split at h
  · cases h
  next hne =>
  split at h
  · cases h
  next hall =>
  rw [length_map] at hlen
  refine ⟨length_pos_iff.mpr fun hnil => hne (by rw [hnil]; rfl), by omega, fun c hc => ?_⟩
  simp only [Bool.not_eq_true, Bool.not_eq_false', all_map, all_eq_true] at hall
  simpa using hall c hc

lemma parseFullUrl_canonical {url : Bytes} (h : parseFullUrl .standard url = .ok (base, room, k)) :
    canonicalUrl base = .ok base := by
  obtain ⟨p, hp, h⟩ := bind_eq_ok.mp h
  have hbase : base = p.baseUrl := by
    cases hpk : p.pubkey <;> rw [hpk] at h <;> cases h
    rfl
  obtain ⟨q, -, hp⟩ := bind_eq_ok.mp hp
  obtain ⟨b, hb, hp⟩ := bind_eq_ok.mp hp
  cases hp
  rw [hbase]
  exact canonicalUrl_canonical hb

/-- **A community set by any link is set again by its own full URL**, whatever was there before. -/
theorem setFullUrl_fullUrl {c c' : Community} {url : Bytes}
    (h : c.setFullUrl .standard url = .ok c')
    (hk : c'.pubkey.length = 32) (other : Community) : other.setFullUrl .standard
      (fullUrl c'.baseUrl (c'.localizedRoom.getD c'.room) c'.pubkey) = .ok c' := by
  obtain ⟨⟨base, room, pubkey⟩, hparse, h⟩ := bind_eq_ok.mp h
  obtain ⟨c1, hset, h⟩ := bind_eq_ok.mp h
  obtain ⟨canonical, hroom, hset⟩ := bind_eq_ok.mp hset
  cases hset
  cases h
  have hbase := parseFullUrl_canonical hparse
  have hlink := parseFullUrl_link hk hbase
    (takeRoom_slash hbase (validRoom_of_canonicalRoom hroom)) (isKeyText_toHexText pubkey)
  exact bind_eq_ok.mpr ⟨(base, room, pubkey), hlink,
    bind_eq_ok.mpr ⟨_, bind_eq_ok.mpr ⟨canonical, hroom, rfl⟩, rfl⟩⟩

theorem setFullUrl_fullUrl_r : (⟨[], [], none, []⟩ : Community).setFullUrl .standard
      (bytes "http://r.io:8080/R?public_key=" ++ toHexText (List.replicate 32 0xff)) =
    .ok ⟨bytes "http://r.io:8080", bytes "r", some (bytes "R"), List.replicate 32 0xff⟩ := by
  have h : (⟨[], [], none, []⟩ : Community).setFullUrl .standard
      (bytes "HTTP://R.io:8080/r/R?public_key=" ++ toBase64 (List.replicate 32 0xff)) =
    .ok ⟨bytes "http://r.io:8080", bytes "r", some (bytes "R"), List.replicate 32 0xff⟩ := by
    decide +kernel
  exact setFullUrl_fullUrl h (by decide) _

end Bchat.Config
