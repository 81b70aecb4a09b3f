import Bchat.Config.Community

/-!
# Community URLs and the buffers of a C caller

`community_parse_full_url` and `community_parse_partial_url` copy the pieces of a link into buffers
of fixed size and rely on the parser for the lengths. The parser bounds the base URL. It does not
bound the room token, which only `community::set_room` does, and a public key in base64 with two
padding characters has 31 bytes.
-/

namespace Bchat.Config

variable {enc : Encodings} {url : Bytes}
variable {base pk head room : Bytes} {u : PartialUrl}

/-! ## The pieces -/

lemma length_canonicalUrl (h : canonicalUrl url = .ok base) : base.length ≤ baseUrlMaxLength := by
  obtain ⟨parsed, -, h⟩ := bind_eq_ok.1 h
  dsimp only at h
  split at h
  · cases h
  split at h
  · cases h
  next hlen =>
    cases h
    exact Nat.le_of_not_lt hlen

lemma base64Padding_of_44 (h44 : pk.length = 44) (hend : bytes "=" <:+ pk) :
    base64Padding pk = if bytes "==" <:+ pk then 2 else 1 := by
  rw [base64Padding, if_pos (by rw [h44]), if_pos hend]

lemma length_decodePubkey_iff {key : Bytes} (h : decodePubkey enc pk = .ok key) :
    key.length = 32 ↔ ¬(pk.length = 44 ∧ bytes "==" <:+ pk) := by
  unfold decodePubkey at h
  split at h
  next hhex =>
    cases h
    rw [enc.length_fromHex _ hhex.2, hhex.1]
    exact iff_of_true rfl fun h => absurd h.1 (by decide)
  split at h
  next hb64 =>
    cases h
    rw [enc.length_fromBase64 _ hb64.2]
    obtain h43 | ⟨h44, hend⟩ := hb64.1
    · rw [base64Padding, h43, if_neg (by decide)]
      exact iff_of_true rfl fun h => absurd h.1 (by decide)
    rw [base64Padding_of_44 h44 hend, h44]
    by_cases htwo : bytes "==" <:+ pk
    · rw [if_pos htwo]
      exact iff_of_false (by decide) fun h => h ⟨rfl, htwo⟩
    · rw [if_neg htwo]
      exact iff_of_true (by decide) fun h => htwo h.2
  split at h
  next hb32z =>
    cases h
    rw [enc.length_fromBase32z _ hb32z.2, hb32z.1]
    exact iff_of_true rfl fun h => absurd h.1 (by decide)
  · cases h

/-! ## The text of a link -/

/-- What stands before the public key of a link, or the whole link if it has none. -/
def IsKeyless (url head : Bytes) : Prop :=
  (∃ pk, IsLastSplit qsPubkey url head pk) ∨ (head = url ∧ ∀ b r, url ≠ b ++ qsPubkey ++ r)

def IsRoomToken (head room : Bytes) : Prop :=
  (∃ b, IsLastSplit (bytes "/r/") head b room) ∨
    ((∀ b r, head ≠ b ++ bytes "/r/" ++ r) ∧ ∃ b, IsLastSplit (bytes "/") head b room)

lemma takePubkey_spec {key : Option Bytes} (h : takePubkey enc url = .ok (key, head)) :
    (∃ pk k, IsLastSplit qsPubkey url head pk ∧ decodePubkey enc pk = .ok k ∧ key = some k) ∨
      (key = none ∧ head = url ∧ ∀ b r, url ≠ b ++ qsPubkey ++ r) := by
  unfold takePubkey at h
  split at h
  next before pk hsplit =>
    cases hk : decodePubkey enc pk with
    | error e => rw [hk] at h; cases h
    | ok k =>
      rw [hk] at h
      cases h
      exact .inl ⟨pk, k, splitLast_eq_some hsplit, hk, rfl⟩
  next hnone =>
    cases h
    exact .inr ⟨rfl, rfl, splitLast_eq_none hnone⟩

lemma takeRoom_spec (head : Bytes) : IsRoomToken head (takeRoom head).1 ∨
      ((takeRoom head).1 = [] ∧ ∀ room, ¬IsRoomToken head room) := by
  unfold takeRoom
  split
  next b room hr => exact .inl (.inl ⟨b, splitLast_eq_some hr⟩)
  next hr =>
    have hno := splitLast_eq_none hr
    split
    next b room hslash => exact .inl (.inr ⟨hno, b, splitLast_eq_some hslash⟩)
    next hslash =>
      refine .inr ⟨rfl, fun room => ?_⟩
      rintro (⟨b, hb⟩ | ⟨-, b, hb⟩)
      · exact hno b room hb.eq
      · exact splitLast_eq_none hslash b room hb.eq

lemma IsRoomToken.unique {room' : Bytes} (h : IsRoomToken head room) (h' : IsRoomToken head room') :
    room = room' := by
  obtain ⟨b, hb⟩ | ⟨hno, b, hb⟩ := h <;> obtain ⟨b', hb'⟩ | ⟨hno', b', hb'⟩ := h'
  · exact (hb.unique hb').2
  · exact absurd hb.eq (hno' b room)
  · exact absurd hb'.eq (hno b' room')
  · exact (hb.unique hb').2

lemma length_takeRoom_iff (head : Bytes) (n : Nat) :
    (takeRoom head).1.length ≤ n ↔ ∀ room, IsRoomToken head room → room.length ≤ n := by
  obtain htok | ⟨hnil, hno⟩ := takeRoom_spec head
  · exact ⟨fun h room hroom => hroom.unique htok ▸ h, fun h => h _ htok⟩
  · rw [hnil]
    exact iff_of_true (Nat.zero_le _) fun room hroom => absurd hroom (hno room)

/-! ## The buffers -/

/-- The lengths the C functions rely on. -/
structure PartialUrl.Fits (u : PartialUrl) : Prop where
  baseUrl : u.baseUrl.length ≤ baseUrlMaxLength
  roomToken : u.roomToken.length ≤ roomMaxLength
  pubkey : ∀ pk ∈ u.pubkey, pk.length = 32

/-- Every call on a link goes well: what the parsers return has the lengths, no assertion of the C
functions fails, and with or without assertions every copy stays in its buffer. -/
structure FitsBuffers (enc : Encodings) (url : Bytes) : Prop where
  parsePartial : ∀ u, parsePartialUrl enc url = .ok u → u.Fits
  parseFull : ∀ base room pk, parseFullUrl enc url = .ok (base, room, pk) →
    base.length ≤ baseUrlMaxLength ∧ room.length ≤ roomMaxLength ∧ pk.length = 32
  assertsPartial : ∀ wantsPubkey wantsFlag,
    communityParsePartialUrl enc true wantsPubkey wantsFlag url ≠ .error .assertion
  assertsFull : communityParseFullUrl enc true url ≠ .error .assertion
  copiesPartial : ∀ asserts wantsPubkey wantsFlag c,
    communityParsePartialUrl enc asserts wantsPubkey wantsFlag url = .ok (some c) → c.InBounds
  copiesFull : ∀ asserts c, communityParseFullUrl enc asserts url = .ok (some c) → c.InBounds

lemma assertThat_of {p : Prop} [Decidable p] (asserts : Bool) (h : p) :
    assertThat asserts p = .ok () := if_neg fun hn => hn.2 h

lemma parseFullUrl_inv (h : parseFullUrl enc url = .ok (base, room, pk)) :
    parsePartialUrl enc url = .ok ⟨base, room, some pk⟩ := by
  obtain ⟨u, hu, h⟩ := bind_eq_ok.1 h
  split at h
  next k hk =>
    cases h
    rw [hu, ← hk]
  · cases h

lemma communityParsePartialUrl_of_fits (hu : parsePartialUrl enc url = .ok u) (hfits : u.Fits)
    (asserts wantsPubkey wantsFlag : Bool) :
    communityParsePartialUrl enc asserts wantsPubkey wantsFlag url =
      .ok (some ⟨u.baseUrl ++ [0], u.roomToken ++ [0], if wantsPubkey then u.pubkey else none,
        if wantsFlag then some u.pubkey.isSome else none⟩) := by
  unfold communityParsePartialUrl
  rw [hu]
  dsimp only
  rw [assertThat_of asserts hfits.baseUrl, assertThat_of asserts hfits.roomToken,
    assertThat_of asserts hfits.pubkey]
  rfl

lemma communityParseFullUrl_of_fits (hu : parseFullUrl enc url = .ok (base, room, pk))
    (hfits : (PartialUrl.mk base room (some pk)).Fits) (asserts : Bool) :
    communityParseFullUrl enc asserts url =
      .ok (some ⟨base ++ [0], room ++ [0], some pk, none⟩) := by
  unfold communityParseFullUrl
  rw [hu]
  dsimp only
  rw [assertThat_of asserts hfits.baseUrl, assertThat_of asserts hfits.roomToken,
    assertThat_of asserts (hfits.pubkey pk rfl)]
  rfl

lemma PartialUrl.Fits.inBounds (h : u.Fits) (wantsPubkey : Bool) (flag : Option Bool) :
    UrlCopies.InBounds ⟨u.baseUrl ++ [0], u.roomToken ++ [0],
      if wantsPubkey then u.pubkey else none, flag⟩ where
  baseUrl := by simpa using h.baseUrl
  roomToken := by simpa using h.roomToken
  pubkey := by
    cases wantsPubkey with
    | false => simp
    | true => exact fun pk hpk => (h.pubkey pk hpk).le

lemma fitsBuffers_iff : FitsBuffers enc url ↔ ∀ u, parsePartialUrl enc url = .ok u → u.Fits := by
  refine ⟨fun h => h.parsePartial, fun h => ⟨h, ?_, ?_, ?_, ?_, ?_⟩⟩
  · intro base room pk hfull
    have hfits := h _ (parseFullUrl_inv hfull)
    exact ⟨hfits.baseUrl, hfits.roomToken, hfits.pubkey pk rfl⟩
  · cases hu : parsePartialUrl enc url with
    | error e => simp [communityParsePartialUrl, hu]
    | ok u => simp [communityParsePartialUrl_of_fits hu (h u hu)]
  · cases hu : parseFullUrl enc url with
    | error e => simp [communityParseFullUrl, hu]
    | ok r => simp [communityParseFullUrl_of_fits hu (h _ (parseFullUrl_inv hu))]
  · intro asserts wantsPubkey wantsFlag c hc
    cases hu : parsePartialUrl enc url with
    | error e => simp [communityParsePartialUrl, hu] at hc
    | ok u =>
      rw [communityParsePartialUrl_of_fits hu (h u hu)] at hc
      cases hc
      exact (h u hu).inBounds wantsPubkey _
  intro asserts c hc
  cases hu : parseFullUrl enc url with
  | error e => simp [communityParseFullUrl, hu] at hc
  | ok r =>
    have hfits := h _ (parseFullUrl_inv hu)
    rw [communityParseFullUrl_of_fits hu hfits] at hc
    cases hc
    exact hfits.inBounds true none

/-- The room token has at most 64 bytes, and the public key is not written in base64 with two
padding characters. -/
structure LinkFits (url : Bytes) : Prop where
  room : ∀ head room, IsKeyless url head → IsRoomToken head room → room.length ≤ roomMaxLength
  pubkey : ∀ head pk, IsLastSplit qsPubkey url head pk → ¬(pk.length = 44 ∧ bytes "==" <:+ pk)

lemma parsePartialUrl_inv (h : parsePartialUrl enc url = .ok u) :
    ∃ head, takePubkey enc url = .ok (u.pubkey, head) ∧ u.roomToken = (takeRoom head).1 ∧
      canonicalUrl (takeRoom head).2 = .ok u.baseUrl := by
  obtain ⟨⟨key, head⟩, hkey, h⟩ := bind_eq_ok.1 h
  obtain ⟨base, hbase, h⟩ := bind_eq_ok.1 h
  cases h
  exact ⟨head, hkey, rfl, hbase⟩

lemma IsKeyless.unique {head' : Bytes} (h : IsKeyless url head) (h' : IsKeyless url head') :
    head = head' := by
  obtain ⟨pk, hpk⟩ | ⟨rfl, hno⟩ := h <;> obtain ⟨pk', hpk'⟩ | ⟨rfl, hno'⟩ := h'
  · exact (hpk.unique hpk').1
  · exact absurd hpk.eq (hno' head pk)
  · exact absurd hpk'.eq (hno head' pk')
  · rfl

lemma fits_iff_linkFits (h : parsePartialUrl enc url = .ok u) : u.Fits ↔ LinkFits url := by
  obtain ⟨head, hkey, hroom, hbase⟩ := parsePartialUrl_inv h
  have hless : IsKeyless url head := by
    obtain ⟨pk, k, hpk, -, -⟩ | ⟨-, hhead, hno⟩ := takePubkey_spec hkey
    · exact .inl ⟨pk, hpk⟩
    · exact .inr ⟨hhead, hno⟩
  have hroomIff : u.roomToken.length ≤ roomMaxLength ↔
      ∀ head room, IsKeyless url head → IsRoomToken head room → room.length ≤ roomMaxLength := by
    rw [hroom, length_takeRoom_iff]
    exact ⟨fun h head' room hhead' => hless.unique hhead' ▸ h room, fun h room => h head room hless⟩
  have hkeyIff : (∀ pk ∈ u.pubkey, pk.length = 32) ↔
      ∀ head pk, IsLastSplit qsPubkey url head pk → ¬(pk.length = 44 ∧ bytes "==" <:+ pk) := by
    obtain ⟨pk, k, hpk, hk, hu⟩ | ⟨hu, -, hno⟩ := takePubkey_spec hkey
    · rw [hu]
      have hiff := length_decodePubkey_iff hk
      refine ⟨fun h head' pk' hpk' => ?_, fun h k' hk' => ?_⟩
      · obtain ⟨-, rfl⟩ := hpk.unique hpk'
        exact hiff.1 (h k rfl)
      · cases hk'
        exact hiff.2 (h head pk hpk)
    · rw [hu]
      exact iff_of_true (fun _ h => nomatch h) fun head' pk' hpk' => absurd hpk'.eq (hno head' pk')
  exact ⟨fun h => ⟨hroomIff.1 h.roomToken, hkeyIff.1 h.pubkey⟩,
    fun h => ⟨length_canonicalUrl hbase, hroomIff.2 h.room, hkeyIff.2 h.pubkey⟩⟩

/-- **The pieces of an accepted link fit the caller's buffers exactly if its text keeps to the
limits.** -/
theorem url_fits_buffers_iff {u : PartialUrl} (h : parsePartialUrl enc url = .ok u) :
    FitsBuffers enc url ↔ LinkFits url := by
  rw [fitsBuffers_iff, ← fits_iff_linkFits h]
  refine ⟨fun hall => hall u h, fun hu u' hu' => ?_⟩
  cases h.symm.trans hu'
  exact hu

/-- A link of the repository's tests, with the protocol's own port and a key in base64. -/
def sampleLink : Bytes :=
  bytes "HTTP://EXAMPLE.com:80/r/someroom?public_key=ASNFZ4mrze8BI0VniavN7wEjRWeJq83vASNFZ4mrze8"

def sampleUrl : PartialUrl :=
  ⟨bytes "http://example.com", bytes "someroom",
    some (hexBytes "0123456789abcdef0123456789abcdef0123456789abcdef0123456789abcdef")⟩

lemma parsePartialUrl_sampleLink : parsePartialUrl .standard sampleLink = .ok sampleUrl := by
  decide +kernel

lemma sampleUrl_fits : sampleUrl.Fits := by
  refine ⟨by decide +kernel, by decide +kernel, fun pk hpk => ?_⟩
  cases hpk
  decide +kernel

theorem url_fits_buffers_sampleLink :
    parsePartialUrl .standard sampleLink = .ok sampleUrl ∧ FitsBuffers .standard sampleLink :=
  ⟨parsePartialUrl_sampleLink, (url_fits_buffers_iff parsePartialUrl_sampleLink).2
    ((fits_iff_linkFits parsePartialUrl_sampleLink).1 sampleUrl_fits)⟩

def longRoomLink : Bytes :=
  bytes "https://example.com/r/" ++ List.replicate 65 (ascii 'a') ++ qsPubkey ++
    bytes "0123456789abcdef0123456789abcdef0123456789abcdef0123456789abcdef"

/-- A link with a key of 42 base64 digits and two padding characters. -/
def shortKeyLink : Bytes :=
  bytes "https://example.com/r/someroom" ++ qsPubkey ++ List.replicate 42 (ascii 'A') ++ bytes "=="

/-- **A long room token and a short key get through.** With assertions the call aborts; without them
the first link writes 66 bytes into a buffer of 65 and the second leaves the last byte of the key
unwritten. -/
theorem long_room_overruns : communityParseFullUrl .standard true longRoomLink = .error .assertion ∧
      communityParseFullUrl .standard false longRoomLink = .ok (some
        ⟨bytes "https://example.com" ++ [0], List.replicate 65 (ascii 'a') ++ [0],
          some (hexBytes "0123456789abcdef0123456789abcdef0123456789abcdef0123456789abcdef"),
          none⟩) ∧ ¬FitsBuffers .standard longRoomLink ∧
      communityParseFullUrl .standard true shortKeyLink = .error .assertion ∧
      communityParseFullUrl .standard false shortKeyLink = .ok (some
        ⟨bytes "https://example.com" ++ [0], bytes "someroom" ++ [0],
          some (List.replicate 31 0), none⟩) ∧ ¬FitsBuffers .standard shortKeyLink := by
  have hroom : communityParseFullUrl .standard true longRoomLink = .error .assertion := by
    decide +kernel
  have hkey : communityParseFullUrl .standard true shortKeyLink = .error .assertion := by
    decide +kernel
  exact ⟨hroom, by decide +kernel, fun h => h.assertsFull hroom, hkey, by decide +kernel,
    fun h => h.assertsFull hkey⟩

end Bchat.Config
