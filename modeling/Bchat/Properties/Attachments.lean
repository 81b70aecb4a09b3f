import Bchat.Properties.Decryptors

/-!
# When the decryptors of attachments agree
-/

namespace Bchat.Attachments

open Config Chunks List Nat

variable {ss : SecretStream}
variable {rest data m w : Bytes} {st : ss.State} {p : Bytes × UInt8} {ms : List (Bytes × UInt8)}
  {outSize : Nat} {tag : UInt8} {pieces : List Bytes}

/-! ## The whole attachment at once -/

lemma take_nextChunk (h : encryptChunkOverhead < rest.length) :
    rest.take (nextChunk rest) = rest.take encryptedChunkTotal ∧
      rest.drop (nextChunk rest) = rest.drop encryptedChunkTotal := by
  unfold nextChunk encryptedChunkTotal
  unfold encryptChunkOverhead encryptChunkSize at *
  by_cases hle : rest.length ≤ 32768 + 17
  · rw [show min (rest.length - 17) 32768 + 17 = rest.length by omega, take_length,
      drop_length, take_of_length_le hle, drop_of_length_le hle]
    exact ⟨rfl, rfl⟩
  · rw [show min (rest.length - 17) 32768 + 17 = 32768 + 17 by omega]
    exact ⟨rfl, rfl⟩

lemma pull_nextChunk (h : pullAll ss st (chunks encryptedChunkTotal rest) = some (p :: ms))
    (hp : p.1 ≠ []) :
    encryptChunkOverhead < rest.length ∧ nextChunk rest = p.1.length + encryptChunkOverhead ∧
      ∃ st', ss.pull st (rest.take (nextChunk rest)) = some (p.1, p.2, st') ∧
        pullAll ss st' (chunks encryptedChunkTotal (rest.drop (nextChunk rest))) = some ms := by
  have hrest : rest ≠ [] := by
    rintro rfl
    rw [chunks_nil] at h
    cases h
  rw [chunks_cons encryptedChunkTotal_pos hrest] at h
  obtain ⟨m, tag, st', ms', hpull, hms', heq⟩ := pullAll_cons h
  cases heq
  have hlen := ss.pull_length _ _ _ _ _ hpull
  have hpos : 0 < m.length := length_pos_of_ne_nil hp
  have hlong : encryptChunkOverhead < rest.length := by
    rw [length_take] at hlen
    unfold encryptChunkOverhead
    omega
  obtain ⟨htake, hdrop⟩ := take_nextChunk hlong
  refine ⟨hlong, ?_, st', by rw [htake]; exact hpull, by rw [hdrop]; exact hms'⟩
  have hle : nextChunk rest ≤ rest.length := by
    unfold nextChunk
    omega
  rw [← length_take_of_le hle, htake]
  exact hlen

lemma checkTag_of_finalLast (h : FinalLast (p :: ms))
    (hms : pullAll ss st (chunks encryptedChunkTotal rest) = some ms) :
    checkTag p.2 rest = .ok (decide (ms = [])) ∧ (ms ≠ [] → FinalLast ms) := by
  by_cases hnil : ms = []
  · subst hnil
    have hrest : rest = [] :=
      (chunks_eq_nil_iff encryptedChunkTotal_pos).mp (pullAll_nil_iff.mp hms)
    have htag : p.2 = tagFinal := h
    exact ⟨by simp [checkTag, htag, hrest], fun hne => absurd rfl hne⟩
  obtain ⟨htag, hlast⟩ := (finalLast_cons hnil).mp h
  have hrest : rest ≠ [] := by
    rintro rfl
    rw [chunks_nil] at hms
    cases hms
    exact hnil rfl
  exact ⟨by simp [checkTag, htag, hrest, hnil], fun _ => hlast⟩

lemma decryptData_of_pullAll {dec : Bytes}
    (hpull : pullAll ss st (chunks encryptedChunkTotal rest) = some ms) (hfinal : FinalLast ms)
    (hne : ∀ p ∈ ms, p.1 ≠ []) (hsize : dec.length + (plainOf ms).length ≤ outSize) :
    decryptData outSize (⟨dec, st, rest, false⟩ : Depadded ss) = .ok (dec ++ plainOf ms) := by
  induction ms generalizing st rest dec with
  | nil => exact hfinal.elim
  | cons p ms ih =>
    obtain ⟨hp, hne⟩ := forall_mem_cons.mp hne
    obtain ⟨hlong, hnext, st', hm, hms⟩ := pull_nextChunk hpull hp
    obtain ⟨htag, hlast⟩ := checkTag_of_finalLast hfinal hms
    rw [plainOf_cons, length_append] at hsize
    have hroom : ¬outSize < dec.length + (nextChunk rest - encryptChunkOverhead) := by
      omega
    rw [decryptData, if_neg (by simp), dif_neg (not_le.mpr hlong), if_neg hroom, hm]
    dsimp only
    rw [htag]
    dsimp only
    by_cases hnil : ms = []
    · subst hnil
      rw [decryptData, if_pos (by simp)]
      simp
    rw [decide_eq_false hnil, ih hms (hlast hnil) hne (by rw [length_append]; omega), append_assoc]
    rfl

lemma discardPadding_of_pullAll
    (hpull : pullAll ss st (chunks encryptedChunkTotal rest) = some ms) (hfinal : FinalLast ms)
    (hne : ∀ p ∈ ms, p.1 ≠ []) (hstrip : Strips false (plainOf ms) data) :
    ∃ initData tag st' rest' ms', discardPadding st rest = .ok (initData, tag, st', rest') ∧
      pullAll ss st' (chunks encryptedChunkTotal rest') = some ms' ∧ (∀ p ∈ ms', p.1 ≠ []) ∧
      checkTag tag rest' = .ok (decide (ms' = [])) ∧ (ms' ≠ [] → FinalLast ms') ∧
      data = initData ++ plainOf ms' ∧ rest'.length ≤ rest.length := by
  induction ms generalizing st rest with
  | nil => exact hfinal.elim
  | cons p ms ih =>
    obtain ⟨hp, hne⟩ := forall_mem_cons.mp hne
    obtain ⟨hlong, -, st', hm, hms⟩ := pull_nextChunk hpull hp
    obtain ⟨htag, hlast⟩ := checkTag_of_finalLast hfinal hms
    rw [discardPadding, dif_neg (not_le.mpr hlong), hm]
    dsimp only
    rcases strips_append hstrip with ⟨hzero, hstrip'⟩ | ⟨x, hone, rfl⟩
    · rw [padEnd, hzero]
      have hnil : ms ≠ [] := by
        rintro rfl
        obtain ⟨n, hn⟩ := hstrip'
        simp at hn
      obtain ⟨initData, tag, st'', rest'', ms', hdiscard, hrest⟩ := ih hms (hlast hnil) hne hstrip'
      obtain ⟨h1, h2, h3, h4, h5, hle⟩ := hrest
      refine ⟨initData, tag, st'', rest'', ms', hdiscard, h1, h2, h3, h4, h5, hle.trans ?_⟩
      rw [length_drop]
      omega
    rw [padEnd, hone]
    refine ⟨x, p.2, st', _, ms, rfl, hms, hne, htag, hlast, rfl, ?_⟩
    rw [length_drop]
    omega

lemma finalSize_eq (h : pullAll ss st (chunks encryptedChunkTotal rest) = some ms)
    (initData : Bytes) (hsize : initData.length + (plainOf ms).length < 2 ^ 64) :
    finalSize initData rest = initData.length + (plainOf ms).length := by
  obtain ⟨hcount, hlen⟩ := length_pullAll h
  rw [flatten_chunks encryptedChunkTotal_pos] at hlen
  rw [length_chunks encryptedChunkTotal_pos] at hcount
  unfold finalSize sizeSub chunkCount
  rw [← hcount, hlen]
  unfold encryptChunkOverhead
  rw [show initData.length + ((plainOf ms).length + 17 * ms.length) + 2 ^ 64 - ms.length * 17 =
    initData.length + (plainOf ms).length + 2 ^ 64 by omega, add_mod_right,
    mod_eq_of_lt hsize]

/-- **The two loops of `decrypt` return the data behind the padding.** -/
lemma decryptPadding_of_pullAll
    (hpull : pullAll ss st (chunks encryptedChunkTotal rest) = some ms) (hfinal : FinalLast ms)
    (hne : ∀ p ∈ ms, p.1 ≠ []) (hstrip : Strips false (plainOf ms) data)
    (hsize : data.length ≤ outSize) (hmem : data.length < 2 ^ 64) :
    (decryptPadding outSize st rest >>= decryptData outSize) = .ok data := by
  obtain ⟨initData, tag, st', rest', ms', hdiscard, hpull', hne', htag, hlast, rfl, -⟩ :=
    discardPadding_of_pullAll hpull hfinal hne hstrip
  rw [length_append] at hsize hmem
  rw [decryptPadding, hdiscard, ok_bind]
  dsimp only
  rw [finalSize_eq hpull' initData hmem, if_neg (by omega), if_neg (by omega), htag, ok_bind,
      ok_bind]
  by_cases hnil : ms' = []
  · subst hnil
    rw [decryptData, if_pos (by simp)]
    simp
  · rw [decide_eq_false hnil]
    exact decryptData_of_pullAll hpull' (hlast hnil) hne' hsize

lemma decryptInto_eq {header : StreamHeader} {body : Bytes} {key : Key} {maxSize : Nat}
    (hcheck : checkEncrypted (ascii 'S' :: (header.val ++ body)) = .ok maxSize)
    (hout : maxSize ≤ outSize) : decryptInto ss (ascii 'S' :: (header.val ++ body)) key outSize =
      decryptPadding outSize (ss.init header key) body >>= decryptData outSize := by
  have hlong : ¬(ascii 'S' :: (header.val ++ body)).length < 1 + encryptHeader := by
    unfold encryptHeader
    simp [header.2]
  have hheader : (⟨((ascii 'S' :: (header.val ++ body)).drop 1).take 24, by
      simp [header.2]⟩ : StreamHeader) = header :=
    Subtype.ext (take_left' header.2)
  have hbody : (ascii 'S' :: (header.val ++ body)).drop (1 + encryptHeader) = body := by
    unfold encryptHeader
    rw [add_comm, drop_succ_cons, drop_left' header.2]
  rw [decryptInto, hcheck, ok_bind, if_neg (not_lt.mpr hout), dif_neg hlong, hheader, hbody]

/-! ### What success says -/

lemma pullAll_nextChunk {st' : ss.State} (hlong : encryptChunkOverhead < rest.length)
    (hpull : ss.pull st (rest.take (nextChunk rest)) = some (m, tag, st'))
    (hms : pullAll ss st' (chunks encryptedChunkTotal (rest.drop (nextChunk rest))) = some ms) :
    pullAll ss st (chunks encryptedChunkTotal rest) = some ((m, tag) :: ms) ∧ m ≠ [] := by
  have hrest : rest ≠ [] := by
    rintro rfl
    exact absurd hlong (not_lt_zero _)
  have hlen := ss.pull_length _ _ _ _ _ hpull
  obtain ⟨htake, hdrop⟩ := take_nextChunk hlong
  constructor
  · rw [chunks_cons encryptedChunkTotal_pos hrest]
    rw [htake] at hpull
    rw [hdrop] at hms
    exact pullAll_of_pull hpull hms
  rintro rfl
  unfold nextChunk at hlen
  unfold encryptChunkOverhead encryptChunkSize at *
  simp at hlen
  omega

lemma rest_eq_nil_of_checkTag (h : checkTag tag rest = .ok true) : rest = [] := by
  unfold checkTag at h
  split at h
  · split at h
    · cases h
    · next hrest => exact not_not.mp hrest
  · split at h <;> cases h

lemma eq_replicate_of_dropWhile {x : Bytes} (h : m.dropWhile (· == 0) = x) :
    m = List.replicate (m.takeWhile (· == 0)).length 0 ++ x := by
  have hzero : m.takeWhile (· == 0) = replicate (m.takeWhile (· == 0)).length 0 :=
    eq_replicate_of_mem (fun b hb => by simpa using mem_takeWhile_imp hb)
  calc m = m.takeWhile (· == 0) ++ m.dropWhile (· == 0) := (takeWhile_append_dropWhile).symm
    _ = _ := by rw [h, ← hzero]

lemma strips_of_padEnd_none (h : padEnd m = .ok none) (hrest : Strips false rest data) :
    Strips false (m ++ rest) data := by
  have hzero : m.dropWhile (· == 0) = [] := by
    unfold padEnd at h
    split at h
    · next hzero => exact hzero
    · split at h <;> cases h
  obtain ⟨n, rfl⟩ := hrest
  have hm := eq_replicate_of_dropWhile hzero
  rw [append_nil] at hm
  refine ⟨(m.takeWhile (· == 0)).length + n, ?_⟩
  rw [replicate_add, append_assoc, ← hm]

lemma strips_of_padEnd_some {x : Bytes} (h : padEnd m = .ok (some x)) (rest : Bytes) :
    Strips false (m ++ rest) (x ++ rest) := by
  have hone : m.dropWhile (· == 0) = 1 :: x := by
    unfold padEnd at h
    split at h
    · cases h
    rename_i c data hone
    split at h
    · cases h
    rename_i hc
    cases h
    rw [hone, not_not.mp hc]
  refine ⟨(m.takeWhile (· == 0)).length, ?_⟩
  nth_rewrite 1 [eq_replicate_of_dropWhile hone]
  rw [append_assoc, cons_append]

lemma pullAll_of_decryptData {s : Depadded ss} (h : decryptData outSize s = .ok w)
    (hdone : s.done = true → s.rest = []) :
    ∃ ms, pullAll ss s.st (chunks encryptedChunkTotal s.rest) = some ms ∧
      (s.done = true → w = s.decrypted) ∧
      (s.done = false → (∀ p ∈ ms, p.1 ≠ []) ∧ w = s.decrypted ++ plainOf ms) := by
  induction hn : s.rest.length using Nat.strong_induction_on generalizing s with
  | _ n ih =>
    rw [decryptData] at h
    split at h
    · next hd =>
      cases h
      refine ⟨[], ?_, fun _ => rfl, fun hd' => absurd hd (by simp [hd'])⟩
      rw [hdone hd, chunks_nil]
      rfl
    rename_i hd
    split at h
    · cases h
    rename_i hlong
    split at h
    · cases h
    split at h
    · cases h
    rename_i m tag st hpull
    split at h
    · cases h
    rename_i done htag
    have hlt : (s.rest.drop (nextChunk s.rest)).length < n := by
      rw [List.length_drop]
      unfold nextChunk
      unfold encryptChunkOverhead at *
      omega
    obtain ⟨ms, hms, htrue, hfalse⟩ := ih _ hlt h
      (by rintro rfl; exact rest_eq_nil_of_checkTag htag) rfl
    obtain ⟨hall, hm⟩ := pullAll_nextChunk (not_le.mp hlong) hpull hms
    refine ⟨_, hall, fun hd' => absurd hd' hd, fun _ => ?_⟩
    cases done with
    | true =>
      have hnil : ms = [] := by
        rw [rest_eq_nil_of_checkTag htag, chunks_nil] at hms
        cases hms
        rfl
      subst hnil
      exact ⟨List.forall_mem_singleton.mpr hm, by simpa using htrue rfl⟩
    | false =>
      obtain ⟨hne, hw⟩ := hfalse rfl
      refine ⟨List.forall_mem_cons.mpr ⟨hm, hne⟩, ?_⟩
      rw [hw, List.append_assoc]
      rfl

lemma pullAll_of_discardPadding {st' : ss.State} {rest' initData : Bytes}
    {ms' : List (Bytes × UInt8)} (h : discardPadding st rest = .ok (initData, tag, st', rest'))
    (hms' : pullAll ss st' (chunks encryptedChunkTotal rest') = some ms')
    (hne' : ∀ p ∈ ms', p.1 ≠ []) :
    ∃ ms, pullAll ss st (chunks encryptedChunkTotal rest) = some ms ∧ (∀ p ∈ ms, p.1 ≠ []) ∧
      Strips false (plainOf ms) (initData ++ plainOf ms') := by
  induction hn : rest.length using Nat.strong_induction_on generalizing st rest with
  | _ n ih =>
    rw [discardPadding] at h
    split at h
    · cases h
    rename_i hlong
    split at h
    · cases h
    rename_i m tag₁ st₁ hpull
    split at h
    · cases h
    · next hpad =>
      have hlt : (rest.drop (nextChunk rest)).length < n := by
        rw [List.length_drop]
        unfold nextChunk
        unfold encryptChunkOverhead at *
        omega
      obtain ⟨ms, hms, hne, hstrip⟩ := ih _ hlt h rfl
      obtain ⟨hall, hm⟩ := pullAll_nextChunk (not_le.mp hlong) hpull hms
      exact ⟨_, hall, List.forall_mem_cons.mpr ⟨hm, hne⟩, strips_of_padEnd_none hpad hstrip⟩
    next x hpad =>
    cases h
    obtain ⟨hall, hm⟩ := pullAll_nextChunk (not_le.mp hlong) hpull hms'
    exact ⟨_, hall, List.forall_mem_cons.mpr ⟨hm, hne'⟩, strips_of_padEnd_some hpad _⟩

lemma pullAll_of_decryptPadding
    (h : (decryptPadding outSize st rest >>= decryptData outSize) = .ok w) :
    ∃ ms, pullAll ss st (chunks encryptedChunkTotal rest) = some ms ∧ (∀ p ∈ ms, p.1 ≠ []) ∧
      Strips false (plainOf ms) w := by
  obtain ⟨s, hs, h⟩ := bind_eq_ok.mp h
  obtain ⟨⟨initData, tag, st', rest'⟩, hdiscard, hs⟩ := bind_eq_ok.mp hs
  dsimp only at hs
  split at hs
  · cases hs
  split at hs
  · cases hs
  obtain ⟨done, htag, hs⟩ := bind_eq_ok.mp hs
  cases hs
  obtain ⟨ms, hms, htrue, hfalse⟩ := pullAll_of_decryptData h
    (by rintro rfl; exact rest_eq_nil_of_checkTag htag)
  cases done with
  | true =>
    have hnil : ms = [] := by
      have hrest : rest' = [] := rest_eq_nil_of_checkTag htag
      subst hrest
      rw [chunks_nil] at hms
      cases hms
      rfl
    subst hnil
    obtain ⟨ms₀, hms₀, hne, hstrip⟩ := pullAll_of_discardPadding hdiscard hms (by simp)
    rw [plainOf_nil, append_nil] at hstrip
    exact ⟨ms₀, hms₀, hne, by rw [htrue rfl]; exact hstrip⟩
  | false =>
    obtain ⟨hne', hw⟩ := hfalse rfl
    obtain ⟨ms₀, hms₀, hne, hstrip⟩ := pullAll_of_discardPadding hdiscard hms hne'
    exact ⟨ms₀, hms₀, hne, by rw [hw]; exact hstrip⟩

/-! ## Attachments as `encrypt` makes them -/

/-- The attachment opens to the data: a valid header, chunks that open one after the other and are
not empty, the final tag on the last of them and on no other, and the data behind zeros and a
one. -/
def WellFormed (ss : SecretStream) (encrypted : Bytes) (key : Key) (data : Bytes) : Prop :=
  ∃ (header : StreamHeader) (body : Bytes) (ms : List (Bytes × UInt8)),
    encrypted = ascii 'S' :: (header.val ++ body) ∧
    pullAll ss (ss.init header key) (chunks encryptedChunkTotal body) = some ms ∧
    FinalLast ms ∧ (∀ p ∈ ms, p.1 ≠ []) ∧ Strips false (plainOf ms) data

lemma sizeSub_of_le {a b : Nat} (h : b ≤ a) (ha : a < 2 ^ 64) : sizeSub a b = a - b := by
  unfold sizeSub
  rw [show a + 2 ^ 64 - b = a - b + 2 ^ 64 by omega, add_mod_right, mod_eq_of_lt (by omega)]

lemma exists_decryptedMaxSize {n plain count : Nat} (hn : n = 1 + 24 + plain + 17 * count)
    (hcount : count = (plain + 17 * count + encryptedChunkTotal - 1) / encryptedChunkTotal)
    (hplain : 0 < plain) (hsize : n < 2 ^ 64) :
    ∃ maxSize, decryptedMaxSize n = some maxSize ∧ plain ≤ maxSize + 1 := by
  have hsz : sizeSub n (1 + 1 + encryptHeader) = plain - 1 + 17 * count := by
    rw [sizeSub_of_le (by unfold encryptHeader; omega) hsize]
    unfold encryptHeader
    omega
  have hover : (plain - 1 + 17 * count + encryptedChunkTotal - 1) % 2 ^ 64 / encryptedChunkTotal ≤
      count := by
    calc _ ≤ (plain - 1 + 17 * count + encryptedChunkTotal - 1) / encryptedChunkTotal :=
          Nat.div_le_div_right (Nat.mod_le _ _)
      _ ≤ (plain + 17 * count + encryptedChunkTotal - 1) / encryptedChunkTotal :=
          Nat.div_le_div_right (by omega)
      _ = count := hcount.symm
  unfold decryptedMaxSize
  dsimp only
  rw [hsz]
  unfold encryptChunkOverhead
  rw [sizeSub_of_le (by omega) (by omega), if_neg (by omega)]
  exact ⟨_, rfl, by omega⟩

section

variable {encrypted data : Bytes} {key : Key}

section

variable (h : WellFormed ss encrypted key data)

include h

lemma WellFormed.maxSize (hsize : encrypted.length < 2 ^ 64) :
    ∃ maxSize, decryptedMaxSize encrypted.length = some maxSize ∧ data.length ≤ maxSize := by
  obtain ⟨header, body, ms, rfl, hpull, -, -, n, hstrip⟩ := h
  obtain ⟨hcount, hlen⟩ := length_pullAll hpull
  rw [flatten_chunks encryptedChunkTotal_pos] at hlen
  rw [length_chunks encryptedChunkTotal_pos, hlen] at hcount
  have hplain : (plainOf ms).length = n + 1 + data.length := by
    rw [hstrip]
    simp
    omega
  have hn : (ascii 'S' :: (header.val ++ body)).length =
      1 + encryptHeader + (plainOf ms).length + 17 * ms.length := by
    unfold encryptHeader
    simp [header.2]
    omega
  obtain ⟨maxSize, hmax, hle⟩ := exists_decryptedMaxSize hn hcount (by omega) hsize
  exact ⟨maxSize, hmax, by omega⟩

lemma WellFormed.checkEncrypted {maxSize : Nat}
    (hmax : decryptedMaxSize encrypted.length = some maxSize) :
    Attachments.checkEncrypted encrypted = .ok maxSize := by
  obtain ⟨header, body, -, heq, -⟩ := h
  have hhead : ¬encrypted.head? ≠ some (ascii 'S') := by
    rw [heq]
    simp
  rw [Attachments.checkEncrypted, hmax, orThrow, ok_bind, if_neg hhead]

/-- **The buffer overloads of `decrypt` return the data.** -/
lemma WellFormed.decryptInto (hsize : encrypted.length < 2 ^ 64) {maxSize : Nat}
    (hmax : decryptedMaxSize encrypted.length = some maxSize) (hout : maxSize ≤ outSize) :
    Attachments.decryptInto ss encrypted key outSize = .ok data := by
  obtain ⟨maxSize', hmax', hle⟩ := h.maxSize hsize
  cases hmax.symm.trans hmax'
  have hcheck := h.checkEncrypted hmax
  obtain ⟨header, body, ms, rfl, hpull, hfinal, hne, hstrip⟩ := h
  have hdata : data.length < 2 ^ 64 := by
    obtain ⟨-, hlen⟩ := length_pullAll hpull
    obtain ⟨n, hn⟩ := hstrip
    rw [flatten_chunks encryptedChunkTotal_pos, hn] at hlen
    simp [header.2] at hlen hsize
    omega
  rw [decryptInto_eq hcheck hout]
  exact decryptPadding_of_pullAll hpull hfinal hne hstrip (hle.trans hout) hdata

lemma WellFormed.decrypt
    (hsize : encrypted.length < 2 ^ 64) : Attachments.decrypt ss encrypted key = .ok data := by
  obtain ⟨maxSize, hmax, -⟩ := h.maxSize hsize
  rw [Attachments.decrypt, h.checkEncrypted hmax, ok_bind, h.decryptInto hsize hmax le_rfl]

/-- **A decryptor returns the data, whatever pieces it is fed with.** -/
lemma WellFormed.run {output : Output} (hout : ∀ w x, w ++ x <+: data → output w x = .ok (w ++ x))
    (hpieces : pieces.flatten = encrypted) :
    Decryptor.run ss output key pieces = .ok (true, data) := by
  obtain ⟨header, body, ms, rfl, hpull, hfinal, -, hstrip⟩ := h
  obtain ⟨d, hd, hreport⟩ := Decryptor.consume_of_pullAll
    (d := Decryptor.opened ss header key) rfl rfl (fun c hc => length_le_of_mem_chunks hc) rfl
      hpull
    hfinal hstrip hout
  rw [Decryptor.run_of_header header body key hpieces, hd, ok_bind, hreport]
  rfl

lemma WellFormed.run_collect (hpieces : pieces.flatten = encrypted) :
    Decryptor.run ss collect key pieces = .ok (true, data) :=
  h.run (fun _ _ _ => rfl) hpieces

lemma WellFormed.decryptToFile :
    Attachments.decryptToFile ss encrypted key = ⟨none, some data⟩ := by
  have hpieces : [encrypted].flatten = encrypted := by simp
  rw [Attachments.decryptToFile, h.run_collect hpieces, toFile]

lemma WellFormed.decryptFile
    (hsize : encrypted.length < 2 ^ 64) : Attachments.decryptFile ss encrypted key = .ok data := by
  obtain ⟨maxSize, hmax, hle⟩ := h.maxSize hsize
  have hfill : ∀ w x, w ++ x <+: data → fill maxSize w x = .ok (w ++ x) := by
    intro w x hpre
    have hlen := hpre.length_le
    rw [length_append] at hlen
    rw [fill, if_neg (by omega)]
  rw [Attachments.decryptFile, checkFileSize, hmax, orThrow, ok_bind,
    h.run hfill (flatten_chunks (by decide) encrypted), ok_bind]

lemma WellFormed.decryptFileToFile (hsize : encrypted.length < 2 ^ 64) :
    Attachments.decryptFileToFile ss encrypted key = ⟨none, some data⟩ := by
  obtain ⟨maxSize, hmax, -⟩ := h.maxSize hsize
  rw [Attachments.decryptFileToFile, checkFileSize, hmax, orThrow, ok_bind,
    h.run_collect (flatten_chunks (by decide) encrypted), toFile]

end

/-- **What `decrypt` and a decryptor accept is an attachment as `encrypt` makes it.** -/
lemma wellFormed_of_decrypt (h : Attachments.decrypt ss encrypted key = .ok data)
    (hrun : Decryptor.run ss collect key [encrypted] = .ok (true, w)) :
    WellFormed ss encrypted key data := by
  obtain ⟨maxSize, hcheck, h⟩ := bind_eq_ok.mp h
  have hlong : ¬encrypted.length < 1 + encryptHeader := by
    intro hshort
    rw [Attachments.decryptInto, hcheck, ok_bind, if_neg (lt_irrefl _), dif_pos hshort] at h
    cases h
  have hhead : encrypted.head? = some (ascii 'S') := by
    obtain ⟨_, -, hcheck⟩ := bind_eq_ok.mp hcheck
    split at hcheck
    · cases hcheck
    · next hhead => exact not_not.mp hhead
  obtain ⟨rest, rfl⟩ : ∃ rest, encrypted = ascii 'S' :: rest := by
    cases encrypted with
    | nil => cases hhead
    | cons b rest =>
      cases hhead
      exact ⟨rest, rfl⟩
  have hrest : 24 ≤ rest.length := by
    unfold encryptHeader at hlong
    simp at hlong
    omega
  obtain ⟨header, body, rfl⟩ : ∃ (header : StreamHeader) (body : Bytes), rest =
      header.val ++ body :=
    ⟨⟨rest.take 24, length_take_of_le hrest⟩, rest.drop 24, (take_append_drop ..).symm⟩
  rw [decryptInto_eq hcheck le_rfl] at h
  obtain ⟨ms, hms, hne, hstrip⟩ := pullAll_of_decryptPadding h
  -- the tags are those the decryptor has checked
  rw [Decryptor.run_of_header header body key (by simp)] at hrun
  obtain ⟨d, hd, hreport⟩ := bind_eq_ok.mp hrun
  have hreport : d.report = (true, w) := Except.ok.inj hreport
  have hok : (!d.failed && d.hitFinal) = true := congrArg Prod.fst hreport
  obtain ⟨hfailed, hhit⟩ : d.failed = false ∧ d.hitFinal = true := by simpa using hok
  obtain ⟨ms', hms', hfinal⟩ := Decryptor.finalLast_of_consume hd hfailed hhit rfl rfl
  have heq : ms = ms' := Option.some.inj (hms.symm.trans hms')
  exact ⟨header, body, ms, rfl, hms, by rw [heq]; exact hfinal, hne, hstrip⟩

/-! ## Agreement -/

structure AllReturn (ss : SecretStream) (encrypted : Bytes) (key : Key) (data : Bytes) : Prop where
  decrypt : Attachments.decrypt ss encrypted key = .ok data
  decryptToFile : Attachments.decryptToFile ss encrypted key = ⟨none, some data⟩
  decryptFile : Attachments.decryptFile ss encrypted key = .ok data
  decryptFileToFile : Attachments.decryptFileToFile ss encrypted key = ⟨none, some data⟩
  run : ∀ pieces, pieces.flatten = encrypted →
    Decryptor.run ss collect key pieces = .ok (true, data)

/-- All overloads of `decrypt` throw, no `Decryptor` succeeds, and no file is left. -/
structure AllFail (ss : SecretStream) (encrypted : Bytes) (key : Key) : Prop where
  decrypt : ∃ e, Attachments.decrypt ss encrypted key = .error e
  decryptToFile : ∃ e ≠ .indeterminate,
    Attachments.decryptToFile ss encrypted key = ⟨some e, none⟩
  decryptFile : ∃ e, Attachments.decryptFile ss encrypted key = .error e
  decryptFileToFile : ∃ e, Attachments.decryptFileToFile ss encrypted key = ⟨some e, none⟩
  run : ∀ pieces, pieces.flatten = encrypted →
    ∀ data, Decryptor.run ss collect key pieces ≠ .ok (true, data)

lemma WellFormed.allReturn (h : WellFormed ss encrypted key data)
    (hsize : encrypted.length < 2 ^ 64) : AllReturn ss encrypted key data where
  decrypt := h.decrypt hsize
  decryptToFile := h.decryptToFile
  decryptFile := h.decryptFile hsize
  decryptFileToFile := h.decryptFileToFile hsize
  run := fun _ => h.run_collect

/-- `decrypt` of a buffer into a file does not look at what `finalize` returns, and there is nothing
else that could make it throw. -/
lemma not_allFail : ¬AllFail ss encrypted key := by
  intro h
  obtain ⟨e, hthrown, he⟩ := h.decryptToFile
  rw [Attachments.decryptToFile] at he
  rcases @Decryptor.run_collect ss key [encrypted] with ⟨-, hr⟩ | ⟨-, r, hr⟩
  · rw [hr, toFile] at he
    cases he
    exact hthrown rfl
  · rw [hr, toFile] at he
    cases he

/-- **The decryptors agree exactly on the attachments that `encrypt` could have made.** -/
theorem decryptors_agree_iff (ss : SecretStream) (encrypted : Bytes) (key : Key)
    (hsize : encrypted.length < 2 ^ 64) :
    ((∃ data, AllReturn ss encrypted key data) ∨ AllFail ss encrypted key) ↔
      ∃ data, WellFormed ss encrypted key data := by
  constructor
  · rintro (⟨data, h⟩ | h)
    · exact ⟨data, wellFormed_of_decrypt h.decrypt (h.run [encrypted] (by simp))⟩
    · exact absurd h not_allFail
  · rintro ⟨data, h⟩
    exact Or.inl ⟨data, h.allReturn hsize⟩

end

/-! ## A sample stream -/

def plainPush (_ : Unit) (m : Bytes) (tag : UInt8) : Bytes × Unit :=
  (tag :: m ++ List.replicate 16 0, ())

def plainPull (_ : Unit) : Bytes → Option (Bytes × UInt8 × Unit)
  | [] => none
  | tag :: rest => if rest.length < 16 then none else some (rest.take (rest.length - 16), tag, ())

lemma length_plainPush (st : Unit) (m : Bytes) (tag : UInt8) :
    (plainPush st m tag).1.length = m.length + 17 := by
  simp [plainPush]

lemma plainPull_push (st : Unit) (m : Bytes) (tag : UInt8) :
    plainPull st (plainPush st m tag).1 = some (m, tag, (plainPush st m tag).2) := by
  simp [plainPull, plainPush]

lemma length_of_plainPull (st : Unit) (c m : Bytes) (tag : UInt8) (st' : Unit)
    (h : plainPull st c = some (m, tag, st')) : c.length = m.length + 17 := by
  cases c with
  | nil => cases h
  | cons b rest =>
    rw [plainPull] at h
    split at h
    · cases h
    cases h
    simp
    omega

/-- A stream that hides nothing: the tag, the message and 16 zeros. -/
def plainStream : SecretStream where
  State := Unit
  init _ _ := ()
  push := plainPush
  pull := plainPull
  push_length := length_plainPush
  pull_push := plainPull_push
  pull_length := length_of_plainPull

def zeroHeader : StreamHeader := ⟨List.replicate 24 0, by simp⟩

def sampleAttachment : Bytes :=
  ascii 'S' :: (zeroHeader.val ++ (plainStream.push () [1, 7] tagFinal).1)

lemma sampleAttachment_wellFormed : WellFormed plainStream sampleAttachment zeroKey [7] := by
  refine ⟨zeroHeader, (plainStream.push () [1, 7] tagFinal).1, [([1, 7], tagFinal)], rfl, ?_, rfl,
    by simp, 0, rfl⟩
  rw [chunks_of_length_le (by decide) (by decide)]
  rfl

theorem decryptors_agree_sample : sampleAttachment.length < 2 ^ 64 ∧
      ((∃ data, AllReturn plainStream sampleAttachment zeroKey data) ∨
        AllFail plainStream sampleAttachment zeroKey) :=
  ⟨by decide, (decryptors_agree_iff plainStream sampleAttachment zeroKey (by decide)).mpr
    ⟨[7], sampleAttachment_wellFormed⟩⟩

/-- An attachment that was cut off behind its header: `decrypt` into a vector throws, `decrypt` into
a file makes an empty file, and the decryptor behind it reports a failure. -/
theorem decrypt_cut_off : decrypt plainStream (sampleAttachment.take 25) zeroKey =
        .error (.runtime "Attachment decryption failed: encrypted data too short") ∧
      decryptToFile plainStream (sampleAttachment.take 25) zeroKey = ⟨none, some []⟩ ∧
      Decryptor.run plainStream collect zeroKey [sampleAttachment.take 25] = .ok (false, []) := by
  have hmax : decryptedMaxSize (sampleAttachment.take 25).length = none := by decide +kernel
  have hrun : Decryptor.run plainStream collect zeroKey [sampleAttachment.take 25] =
      .ok (false, []) := by
    rw [Decryptor.run_of_header zeroHeader [] zeroKey rfl, chunks_nil]
    rfl
  refine ⟨?_, ?_, hrun⟩
  · rw [decrypt, checkEncrypted, hmax]
    rfl
  · rw [decryptToFile, hrun, toFile]

/-! ## The calls to a decryptor

A `Decryptor` can be called in any order, and its flags have to keep track of that. `failed` does;
`finished` is never set, and `finalize` does not ask for `header`.
-/

inductive Call
  | update (encData : Bytes)
  | finalize

namespace Decryptor

variable {ss : SecretStream} {output : Output} {d d' : Decryptor ss} {c : Call} {cs : List Call}
  {r : Bool × Decryptor ss} {log : List (Call × Bool)} {key : Key}

def call (output : Output) (d : Decryptor ss) : Call → Except Failure (Bool × Decryptor ss)
  | .update encData => d.update output encData
  | .finalize => d.finalize output

/-- A sequence of calls: what each of them returns, and the decryptor they leave. -/
def calls (output : Output) (d : Decryptor ss) :
    List Call → Except Failure (List (Call × Bool) × Decryptor ss)
  | [] => .ok ([], d)
  | c :: cs => do
    let (ok, d) ← d.call output c
    let (log, d) ← d.calls output cs
    .ok ((c, ok) :: log, d)

/-! ## What a call leaves -/

lemma finalize_settled (h : Ready d) (hr : finalize output d = .ok r) : Settled r := by
  rw [finalize_of_ne_failed h.failed] at hr
  obtain ⟨d₁, hd₁, hr⟩ := bind_eq_ok.mp hr
  cases hr
  have hready : d₁.failed = false → Ready d₁ := by
    intro hfailed
    split at hd₁
    · cases hd₁
      exact h
    cases hd : processChunk output d d.buf true with
    | error e =>
      rw [hd] at hd₁
      cases hd₁
    | ok d₂ =>
      rw [hd] at hd₁
      cases hd₁
      obtain ⟨-, hheader, hfinished, hst, hfinal⟩ := processChunk_keeps hd
      refine ⟨hfailed, hfinished.trans h.finished, target_pos _, by rw [hheader, hst, h.st],
        fun hhit => hheader.trans ?_⟩
      exact (hfinal hhit).elim h.final fun hopen => h.st.trans hopen
  unfold concluded
  split
  · next hfailed => exact .inl ⟨rfl, hfailed⟩
  next hfailed =>
  split
  · exact .inr ⟨rfl, hready (by simpa using hfailed)⟩
  · exact .inl ⟨rfl, rfl⟩

lemma call_of_failed (h : d.failed = true) (c : Call) : call output d c = .ok (false, d) := by
  cases c with
  | update x => exact update_of_failed h x
  | finalize => rw [call, finalize, if_pos h]

lemma call_settled (h : d.failed = true ∨ Ready d) (hr : call output d c = .ok r) : Settled r := by
  rcases h with h | h
  · rw [call_of_failed h] at hr
    cases hr
    exact .inl ⟨rfl, h⟩
  cases c with
  | update x => exact update_ready h hr
  | finalize => exact finalize_settled h hr

/-- A call returns, unless it is a `finalize` on the beginning of a header. -/
lemma call_collect (h : d.failed = true ∨ Ready d) (c : Call) :
    ((∃ r, call collect d c = .ok r) ∧ (c = .finalize → Opened d)) ∨
      (call collect d c = .error .indeterminate ∧ ¬(c = .finalize → Opened d)) := by
  rcases h with h | h
  · exact .inl ⟨⟨_, call_of_failed h c⟩, fun _ => .inr (.inl h)⟩
  cases c with
  | update x => exact .inl ⟨update_collect h x, nofun⟩
  | finalize =>
    by_cases hopen : Opened d
    · exact .inl ⟨finalize_collect h hopen, fun _ => hopen⟩
    · exact .inr ⟨finalize_unopened h hopen, fun h => hopen (h rfl)⟩

lemma calls_cons (hr : calls output d (c :: cs) = .ok (log, d')) :
    ∃ ok d₁ log', call output d c = .ok (ok, d₁) ∧ calls output d₁ cs = .ok (log', d') ∧
      log = (c, ok) :: log' := by
  obtain ⟨⟨ok, d₁⟩, hd₁, hr⟩ := bind_eq_ok.mp hr
  obtain ⟨⟨log', d₂⟩, hd₂, hr⟩ := bind_eq_ok.mp hr
  cases hr
  exact ⟨ok, d₁, log', hd₁, hd₂, rfl⟩

lemma calls_of_failed (h : d.failed = true) (cs : List Call) :
    calls output d cs = .ok (cs.map (·, false), d) := by
  induction cs with
  | nil => rfl
  | cons c cs ih =>
    rw [calls, call_of_failed h, ok_bind]
    dsimp only
    rw [ih]
    rfl

lemma calls_settled (h : d.failed = true ∨ Ready d) (hr : calls output d cs = .ok (log, d')) :
    (d'.failed = true ∨ Ready d') ∧ ((∃ p ∈ log, p.2 = false) → d'.failed = true) := by
  induction cs generalizing d log with
  | nil =>
    cases hr
    exact ⟨h, fun ⟨p, hp, _⟩ => absurd hp not_mem_nil⟩
  | cons c cs ih =>
    obtain ⟨ok, d₁, log', hd₁, hcs, rfl⟩ := calls_cons hr
    obtain ⟨-, hfailed⟩ | ⟨hok, hready⟩ :
        ok = false ∧ d₁.failed = true ∨ ok = true ∧ Ready d₁ := call_settled h hd₁
    · rw [calls_of_failed hfailed] at hcs
      cases hcs
      exact ⟨.inl hfailed, fun _ => hfailed⟩
    obtain ⟨hend, hlog⟩ := ih (.inr hready) hcs
    refine ⟨hend, fun ⟨p, hp, hfalse⟩ => ?_⟩
    rcases mem_cons.mp hp with rfl | hp
    · cases hfalse.symm.trans hok
    · exact hlog ⟨p, hp, hfalse⟩

/-! ## Pieces -/

lemma calls_updates (h : d.failed = true ∨ Ready d) (pieces : List Bytes) :
    (calls output d (pieces.map .update ++ [.finalize])).map
        (fun r => (r.1.all (·.2), r.2.written)) = feed output d pieces >>= finish output := by
  induction pieces generalizing d with
  | nil =>
    show Except.map _ (finalize output d >>= _) = finalize output d >>= _
    cases finalize output d with
    | error e => rfl
    | ok r => exact congrArg (fun b => Except.ok (b, r.2.written)) (Bool.and_true r.1)
  | cons piece pieces ih =>
    show Except.map _ (update output d piece >>= _) = (update output d piece >>= _) >>= _
    cases hr : update output d piece with
    | error e => rfl
    | ok r =>
      have hr : call output d (.update piece) = .ok r := hr
      show Except.map _ (calls output r.2 _ >>= _) = feed output r.2 pieces >>= finish output
      rcases call_settled h hr with ⟨hok, hfailed⟩ | ⟨hok, hready⟩
      · rw [feed_eq (.inl hfailed), update_of_failed hfailed, calls_of_failed hfailed]
        show .ok (r.1 && _, _) = finish output r.2
        rw [finish_of_failed hfailed, report, hok, hfailed]
        rfl
      rw [← ih (.inr hready)]
      cases calls output r.2 (pieces.map .update ++ [.finalize]) with
      | error e => rfl
      | ok r' => exact congrArg (fun b => Except.ok (b && _, _)) hok

/-- **What a decryptor returns and writes does not depend on how its input is cut into pieces**,
exactly unless the input breaks off in the header: then it computes with a state that was never
initialised. -/
theorem streaming_independent_iff (ss : SecretStream) (key : Key) (pieces pieces' : List Bytes)
    (h : pieces.flatten = pieces'.flatten) :
    (∃ log log' d d',
      calls collect ({ key := key } : Decryptor ss) (pieces.map .update ++ [.finalize]) =
        .ok (log, d) ∧
      calls collect ({ key := key } : Decryptor ss) (pieces'.map .update ++ [.finalize]) =
        .ok (log', d') ∧
      log.all (·.2) = log'.all (·.2) ∧ (log.all (·.2) = true → d.written = d'.written)) ↔
      ¬BreaksOff pieces.flatten.length := by
  have hnew : Ready ({ key := key } : Decryptor ss) := (fresh_new key).ready
  have hrun : run ss collect key pieces = run ss collect key pieces' := by
    rw [run_eq_finish, run_eq_finish, h]
  rcases @run_collect ss key pieces with ⟨hbreak, hr⟩ | ⟨hwhole, r, hr⟩
  · refine iff_of_false ?_ (not_not.mpr hbreak)
    rintro ⟨log, _, d, _, hcalls, -⟩
    have herror := (calls_updates (.inr hnew) pieces).trans hr
    rw [hcalls] at herror
    cases herror
  refine iff_of_true ?_ hwhole
  have hcalls := (calls_updates (.inr hnew) pieces).trans hr
  have hcalls' := (calls_updates (.inr hnew) pieces').trans (hrun.symm.trans hr)
  have hret : ∀ {x : Except Failure (List (Call × Bool) × Decryptor ss)},
      x.map (fun r => (r.1.all (·.2), r.2.written)) = .ok r →
        ∃ log d, x = .ok (log, d) ∧ log.all (·.2) = r.1 ∧ d.written = r.2 := by
    rintro (e | ⟨log, d⟩) hx
    · cases hx
    · cases hx
      exact ⟨log, d, rfl, rfl, rfl⟩
  obtain ⟨log, d, hlog, hall, hd⟩ := hret hcalls
  obtain ⟨log', d', hlog', hall', hd'⟩ := hret hcalls'
  exact ⟨log, log', d, d', hlog, hlog', hall.trans hall'.symm, fun _ => hd.trans hd'.symm⟩

/-- A whole attachment, cut within its header and within its chunk. -/
theorem streaming_independent_sample :
    let pieces := [sampleAttachment.take 10, [], sampleAttachment.drop 10]
    let pieces' := [sampleAttachment.take 30, sampleAttachment.drop 30]
    pieces.flatten = pieces'.flatten ∧
      ∃ log log' d d',
        calls collect ({ key := zeroKey } : Decryptor plainStream)
          (pieces.map .update ++ [.finalize]) = .ok (log, d) ∧
        calls collect ({ key := zeroKey } : Decryptor plainStream)
          (pieces'.map .update ++ [.finalize]) = .ok (log', d') ∧
        log.all (·.2) = log'.all (·.2) ∧ (log.all (·.2) = true → d.written = d'.written) :=
  ⟨by decide, (streaming_independent_iff plainStream zeroKey _ _ (by decide)).mpr
    fun h => absurd h.2 (by decide)⟩

lemma length_push_masked (st : UInt8) (m : Bytes) (tag : UInt8) :
    (plainPush () m (tag ^^^ st)).1.length = m.length + 17 := length_plainPush () m (tag ^^^ st)

lemma pull_masked (st : UInt8) (m : Bytes) (tag : UInt8) :
    (plainPull () (plainPush () m (tag ^^^ st)).1).map (fun p => (p.1, p.2.1 ^^^ st, st)) =
      some (m, tag, st) := by
  rw [plainPull_push, Option.map_some, UInt8.xor_assoc, UInt8.xor_self, UInt8.xor_zero]

lemma length_of_pull_masked (st : UInt8) (c m : Bytes) (tag st' : UInt8)
    (h : (plainPull () c).map (fun p => (p.1, p.2.1 ^^^ st, st)) = some (m, tag, st')) :
    c.length = m.length + 17 := by
  obtain ⟨⟨m', tag', u⟩, hpull, heq⟩ := Option.map_eq_some_iff.mp h
  cases heq
  exact length_of_plainPull () c m' tag' u hpull

/-- The stream that masks its tags with the state. -/
def maskedStream : SecretStream where
  State := UInt8
  init _ _ := 0
  push st m tag := ((plainPush () m (tag ^^^ st)).1, st)
  pull st c := (plainPull () c).map fun p => (p.1, p.2.1 ^^^ st, st)
  push_length := length_push_masked
  pull_push := pull_masked
  pull_length := length_of_pull_masked

/-- 19 bytes, at once and in two pieces: `finalize` opens them as a chunk with what is in `st_data`.
Where this is 0 in one object and 1 in the other, one returns true and the other false. -/
theorem streaming_broken_off :
    let enc := (maskedStream.push (0 : UInt8) [1, 7] tagFinal).1
    let whole : List Call := [.update enc, .finalize]
    let cut : List Call := [.update (enc.take 5), .update (enc.drop 5), .finalize]
    let holding (st : Option UInt8) : Decryptor maskedStream := { key := zeroKey, st := st }
    calls collect (holding none) whole = .error .indeterminate ∧
      calls collect (holding none) cut = .error .indeterminate ∧
      (calls collect (holding (some 0)) whole).map (fun r => (r.1.all (·.2), r.2.written)) =
        .ok (true, [7]) ∧
      (calls collect (holding (some 1)) cut).map (fun r => r.1.all (·.2)) = .ok false :=
  ⟨rfl, rfl, rfl, rfl⟩

/-! ## The life cycle -/

/-- The calls of the log can be made one after the other, and leave the decryptor `d`. -/
def Reaches (ss : SecretStream) (key : Key) (log : List (Call × Bool)) (d : Decryptor ss) : Prop :=
  calls collect ({ key := key } : Decryptor ss) (log.map Prod.fst) = .ok (log, d)

/-- What is asked of a call `c` after the calls of the log: it decrypts no chunk before the header
was processed, after a failure it fails and writes nothing, and after a `finalize` that succeeded it
throws. -/
structure LifeCycle (log : List (Call × Bool)) (d : Decryptor ss) (c : Call) : Prop where
  opened : call collect d c ≠ .error .indeterminate
  failed : (∃ p ∈ log, p.2 = false) → call collect d c = .ok (false, d)
  finished : (.finalize, true) ∈ log → ∃ what, call collect d c = .error (.logic what)

/-- **The life cycle is kept exactly as long as no call follows a `finalize` that succeeded and
`finalize` is not called on the beginning of a header.** -/
theorem life_cycle_iff (ss : SecretStream) (key : Key) (log : List (Call × Bool))
    (d : Decryptor ss) (c : Call) (h : Reaches ss key log d) :
    LifeCycle log d c ↔ (c = .finalize → Opened d) ∧ (.finalize, true) ∉ log := by
  have hnew : Ready ({ key := key } : Decryptor ss) := (fresh_new key).ready
  obtain ⟨hend, hfailed⟩ := calls_settled (.inr hnew) h
  rcases call_collect hend c with ⟨⟨r, hr⟩, hopen⟩ | ⟨hr, hunopened⟩
  · refine ⟨fun hcycle => ⟨hopen, fun hmem => ?_⟩, fun ⟨_, hmem⟩ => ⟨?_, fun hp => ?_, ?_⟩⟩
    · obtain ⟨what, hthrow⟩ := hcycle.finished hmem
      cases hthrow.symm.trans hr
    · rw [hr]
      exact nofun
    · exact call_of_failed (hfailed hp) c
    · exact fun hmem' => absurd hmem' hmem
  · exact iff_of_false (fun hcycle => hcycle.opened hr) fun hcond => hunopened hcond.1

/-- The decryptor that has read the sample, and not yet opened its chunk. -/
def sampleRead : Decryptor plainStream :=
  { key := zeroKey, header := true, st := some (), buf := (plainStream.push () [1, 7] tagFinal).1 }

lemma update_sampleAttachment :
    update collect ({ key := zeroKey } : Decryptor plainStream) sampleAttachment =
      .ok (true, sampleRead) := by
  rw [update_eq_updateDirect (fresh_new zeroKey).ready]
  show updateDirect collect ({ key := zeroKey } : Decryptor plainStream) sampleAttachment = _
  have hheader : processHeader ({ key := zeroKey } : Decryptor plainStream)
      (sampleAttachment.take (1 + encryptHeader)) =
        .ok { key := zeroKey, header := true, st := some () } := rfl
  rw [updateDirect, if_neg (by simp), if_pos (by decide), hheader, ok_bind, if_neg (by simp),
    updateChunks_of_lt (by decide)]
  rfl

lemma reaches_sampleRead :
    Reaches plainStream zeroKey [(.update sampleAttachment, true)] sampleRead := by
  show (update collect _ sampleAttachment >>= _) = _
  rw [update_sampleAttachment]
  rfl

/-- A `finalize` behind the whole attachment. -/
theorem life_cycle_sample :
    Reaches plainStream zeroKey [(.update sampleAttachment, true)] sampleRead ∧
      LifeCycle [(.update sampleAttachment, true)] sampleRead .finalize :=
  ⟨reaches_sampleRead, (life_cycle_iff plainStream zeroKey _ _ .finalize reaches_sampleRead).mpr
    ⟨fun _ => .inl rfl, by simp⟩⟩

/-- Both conditions are needed: `finalize` opens 20 bytes of a header as a chunk, and after a whole
attachment was finished `update` can be called as if nothing had happened. -/
theorem life_cycle_broken :
    (∃ d : Decryptor plainStream,
      Reaches plainStream zeroKey [(.update (sampleAttachment.take 20), true)] d ∧
      call collect d .finalize = .error .indeterminate ∧
      ¬LifeCycle [(.update (sampleAttachment.take 20), true)] d .finalize) ∧
    ∃ d : Decryptor plainStream,
      Reaches plainStream zeroKey [(.update sampleAttachment, true), (.finalize, true)] d ∧
      d.written = [7] ∧ call collect d (.update []) = .ok (true, d) ∧
      ¬LifeCycle [(.update sampleAttachment, true), (.finalize, true)] d (.update []) := by
  refine ⟨⟨{ key := zeroKey, buf := sampleAttachment.take 20 }, rfl, rfl, fun h => h.opened rfl⟩,
    { sampleRead with buf := [], depadded := true, hitFinal := true, written := [7] }, ?_, rfl, ?_⟩
  · show (update collect _ sampleAttachment >>= _) = _
    rw [update_sampleAttachment]
    rfl
  have hnext : call collect ({ sampleRead with
      buf := [], depadded := true, hitFinal := true, written := [7] } : Decryptor plainStream)
      (.update []) = .ok (true, { sampleRead with
        buf := [], depadded := true, hitFinal := true, written := [7] }) :=
    update_nil ⟨rfl, rfl, by decide, rfl, fun _ => rfl⟩
  refine ⟨hnext, fun h => ?_⟩
  obtain ⟨what, hthrow⟩ := h.finished (by simp)
  cases hthrow.symm.trans hnext

end Decryptor

end Bchat.Attachments
