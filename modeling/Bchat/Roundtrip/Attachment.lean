import Bchat.Properties.AttachmentSizes

/-!
# Round trip of attachments

`encrypt` cuts `00 … 00 01 data` into chunks of 32 KiB and pushes them, the last one with the final
tag.
-/

namespace Bchat.Attachments

open Config Chunks List Nat

variable {ss : SecretStream}
variable (st : ss.State)

/-! ## Pushing chunks -/

def tagged : List Bytes → List (Bytes × UInt8)
  | [] => []
  | [m] => [(m, tagFinal)]
  | m :: m' :: ms => (m, 0) :: tagged (m' :: ms)

lemma tagged_cons (m : Bytes) {ms : List Bytes} (h : ms ≠ []) :
    tagged (m :: ms) = (m, 0) :: tagged ms := by
  cases ms with
  | nil => exact absurd rfl h
  | cons m' ms => rfl

lemma map_fst_tagged (ms : List Bytes) : (tagged ms).map Prod.fst = ms := by
  fun_induction tagged ms with
  | case1 | case2 m => rfl
  | case3 m m' ms ih => rw [map_cons, ih]

lemma finalLast_tagged {ms : List Bytes} (h : ms ≠ []) : FinalLast (tagged ms) := by
  fun_induction tagged ms with
  | case1 => exact absurd rfl h
  | case2 m => rfl
  | case3 m m' ms ih =>
    have hne : tagged (m' :: ms) ≠ [] := (ih (by simp)).ne_nil
    exact (finalLast_cons hne).mpr ⟨show (0 : UInt8) ≠ tagFinal by decide, ih (by simp)⟩

def pushAll (ss : SecretStream) : ss.State → List (Bytes × UInt8) → List Bytes
  | _, [] => []
  | st, p :: ps => (ss.push st p.1 p.2).1 :: pushAll ss (ss.push st p.1 p.2).2 ps

lemma length_flatten_pushAll (ps : List (Bytes × UInt8)) :
    (pushAll ss st ps).flatten.length = (plainOf ps).length + 17 * ps.length := by
  induction ps generalizing st with
  | nil => rfl
  | cons p ps ih =>
    rw [pushAll, flatten_cons, length_append, ss.push_length, ih, plainOf_cons,
      length_append, length_cons]
    omega

lemma pullAll_pushAll (ps : List (Bytes × UInt8)) : pullAll ss st (pushAll ss st ps) = some ps := by
  induction ps generalizing st with
  | nil => rfl
  | cons p ps ih => exact pullAll_of_pull (ss.pull_push st p.1 p.2) (ih _)

def pushed (ss : SecretStream) (st : ss.State) (x : Bytes) : List Bytes :=
  pushAll ss st (tagged (chunks encryptChunkSize x))

lemma pushed_of_length_le {x : Bytes} (hx : x ≠ []) (h : x.length ≤ encryptChunkSize) :
    pushed ss st x = [(ss.push st x tagFinal).1] := by
  rw [pushed, chunks_of_length_le hx h]
  rfl

lemma pushed_append {c x : Bytes} (hc : c.length = encryptChunkSize) (hx : x ≠ []) :
    pushed ss st (c ++ x) = (ss.push st c 0).1 :: pushed ss (ss.push st c 0).2 x := by
  have hpos : 0 < encryptChunkSize := by decide
  rw [pushed, chunks_append hpos hc, tagged_cons _ (mt (chunks_eq_nil_iff hpos).mp hx)]
  rfl

lemma length_le_or_exists_append {x : Bytes} (k : Nat) :
    x.length ≤ k ∨ ∃ c y, x = c ++ y ∧ c.length = k ∧ y ≠ [] := by
  by_cases h : x.length ≤ k
  · exact Or.inl h
  refine Or.inr ⟨x.take k, x.drop k, (take_append_drop k x).symm, length_take_of_le (by omega), ?_⟩
  rw [ne_eq, drop_eq_nil_iff]
  exact h

lemma chunks_pushed {x : Bytes} (hx : x ≠ []) :
    chunks encryptedChunkTotal (pushed ss st x).flatten = pushed ss st x := by
  induction hn : x.length using Nat.strong_induction_on generalizing st x with
  | _ n ih =>
    rcases length_le_or_exists_append (x := x) encryptChunkSize with hle | ⟨c, y, rfl, hc, hy⟩
    · rw [pushed_of_length_le st hx hle, flatten_singleton]
      have hlen := ss.push_length st x tagFinal
      apply chunks_of_length_le
      · intro hnil
        rw [hnil, length_nil] at hlen
        omega
      · rw [hlen]
        exact Nat.add_le_add_right hle 17
    have hlt : y.length < n := by
      rw [← hn, length_append, hc]
      exact Nat.lt_add_of_pos_left (by decide)
    rw [pushed_append st hc hy, flatten_cons, chunks_append encryptedChunkTotal_pos,
      ih _ hlt _ hy rfl]
    rw [ss.push_length, hc]
    rfl

lemma length_flatten_pushed (x : Bytes) : (pushed ss st x).flatten.length =
      x.length + chunkCount x.length encryptChunkSize * encryptChunkOverhead := by
  have hpos : 0 < encryptChunkSize := by decide
  rw [pushed, length_flatten_pushAll, plainOf, map_fst_tagged, flatten_chunks hpos,
    ← length_map Prod.fst, map_fst_tagged, length_chunks hpos, mul_comm]
  rfl

/-! ## The loops of `encrypt_impl` -/

lemma pushChunk_of_le {outSize : Nat} {s : EncryptState ss} {buf : Bytes} (tag : UInt8)
    (h : s.written.length + (ss.push s.st buf tag).1.length ≤ outSize) :
    s.pushChunk outSize buf tag =
      .ok { s with st := (ss.push s.st buf tag).2,
                   written := s.written ++ (ss.push s.st buf tag).1 } := by
  have hlen := ss.push_length s.st buf tag
  rw [EncryptState.pushChunk, if_neg (by unfold encryptChunkOverhead; omega)]
  rw [if_neg (fun h => h hlen)]

lemma pushData_spec {outSize : Nat} {s : EncryptState ss} (hdone : s.done = false)
    (hdata : s.data ≠ [])
    (hroom : s.written.length + (pushed ss s.st s.data).flatten.length ≤ outSize) :
    ∃ s', pushData outSize s = .ok s' ∧
      s'.written = s.written ++ (pushed ss s.st s.data).flatten := by
  obtain ⟨st, written, data, done⟩ := s
  dsimp only at hdone hdata hroom ⊢
  subst hdone
  induction hn : data.length using Nat.strong_induction_on generalizing st written data with
  | _ n ih =>
    rw [pushData, if_neg (by simp)]
    dsimp only [EncryptState.getChunk]
    rcases length_le_or_exists_append (x := data) encryptChunkSize with hle | ⟨c, y, rfl, hc, hy⟩
    · rw [pushed_of_length_le st hdata hle, flatten_singleton] at hroom ⊢
      have hmore : ¬data.length > encryptChunkSize := not_lt.mpr hle
      rw [take_of_length_le hle, if_neg (by simp [hdata, hmore])]
      simp only [hmore, decide_false, Bool.false_eq_true, if_false, dif_neg, not_false_eq_true]
      rw [pushChunk_of_le _ hroom]
      exact ⟨_, rfl, rfl⟩
    have hlen : y.length < n := by
      rw [← hn, length_append, hc]
      exact Nat.lt_add_of_pos_left (by decide)
    have hmore : (c ++ y).length > encryptChunkSize := by
      rw [length_append, hc]
      exact Nat.lt_add_of_pos_right (length_pos_of_ne_nil hy)
    have hne : c ≠ [] := by
      rintro rfl
      cases hc
    rw [pushed_append st hc hy, flatten_cons] at hroom ⊢
    rw [length_append] at hroom
    rw [take_left' hc, drop_left' hc, if_neg (by simp [hne, hc])]
    simp only [hmore, decide_true, if_true, dif_pos]
    rw [pushChunk_of_le _ (by dsimp only; omega)]
    obtain ⟨s', hs', hw⟩ := ih _ hlen (ss.push st c 0).2 (written ++ (ss.push st c 0).1) y hy
      (by rw [length_append]; omega) rfl
    exact ⟨s', hs', by rw [hw, append_assoc]⟩

/-- **The two loops of `encrypt_impl` push the padding and the data, cut into chunks.** -/
lemma pushPadding_pushData {outSize padding : Nat} {s : EncryptState ss} (hdone : s.done = false)
    (hroom : s.written.length +
      (pushed ss s.st (replicate padding 0 ++ 1 :: s.data)).flatten.length ≤ outSize) :
    ∃ s', (pushPadding outSize (padding + 1) s >>= pushData outSize) = .ok s' ∧ s'.written =
        s.written ++ (pushed ss s.st (replicate padding 0 ++ 1 :: s.data)).flatten := by
  obtain ⟨st, written, data, done⟩ := s
  dsimp only at hdone hroom ⊢
  induction padding using Nat.strong_induction_on generalizing st written with
  | _ padding ih =>
    rw [pushPadding, if_neg (succ_ne_zero padding)]
    by_cases hfull : encryptChunkSize < padding + 1
    · -- a chunk of zeros, and more padding
      obtain ⟨rest, rfl⟩ := Nat.exists_eq_add_of_le (Nat.lt_succ_iff.mp hfull)
      rw [replicate_add, append_assoc,
        pushed_append st (length_replicate ..) (by simp), flatten_cons] at hroom ⊢
      rw [length_append] at hroom
      rw [if_pos hfull, pushChunk_of_le _ (by dsimp only; omega), ok_bind]
      rw [add_assoc, Nat.add_sub_cancel_left]
      obtain ⟨s', hs', hw⟩ := ih rest (Nat.lt_add_of_pos_left (by decide))
        (ss.push st (replicate encryptChunkSize 0) 0).2
        (written ++ (ss.push st (replicate encryptChunkSize 0) 0).1)
        (by rw [length_append]; omega)
      exact ⟨s', hs', by rw [hw, append_assoc]⟩
    -- the end of the padding, and what fits behind it
    rw [if_neg hfull, Nat.add_sub_cancel]
    dsimp only [EncryptState.getChunk]
    rcases length_le_or_exists_append (x := data) (encryptChunkSize - (padding + 1)) with
      hle | ⟨c, y, rfl, hc, hy⟩
    · have hmore : ¬data.length > encryptChunkSize - (padding + 1) := not_lt.mpr hle
      have hwhole : (replicate padding 0 ++ 1 :: data).length ≤ encryptChunkSize := by
        rw [length_append, length_replicate, length_cons]
        omega
      rw [pushed_of_length_le st (by simp) hwhole, flatten_singleton] at hroom ⊢
      rw [List.take_of_length_le hle]
      simp only [hmore, decide_false, Bool.false_eq_true, not_false_eq_true, or_true,
        not_true_eq_false, if_false, List.append_assoc, List.singleton_append]
      rw [pushChunk_of_le _ hroom, ok_bind, ok_bind, pushData]
      exact ⟨_, rfl, rfl⟩
    have hmore : (c ++ y).length > encryptChunkSize - (padding + 1) := by
      rw [List.length_append, hc]
      exact Nat.lt_add_of_pos_right (List.length_pos_of_ne_nil hy)
    have hbuf : (List.replicate padding 0 ++ [1] ++ c).length = encryptChunkSize := by
      rw [List.length_append, List.length_append, List.length_replicate, List.length_singleton, hc]
      omega
    have hsplit : List.replicate padding 0 ++ 1 :: (c ++ y) =
        List.replicate padding 0 ++ [1] ++ c ++ y := by simp
    rw [hsplit, pushed_append st hbuf hy, List.flatten_cons] at hroom ⊢
    rw [List.length_append] at hroom
    rw [List.take_left' hc, List.drop_left' hc]
    simp only [hmore, decide_true, hc, true_or, not_true_eq_false, if_false, if_true]
    rw [pushChunk_of_le _ (by dsimp only; omega), ok_bind, ok_bind]
    let next : EncryptState ss :=
      ⟨(ss.push st (List.replicate padding 0 ++ [1] ++ c) 0).2,
        written ++ (ss.push st (List.replicate padding 0 ++ [1] ++ c) 0).1, y, false⟩
    have hnext : next.written.length + (pushed ss next.st next.data).flatten.length ≤
        outSize := by
      dsimp only [next]
      rw [List.length_append]
      omega
    obtain ⟨s', hs', hw⟩ := pushData_spec rfl hy hnext
    exact ⟨s', hs', by rw [hw, List.append_assoc]⟩

/-! ## Round trip -/

lemma wellFormed_pushed (nonce : StreamHeader) (key : Key) (padding : Nat) (data : Bytes) :
    WellFormed ss (ascii 'S' :: (nonce.val ++
      (pushed ss (ss.init nonce key) (replicate padding 0 ++ 1 :: data)).flatten)) key data := by
  have hpos : 0 < encryptChunkSize := by decide
  have hne : replicate padding 0 ++ 1 :: data ≠ [] := by simp
  refine ⟨nonce, _, tagged (chunks encryptChunkSize (replicate padding 0 ++ 1 :: data)), rfl,
    ?_, ?_, ?_, padding, ?_⟩
  · rw [chunks_pushed _ hne]
    exact pullAll_pushAll _ _
  · exact finalLast_tagged (mt (chunks_eq_nil_iff hpos).mp hne)
  · intro p hp
    have hmem : p.1 ∈ chunks encryptChunkSize (replicate padding 0 ++ 1 :: data) := by
      rw [← map_fst_tagged (chunks encryptChunkSize (replicate padding 0 ++ 1 :: data))]
      exact mem_map_of_mem hp
    exact ne_nil_of_mem_chunks hmem
  · rw [plainOf, map_fst_tagged, flatten_chunks hpos]

lemma encryptImpl_spec (nonce : StreamHeader) (key : Key) {data : Bytes}
    (h : 1 ≤ encryptedPadding data.length)
    (hsize : encryptedSize data.length = 25 + (data.length + encryptedPadding data.length) +
      (data.length + encryptedPadding data.length + 32767) / 32768 * 17) :
    ∃ encrypted, @encryptImpl ss (encryptedSize data.length) data.length nonce key data =
        .ok encrypted ∧
      encrypted.length = encryptedSize data.length ∧ WellFormed ss encrypted key data := by
  obtain ⟨padding, hpadding⟩ := Nat.exists_eq_add_of_le' h
  have hlen : (pushed ss (ss.init nonce key) (replicate padding 0 ++ 1 :: data)).flatten.length =
        encryptedSize data.length - (1 + encryptHeader) := by
    rw [length_flatten_pushed, length_append, length_replicate, length_cons, hsize, hpadding]
    unfold chunkCount encryptHeader encryptChunkSize encryptChunkOverhead
    rw [show padding + (data.length + 1) = data.length + (padding + 1) by omega]
    omega
  obtain ⟨s', hs', hw⟩ := @pushPadding_pushData ss (encryptedSize data.length - (1 + encryptHeader))
    padding ⟨ss.init nonce key, [], data, false⟩ rfl (by simp [hlen])
  refine ⟨ascii 'S' :: (nonce.val ++ s'.written), ?_, ?_, ?_⟩
  · unfold encryptImpl
    rw [if_neg (not_not.mpr h), if_neg (not_not.mpr rfl), hpadding, ← bind_assoc, hs', ok_bind]
  · rw [hw, nil_append, length_cons, length_append, nonce.2, hlen, hsize]
    unfold encryptHeader
    omega
  · rw [hw, nil_append]
    exact wellFormed_pushed nonce key padding data

/-- **What `encrypt` makes is decrypted to the data**, at once and in any pieces; the encryption has
the size `encrypted_size` gives, all of it is written, and no assertion fails. -/
theorem attachment_roundtrip (ss : SecretStream)
    (hash : (size : Nat) → Bytes → Bytes → {b : Bytes // b.length = size}) (seed data : Bytes)
    (domain : Domain) (hseed : 32 ≤ seed.length) (hdata : data.length ≤ maxRegularSize) :
    ∃ encrypted key, encrypt ss hash seed data domain false = .ok (encrypted, key) ∧
      @encryptImpl ss (encryptedSize data.length) data.length
        (nonceKey hash seed data domain).1 key data = .ok encrypted ∧
      encrypted.length = encryptedSize data.length ∧ decrypt ss encrypted key = .ok data ∧
      ∀ pieces, pieces.flatten = encrypted →
        Decryptor.run ss collect key pieces = .ok (true, data) := by
  obtain ⟨hpos, hle⟩ := encryptedPadding_pos hdata
  have hsmall : data.length ≤ 10218286 := hdata
  have hlen := @encryptedSize_of_lt data.length (by omega) (by omega)
  obtain ⟨encrypted, himpl, hlen', hwell⟩ := @encryptImpl_spec ss
    (nonceKey hash seed data domain).1 (nonceKey hash seed data domain).2 data hpos hlen
  have hsize : encrypted.length < 2 ^ 64 := by
    rw [hlen', hlen]
    omega
  refine ⟨encrypted, (nonceKey hash seed data domain).2, ?_, himpl, hlen', hwell.decrypt hsize,
    fun pieces => hwell.run_collect⟩
  rw [encrypt, if_neg (by omega), if_neg (by simp; omega)]
  dsimp only
  rw [himpl, ok_bind, hlen', Nat.sub_self, replicate_zero, append_nil]

theorem attachment_roundtrip_sample :
    32 ≤ (List.replicate 32 (7 : UInt8)).length ∧ [(1 : UInt8), 2, 3].length ≤ maxRegularSize ∧
      ∃ encrypted key, encrypt plainStream (fun size _ _ => ⟨List.replicate size 0, by simp⟩)
          (List.replicate 32 7) [1, 2, 3] .attachment false = .ok (encrypted, key) ∧
        decrypt plainStream encrypted key = .ok [1, 2, 3] := by
  refine ⟨by decide, by decide, ?_⟩
  obtain ⟨encrypted, key, henc, -, -, hdec, -⟩ := attachment_roundtrip plainStream
    (fun size _ _ => ⟨replicate size 0, by simp⟩) (replicate 32 7) [1, 2, 3] .attachment
    (by decide) (by decide)
  exact ⟨encrypted, key, henc, hdec⟩

end Bchat.Attachments
