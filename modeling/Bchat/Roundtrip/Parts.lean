import Bchat.Config.Device

/-!
# Packing and splitting, and back

What `push()` does with the serialized message is undone by `merge()`: compression and padding, the
chunks of a large message, and the encoding of a part.
-/

namespace Bchat.Config

open Bencode List Device

/-! ## Compression and padding -/

lemma removePadding_cons {c : UInt8} (h : c ≠ 0) (l : Bytes) : removePadding (c :: l) = c :: l := by
  have hc : (c == 0) = false := by simpa using h
  unfold removePadding
  rw [all_cons, hc, Bool.false_and, if_neg Bool.false_ne_true, dropWhile_cons, hc]
  rfl

lemma removePadding_replicate {c : UInt8} (h : c ≠ 0) (n : Nat) (l : Bytes) :
    removePadding (List.replicate n 0 ++ c :: l) = c :: l := by
  have hc : (c == 0) = false := by simpa using h
  have hall : (replicate n (0 : UInt8) ++ c :: l).all (· == 0) = false := by simp [h]
  unfold removePadding
  rw [hall, if_neg Bool.false_ne_true, dropWhile_append_of_pos (by simp), dropWhile_cons, hc]
  rfl

lemma removePadding_padMessage {c : UInt8} (h : c ≠ 0) (l : Bytes) (overhead : Nat) :
    removePadding (padMessage (c :: l) overhead) = c :: l :=
  removePadding_replicate h _ l

lemma inflate_dict (zstd : Zstd) (l : Bytes) :
    inflate zstd (ascii 'd' :: l) = some (ascii 'd' :: l) := by
  unfold inflate
  simp only
  rw [if_neg (by decide), if_pos trivial]

lemma inflate_compressed {zstd : Zstd} {comp l : Bytes}
    (h : zstd.decompress comp = some (ascii 'd' :: l)) :
    inflate zstd (ascii 'z' :: comp) = some (ascii 'd' :: l) := by
  unfold inflate
  simp only [if_pos, h]

lemma packed_cases (tr : Transport) (msg : Bytes) :
    packed tr msg = padMessage msg encryptDataOverhead ∨ ∃ level, packed tr msg =
      padMessage (ascii 'z' :: tr.zstd.compress level msg) encryptDataOverhead := by
  unfold packed
  split
  · next level _ =>
    unfold compressMessage
    split
    · exact .inl rfl
    simp only
    split
    · exact .inr ⟨level, rfl⟩
    · exact .inl rfl
  · exact .inl rfl

lemma inflate_packed (tr : Transport) (l : Bytes) :
    inflate tr.zstd (removePadding (Device.packed tr (ascii 'd' :: l))) =
      some (ascii 'd' :: l) := by
  rcases packed_cases tr (ascii 'd' :: l) with heq | ⟨level, heq⟩ <;>
    rw [heq, removePadding_padMessage (by decide)]
  · rw [inflate_dict]
  · exact inflate_compressed (tr.zstd.decompress_compress level _)

lemma head?_removePadding_packed (tr : Transport) (l : Bytes) :
    (removePadding (Device.packed tr (ascii 'd' :: l))).head? ≠ some (ascii 'm') := by
  rcases packed_cases tr (ascii 'd' :: l) with heq | ⟨level, heq⟩ <;>
    rw [heq, removePadding_padMessage (by decide), head?_cons] <;> decide

/-! ## A part -/

lemma length_encodeNat_le {n k : Nat} (hk : 0 < k) (h : n < 10 ^ k) : (encodeNat n).length ≤ k := by
  unfold encodeNat
  split
  · exact hk
  · rw [length_map, length_reverse]
    exact (Nat.digits_length_le_iff (by decide) n).mpr h

lemma length_encodeStr_le {s : Bytes} {k : Nat} (hk : 0 < k) (h : s.length < 10 ^ k) :
    (encodeStr s).length ≤ k + 1 + s.length := by
  have := length_encodeNat_le hk h
  unfold encodeStr
  rw [length_append, length_cons]
  omega

lemma length_encode_le {p : Part} (h : p.data.length < 100000) :
    p.encode.length ≤ p.data.length + Device.encodeOverhead := by
  have hhash : (encodeStr p.finalHash.val).length ≤ 2 + 1 + 32 := by
    have := length_encodeStr_le (s := p.finalHash.val) (k := 2) (by omega)
      (by rw [p.finalHash.2]; omega)
    rwa [p.finalHash.2] at this
  have hbyte : ∀ b : UInt8, (encodeStr [b]).length ≤ 1 + 1 + 1 := fun b =>
    length_encodeStr_le (by omega) (by simp)
  have hdata : (encodeStr p.data).length ≤ 5 + 1 + p.data.length :=
    length_encodeStr_le (by omega) (by omega)
  have hindex := hbyte p.index
  have hnum := hbyte p.numParts
  unfold Part.encode encodeOverhead
  simp only [length_cons, length_append, length_nil]
  omega

lemma length_partBuffer {p : Part} (h : p.data.length < 100000) :
    (Device.partBuffer p).length = p.data.length + Device.encodeOverhead := by
  have := length_encode_le h
  unfold partBuffer
  rw [length_append, length_replicate]
  omega

lemma parsePart_partBuffer {p : Part} (hnum : 1 < p.numParts) (hindex : p.index < p.numParts)
    (hdata : p.data ≠ []) (hlen : (Device.partBuffer p).length ≤ maxMessageSize) :
    parsePart (Device.partBuffer p) = some p := by
  obtain ⟨rest, hrest⟩ : ∃ rest, partBuffer p = ascii 'm' :: ascii 'l' ::
      (encodeStr p.finalHash.val ++ (encodeStr [p.index] ++ (encodeStr [p.numParts] ++
        (encodeStr p.data ++ ascii 'e' :: rest)))) := by
    refine ⟨replicate (p.data.length + encodeOverhead - p.encode.length) 0, ?_⟩
    unfold partBuffer Part.encode
    simp only [append_assoc, cons_append, nil_append]
  have hnot : ¬(p.numParts ≤ 1 ∨ p.numParts ≤ p.index) := by
    rintro (h | h)
    · exact absurd hnum (not_lt.mpr h)
    · exact absurd hindex (not_lt.mpr h)
  unfold parsePart
  rw [if_neg (not_lt.mpr hlen), hrest]
  simp [decodeStr_encodeStr, hnot, p.finalHash.2, hdata]

/-! ## Chunks -/

namespace Device

lemma maxChunkSize_eq : maxChunkSize = 76710 := rfl

lemma flatten_splitChunks (fuel : Nat) (msg : Bytes) (h : msg.length ≤ fuel) :
    (splitChunks fuel msg).flatten = msg := by
  fun_induction splitChunks fuel msg with
  | case1 msg => exact (length_eq_zero_iff.mp (by omega)).symm
  | case2 fuel msg hnil => exact (isEmpty_iff.mp hnil).symm
  | case3 fuel msg hnil ih =>
    have hdrop : (msg.drop maxChunkSize).length ≤ fuel := by
      rw [length_drop, maxChunkSize_eq]
      omega
    rw [flatten_cons, ih hdrop, take_append_drop]

lemma length_splitChunks (fuel : Nat) (msg : Bytes) (h : msg.length ≤ fuel) :
    (splitChunks fuel msg).length = (msg.length + maxChunkSize - 1) / maxChunkSize := by
  rw [maxChunkSize_eq]
  fun_induction splitChunks fuel msg with
  | case1 msg =>
    simp only [length_nil]
    omega
  | case2 fuel msg hnil => simp [isEmpty_iff.mp hnil]
  | case3 fuel msg hnil ih =>
    have hpos : 0 < msg.length := length_pos_iff.mpr (by simpa using hnil)
    rw [maxChunkSize_eq, length_drop] at ih
    rw [length_cons, maxChunkSize_eq, ih (by omega)]
    omega

lemma mem_splitChunks {fuel : Nat} {msg chunk : Bytes} (h : chunk ∈ splitChunks fuel msg) :
    chunk ≠ [] ∧ chunk.length ≤ maxChunkSize := by
  fun_induction splitChunks fuel msg with
  | case1 msg | case2 fuel msg hnil => simp at h
  | case3 fuel msg hnil ih =>
    rcases mem_cons.mp h with rfl | h
    · simpa [maxChunkSize_eq] using hnil
    · exact ih h

/-! ## The parts of a message -/

lemma length_splitChunks_bounds {msg : Bytes}
    (hlarge : maxMessageSize < msg.length + encryptDataOverhead)
    (hsize : msg.length ≤ maxMultipartSize) :
    2 ≤ (splitChunks msg.length msg).length ∧ (splitChunks msg.length msg).length ≤ 66 := by
  rw [length_splitChunks _ _ le_rfl, maxChunkSize_eq]
  unfold maxMessageSize encryptDataOverhead at hlarge
  unfold maxMultipartSize at hsize
  omega

lemma length_partBuffers (finalHash : Hash) (msg : Bytes) :
    (partBuffers finalHash msg).length = (splitChunks msg.length msg).length := by
  simp [partBuffers]

lemma getElem?_partBuffers (finalHash : Hash) (msg : Bytes) (i : Nat) :
    (partBuffers finalHash msg)[i]? = ((splitChunks msg.length msg)[i]?).map fun chunk =>
      partBuffer ⟨finalHash, UInt8.ofNat i,
        UInt8.ofNat (splitChunks msg.length msg).length, chunk⟩ := by
  unfold partBuffers
  simp only [getElem?_map, getElem?_zipIdx, Option.map_map, Nat.zero_add,
    ← length_splitChunks _ _ (le_refl msg.length)]
  rfl

lemma parsePart_partBuffers {finalHash : Hash} {msg buffer : Bytes} {i : Nat}
    (hcount : 2 ≤ (splitChunks msg.length msg).length ∧ (splitChunks msg.length msg).length ≤ 66)
    (h : (partBuffers finalHash msg)[i]? = some buffer) :
    ∃ chunk, (splitChunks msg.length msg)[i]? = some chunk ∧
      buffer.length + encryptDataOverhead ≤ maxMessageSize ∧
      removePadding buffer = buffer ∧ buffer.head? = some (ascii 'm') ∧
      parsePart buffer = some ⟨finalHash, UInt8.ofNat i,
        UInt8.ofNat (splitChunks msg.length msg).length, chunk⟩ := by
  rw [getElem?_partBuffers] at h
  obtain ⟨chunk, hchunk, rfl⟩ := Option.map_eq_some_iff.mp h
  obtain ⟨hi, -⟩ := List.getElem?_eq_some_iff.mp hchunk
  obtain ⟨hne, hle⟩ := mem_splitChunks (List.mem_of_getElem? hchunk)
  rw [maxChunkSize_eq] at hle
  have hlen := length_partBuffer (p := ⟨finalHash, UInt8.ofNat i,
    UInt8.ofNat (splitChunks msg.length msg).length, chunk⟩) (show chunk.length < 100000 by omega)
  have hover : encodeOverhead = 50 := rfl
  refine ⟨chunk, hchunk, ?_, removePadding_cons (by decide) _, rfl,
    parsePart_partBuffer ?_ ?_ hne ?_⟩
  · rw [hlen, hover]
    unfold maxMessageSize encryptDataOverhead
    simp only
    omega
  · rw [UInt8.lt_iff_toNat_lt, UInt8.toNat_ofNat_of_lt' (show _ < UInt8.size by
      unfold UInt8.size; omega)]
    exact hcount.1
  · rw [UInt8.lt_iff_toNat_lt, UInt8.toNat_ofNat_of_lt' (show _ < UInt8.size by
      unfold UInt8.size; omega), UInt8.toNat_ofNat_of_lt' (show _ < UInt8.size by
      unfold UInt8.size; omega)]
    exact hi
  rw [hlen, hover]
  unfold maxMessageSize
  simp only
  omega

end Device

end Bchat.Config
