import Bchat.Properties.Attachments

/-!
# The sizes of encrypted attachments

An attachment is padded to a multiple of a factor that grows with it, and padding that spills into a
new chunk pays for its tag. A size that would end within such a tag cannot be reached:
`encrypted_padding` misses it, or goes below zero.
-/

namespace Bchat.Attachments

open Nat

/-- The size of an attachment of `n` bytes with one byte of padding. -/
def unpaddedSize (n : Nat) : Nat := n + 26 + 17 * chunkCount n encryptChunkSize

def padFactor (n : Nat) : Nat := bitFloor (max (unpaddedSize n) 131072) / 32

def paddedSize (n : Nat) : Nat := (unpaddedSize n + padFactor n - 1) / padFactor n * padFactor n

/-! ## Rounding up -/

lemma chunkCount_spec (n : Nat) :
    chunkCount n encryptChunkSize * encryptChunkSize < n + encryptChunkSize ∧
      n ≤ chunkCount n encryptChunkSize * encryptChunkSize := by
  unfold chunkCount encryptChunkSize
  omega

lemma padFactor_eq (n : Nat) : padFactor n = 2 ^ (log2 (max (unpaddedSize n) 131072) - 5) := by
  have hne : max (unpaddedSize n) 131072 ≠ 0 := by omega
  have hlow : 17 ≤ log2 (max (unpaddedSize n) 131072) := (le_log2 hne).mpr (by omega)
  rw [padFactor, bitFloor, if_neg hne]
  exact Nat.pow_div (x := 2) (n := 5) (by omega) (by decide)

lemma paddedSize_spec (n : Nat) :
    unpaddedSize n ≤ paddedSize n ∧ paddedSize n < unpaddedSize n + padFactor n := by
  have hpos : 0 < padFactor n := by
    rw [padFactor_eq]
    positivity
  have hdiv := div_add_mod (unpaddedSize n + padFactor n - 1) (padFactor n)
  have hmod := mod_lt (unpaddedSize n + padFactor n - 1) hpos
  rw [mul_comm] at hdiv
  unfold paddedSize
  omega

lemma isLeast_paddedSize (n : Nat) :
    IsLeast {size | padFactor n ∣ size ∧ unpaddedSize n ≤ size} (paddedSize n) := by
  obtain ⟨hle, hlt⟩ := paddedSize_spec n
  have hdvd : padFactor n ∣ paddedSize n := Dvd.intro_left _ rfl
  refine ⟨⟨hdvd, hle⟩, fun size ⟨hsize, hle'⟩ => ?_⟩
  by_contra hgt
  have hstep := le_of_dvd (by omega) (Nat.dvd_sub hdvd hsize)
  omega

/-! ## Padding -/

lemma encryptedPadding_eq (n : Nat) : ∃ i, encryptedPadding n =
      sizeSub (paddedSize n - unpaddedSize n + 1) i ∧
    i = (paddedSize n - unpaddedSize n + 1) / 32785 * 17 +
      if (paddedSize n - unpaddedSize n + 1) % 32785 >
        chunkCount n encryptChunkSize * 32768 - n then 17 else 0 := by
  have henc : n + (1 + 24) + 1 + chunkCount n encryptChunkSize * 17 = unpaddedSize n := by
    unfold unpaddedSize
    omega
  refine ⟨_, ?_, rfl⟩
  unfold encryptedPadding encryptedChunkTotal encryptHeader encryptChunkOverhead
  dsimp only
  rw [henc, shiftRight_eq_div_pow,
    show bitFloor (max (unpaddedSize n) 131072) / 2 ^ 5 = padFactor n from rfl, ← paddedSize]
  congr 1
  unfold encryptChunkSize
  split_ifs <;> omega

lemma padding_exact {n k p i : Nat} (hk : n ≤ k * 32768) (hk' : k * 32768 < n + 32768)
    (hp : 1 ≤ p) (hi : i = p / 32785 * 17 + if p % 32785 > k * 32768 - n then 17 else 0) :
    (i < p ∧ n + (p - i) + (n + (p - i) + 32767) / 32768 * 17 = n + 17 * k + p) ↔
      ¬(1 ≤ (n + 17 * k + p) % 32785 ∧ (n + 17 * k + p) % 32785 ≤ 17) := by
  split at hi <;> constructor <;> intro h <;> omega

/-- Whatever the padding is, the chunks of the padded data need at most one tag more. -/
lemma padding_le {n k p i : Nat} (hk : n ≤ k * 32768)
    (hi : i = p / 32785 * 17 + if p % 32785 > k * 32768 - n then 17 else 0) (hip : i ≤ p) :
    n + (p - i) + (n + (p - i) + 32767) / 32768 * 17 ≤ n + 17 * k + p + 17 := by
  have hcount : (n + (p - i) + 32767) / 32768 ≤ k + p / 32785 + 1 := by
    split at hi <;> omega
  split at hi <;> omega

lemma paddedSize_add_le {n : Nat} (h : unpaddedSize n + padFactor n - 1 < 2 ^ 64) :
    paddedSize n + 32768 ≤ 2 ^ 64 := by
  obtain ⟨hle, hlt⟩ := paddedSize_spec n
  have hne : max (unpaddedSize n) 131072 ≠ 0 := by omega
  have hfactor := padFactor_eq n
  have hlog : log2 (max (unpaddedSize n) 131072) < 64 := (log2_lt hne).mpr (by omega)
  have hsmall : padFactor n ≤ 2 ^ 58 := by
    rw [hfactor]
    exact Nat.pow_le_pow_right (by decide) (by omega)
  by_cases hbig : unpaddedSize n < 2 ^ 63
  · omega
  have hlow : 63 ≤ log2 (max (unpaddedSize n) 131072) := (le_log2 hne).mpr (by omega)
  have hfactor : padFactor n = 2 ^ 58 := by
    rw [hfactor, show log2 (max (unpaddedSize n) 131072) = 63 by omega]
  rw [hfactor] at h
  have hcount : (unpaddedSize n + 2 ^ 58 - 1) / 2 ^ 58 ≤ 63 := by omega
  rw [paddedSize, hfactor]
  omega

lemma encryptedSize_of_lt {n : Nat} (h : n + encryptedPadding n + 32767 < 2 ^ 64)
    (h' : 25 + (n + encryptedPadding n) + (n + encryptedPadding n + 32767) / 32768 * 17 < 2 ^ 64) :
    encryptedSize n =
      25 + (n + encryptedPadding n) + (n + encryptedPadding n + 32767) / 32768 * 17 := by
  unfold encryptedSize encryptHeader encryptChunkSize encryptChunkOverhead
  dsimp only
  rw [mod_eq_of_lt (by omega : n + encryptedPadding n < 2 ^ 64),
    show n + encryptedPadding n + 32768 - 1 = n + encryptedPadding n + 32767 by omega,
    mod_eq_of_lt h, mod_eq_of_lt (by omega)]
  omega

/-- The bound says that the sum that is rounded up fits into `size_t`. The sums of `encrypted_size`
then fit as well, unless the padding wraps around. -/
lemma encryptedSize_eq_iff {n : Nat} (h : unpaddedSize n + padFactor n - 1 < 2 ^ 64) :
    (encryptedSize n = paddedSize n ∧ 1 ≤ encryptedPadding n ∧
        encryptedPadding n ≤ paddedSize n - unpaddedSize n + 1) ↔
      ¬(26 ≤ paddedSize n % 32785 ∧ paddedSize n % 32785 ≤ 42) := by
  obtain ⟨hk', hk⟩ := chunkCount_spec n
  obtain ⟨hle, hlt⟩ := paddedSize_spec n
  obtain ⟨i, hpad, hi⟩ := encryptedPadding_eq n
  have hroom := paddedSize_add_le h
  have hsize := @encryptedSize_of_lt n
  have hexact := padding_exact hk hk' (by omega) hi
  have hbound := padding_le hk hi
  have hsum : n + 17 * chunkCount n encryptChunkSize + (paddedSize n - unpaddedSize n + 1) + 25 =
      paddedSize n := by
    unfold unpaddedSize at *
    omega
  have hgap : (26 ≤ paddedSize n % 32785 ∧ paddedSize n % 32785 ≤ 42) ↔
      1 ≤ (paddedSize n - 25) % 32785 ∧ (paddedSize n - 25) % 32785 ≤ 17 := by omega
  rw [show n + 17 * chunkCount n encryptChunkSize + (paddedSize n - unpaddedSize n + 1) =
    paddedSize n - 25 by omega] at hexact hbound
  rw [hpad] at hsize ⊢
  rw [hgap, ← hexact]
  have hp : paddedSize n - unpaddedSize n + 1 < 2 ^ 64 := by omega
  generalize paddedSize n - unpaddedSize n + 1 = p at *
  by_cases hip : i ≤ p
  · rw [sizeSub_of_le hip hp] at hsize ⊢
    have hle' := hbound hip
    have hcount : n + (p - i) + 32767 < 2 ^ 64 := by omega
    generalize hm : (n + (p - i) + 32767) / 32768 = m at *
    rw [hsize hcount (by omega)]
    omega
  -- the subtraction goes below zero
  have hwrap : p < sizeSub p i := by
    have hsmall : i < 2 ^ 64 := by split at hi <;> omega
    unfold sizeSub
    omega
  exact iff_of_false (fun h => absurd h.2.2 (not_le.mpr hwrap)) fun h => hip h.1.le

/-- **Without `allow_large` there is always padding**, and it is small: none of the few sizes that
such attachments are padded to ends within a tag. -/
lemma encryptedPadding_pos {n : Nat} (h : n ≤ maxRegularSize) :
    1 ≤ encryptedPadding n ∧ encryptedPadding n ≤ 2 ^ 18 := by
  obtain ⟨-, hlt⟩ := paddedSize_spec n
  have hsmall : unpaddedSize n < 2 ^ 24 := by
    unfold unpaddedSize chunkCount encryptChunkSize
    unfold maxRegularSize at h
    omega
  have hne : max (unpaddedSize n) 131072 ≠ 0 := by omega
  have hlow : 17 ≤ log2 (max (unpaddedSize n) 131072) := (le_log2 hne).mpr (by omega)
  have hhigh : log2 (max (unpaddedSize n) 131072) < 24 := (log2_lt hne).mpr (by omega)
  have htop := @lt_log2_self (max (unpaddedSize n) 131072)
  have hfactor := padFactor_eq n
  generalize log2 (max (unpaddedSize n) 131072) = e at *
  have hle : padFactor n ≤ 2 ^ 18 := hfactor ▸ Nat.pow_le_pow_right (by decide) (by omega)
  have hcount : (unpaddedSize n + padFactor n - 1) / padFactor n < 65 := by
    rw [Nat.div_lt_iff_lt_mul (hfactor ▸ by positivity), hfactor]
    rw [show e + 1 = (e - 5) + 6 by omega, pow_add] at htop
    omega
  have hgap : ∀ e < 24, 17 ≤ e → ∀ j < 65,
      ¬(26 ≤ j * 2 ^ (e - 5) % 32785 ∧ j * 2 ^ (e - 5) % 32785 ≤ 42) := by decide +kernel
  have hsize : paddedSize n = (unpaddedSize n + padFactor n - 1) / padFactor n * 2 ^ (e - 5) := by
    rw [← hfactor, paddedSize]
  obtain ⟨-, hpos, hmax⟩ := (encryptedSize_eq_iff (n := n) (by omega)).mpr
    (by rw [hsize]; exact hgap e hhigh hlow _ hcount)
  exact ⟨hpos, by omega⟩

/-! ## The law -/

/-- The size is the smallest multiple of the factor that holds the data and one byte of padding, and
the padding is neither empty nor, by an underflow, more than what is missing to that size. -/
def SizeLaw (n : Nat) : Prop :=
  IsLeast {size | padFactor n ∣ size ∧ unpaddedSize n ≤ size} (encryptedSize n) ∧
    1 ≤ encryptedPadding n ∧ encryptedPadding n ≤ encryptedSize n - unpaddedSize n + 1

/-- **The sizes of attachments follow the law, except for padded sizes that end within the first 17
bytes of a chunk.** -/
theorem encrypted_size_law_iff (n : Nat) (h : unpaddedSize n + padFactor n - 1 < 2 ^ 64) :
    SizeLaw n ↔ ¬(26 ≤ paddedSize n % 32785 ∧ paddedSize n % 32785 ≤ 42) := by
  have hleast := isLeast_paddedSize n
  rw [← encryptedSize_eq_iff h]
  refine ⟨fun ⟨hsize, hpos, hmax⟩ => ?_, fun ⟨hsize, hpos, hmax⟩ => ?_⟩
  · have heq := hsize.unique hleast
    exact ⟨heq, hpos, by rwa [heq] at hmax⟩
  · rw [SizeLaw, hsize]
    exact ⟨hleast, hpos, hmax⟩

theorem encrypted_size_law_million :
    unpaddedSize 1000000 + padFactor 1000000 - 1 < 2 ^ 64 ∧ SizeLaw 1000000 :=
  ⟨by decide +kernel, (encrypted_size_law_iff 1000000 (by decide +kernel)).mpr (by decide +kernel)⟩

/-- Data of 1.3 TB to which 11 bytes are missing: with the tag of the new chunk that is 5 less than
nothing. -/
theorem encrypted_size_law_wrapped :
    unpaddedSize 1339334950912 + padFactor 1339334950912 - 1 < 2 ^ 64 ∧
      encryptedPadding 1339334950912 = 2 ^ 64 - 5 ∧
      encryptedSize 1339334950912 = 1340029796335 ∧ ¬SizeLaw 1339334950912 := by
  refine ⟨by decide +kernel, by decide +kernel, by decide +kernel, fun h => ?_⟩
  have hdvd : ¬padFactor 1339334950912 ∣ encryptedSize 1339334950912 := by decide +kernel
  exact hdvd h.1.1.1

/-! ## How much a decryption writes

`decrypt` makes room for `decrypted_max_size` bytes before it knows how much is padding. That is
enough for every attachment whose last chunk can be one. Where a few bytes stand behind the last
chunk, the size that is asserted goes below zero, and the room can be too small.
-/

section

open Config List

variable {ss : SecretStream} {st : ss.State} {outSize : Nat}

/-- The call ends with an exception that callers expect. -/
def Failure.Expected (e : Failure) : Prop := e ≠ .assertion ∧ e ≠ .overrun

lemma expected_runtime (what : String) : (Failure.runtime what).Expected := ⟨nofun, nofun⟩

lemma decryptedMaxSize_spec {n maxSize : Nat} (h : decryptedMaxSize n = some maxSize)
    (hn : n < 2 ^ 64) :
    26 ≤ n ∧ n - 26 ≤ maxSize + (n - 26 + 32784) / 32785 * 17 ∧ maxSize ≤ n := by
  unfold decryptedMaxSize encryptedChunkTotal encryptHeader encryptChunkOverhead
    encryptChunkSize at h
  dsimp only at h
  split at h
  · cases h
  rename_i hle
  cases h
  have hlow : 26 ≤ n := by
    by_contra hlt
    have hsz : sizeSub n (1 + 1 + 24) = n + (2 ^ 64 - 26) := by
      unfold sizeSub
      omega
    unfold sizeSub at hle
    omega
  have hover := Nat.div_le_div_right (c := 32785) (Nat.mod_le (n - 26 + (32768 + 17) - 1) (2 ^ 64))
  rw [sizeSub_of_le hlow hn] at hle ⊢
  generalize (n - 26 + (32768 + 17) - 1) % 2 ^ 64 / (32768 + 17) = c at *
  by_cases hc : c * 17 ≤ n - 26
  · rw [sizeSub_of_le hc (by omega)]
    omega
  · unfold sizeSub at hle
    omega

lemma exists_maxSize {n : Nat} (h : 43 ≤ n) (hn : n < 2 ^ 64) :
    ∃ maxSize, decryptedMaxSize n = some maxSize := by
  have hover := Nat.div_le_div_right (c := 32785) (Nat.mod_le (n - 26 + (32768 + 17) - 1) (2 ^ 64))
  unfold decryptedMaxSize encryptedChunkTotal encryptHeader encryptChunkOverhead encryptChunkSize
  dsimp only
  rw [sizeSub_of_le (by omega) hn, sizeSub_of_le (by omega) (by omega), if_neg (by omega)]
  exact ⟨_, rfl⟩

lemma expected_of_checkTag {tag : UInt8} {rest : Bytes} {e : Failure}
    (h : checkTag tag rest = .error e) : e.Expected := by
  unfold checkTag at h
  split at h <;> split at h <;> cases h <;> exact expected_runtime _

/-! ## Enough room -/

/-- The padding ends in a chunk of `c` bytes, behind `j` other ones; that chunk is full if something
follows. -/
def Discards (rest : Bytes) : Except Failure (Bytes × UInt8 × ss.State × Bytes) → Prop
  | .error e => e.Expected
  | .ok (initData, _, _, rest') => ∃ j c, rest.length = j * 32785 + c + rest'.length ∧
      initData.length + 18 ≤ c ∧ c ≤ 32785 ∧ (rest'.length = 0 ∨ c = 32785)

lemma discards_discardPadding (st : ss.State) (rest : Bytes) :
    Discards rest (discardPadding st rest) := by
  induction hn : rest.length using Nat.strong_induction_on generalizing st rest with
  | _ n ih =>
    rw [discardPadding]
    split
    · exact expected_runtime _
    rename_i hlong
    split
    · exact expected_runtime _
    rename_i padbuf tag st' hpull
    have hlen := ss.pull_length _ _ _ _ _ hpull
    rw [length_take] at hlen
    unfold nextChunk encryptChunkOverhead encryptChunkSize at *
    split
    · next e hpad =>
      unfold padEnd at hpad
      split at hpad
      · cases hpad
      · split at hpad <;> cases hpad
        exact expected_runtime _
    · have hrest := ih _ (by rw [length_drop]; omega) st'
        (rest.drop (min (rest.length - 17) 32768 + 17)) rfl
      generalize discardPadding st' _ = r at hrest
      rcases r with e | ⟨initData, _, _, rest'⟩
      · exact hrest
      · obtain ⟨j, c, hsum, hinit, hc, hfull⟩ := hrest
        rw [length_drop] at hsum
        exact ⟨j + 1, c, by omega, hinit, hc, hfull⟩
    next initData hpad =>
    obtain ⟨zeros, hzeros⟩ := strips_of_padEnd_some hpad []
    have hsize := congrArg length hzeros
    simp only [append_nil, length_append, length_replicate, length_cons] at hsize
    refine ⟨0, min (rest.length - 17) 32768 + 17, ?_, ?_, ?_, ?_⟩ <;>
      (try rw [length_drop]) <;> omega

/-- A call that writes at most `maxSize` bytes, and fails only as callers expect. -/
def WritesAtMost (maxSize : Nat) : Except Failure Bytes → Prop
  | .ok data => data.length ≤ maxSize
  | .error e => e.Expected

lemma decryptData_writes {s : Depadded ss} (h : s.decrypted.length + s.rest.length / 32785 * 32768 +
      (s.rest.length % 32785 - 17) ≤ outSize) : WritesAtMost outSize (decryptData outSize s) := by
  induction hn : s.rest.length using Nat.strong_induction_on generalizing s with
  | _ n ih =>
    rw [decryptData]
    split
    · show s.decrypted.length ≤ outSize
      omega
    split
    · exact expected_runtime _
    rename_i hlong
    unfold nextChunk encryptChunkOverhead encryptChunkSize at *
    rw [if_neg (by omega)]
    split
    · exact expected_runtime _
    rename_i m tag st hpull
    split
    · next e htag => exact expected_of_checkTag htag
    have hlen := ss.pull_length _ _ _ _ _ hpull
    rw [length_take] at hlen
    refine ih _ ?_ ?_ rfl
    · rw [length_drop]
      omega
    dsimp only
    rw [length_append, length_drop]
    omega

/-- Behind at least one full chunk there are 1 to 16 bytes, too few for a chunk. -/
def HasStub (size : Nat) : Prop :=
  1 + 24 + 32785 < size ∧ 1 ≤ (size - 25) % 32785 ∧ (size - 25) % 32785 ≤ 16

lemma decryptPadding_writes {rest : Bytes} {maxSize : Nat} (hmax : rest.length - 1 ≤
      maxSize + (rest.length - 1 + 32784) / 32785 * 17) (hstub : ¬HasStub (25 + rest.length))
    (hsize : rest.length < 2 ^ 64) :
    WritesAtMost maxSize (decryptPadding maxSize st rest >>= decryptData maxSize) := by
  have hdiscards := discards_discardPadding st rest
  rw [decryptPadding]
  generalize discardPadding st rest = r at hdiscards
  rcases r with e | ⟨initData, tag, st', rest'⟩
  · exact hdiscards
  · obtain ⟨j, c, hsum, hinit, hc, hfull⟩ := hdiscards
    have hfinal : finalSize initData rest' ≤ maxSize := by
      unfold finalSize sizeSub chunkCount encryptedChunkTotal encryptChunkOverhead encryptChunkSize
      unfold HasStub at hstub
      omega
    have hroom : initData.length + rest'.length / 32785 * 32768 + (rest'.length % 32785 - 17) ≤
        maxSize := by
      unfold HasStub at hstub
      omega
    rw [ok_bind]
    dsimp only
    rw [if_neg (not_lt.mpr hfinal), if_neg (by omega)]
    cases htag : checkTag tag rest' with
    | error e => exact expected_of_checkTag htag
    | ok done => exact decryptData_writes hroom

lemma decrypt_writes {encrypted : Bytes} {key : Key} {maxSize : Nat}
    (hmax : decryptedMaxSize encrypted.length = some maxSize) (hsize : encrypted.length < 2 ^ 64)
    (hstub : ¬HasStub encrypted.length) : WritesAtMost maxSize (decrypt ss encrypted key) := by
  obtain ⟨hlong, hroom, -⟩ := decryptedMaxSize_spec hmax hsize
  unfold decrypt decryptInto checkEncrypted
  rw [hmax, orThrow, ok_bind]
  split
  · exact expected_runtime _
  rw [ok_bind, ok_bind, if_neg (lt_irrefl _), dif_neg (by unfold encryptHeader; omega)]
  have hrest : (encrypted.drop (1 + encryptHeader)).length = encrypted.length - 25 := length_drop
  refine decryptPadding_writes ?_ ?_ ?_ <;> rw [hrest]
  · omega
  · rwa [show 25 + (encrypted.length - 25) = encrypted.length by omega]
  · omega

/-! ## A stub behind the last chunk -/

lemma padEnd_zeros (n : Nat) : padEnd (replicate n 0) = .ok none := by
  rw [padEnd, dropWhile_replicate]
  rfl

lemma padEnd_append (n : Nat) (data : Bytes) :
    padEnd (replicate n 0 ++ 1 :: data) = .ok (some data) := by
  rw [padEnd, dropWhile_append, dropWhile_replicate]
  rfl

lemma discardPadding_push {m rest : Bytes} {tag : UInt8} (hm : m.length = 32768) :
    discardPadding st ((ss.push st m tag).1 ++ rest) = padEnd m >>= fun
      | none => discardPadding (ss.push st m tag).2 rest
      | some initData => .ok (initData, tag, (ss.push st m tag).2, rest) := by
  have hpush := ss.push_length st m tag
  have hnext : (ss.push st m tag).1.length = nextChunk ((ss.push st m tag).1 ++ rest) := by
    unfold nextChunk encryptChunkOverhead encryptChunkSize
    rw [length_append]
    omega
  rw [discardPadding, dif_neg, take_left' hnext, drop_left' hnext, ss.pull_push]
  · dsimp only
    cases padEnd m with
    | error e => rfl
    | ok o => cases o <;> rfl
  unfold encryptChunkOverhead
  rw [length_append]
  omega

lemma exists_stub (st : ss.State) (j b : Nat) : ∃ body tag st', body.length = (j + 1) * 32785 + b ∧
    discardPadding st body = .ok ([], tag, st', replicate b 0) := by
  induction j generalizing st with
  | zero =>
    let last := ss.push st (replicate 32767 0 ++ [1]) 0
    refine ⟨last.1 ++ replicate b 0, 0, last.2, ?_, ?_⟩
    · simp only [last, length_append, ss.push_length, length_replicate, length_singleton]
    rw [discardPadding_push (by simp only [length_append, length_replicate, length_singleton]),
      padEnd_append]
    rfl
  | succ j ih =>
    obtain ⟨body, tag, st', hlen, hbody⟩ := ih (ss.push st (replicate 32768 0) 0).2
    refine ⟨(ss.push st (replicate 32768 0) 0).1 ++ body, tag, st', ?_, ?_⟩
    · rw [length_append, ss.push_length, length_replicate, hlen]
      omega
    · rw [discardPadding_push length_replicate, padEnd_zeros]
      exact hbody

lemma decrypt_stub {size : Nat} (h : HasStub size) (hbound : size < 2 ^ 64) (key : Key) :
    ∃ encrypted, encrypted.length = size ∧ decrypt ss encrypted key = .error .assertion := by
  obtain ⟨hlong, hlow, hhigh⟩ := h
  obtain ⟨body, tag, st', hlen, hbody⟩ := exists_stub (ss.init zeroHeader key)
    ((size - 25) / 32785 - 1) ((size - 25) % 32785)
  have hsum : 25 + body.length = size := by omega
  obtain ⟨maxSize, hmax⟩ := exists_maxSize (by omega : 43 ≤ size) hbound
  obtain ⟨-, -, hle⟩ := decryptedMaxSize_spec hmax hbound
  have hsize : (ascii 'S' :: (zeroHeader.val ++ body)).length = size := by
    rw [length_cons, length_append, zeroHeader.2]
    omega
  have hcheck : checkEncrypted (ascii 'S' :: (zeroHeader.val ++ body)) = .ok maxSize := by
    rw [checkEncrypted, hsize, hmax, orThrow, ok_bind, if_neg (by simp)]
  refine ⟨_, hsize, ?_⟩
  rw [decrypt, hcheck, ok_bind, decryptInto_eq hcheck le_rfl, decryptPadding, hbody, ok_bind]
  dsimp only
  rw [if_pos]
  · rfl
  -- fewer bytes than the tag of a chunk: the size wraps around
  unfold finalSize sizeSub chunkCount encryptedChunkTotal encryptChunkOverhead encryptChunkSize
  rw [length_nil, length_replicate]
  omega

/-! ## The bound -/

lemma exists_maxSize_encryptedSize {n : Nat} (h : n ≤ maxRegularSize) :
    ∃ maxSize, decryptedMaxSize (encryptedSize n) = some maxSize ∧ n ≤ maxSize := by
  obtain ⟨hpos, hsmall⟩ := encryptedPadding_pos h
  unfold maxRegularSize at h
  have hn := encryptedSize_of_lt (n := n) (by omega) (by omega)
  rw [Nat.mul_comm _ 17] at hn
  obtain ⟨maxSize, hmax, hle⟩ := exists_decryptedMaxSize hn
    (by unfold encryptedChunkTotal encryptChunkOverhead encryptChunkSize; omega) (by omega)
        (by omega)
  exact ⟨maxSize, hmax, by omega⟩

/-- **`decrypt` stays within the room it has, whatever the chunks hold, exactly for the sizes
without a stub.** -/
theorem decrypt_fits_iff (ss : SecretStream) (size : Nat) (hsize : size < 2 ^ 64) :
    ((∀ (encrypted : Bytes) (key : Key), encrypted.length = size →
        WritesAtMost ((decryptedMaxSize size).getD 0) (decrypt ss encrypted key)) ∧
      ∀ n ≤ maxRegularSize, ∃ maxSize, decryptedMaxSize (encryptedSize n) = some maxSize ∧
        n ≤ maxSize) ↔ ¬HasStub size := by
  constructor
  · rintro ⟨hfits, -⟩ hstub
    obtain ⟨encrypted, hlen, hthrow⟩ := @decrypt_stub ss size hstub hsize zeroKey
    have hwrites := hfits encrypted zeroKey hlen
    rw [hthrow] at hwrites
    exact hwrites.1 rfl
  refine fun hstub => ⟨?_, fun n => exists_maxSize_encryptedSize⟩
  rintro encrypted key rfl
  cases hmax : decryptedMaxSize encrypted.length with
  | none =>
    rw [decrypt, checkEncrypted, hmax]
    exact expected_runtime _
  | some maxSize => exact decrypt_writes hmax hsize hstub

/-- The size of two full chunks. -/
theorem decrypt_fits_two_chunks : 65595 < 2 ^ 64 ∧ decryptedMaxSize 65595 = some 65535 ∧
      (∀ (encrypted : Bytes) (key : Key), encrypted.length = 65595 →
        WritesAtMost ((decryptedMaxSize 65595).getD 0) (decrypt plainStream encrypted key)) ∧
      ∀ n ≤ maxRegularSize, ∃ maxSize, decryptedMaxSize (encryptedSize n) = some maxSize ∧
        n ≤ maxSize :=
  ⟨by decide, by decide +kernel,
    (decrypt_fits_iff plainStream 65595 (by decide)).mpr (by unfold HasStub; omega)⟩

/-- A full chunk whose padding ends in its last byte, and 5 bytes behind it: the size that is
asserted is 12 below zero. -/
theorem decrypt_stub_asserts : ∃ encrypted, encrypted.length = 32815 ∧
    decrypt plainStream encrypted zeroKey = .error .assertion :=
  decrypt_stub ⟨by decide, by decide, by decide⟩ (by decide) zeroKey

end

end Bchat.Attachments
