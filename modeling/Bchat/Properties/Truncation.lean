import Bchat.Config.Truncation

/-!
# What is left of a string that is cut
-/

namespace Bchat.Config

open Attachments List

/-! ## UTF-8 -/

def ValidUtf8 (val : Bytes) : Prop := val.toByteArray.IsValidUTF8

def IsContinuation (b : UInt8) : Prop := b &&& 0b11000000 = 0b10000000

section

variable {val : Bytes} {n k : Nat}

lemma cutBack_spec (h : n < val.length) : ∃ k ≤ n, cutBack val n = some k ∧
    (k = 0 ∨ ∃ b, val[k]? = some b ∧ ¬IsContinuation b) ∧
    ∀ j b, k < j → j ≤ n → val[j]? = some b → IsContinuation b := by
  induction n with
  | zero => exact ⟨0, le_rfl, rfl, .inl rfl, fun j b hj hj' => by omega⟩
  | succ n ih =>
    have hget := getElem?_eq_getElem h
    simp only [cutBack, hget, Option.bind_eq_bind, Option.bind_some]
    split
    · next hcont =>
      obtain ⟨k, hk, hcut, hstart, hall⟩ := ih (by omega)
      refine ⟨k, by omega, hcut, hstart, fun j b hj hj' hb => ?_⟩
      rcases Nat.lt_or_eq_of_le hj' with hlt | rfl
      · exact hall j b hj (by omega) hb
      rw [hget] at hb
      cases hb
      exact hcont
    · next hstart =>
      exact ⟨n + 1, le_rfl, rfl, .inr ⟨_, hget, hstart⟩, fun j b hj hj' => by omega⟩

lemma not_isContinuation_of_first : ∀ b : UInt8, b.IsUTF8FirstByte → ¬IsContinuation b := by
  unfold IsContinuation
  decide +kernel

lemma utf8EncodeChar_cons (c : Char) : ∃ a t, String.utf8EncodeChar c = a :: t ∧ a.IsUTF8FirstByte ∧
    t.length ≤ 3 ∧ ∀ b ∈ t, IsContinuation b := by
  have hbyte (m : Nat) : IsContinuation (UInt8.ofNat (m % 64) + 128) := by
    have hall : ∀ r < 64, (UInt8.ofNat r + 128) &&& 0b11000000 = 0b10000000 := by decide
    exact hall _ (Nat.mod_lt _ (by decide))
  have htail : ∀ b ∈ (String.utf8EncodeChar c).tail, IsContinuation b := by
    unfold String.utf8EncodeChar
    dsimp only
    split_ifs <;> simp [hbyte]
  have hfirst := @UInt8.isUTF8FirstByte_getElem_zero_utf8EncodeChar c
  have hlen := String.length_utf8EncodeChar c
  have hpos := c.utf8Size_pos
  have hmax := c.utf8Size_le_four
  cases hc : String.utf8EncodeChar c with
  | nil =>
    rw [hc, length_nil] at hlen
    omega
  | cons a t =>
    simp only [hc, getElem_cons_zero] at hfirst
    rw [hc] at htail hlen
    exact ⟨a, t, rfl, hfirst, by rw [length_cons] at hlen; omega, htail⟩

lemma first_or_continuation (h : ValidUtf8 val) {b : UInt8} (hb : b ∈ val) :
    b.IsUTF8FirstByte ∨ IsContinuation b := by
  obtain ⟨cs, hcs⟩ := h
  rw [toByteArray_inj.mp hcs, mem_flatMap] at hb
  obtain ⟨c, -, hb⟩ := hb
  obtain ⟨a, t, hc, hfirst, -, htail⟩ := utf8EncodeChar_cons c
  rw [hc, mem_cons] at hb
  rcases hb with rfl | hb
  · exact .inl hfirst
  · exact .inr (htail b hb)

/-- A prefix is valid exactly if what follows it begins a character. -/
lemma validUtf8_take_iff (h : ValidUtf8 val) (hk : k < val.length) :
    ValidUtf8 (val.take k) ↔ ¬IsContinuation val[k] := by
  have hpos := @String.Pos.Raw.isValid_iff_isValidUTF8_extract_zero ⟨_, h⟩ ⟨k⟩
  have hsize : (String.ofByteArray _ h).utf8ByteSize = val.length := size_toByteArray
  have htake : val.toByteArray.extract 0 k = (val.take k).toByteArray := by
    apply ByteArray.ext
    simp
  simp only [String.Pos.Raw.isValid_iff_isUTF8FirstByte, String.Pos.Raw.le_iff,
    String.Pos.Raw.lt_iff, String.Pos.Raw.ext_iff, String.byteIdx_rawEndPos, String.getUTF8Byte,
    getElem_toByteArray, htake, hsize, hk.ne, false_or, hk.le, true_and, exists_prop_of_true hk]
    at hpos
  rw [ValidUtf8, ← hpos]
  exact ⟨not_isContinuation_of_first _, (first_or_continuation h (getElem_mem hk)).resolve_right⟩

/-- A character has at most four bytes. -/
lemma exists_start (h : ValidUtf8 val) (hn : n < val.length) :
    ∃ j ≤ n, n ≤ j + 3 ∧ ∃ b, val[j]? = some b ∧ ¬IsContinuation b := by
  obtain ⟨cs, hcs⟩ := h
  rw [toByteArray_inj.mp hcs] at hn ⊢
  clear hcs
  induction cs generalizing n with
  | nil => simp at hn
  | cons c cs ih =>
    obtain ⟨a, t, hc, hfirst, ht, -⟩ := utf8EncodeChar_cons c
    rw [flatMap_cons, hc] at hn ⊢
    by_cases hin : n ≤ t.length
    · exact ⟨0, by omega, by omega, a, rfl, not_isContinuation_of_first a hfirst⟩
    rw [length_append, length_cons] at hn
    obtain ⟨j, hj, hj', b, hb, hb'⟩ := @ih (n - (t.length + 1)) (by omega)
    refine ⟨t.length + 1 + j, by omega, by omega, b, ?_, hb'⟩
    rw [getElem?_append_right (by simp), ← hb]
    simp

end

/-- **`utf8_truncate` cuts off the bytes of an incomplete character and no others.** -/
theorem utf8_truncate_longest (val : Bytes) (n : Nat) :
    ∃ r, utf8Truncate val n = some r ∧ r <+: val ∧ r.length ≤ n ∧ (ValidUtf8 val →
      ValidUtf8 r ∧ (∀ r', r' <+: val → r'.length ≤ n → ValidUtf8 r' → r'.length ≤ r.length) ∧
        (n < val.length → n ≤ r.length + 3)) := by
  unfold utf8Truncate
  split
  · next hlen =>
    exact ⟨val, rfl, prefix_rfl, hlen, fun h =>
      ⟨h, fun r' hr' _ _ => hr'.length_le, fun hlt => by omega⟩⟩
  next hlen =>
  rw [Nat.not_le] at hlen
  obtain ⟨k, hk, hcut, hstart, hall⟩ := cutBack_spec hlen
  have hlength : (val.take k).length = k := by rw [length_take]; omega
  refine ⟨val.take k, by rw [hcut]; rfl, take_prefix _ _, by omega, fun h => ⟨?_, ?_, ?_⟩⟩
  · rcases hstart with rfl | ⟨b, hb, hb'⟩
    · exact ByteArray.isValidUTF8_empty
    · obtain ⟨hk', rfl⟩ := List.getElem?_eq_some_iff.mp hb
      exact (validUtf8_take_iff h hk').mpr hb'
  · intro r' hprefix hr hvalid
    by_contra hgt
    rw [prefix_iff_eq_take.mp hprefix] at hvalid
    have hlt : r'.length < val.length := by omega
    exact (validUtf8_take_iff h hlt).mp hvalid
      (hall r'.length _ (by omega) hr (getElem?_eq_getElem hlt))
  intro hn
  obtain ⟨j, hj, hj', b, hb, hb'⟩ := exists_start h hn
  by_contra hlt
  exact hb' (hall j b (by omega) hj hb)

/-! ## UTF-16 -/

inductive IsCodepoint : List UInt16 → Prop
  | unit {c : UInt16} : isUtf16HighSurrogate c = false → isUtf16LowSurrogate c = false →
      IsCodepoint [c]
  | pair {high low : UInt16} : isUtf16HighSurrogate high → isUtf16LowSurrogate low →
      IsCodepoint [high, low]

abbrev Codepoint := {c : List UInt16 // IsCodepoint c}

/-- A valid string. -/
def toUtf16 (codepoints : List Codepoint) : List UInt16 := codepoints.flatMap Subtype.val

lemma not_low_of_high {c : UInt16} (h : isUtf16HighSurrogate c) :
    isUtf16LowSurrogate c = false := by
  simp only [isUtf16HighSurrogate, isUtf16LowSurrogate, decide_eq_true_eq,
    decide_eq_false_iff_not] at h ⊢
  rintro ⟨hlow, -⟩
  exact absurd (UInt16.le_trans hlow h.2) (by decide)

/-- The law of `simdutf::count_utf16`: in a valid string it counts the codepoints. -/
def CountsCodepoints (countUtf16 : List UInt16 → Nat) : Prop :=
  ∀ codepoints : List Codepoint, countUtf16 (toUtf16 codepoints) = codepoints.length

lemma length_le_toUtf16 (codepoints : List Codepoint) :
    codepoints.length ≤ (toUtf16 codepoints).length := by
  induction codepoints with
  | nil => exact Nat.le_refl 0
  | cons c cs ih =>
    obtain ⟨c, hc⟩ := c
    have hpos : 1 ≤ c.length := by cases hc <;> simp
    rw [toUtf16, flatMap_cons, length_append, length_cons, ← toUtf16]
    dsimp only
    omega

lemma countCodepoints_cons {c s : List UInt16} (h : IsCodepoint c) (size : Nat) {n counted : Nat}
    (hlt : counted < n) (i : Nat) :
    countCodepoints size n (c ++ s) counted false i = if counted + 1 = n then some (i + c.length)
      else countCodepoints size n s (counted + 1) false (i + c.length) := by
  cases h with
  | unit hhigh hlow => simp [countCodepoints, hhigh, hlow]
  | @pair high low hhigh hlow =>
    have hnot : isUtf16HighSurrogate low = false := by
      by_contra hhigh'
      rw [not_low_of_high (by simpa using hhigh')] at hlow
      cases hlow
    simp [countCodepoints, hhigh, hnot, hlow, hlt.ne]

lemma countCodepoints_toUtf16 (size : Nat) {n : Nat} (codepoints : List Codepoint) :
    ∀ counted i, counted < n → n < counted + codepoints.length →
      countCodepoints size n (toUtf16 codepoints) counted false i =
        some (i + (toUtf16 (codepoints.take (n - counted))).length) := by
  induction codepoints with
  | nil =>
    intro counted i hlt hn
    rw [length_nil] at hn
    omega
  | cons c cs ih =>
    intro counted i hlt hn
    rw [length_cons] at hn
    rw [show n - counted = n - (counted + 1) + 1 by omega, take_succ_cons, toUtf16, flatMap_cons,
      countCodepoints_cons c.2 size hlt, toUtf16, flatMap_cons, length_append, ← Nat.add_assoc]
    split
    · next heq => simp [heq]
    · exact ih (counted + 1) _ (by omega) (by omega)

/-- **The whole string, or the units of its first codepoints**, as many as may be left. -/
theorem utf16_truncated_to_codepoints (countUtf16 : List UInt16 → Nat)
    (hcounts : CountsCodepoints countUtf16) (codepoints : List Codepoint) (n : Nat) :
    utf16CountTruncatedToCodepoints countUtf16 (toUtf16 codepoints) n =
      some (toUtf16 (codepoints.take n)).length := by
  have hcount := hcounts codepoints
  have hle := length_le_toUtf16 codepoints
  have hwhole (h : codepoints.length ≤ n) : some (toUtf16 codepoints).length =
      some (toUtf16 (codepoints.take n)).length := by rw [take_of_length_le h]
  unfold utf16CountTruncatedToCodepoints
  split
  · next hlen => exact hwhole (hle.trans hlen)
  split
  · next hn =>
    subst hn
    rfl
  split
  · next hlen => exact hwhole (hcount ▸ hlen)
  · rw [countCodepoints_toUtf16 _ codepoints 0 0 (by omega) (by omega), Nat.zero_add]
    rfl

/-- The count of the units that do not end a pair, as simdutf has it. -/
def countNotLow (utf16String : List UInt16) : Nat :=
  utf16String.countP fun c => !isUtf16LowSurrogate c

lemma countsCodepoints_countNotLow : CountsCodepoints countNotLow := by
  intro codepoints
  induction codepoints with
  | nil => rfl
  | cons c cs ih =>
    obtain ⟨c, hc⟩ := c
    have hone : countNotLow c = 1 := by
      cases hc with
      | unit _ hlow => simp [countNotLow, hlow]
      | pair hhigh hlow => simp [countNotLow, not_low_of_high hhigh, hlow]
    rw [toUtf16, flatMap_cons, countNotLow, countP_append, ← countNotLow, hone, ← countNotLow,
      ← toUtf16, ih, length_cons, Nat.add_comm]

/-- A letter, a pair and a letter, cut behind the pair. -/
theorem utf16_truncated_pair :
    let codepoints : List Codepoint :=
      [⟨[0x61], .unit rfl rfl⟩, ⟨[0xD83D, 0xDE00], .pair rfl rfl⟩, ⟨[0x62], .unit rfl rfl⟩]
    CountsCodepoints countNotLow ∧
      utf16CountTruncatedToCodepoints countNotLow (toUtf16 codepoints) 2 = some 3 :=
  ⟨countsCodepoints_countNotLow,
    utf16_truncated_to_codepoints countNotLow countsCodepoints_countNotLow _ 2⟩

/-! ## C strings -/

/-- The source, or as much of it as there is room for, with a zero behind it. -/
def Stores (dest src stored : Bytes) : Prop :=
  stored.length = dest.length ∧ src.take (dest.length - 1) ++ [0] <+: stored

/-- **`copy_c_str` is safe exactly for strings that need not be cut**: of the others it keeps two
bytes too many. -/
theorem copy_c_str_safe_iff (dest src : Bytes) (hdest : 1 ≤ dest.length)
    (hsrc : src.length < 2 ^ 63) :
    ((∃ stored, copyCStr dest src = .ok stored ∧ Stores dest src stored) ↔
        src.length < dest.length) ∧
      ∀ {α : Type} (errorReturn : α), (∃ stored, wrapExceptions dest errorReturn (.error src) =
        .ok (errorReturn, some stored) ∧ Stores dest src stored) ↔ src.length < dest.length := by
  have hcopy : (∃ stored, copyCStr dest src = .ok stored ∧ Stores dest src stored) ↔
      src.length < dest.length := by
    unfold copyCStr
    by_cases hlt : src.length < dest.length
    · simp only [if_neg (Nat.not_le.mpr hlt), if_neg (Nat.lt_irrefl _), hlt, iff_true]
      refine ⟨_, rfl, by simp; omega, ?_⟩
      rw [take_length, take_of_length_le (by omega)]
      simp
    have hsize : sizeSub src.length (sizeSub (sizeSub src.length dest.length) 1) =
        dest.length + 1 := by
      unfold sizeSub
      omega
    simp only [if_pos (Nat.not_lt.mp hlt), hsize, hlt, iff_false]
    rintro ⟨stored, h, -⟩
    split at h
    · cases h
    · rw [if_pos (by omega)] at h
      cases h
  refine ⟨hcopy, fun errorReturn => ?_⟩
  rw [← hcopy, wrapExceptions]
  cases copyCStr dest src with
  | error e => simp [bind, Except.bind]
  | ok stored => simp [bind, Except.bind]

/-- Three bytes into an array of eight, by both functions. -/
theorem copy_c_str_safe_text :
    (∃ stored, copyCStr (replicate 8 7) [65, 66, 67] = .ok stored ∧
        Stores (replicate 8 7) [65, 66, 67] stored) ∧
      ∃ stored, wrapExceptions (replicate 8 7) false (.error [65, 66, 67]) =
        .ok (false, some stored) ∧ Stores (replicate 8 7) [65, 66, 67] stored :=
  have h := copy_c_str_safe_iff (replicate 8 7) [65, 66, 67] (by decide) (by decide)
  ⟨h.1.mpr (by decide), (h.2 false).mpr (by decide)⟩

/-- A text that fills the error buffer, and one that is longer. -/
theorem copy_c_str_overruns : copyCStr (replicate 256 0) (replicate 256 65) = .error .read ∧
    copyCStr (replicate 256 0) (replicate 257 65) = .error .write := by
  decide +kernel

end Bchat.Config
