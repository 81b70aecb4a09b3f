import Bchat.Lib.Bytes

/-!
# Searching and decoding text

`splitFirst` and `splitLast` are `find` and `rfind` on a string together with the two `substr` calls
around the place found. `IsLastSplit` says without an algorithm what `splitLast` finds.

A text of digits with `w` bits each stands for the bytes its bits add up to; `packBits` makes them
and drops what is left over at the end.
-/

open List

section

variable {α : Type}

/-- What stands before and after the first place of `sep`. -/
def splitFirst [DecidableEq α] (sep : List α) : List α → Option (List α × List α)
  | [] => if sep = [] then some ([], []) else none
  | a :: s =>
    if sep <+: a :: s then some ([], (a :: s).drop sep.length)
    else (splitFirst sep s).map fun p => (a :: p.1, p.2)

def splitLast [DecidableEq α] (sep : List α) : List α → Option (List α × List α)
  | [] => if sep = [] then some ([], []) else none
  | a :: s =>
    match splitLast sep s with
    | some (before, after) => some (a :: before, after)
    | none => if sep <+: a :: s then some ([], (a :: s).drop sep.length) else none

lemma splitFirst_eq_some [DecidableEq α] {sep : List α} :
    ∀ {s b r : List α}, splitFirst sep s = some (b, r) → s = b ++ sep ++ r
  | [], b, r, h => by
    rw [splitFirst] at h
    split at h
    next hsep =>
      cases h
      rw [hsep]
      rfl
    · cases h
  | a :: s, b, r, h => by
    rw [splitFirst] at h
    split at h
    next hpre =>
      cases h
      obtain ⟨t, ht⟩ := hpre
      rw [← ht, drop_left]
      rfl
    · obtain ⟨⟨b', r'⟩, hs, heq⟩ := Option.map_eq_some_iff.1 h
      cases heq
      rw [splitFirst_eq_some hs]
      rfl

lemma splitFirst_append [DecidableEq α] {a : α} {sep rest : List α} :
    ∀ {b : List α}, a ∉ b → splitFirst (a :: sep) (b ++ a :: sep ++ rest) = some (b, rest)
  | [], _ => by
    rw [nil_append, cons_append, splitFirst, ← cons_append, if_pos (prefix_append _ _), drop_left]
  | c :: b, h => by
    have hne : a ≠ c := fun hac => h (hac ▸ mem_cons_self)
    have hb : a ∉ b := fun hab => h (mem_cons_of_mem c hab)
    rw [cons_append, cons_append, splitFirst, if_neg, splitFirst_append hb]
    · rfl
    rintro ⟨t, ht⟩
    rw [cons_append, cons.injEq] at ht
    exact hne ht.1

/-- The string is `before`, `sep`, `after`, and `sep` stands nowhere later. -/
structure IsLastSplit (sep s before after : List α) : Prop where
  eq : s = before ++ sep ++ after
  last : ∀ before' after', s = before' ++ sep ++ after' → before'.length ≤ before.length

lemma IsLastSplit.unique {sep s b r b' r' : List α} (h : IsLastSplit sep s b r)
    (h' : IsLastSplit sep s b' r') : b = b' ∧ r = r' := by
  have hlen : b.length = b'.length := le_antisymm (h'.last _ _ h.eq) (h.last _ _ h'.eq)
  have heq : b ++ (sep ++ r) = b' ++ (sep ++ r') := by
    rw [← append_assoc, ← append_assoc, ← h.eq, ← h'.eq]
  obtain ⟨hb, hr⟩ := append_inj heq hlen
  exact ⟨hb, append_cancel_left hr⟩

lemma cons_eq_append_sep {a : α} {sep s b r : List α} (h : a :: s = b ++ sep ++ r) :
    (b = [] ∧ sep <+: a :: s) ∨ ∃ t, b = a :: t ∧ s = t ++ sep ++ r := by
  cases b with
  | nil => exact Or.inl ⟨rfl, ⟨r, h.symm⟩⟩
  | cons c t =>
    rw [cons_append, cons_append, cons.injEq] at h
    exact Or.inr ⟨t, by rw [h.1], h.2⟩

lemma splitLast_eq_none [DecidableEq α] {sep : List α} :
    ∀ {s : List α}, splitLast sep s = none → ∀ b r, s ≠ b ++ sep ++ r
  | [], h, b, r, heq => by
    rw [splitLast] at h
    split at h
    · cases h
    next hsep =>
      have := congrArg length heq
      simp only [length_nil, length_append] at this
      exact hsep (length_eq_zero_iff.1 (by omega))
  | a :: s, h, b, r, heq => by
    rw [splitLast] at h
    split at h
    · cases h
    next hnone =>
      split at h
      · cases h
      next hpre =>
        obtain ⟨-, hp⟩ | ⟨t, -, ht⟩ := cons_eq_append_sep heq
        · exact hpre hp
        · exact splitLast_eq_none hnone t r ht

lemma splitLast_eq_some [DecidableEq α] {sep : List α} :
    ∀ {s b r : List α}, splitLast sep s = some (b, r) → IsLastSplit sep s b r
  | [], b, r, h => by
    rw [splitLast] at h
    split at h
    next hsep =>
      cases h
      refine ⟨by rw [hsep]; rfl, fun b' r' heq => ?_⟩
      have := congrArg length heq
      simp only [length_nil, length_append] at this ⊢
      omega
    · cases h
  | a :: s, b, r, h => by
    rw [splitLast] at h
    split at h
    next before after hs =>
      cases h
      have ih := splitLast_eq_some hs
      refine ⟨by rw [ih.eq]; rfl, fun b' r' heq => ?_⟩
      obtain ⟨rfl, -⟩ | ⟨t, rfl, ht⟩ := cons_eq_append_sep heq
      · exact Nat.zero_le _
      · exact Nat.succ_le_succ (ih.last _ _ ht)
    next hnone =>
      split at h
      next hpre =>
        cases h
        obtain ⟨r', hr'⟩ := hpre
        refine ⟨by rw [← hr', drop_left]; rfl, fun b' r'' heq => ?_⟩
        obtain ⟨rfl, -⟩ | ⟨t, -, ht⟩ := cons_eq_append_sep heq
        · exact Nat.le_refl _
        · exact absurd ht (splitLast_eq_none hnone t r'')
      · cases h

lemma IsLastSplit.splitLast_eq [DecidableEq α] {sep s b r : List α} (h : IsLastSplit sep s b r) :
    splitLast sep s = some (b, r) := by
  cases hs : splitLast sep s with
  | none => exact absurd h.eq (splitLast_eq_none hs b r)
  | some p =>
    obtain ⟨hb, hr⟩ := h.unique (splitLast_eq_some hs)
    rw [hb, hr]

lemma isLastSplit_of_notMem {a : α} (pre post : List α) {b r : List α} (h : a ∉ post ++ r) :
    IsLastSplit (pre ++ a :: post) (b ++ (pre ++ a :: post) ++ r) b r := by
  refine ⟨rfl, fun b' r' heq => Nat.le_of_not_lt fun hlt => h ?_⟩
  -- the letter stands further back in the other place, so beyond its own place in this one
  have hlen : (b ++ pre).length < (b' ++ pre).length := by
    rw [length_append, length_append]
    omega
  have hassoc : ∀ x y : List α, x ++ (pre ++ a :: post) ++ y = (x ++ pre) ++ a :: (post ++ y) := by
    simp
  rw [hassoc, hassoc] at heq
  have hget : ((b ++ pre) ++ a :: (post ++ r))[(b' ++ pre).length]? = some a := by
    rw [heq, getElem?_append_right (Nat.le_refl _), Nat.sub_self]
    rfl
  rw [getElem?_append_right hlen.le] at hget
  obtain ⟨i, hi⟩ : ∃ i, (b' ++ pre).length - (b ++ pre).length = i + 1 :=
    ⟨_, (Nat.succ_pred_eq_of_pos (Nat.sub_pos_of_lt hlen)).symm⟩
  rw [hi, getElem?_cons_succ] at hget
  exact mem_of_getElem? hget

lemma append_cons_eq_append_cons {a : α} {l t x s : List α} (hl : a ∉ l)
    (h : l ++ a :: t = x ++ a :: s) : (x = l ∧ t = s) ∨ ∃ y, x = l ++ a :: y ∧ t = y ++ a :: s := by
  obtain ⟨m, rfl, hm⟩ | ⟨m, rfl, hm⟩ := append_eq_append_iff.1 h
  · cases m with
    | nil =>
      rw [append_nil]
      exact Or.inl ⟨rfl, (cons.inj hm).2⟩
    | cons c m =>
      obtain ⟨rfl, rfl⟩ := cons.inj hm
      exact Or.inr ⟨m, rfl, rfl⟩
  cases m with
  | nil =>
    rw [append_nil]
    exact Or.inl ⟨rfl, (cons.inj hm).2.symm⟩
  | cons c m =>
    obtain ⟨rfl, -⟩ := cons.inj hm
    exact absurd (mem_append_right x mem_cons_self) hl

end

/-! ## Digits of a fixed width -/

/-- The lower `w` bits of a number, the most significant one first. -/
def bitsOf (w n : Nat) : List Bool := (List.range w).reverse.map n.testBit

@[simp] lemma length_bitsOf (w n : Nat) : (bitsOf w n).length = w := by simp [bitsOf]

def packBits : List Bool → Bytes
  | b₇ :: b₆ :: b₅ :: b₄ :: b₃ :: b₂ :: b₁ :: b₀ :: rest =>
    UInt8.ofNat ([b₇, b₆, b₅, b₄, b₃, b₂, b₁, b₀].foldl (fun n b => 2 * n + b.toNat) 0)
      :: packBits rest
  | _ => []

lemma length_packBits (l : List Bool) : (packBits l).length = l.length / 8 := by
  fun_induction packBits l with
  | case1 b₇ b₆ b₅ b₄ b₃ b₂ b₁ b₀ rest ih =>
    simp only [length_cons, ih]
    omega
  | case2 l h =>
    match l, h with
    | [], _ | [_], _ | [_, _], _ | [_, _, _], _ | [_, _, _, _], _ | [_, _, _, _, _], _
    | [_, _, _, _, _, _], _ | [_, _, _, _, _, _, _], _ => simp
    | b₇ :: b₆ :: b₅ :: b₄ :: b₃ :: b₂ :: b₁ :: b₀ :: rest, h =>
      exact absurd rfl (h b₇ b₆ b₅ b₄ b₃ b₂ b₁ b₀ rest)

def packDigits (w : Nat) (digits : List Nat) : Bytes := packBits (digits.flatMap (bitsOf w))

lemma length_packDigits (w : Nat) (digits : List Nat) :
    (packDigits w digits).length = digits.length * w / 8 := by
  rw [packDigits, length_packBits, length_flatMap]
  simp

/-! ## Writing digits -/

def ofBits (l : List Bool) : Nat := l.foldl (fun n b => 2 * n + b.toNat) 0

lemma ofBits_concat (l : List Bool) (b : Bool) : ofBits (l ++ [b]) = 2 * ofBits l + b.toNat := by
  rw [ofBits, foldl_append]
  rfl

lemma bitsOf_succ (w n : Nat) (b : Bool) : bitsOf (w + 1) (2 * n + b.toNat) =
    bitsOf w n ++ [b] := by
  have hsucc : ∀ i, (2 * n + b.toNat).testBit (i + 1) = n.testBit i := by
    intro i
    rw [Nat.testBit_succ]
    congr 1
    cases b
    · simp
    · simp
      omega
  have hzero : (2 * n + b.toNat).testBit 0 = b := by cases b <;> simp [Nat.testBit_zero]
  rw [bitsOf, range_succ_eq_map, reverse_cons, map_append, map_singleton, hzero,
    ← map_reverse, map_map, bitsOf]
  congr 1
  exact map_congr_left fun i _ => hsucc i

lemma bitsOf_ofBits (l : List Bool) : bitsOf l.length (ofBits l) = l := by
  induction l using reverseRecOn with
  | nil => rfl
  | append_singleton l b ih => rw [length_append, length_singleton, ofBits_concat, bitsOf_succ, ih]

lemma ofBits_lt (l : List Bool) : ofBits l < 2 ^ l.length := by
  induction l using reverseRecOn with
  | nil => decide
  | append_singleton l b ih =>
    rw [length_append, length_singleton, ofBits_concat, Nat.pow_succ]
    have := b.toNat_lt
    omega

def unpackBits (b : Bytes) : List Bool := b.flatMap fun x => bitsOf 8 x.toNat

lemma length_unpackBits (b : Bytes) : (unpackBits b).length = 8 * b.length := by
  rw [unpackBits, length_flatMap]
  simp [Nat.mul_comm]

lemma packBits_unpackBits (b : Bytes) {pad : List Bool} (hpad : pad.length < 8) :
    packBits (unpackBits b ++ pad) = b := by
  induction b with
  | nil =>
    refine length_eq_zero_iff.1 ?_
    rw [length_packBits]
    exact Nat.div_eq_of_lt hpad
  | cons x b ih =>
    have hbyte : UInt8.ofNat (ofBits (bitsOf 8 x.toNat)) = x := by
      have hall : ∀ n < 256, UInt8.ofNat (ofBits (bitsOf 8 n)) = UInt8.ofNat n := by decide +kernel
      rw [hall _ x.toNat_lt, UInt8.ofNat_toNat]
    change UInt8.ofNat (ofBits (bitsOf 8 x.toNat)) :: packBits (unpackBits b ++ pad) = _
    rw [hbyte, ih]

def bitDigits (w : Nat) : Nat → List Bool → List Nat
  | 0, _ => []
  | n + 1, bits =>
    ofBits (bits.take w ++ List.replicate (w - bits.length) false) :: bitDigits w n (bits.drop w)

@[simp] lemma length_bitDigits (w n : Nat) (bits : List Bool) : (bitDigits w n bits).length =
    n := by
  induction n generalizing bits with
  | zero => rfl
  | succ n ih => rw [bitDigits, length_cons, ih]

lemma length_take_append_replicate (w : Nat) (bits : List Bool) :
    (bits.take w ++ replicate (w - bits.length) false).length = w := by
  rw [length_append, length_take, length_replicate]
  omega

lemma bitDigits_lt {w n : Nat} {bits : List Bool} : ∀ d ∈ bitDigits w n bits, d < 2 ^ w := by
  induction n generalizing bits with
  | zero => exact fun d hd => absurd hd not_mem_nil
  | succ n ih =>
    intro d hd
    rw [bitDigits, mem_cons] at hd
    obtain rfl | hd := hd
    · have := ofBits_lt (bits.take w ++ replicate (w - bits.length) false)
      rwa [length_take_append_replicate] at this
    · exact ih d hd

lemma flatMap_bitDigits (w : Nat) : ∀ (n : Nat) (bits : List Bool), bits.length ≤ n * w →
    (bitDigits w n bits).flatMap (bitsOf w) = bits ++ replicate (n * w - bits.length) false
  | 0, bits, h => by
    rw [Nat.zero_mul, Nat.le_zero, length_eq_zero_iff] at h
    rw [h]
    simp [bitDigits]
  | n + 1, bits, h => by
    rw [Nat.succ_mul] at h
    have hdigit := bitsOf_ofBits (bits.take w ++ replicate (w - bits.length) false)
    rw [length_take_append_replicate] at hdigit
    rw [bitDigits, flatMap_cons, hdigit,
      flatMap_bitDigits w n _ (by rw [length_drop]; omega), length_drop, Nat.succ_mul]
    obtain hle | hlt := Nat.lt_or_ge bits.length w |>.symm
    · rw [Nat.sub_eq_zero_of_le hle, replicate_zero, append_nil, ← append_assoc, take_append_drop]
      congr 2
      omega
    rw [take_of_length_le hlt.le, drop_of_length_le hlt.le, nil_append,
      append_assoc, replicate_append_replicate]
    congr 2
    omega

def unpackDigits (w : Nat) (b : Bytes) : List Nat :=
  bitDigits w ((8 * b.length + (w - 1)) / w) (unpackBits b)

lemma packDigits_unpackDigits {w : Nat} (hpos : 0 < w) (hle : w ≤ 8) (b : Bytes) :
    packDigits w (unpackDigits w b) = b := by
  have hdiv := Nat.div_add_mod (8 * b.length + (w - 1)) w
  have hmod := Nat.mod_lt (8 * b.length + (w - 1)) hpos
  have hcomm := Nat.mul_comm w ((8 * b.length + (w - 1)) / w)
  rw [packDigits, unpackDigits, flatMap_bitDigits, packBits_unpackBits]
  · rw [length_replicate, length_unpackBits]
    omega
  · rw [length_unpackBits]
    omega
