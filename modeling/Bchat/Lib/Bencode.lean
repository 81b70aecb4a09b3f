import Bchat.Lib.Bytes

/-!
# Bencode

The values of the encoding, its writer and its reader.

* integers `i<decimal>e`, strings `<length>:<bytes>`, lists `l...e`, dicts `d<key><value>...e`
* dict keys are strings; neither the writer nor the reader looks at their order
* the reader of an outermost dict is lazy, it hands out the pairs up to the first malformed byte

`readDict_encodeDict`: what was written is read back, item by item.
-/

namespace Bencode

open List

/-- A bencoded value. A dict keeps its pairs in the order in which they were written. -/
inductive Bt
  | int (i : Int)
  | str (s : Bytes)
  | list (l : List Bt)
  | dict (d : List (Bytes × Bt))
  deriving Repr

abbrev BtDict := List (Bytes × Bt)

variable (d : BtDict) (v : Bt) (n : Nat)

/-! ## Writer -/

/-- Decimal digits, most significant first. -/
def encodeNat : Bytes :=
  if n = 0 then [ascii '0'] else ((Nat.digits 10 n).reverse).map (fun d => UInt8.ofNat (48 + d))

def encodeStr (s : Bytes) : Bytes := encodeNat s.length ++ ascii ':' :: s

def encodeInt (i : Int) : Bytes :=
  if i < 0 then ascii 'i' :: ascii '-' :: (encodeNat i.natAbs ++ [ascii 'e'])
  else ascii 'i' :: (encodeNat i.natAbs ++ [ascii 'e'])

mutual
def encode : Bt → Bytes
  | .int i => encodeInt i
  | .str s => encodeStr s
  | .list l => ascii 'l' :: (encodeItems l ++ [ascii 'e'])
  | .dict d => ascii 'd' :: (encodePairs d ++ [ascii 'e'])

def encodeItems : List Bt → Bytes
  | [] => []
  | v :: rest => encode v ++ encodeItems rest

def encodePairs : BtDict → Bytes
  | [] => []
  | (k, v) :: rest => encodeStr k ++ (encode v ++ encodePairs rest)
end

def encodeDict : Bytes := ascii 'd' :: (encodePairs d ++ [ascii 'e'])

/-- The dict as far as it is written before it is closed. -/
def encodeOpen : Bytes := ascii 'd' :: encodePairs d

/-! ## Reader -/

def isDigit (b : UInt8) : Bool := ascii '0' ≤ b && b ≤ ascii '9'

/-- Reads the longest run of digits. -/
def decodeNat (bs : Bytes) : Option (Nat × Bytes) :=
  let ds := bs.takeWhile isDigit
  if ds.isEmpty then none
  else some (Nat.ofDigits 10 (ds.reverse.map (fun b => b.toNat - 48)), bs.dropWhile isDigit)

def decodeStr (bs : Bytes) : Option (Bytes × Bytes) :=
  match decodeNat bs with
  | some (n, c :: rest) =>
    if c = ascii ':' ∧ n ≤ rest.length then some (rest.take n, rest.drop n) else none
  | _ => none

/-- The rest of an integer, after its `i`. -/
def decodeInt : Bytes → Option (Int × Bytes)
  | [] => none
  | b :: rest =>
    if b = ascii '-' then
      match decodeNat rest with
      | some (n, c :: rest') => if c = ascii 'e' then some (-(n : Int), rest') else none
      | _ => none
    else
      match decodeNat (b :: rest) with
      | some (n, c :: rest') => if c = ascii 'e' then some ((n : Int), rest') else none
      | _ => none

mutual
def decode : Nat → Bytes → Option (Bt × Bytes)
  | 0, _ => none
  | _ + 1, [] => none
  | fuel + 1, b :: rest =>
    if b = ascii 'i' then (decodeInt rest).map (fun r => (.int r.1, r.2))
    else if b = ascii 'l' then (decodeItems fuel rest).map (fun r => (.list r.1, r.2))
    else if b = ascii 'd' then (decodePairs fuel rest).map (fun r => (.dict r.1, r.2))
    else (decodeStr (b :: rest)).map (fun r => (.str r.1, r.2))

def decodeItems : Nat → Bytes → Option (List Bt × Bytes)
  | 0, _ => none
  | _ + 1, [] => none
  | fuel + 1, b :: rest =>
    if b = ascii 'e' then some ([], rest)
    else match decode fuel (b :: rest) with
      | none => none
      | some (v, rest') => (decodeItems fuel rest').map (fun r => (v :: r.1, r.2))

def decodePairs : Nat → Bytes → Option (BtDict × Bytes)
  | 0, _ => none
  | _ + 1, [] => none
  | fuel + 1, b :: rest =>
    if b = ascii 'e' then some ([], rest)
    else match decodeStr (b :: rest) with
      | none => none
      | some (k, rest') => match decode fuel rest' with
        | none => none
        | some (v, rest'') => (decodePairs fuel rest'').map (fun r => ((k, v) :: r.1, r.2))
end

/-- The pairs of an outermost dict, each with the input that starts at its key, and whether the
dict was closed. Reading stops at the first malformed byte. -/
def readPairs : Nat → Bytes → List (Bytes × (Bytes × Bt)) × Bool
  | 0, _ => ([], false)
  | _ + 1, [] => ([], false)
  | fuel + 1, b :: rest =>
    if b = ascii 'e' then ([], true)
    else match decodeStr (b :: rest) with
      | none => ([], false)
      | some (k, rest') => match decode fuel rest' with
        | none => ([], false)
        | some (v, rest'') =>
          let r := readPairs fuel rest''
          ((b :: rest, (k, v)) :: r.1, r.2)

def readDict : Bytes → Option (BtDict × Bool)
  | [] => none
  | b :: rest =>
    if b = ascii 'd' then
      let r := readPairs rest.length rest
      some (r.1.map Prod.snd, r.2)
    else none

def readItems : Nat → Bytes → List Bt × Bool
  | 0, _ => ([], false)
  | _ + 1, [] => ([], false)
  | fuel + 1, b :: rest =>
    if b = ascii 'e' then ([], true)
    else match decode fuel (b :: rest) with
      | none => ([], false)
      | some (v, rest') =>
        let r := readItems fuel rest'
        (v :: r.1, r.2)

def readList : Bytes → Option (List Bt × Bool)
  | [] => none
  | b :: rest => if b = ascii 'l' then some (readItems rest.length rest) else none

/-- The bytes of an outermost dict up to the first pair with key `k`. -/
def readUntil (k : Bytes) : Bytes → Bytes
  | [] => []
  | b :: rest =>
    match (readPairs rest.length rest).1.find? (fun p => p.2.1 = k) with
    | none => b :: rest
    | some p => b :: rest.take (rest.length - p.1.length)

/-! ## Numbers and strings -/

lemma isDigit_digit {d : Nat} (h : d < 10) : isDigit (UInt8.ofNat (48 + d)) = true := by
  interval_cases d <;> decide

lemma digit_value {d : Nat} (h : d < 10) : (UInt8.ofNat (48 + d)).toNat - 48 = d := by
  interval_cases d <;> decide

lemma encodeNat_isDigit : ∀ b ∈ encodeNat n, isDigit b = true := by
  intro b hb
  unfold encodeNat at hb
  split at hb
  · rw [mem_singleton.mp hb]
    decide
  · obtain ⟨d, hd, rfl⟩ := mem_map.mp hb
    exact isDigit_digit (Nat.digits_lt_base (by decide) (mem_reverse.mp hd))

lemma encodeNat_ne_nil : encodeNat n ≠ [] := by
  unfold encodeNat
  split
  · simp
  · next h => simpa [Nat.digits_ne_nil_iff_ne_zero] using h

lemma ofDigits_encodeNat :
    Nat.ofDigits 10 ((encodeNat n).reverse.map (fun b => b.toNat - 48)) = n := by
  unfold encodeNat
  split
  · next h =>
    subst h
    decide
  rw [map_reverse, map_reverse, map_reverse, reverse_reverse, map_map]
  have hid : (Nat.digits 10 n).map
      ((fun b : UInt8 => b.toNat - 48) ∘ fun d => UInt8.ofNat (48 + d)) = Nat.digits 10 n := by
    conv_rhs => rw [← map_id (Nat.digits 10 n)]
    refine map_congr_left ?_
    intro d hd
    exact digit_value (Nat.digits_lt_base (by decide) hd)
  rw [hid, Nat.ofDigits_digits]

lemma decodeNat_encodeNat {c : UInt8} (hc : isDigit c = false) (rest : Bytes) :
    decodeNat (encodeNat n ++ c :: rest) = some (n, c :: rest) := by
  have htake : (encodeNat n ++ c :: rest).takeWhile isDigit = encodeNat n := by
    rw [takeWhile_append_of_pos (encodeNat_isDigit n), takeWhile_cons_of_neg (by simp [hc]),
      append_nil]
  have hdrop : (encodeNat n ++ c :: rest).dropWhile isDigit = c :: rest := by
    rw [dropWhile_append_of_pos (encodeNat_isDigit n), dropWhile_cons_of_neg (by simp [hc])]
  unfold decodeNat
  simp only [htake, hdrop, ofDigits_encodeNat]
  rw [if_neg (by simpa using encodeNat_ne_nil n)]

lemma decodeStr_encodeStr (s rest : Bytes) : decodeStr (encodeStr s ++ rest) = some (s, rest) := by
  unfold decodeStr encodeStr
  rw [append_assoc, cons_append, decodeNat_encodeNat s.length (by decide)]
  simp

lemma encodeNat_head : ∃ b t, encodeNat n = b :: t ∧ isDigit b = true := by
  cases h : encodeNat n with
  | nil => exact absurd h (encodeNat_ne_nil n)
  | cons b t => exact ⟨b, t, rfl, encodeNat_isDigit n b (by simp [h])⟩

lemma encodeStr_head (s : Bytes) : ∃ b t, encodeStr s = b :: t ∧ isDigit b = true := by
  obtain ⟨b, t, h, hb⟩ := encodeNat_head s.length
  exact ⟨b, t ++ ascii ':' :: s, by rw [encodeStr, h, cons_append], hb⟩

lemma ne_of_isDigit {b c : UInt8} (hb : isDigit b = true) (hc : isDigit c = false) : b ≠ c := by
  rintro rfl
  rw [hb] at hc
  cases hc

lemma decodeInt_encodeInt (i : Int) (rest : Bytes) :
    ∃ t, encodeInt i = ascii 'i' :: t ∧ decodeInt (t ++ rest) = some (i, rest) := by
  obtain ⟨b, t, hn, hb⟩ := encodeNat_head i.natAbs
  by_cases h : i < 0
  · refine ⟨ascii '-' :: (encodeNat i.natAbs ++ [ascii 'e']), by simp [encodeInt, h], ?_⟩
    rw [cons_append, decodeInt, if_pos rfl, append_assoc, cons_append,
      decodeNat_encodeNat i.natAbs (by decide)]
    simp only [if_true, nil_append, Option.some.injEq, Prod.mk.injEq, and_true]
    omega
  refine ⟨encodeNat i.natAbs ++ [ascii 'e'], by simp [encodeInt, h], ?_⟩
  have hread := decodeNat_encodeNat i.natAbs (c := ascii 'e') (by decide) rest
  rw [hn, cons_append] at hread
  rw [append_assoc, cons_append, hn, cons_append, decodeInt,
    if_neg (ne_of_isDigit hb (by decide)), nil_append, hread]
  simp only [if_true, Option.some.injEq, Prod.mk.injEq, and_true]
  omega

/-! ## Round trip -/

lemma encode_head : ∃ b t, encode v = b :: t ∧ b ≠ ascii 'e' := by
  cases v with
  | int i =>
    obtain ⟨t, h, -⟩ := decodeInt_encodeInt i []
    exact ⟨ascii 'i', t, by rw [encode, h], by decide⟩
  | str s =>
    obtain ⟨b, t, h, hb⟩ := encodeStr_head s
    exact ⟨b, t, by rw [encode, h], ne_of_isDigit hb (by decide)⟩
  | list l => exact ⟨ascii 'l', encodeItems l ++ [ascii 'e'], by rw [encode], by decide⟩
  | dict d => exact ⟨ascii 'd', encodePairs d ++ [ascii 'e'], by rw [encode], by decide⟩

lemma encode_length_pos : 0 < (encode v).length := by
  obtain ⟨b, t, h, -⟩ := encode_head v
  simp [h]

mutual
/-- What was written is read back. The length of the encoding is enough fuel: every recursive
call of the reader has consumed at least one byte. -/
lemma decode_encode : ∀ (v : Bt) (fuel : Nat) (rest : Bytes), (encode v).length ≤ fuel →
    decode fuel (encode v ++ rest) = some (v, rest)
  | .int i, fuel, rest, h => by
    obtain ⟨t, ht, hread⟩ := decodeInt_encodeInt i rest
    rw [encode, ht] at h ⊢
    obtain ⟨f, rfl⟩ : ∃ f, fuel = f + 1 := ⟨fuel - 1, by simp at h; omega⟩
    rw [cons_append, decode, if_pos rfl, hread]
    rfl
  | .str s, fuel, rest, h => by
    obtain ⟨b, t, hs, hb⟩ := encodeStr_head s
    obtain ⟨f, rfl⟩ : ∃ f, fuel = f + 1 := ⟨fuel - 1, by have := encode_length_pos (.str s); omega⟩
    have hread := decodeStr_encodeStr s rest
    rw [hs, cons_append] at hread
    rw [encode, hs, cons_append, decode, if_neg (ne_of_isDigit hb (by decide)),
      if_neg (ne_of_isDigit hb (by decide)), if_neg (ne_of_isDigit hb (by decide)), hread]
    rfl
  | .list l, fuel, rest, h => by
    rw [encode] at h ⊢
    simp only [length_cons, length_append, length_nil] at h
    obtain ⟨f, rfl⟩ : ∃ f, fuel = f + 1 := ⟨fuel - 1, by omega⟩
    rw [cons_append, decode, if_neg (by decide), if_pos rfl, append_assoc,
      cons_append, nil_append, decodeItems_encodeItems l f rest (by omega)]
    rfl
  | .dict d, fuel, rest, h => by
    rw [encode] at h ⊢
    simp only [length_cons, length_append, length_nil] at h
    obtain ⟨f, rfl⟩ : ∃ f, fuel = f + 1 := ⟨fuel - 1, by omega⟩
    rw [cons_append, decode, if_neg (by decide), if_neg (by decide), if_pos rfl,
      append_assoc, cons_append, nil_append,
      decodePairs_encodePairs d f rest (by omega)]
    rfl

lemma decodeItems_encodeItems : ∀ (l : List Bt) (fuel : Nat) (rest : Bytes),
    (encodeItems l).length + 1 ≤ fuel →
    decodeItems fuel (encodeItems l ++ ascii 'e' :: rest) = some (l, rest)
  | [], fuel, rest, h => by
    obtain ⟨f, rfl⟩ : ∃ f, fuel = f + 1 := ⟨fuel - 1, by omega⟩
    rw [encodeItems, nil_append, decodeItems, if_pos rfl]
  | v :: l, fuel, rest, h => by
    rw [encodeItems] at h ⊢
    have hpos := encode_length_pos v
    simp only [length_append] at h
    obtain ⟨f, rfl⟩ : ∃ f, fuel = f + 1 := ⟨fuel - 1, by omega⟩
    obtain ⟨b, t, hv, hb⟩ := encode_head v
    have hread := decode_encode v f (encodeItems l ++ ascii 'e' :: rest) (by omega)
    rw [hv, cons_append] at hread
    rw [append_assoc, hv, cons_append, decodeItems, if_neg hb, hread]
    simp only []
    rw [decodeItems_encodeItems l f rest (by omega)]
    rfl

lemma decodePairs_encodePairs : ∀ (d : BtDict) (fuel : Nat) (rest : Bytes),
    (encodePairs d).length + 1 ≤ fuel →
    decodePairs fuel (encodePairs d ++ ascii 'e' :: rest) = some (d, rest)
  | [], fuel, rest, h => by
    obtain ⟨f, rfl⟩ : ∃ f, fuel = f + 1 := ⟨fuel - 1, by omega⟩
    rw [encodePairs, nil_append, decodePairs, if_pos rfl]
  | (k, v) :: d, fuel, rest, h => by
    rw [encodePairs] at h ⊢
    have hpos := encode_length_pos v
    simp only [length_append] at h
    obtain ⟨f, rfl⟩ : ∃ f, fuel = f + 1 := ⟨fuel - 1, by omega⟩
    obtain ⟨b, t, hk, hb⟩ := encodeStr_head k
    have hkey := decodeStr_encodeStr k (encode v ++ (encodePairs d ++ ascii 'e' :: rest))
    have hread := decode_encode v f (encodePairs d ++ ascii 'e' :: rest) (by omega)
    rw [hk, cons_append] at hkey
    rw [append_assoc, hk, cons_append, append_assoc, decodePairs,
      if_neg (ne_of_isDigit hb (by decide)), hkey]
    simp only []
    rw [hread]
    simp only []
    rw [decodePairs_encodePairs d f rest (by omega)]
    rfl
end

def pairsFrom : BtDict → Bytes → List (Bytes × (Bytes × Bt))
  | [], _ => []
  | (k, v) :: d, rest => (encodePairs ((k, v) :: d) ++ rest, (k, v)) :: pairsFrom d rest

lemma readPairs_encodePairs : ∀ (d : BtDict) (fuel : Nat) (rest : Bytes),
    (encodePairs d).length + 1 ≤ fuel →
    readPairs fuel (encodePairs d ++ ascii 'e' :: rest) = (pairsFrom d (ascii 'e' :: rest), true)
  | [], fuel, rest, h => by
    obtain ⟨f, rfl⟩ : ∃ f, fuel = f + 1 := ⟨fuel - 1, by omega⟩
    rw [encodePairs, nil_append, readPairs, if_pos rfl, pairsFrom]
  | (k, v) :: d, fuel, rest, h => by
    have hpos := encode_length_pos v
    have hlen : (encodePairs ((k, v) :: d)).length
        = (encodeStr k).length + ((encode v).length + (encodePairs d).length) := by
      rw [encodePairs, length_append, length_append]
    obtain ⟨f, rfl⟩ : ∃ f, fuel = f + 1 := ⟨fuel - 1, by omega⟩
    obtain ⟨b, t, hk, hb⟩ := encodeStr_head k
    have hkey := decodeStr_encodeStr k (encode v ++ (encodePairs d ++ ascii 'e' :: rest))
    have hread := decode_encode v f (encodePairs d ++ ascii 'e' :: rest) (by omega)
    have hwhole : encodePairs ((k, v) :: d) ++ ascii 'e' :: rest
        = b :: (t ++ (encode v ++ (encodePairs d ++ ascii 'e' :: rest))) := by
      rw [encodePairs, hk]
      simp
    rw [hk, cons_append] at hkey
    rw [pairsFrom, hwhole, readPairs, if_neg (ne_of_isDigit hb (by decide)), hkey]
    simp only []
    rw [hread]
    simp only []
    rw [readPairs_encodePairs d f rest (by omega)]

lemma map_snd_pairsFrom (rest : Bytes) : (pairsFrom d rest).map Prod.snd = d := by
  induction d with
  | nil => rfl
  | cons p d ih => simp [pairsFrom, ih]

lemma readDict_encodeDict : readDict (encodeDict d) = some (d, true) := by
  rw [encodeDict, readDict, if_pos rfl, readPairs_encodePairs d _ [] (by simp [length_append])]
  simp [map_snd_pairsFrom]

lemma find?_pairsFrom {k : Bytes} : ∀ {d : BtDict} (v : Bt) (rest : Bytes), (∀ p ∈ d, p.1 ≠ k) →
    (pairsFrom (d ++ [(k, v)]) rest).find? (fun p => p.2.1 = k)
      = some (encodePairs [(k, v)] ++ rest, (k, v))
  | [], v, rest, _ => by simp [pairsFrom]
  | (k', v') :: d, v, rest, h => by
    rw [cons_append, pairsFrom, find?_cons_of_neg (by simpa using h (k', v') (by simp)),
      find?_pairsFrom v rest (fun p hp => h p (mem_cons_of_mem _ hp))]

lemma encodePairs_append (d d' : BtDict) :
    encodePairs (d ++ d') = encodePairs d ++ encodePairs d' := by
  induction d with
  | nil => simp [encodePairs]
  | cons p d ih =>
    rw [cons_append, encodePairs, encodePairs, ih]
    simp

/-- **The bytes before the last pair are the dict as it stood before that pair was added.** -/
lemma readUntil_encodeDict {k : Bytes} {d : BtDict} (h : ∀ p ∈ d, p.1 ≠ k) :
    readUntil k (encodeDict (d ++ [(k, v)])) = encodeOpen d := by
  rw [encodeDict, readUntil, readPairs_encodePairs _ _ [] (by simp [length_append]),
    find?_pairsFrom v _ h, encodeOpen, encodePairs_append]
  simp

/-! ## Records as bencoded values

A codec writes the values of a type as bencoded values and reads them back. Codecs are put together
from those of the parts: an optional value is a list with at most one item, a pair a list of two,
and a record goes through the pair of its fields.
-/

structure BtCodec (α : Type) where
  write : α → Bt
  read : Bt → Option α
  read_write : ∀ a, read (write a) = some a

namespace BtCodec

variable {α β : Type}

def str : BtCodec Bytes where
  write := .str
  read
    | .str b => some b
    | _ => none
  read_write _ := rfl

def nat : BtCodec Nat where
  write n := .int n
  read
    | .int i => some i.toNat
    | _ => none
  read_write n := congrArg some (Int.toNat_natCast n)

def option (c : BtCodec α) : BtCodec (Option α) where
  write
    | none => .list []
    | some a => .list [c.write a]
  read
    | .list [] => some none
    | .list [v] => (c.read v).map some
    | _ => none
  read_write
    | none => rfl
    | some a => congrArg (Option.map some) (c.read_write a)

def pair (c : BtCodec α) (d : BtCodec β) : BtCodec (α × β) where
  write p := .list [c.write p.1, d.write p.2]
  read
    | .list [v, w] => (c.read v).bind fun a => (d.read w).map (a, ·)
    | _ => none
  read_write p := by
    change ((c.read (c.write p.1)).bind fun a => (d.read (d.write p.2)).map (a, ·)) = some p
    rw [c.read_write, d.read_write]
    rfl

/-- The codec of a type whose values are written through another one. -/
def map (c : BtCodec α) (f : β → α) (g : α → β) (h : ∀ b, g (f b) = b) : BtCodec β where
  write b := c.write (f b)
  read v := (c.read v).map g
  read_write b := by rw [c.read_write, Option.map_some, h]

def serialize (c : BtCodec α) (a : α) : Bytes := encode (c.write a)

def parse (c : BtCodec α) (b : Bytes) : Option α :=
  match decode b.length b with
  | some (v, []) => c.read v
  | _ => none

lemma serialize_ne_nil (c : BtCodec α) (a : α) : c.serialize a ≠ [] :=
  List.length_pos_iff.mp (encode_length_pos _)

lemma parse_serialize (c : BtCodec α) (a : α) : c.parse (c.serialize a) = some a := by
  have hdec := decode_encode (c.write a) (encode (c.write a)).length [] (Nat.le_refl _)
  rw [List.append_nil] at hdec
  rw [parse, serialize, hdec]
  exact c.read_write a

end BtCodec

end Bencode
