import Mathlib

/-!
# Byte strings

`std::string` and `std::vector<unsigned char>` are lists of bytes. Both compare byte by byte as
unsigned values, which is the lexicographic order of `List UInt8`.
-/

/-- The order of unsigned bytes. -/
instance byteOrder : LinearOrder UInt8 where
  le_refl a := UInt8.le_refl a
  le_trans _ _ _ := UInt8.le_trans
  le_antisymm _ _ := UInt8.le_antisymm
  le_total := UInt8.le_total
  lt_iff_le_not_ge a b := by
    simp only [UInt8.le_iff_toNat_le, UInt8.lt_iff_toNat_lt]
    omega
  toDecidableLE := inferInstance
  toDecidableLT := inferInstance
  toDecidableEq := inferInstance

abbrev Bytes := List UInt8

/-- The byte of an ASCII character. -/
def ascii (c : Char) : UInt8 := UInt8.ofNat c.toNat

def bytes (s : String) : Bytes := s.toList.map ascii

/-- The bytes of a number, the most significant one first. -/
def natBytes : Nat → Nat → Bytes
  | 0, _ => []
  | k + 1, n => UInt8.ofNat (n / 256 ^ k) :: natBytes k n

@[simp] lemma length_natBytes (k n : Nat) : (natBytes k n).length = k := by
  induction k with
  | zero => rfl
  | succ k ih => rw [natBytes, List.length_cons, ih]

lemma length_natBytes_32 (n : Nat) : (natBytes 32 n).length = 32 := length_natBytes 32 n

lemma length_zeros (n : Nat) : (List.replicate n (0 : UInt8)).length = n := List.length_replicate

lemma length_zeros_32 : (List.replicate 32 (0 : UInt8)).length = 32 := rfl

lemma length_replicate_32 (b : UInt8) : (List.replicate 32 b).length = 32 := rfl

instance lawfulBEq32 : LawfulBEq {b : Bytes // b.length = 32} := inferInstance

/-- The value of a lowercase hexadecimal digit. -/
def hexDigit (c : Char) : UInt8 := UInt8.ofNat (if c.toNat < 97 then c.toNat - 48 else c.toNat - 87)

def hexBytes (s : String) : Bytes := go s.toList
where
  go : List Char → Bytes
    | a :: b :: rest => (16 * hexDigit a + hexDigit b) :: go rest
    | _ => []
