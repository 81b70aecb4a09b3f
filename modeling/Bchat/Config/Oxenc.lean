import Bchat.Lib.Bencode
import Bchat.Lib.SortedMap

/-!
# What the config code takes from outside

The bencode producer and consumer of oxenc and the BLAKE2b hash of libsodium are not part of this
repository. They are the parameter `Env` of the model, with the laws the config code relies on.
`Env.bencode` is the instance with the real encoding.

The exceptions of the modelled functions are collected in `Err`.
-/

namespace Bchat.Config

open Bencode

/-! ## Errors -/

/-- What a modelled function can throw. The texts are those of the source; the byte strings are
the parts of a text that depend on the input. -/
inductive Err
  /-- `oxenc::bt_deserialize_invalid` thrown by oxenc itself. -/
  | oxenc
  /-- `oxenc::bt_deserialize_invalid` thrown by the config code. -/
  | bt (what : String)
  /-- `config_error`. -/
  | config (what : String) (args : List Bytes)
  /-- `config_parse_error`. -/
  | parse (what : String) (args : List Bytes)
  /-- `config_value_error`. -/
  | value (what : String)
  /-- `signature_error`. -/
  | signature (what : String)
  /-- `missing_signature`. -/
  | missingSignature (what : String)
  /-- `std::overflow_error` of `oxenc::get_int`. -/
  | overflow
  /-- `std::bad_variant_access`. -/
  | badVariant
  /-- `std::runtime_error`. -/
  | runtime (what : String)
  /-- `std::invalid_argument`. -/
  | invalidArgument (what : String)
  /-- `std::logic_error`. -/
  | logic (what : String)
  /-- `std::length_error`. -/
  | length (what : String)
  /-- `decrypt_error`. -/
  | decrypt (what : String)
  /-- A failed `assert`. -/
  | assertion
  /-- Not an exception: the call never returns. -/
  | hang
  /-- Not an exception: an empty `std::optional` is dereferenced. -/
  | emptyOptional
  /-- Not an exception: a read outside a buffer. -/
  | outOfRange
  deriving DecidableEq, Repr

/-- What a caller can catch: all but the ends of a call that are no exceptions. -/
def Err.isException : Err → Bool
  | .assertion | .hang | .emptyOptional | .outOfRange => false
  | _ => true

/-- The subtypes of `config_error`, which the merging constructor catches. -/
def Err.isConfigError : Err → Bool
  | .config .. | .parse .. | .value .. | .signature .. | .missingSignature .. => true
  | _ => false

/-! ## Fixed-size byte arrays -/

/-- A hash of 32 bytes. -/
abbrev Hash := {b : Bytes // b.length = 32}

/-- A signature of 64 bytes. -/
abbrev Signature := {b : Bytes // b.length = 64}

/-- The range of `int64_t`. -/
def InInt64 (i : Int) : Prop := -2 ^ 63 ≤ i ∧ i < 2 ^ 63

instance (i : Int) : Decidable (InInt64 i) := inferInstanceAs (Decidable (_ ∧ _))

/-- The result of an `int64_t` operation whose exact result is `i`, if it wraps around. -/
def wrap64 (i : Int) : Int := Int.bmod i (2 ^ 64)

lemma wrap64_of_inInt64 {i : Int} (h : InInt64 i) : wrap64 i = i := by
  unfold InInt64 at h
  exact Int.bmod_eq_of_le (by omega) (by omega)

/-- The range of integers oxenc can hold, as `int64_t` or as `uint64_t`. -/
def InBtInt (i : Int) : Prop := -2 ^ 63 ≤ i ∧ i < 2 ^ 64

instance (i : Int) : Decidable (InBtInt i) := inferInstanceAs (Decidable (_ ∧ _))

/-! ## The environment -/

/-- The code from outside the repository. -/
structure Env where
  /-- A finished `bt_dict_producer`, given its pairs in the order they were appended. -/
  encode : BtDict → Bytes
  /-- What the producer passes to a signing function: the dict as far as it is written. -/
  encodeOpen : BtDict → Bytes
  /-- A `bt_dict_consumer`: the pairs in the order they are read, and whether the dict is closed
  after the last one. `none` when the input does not start a dict. -/
  read : Bytes → Option (BtDict × Bool)
  /-- What the consumer passes to a verifying function: the input up to the given key. -/
  readUntil : Bytes → Bytes → Bytes
  /-- `std::map` filled from the pairs of a dict in input order. -/
  toMap : BtDict → BtDict
  /-- `crypto_generichash_blake2b` with a 32-byte result. -/
  blake2b : Bytes → Hash
  read_encode : ∀ d, read (encode d) = some (d, true)
  readUntil_encode : ∀ {k : Bytes} {d : BtDict} (v : Bt), (∀ p ∈ d, p.1 ≠ k) →
    readUntil k (encode (d ++ [(k, v)])) = encodeOpen d
  toMap_sorted : ∀ d, SortedMap.Sorted (toMap d)
  toMap_of_sorted : ∀ {d}, SortedMap.Sorted d → toMap d = d
  toMap_subset : ∀ d, ∀ p ∈ toMap d, p ∈ d

lemma Env.encode_injective (env : Env) : Function.Injective env.encode := by
  intro d d' h
  have hr := env.read_encode d
  rw [h, env.read_encode d'] at hr
  exact (Prod.mk.inj (Option.some.inj hr)).1.symm

def fillMap (d : BtDict) : BtDict := SortedMap.emplaceAll d []

/-- Plain bencode, for examples. -/
def Env.bencode (blake2b : Bytes → Hash) : Env where
  encode := encodeDict
  encodeOpen := Bencode.encodeOpen
  read := readDict
  readUntil := Bencode.readUntil
  toMap := fillMap
  blake2b := blake2b
  read_encode := readDict_encodeDict
  readUntil_encode := fun v h => readUntil_encodeDict v h
  toMap_sorted d := SortedMap.sorted_emplaceAll SortedMap.sorted_nil
  toMap_of_sorted {d} h := by
    refine SortedMap.ext (SortedMap.sorted_emplaceAll SortedMap.sorted_nil) h ?_
    intro k
    rw [fillMap, SortedMap.find?_emplaceAll]
    simp
  toMap_subset d p h := by simpa using SortedMap.mem_emplaceAll h

/-- A hash written as a number. -/
def hashOfNat (n : Nat) : Hash := ⟨natBytes 32 n, length_natBytes_32 n⟩

/-- The function that agrees with BLAKE2b on the listed inputs. -/
def tableHash (table : List (Bytes × Hash)) (b : Bytes) : Hash :=
  (SortedMap.find? b table).getD (hashOfNat 0)

/-! ## Deserialized values -/

mutual
/-- `consume_list` and `consume_dict`: the value as oxenc holds it. Integers must fit, and a dict
becomes a map. -/
def Env.consume (env : Env) : Bt → Option Bt
  | .int i => if InBtInt i then some (.int i) else none
  | .str s => some (.str s)
  | .list l => (env.consumeItems l).map .list
  | .dict d => (env.consumePairs d).map (fun d' => .dict (env.toMap d'))

def Env.consumeItems (env : Env) : List Bt → Option (List Bt)
  | [] => some []
  | v :: rest =>
    match env.consume v, env.consumeItems rest with
    | some v', some rest' => some (v' :: rest')
    | _, _ => none

def Env.consumePairs (env : Env) : BtDict → Option BtDict
  | [] => some []
  | (k, v) :: rest =>
    match env.consume v, env.consumePairs rest with
    | some v', some rest' => some ((k, v') :: rest')
    | _, _ => none
end

mutual
/-- The values oxenc can hold: integers fit and dicts are sorted. -/
def BtWF : Bt → Prop
  | .int i => InBtInt i
  | .str _ => True
  | .list l => BtItemsWF l
  | .dict d => BtPairsWF d ∧ SortedMap.Sorted d

def BtItemsWF : List Bt → Prop
  | [] => True
  | v :: rest => BtWF v ∧ BtItemsWF rest

def BtPairsWF : BtDict → Prop
  | [] => True
  | (_, v) :: rest => BtWF v ∧ BtPairsWF rest
end

lemma btPairsWF_iff {d : BtDict} : BtPairsWF d ↔ ∀ p ∈ d, BtWF p.2 := by
  induction d with
  | nil => simp [BtPairsWF]
  | cons q rest ih => rw [BtPairsWF, ih, List.forall_mem_cons]

mutual
lemma Env.consume_of_wf (env : Env) : ∀ v : Bt, BtWF v → env.consume v = some v
  | .int i, h => by
    rw [BtWF] at h
    rw [Env.consume, if_pos h]
  | .str s, _ => by rw [Env.consume]
  | .list l, h => by
    rw [BtWF] at h
    rw [Env.consume, env.consumeItems_of_wf l h]
    rfl
  | .dict d, h => by
    rw [BtWF] at h
    rw [Env.consume, env.consumePairs_of_wf d h.1]
    simp [env.toMap_of_sorted h.2]

lemma Env.consumeItems_of_wf (env : Env) : ∀ l : List Bt, BtItemsWF l → env.consumeItems l = some l
  | [], _ => by rw [Env.consumeItems]
  | v :: rest, h => by
    rw [BtItemsWF] at h
    rw [Env.consumeItems, env.consume_of_wf v h.1, env.consumeItems_of_wf rest h.2]

lemma Env.consumePairs_of_wf (env : Env) : ∀ d : BtDict, BtPairsWF d → env.consumePairs d = some d
  | [], _ => by rw [Env.consumePairs]
  | (k, v) :: rest, h => by
    rw [BtPairsWF] at h
    rw [Env.consumePairs, env.consume_of_wf v h.1, env.consumePairs_of_wf rest h.2]
end

mutual
lemma Env.wf_consume (env : Env) : ∀ {v w : Bt}, env.consume v = some w → BtWF w
  | .int i, w, h => by
    rw [Env.consume] at h
    split at h
    · next hi =>
      cases h
      rw [BtWF]
      exact hi
    · cases h
  | .str s, w, h => by
    rw [Env.consume] at h
    cases h
    rw [BtWF]
    trivial
  | .list l, w, h => by
    rw [Env.consume] at h
    obtain ⟨l', hl, rfl⟩ := Option.map_eq_some_iff.mp h
    rw [BtWF]
    exact env.wf_consumeItems hl
  | .dict d, w, h => by
    rw [Env.consume] at h
    obtain ⟨d', hd, rfl⟩ := Option.map_eq_some_iff.mp h
    rw [BtWF]
    refine ⟨btPairsWF_iff.mpr ?_, env.toMap_sorted d'⟩
    intro p hp
    exact btPairsWF_iff.mp (env.wf_consumePairs hd) p (env.toMap_subset d' p hp)

lemma Env.wf_consumeItems (env : Env) : ∀ {l l' : List Bt}, env.consumeItems l = some l' →
    BtItemsWF l'
  | [], l', h => by
    rw [Env.consumeItems] at h
    cases h
    rw [BtItemsWF]
    trivial
  | v :: rest, l', h => by
    rw [Env.consumeItems] at h
    split at h
    · next v' rest' hv hrest =>
      cases h
      rw [BtItemsWF]
      exact ⟨env.wf_consume hv, env.wf_consumeItems hrest⟩
    · cases h

lemma Env.wf_consumePairs (env : Env) : ∀ {d d' : BtDict}, env.consumePairs d = some d' →
    BtPairsWF d'
  | [], d', h => by
    rw [Env.consumePairs] at h
    cases h
    rw [BtPairsWF]
    trivial
  | (k, v) :: rest, d', h => by
    rw [Env.consumePairs] at h
    split at h
    · next v' rest' hv hrest =>
      cases h
      rw [BtPairsWF]
      exact ⟨env.wf_consume hv, env.wf_consumePairs hrest⟩
    · cases h
end

end Bchat.Config
