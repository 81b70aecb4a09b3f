import Bchat.Config.Types
import Bchat.Config.Oxenc

/-!
# Diffs of config data

A diff mirrors the data: `""` and `"-"` say that a scalar was assigned or removed, a pair of lists
says which elements a set gained and lost, a dict holds the changes below its key.

* `diffImpl` — the diff between two versions of the data
* `applyDiff` — replays a diff on some data, taking the assigned values from a source

These are the helper functions of `src/config.cpp`.
-/

namespace Bchat.Config

open Bencode SortedMap

lemma bind_eq_ok {ε α β : Type} {x : Except ε α} {f : α → Except ε β} {b : β} :
    (x >>= f) = .ok b ↔ ∃ a, x = .ok a ∧ f a = .ok b := by
  cases x with
  | error e | ok a => simp [bind, Except.bind]

@[simp] lemma ok_bind {ε α β : Type} (a : α) (f : α → Except ε β) :
    ((Except.ok a : Except ε α) >>= f) = f a := rfl

lemma exists_ok_of_isOk {ε α : Type} {x : Except ε α} (h : x.isOk = true) : ∃ a, x = .ok a := by
  cases x with
  | error e => cases h
  | ok a => exact ⟨a, rfl⟩

/-! ## Scalars in bencoded values -/

/-- An element as it is appended to a list or dict. -/
def Scalar.toBt : Scalar → Bt
  | .int i => .int i.toInt
  | .str s => .str s

/-- `get_bt_int`. A `uint64_t` above the range of `int64_t` makes `oxenc::get_int` throw. -/
def getBtInt : Bt → Except Err (Option Int64)
  | .int i => if InInt64 i then .ok (some (Int64.ofInt i)) else .error .overflow
  | _ => .ok none

def getBtStr : Bt → Option Bytes
  | .str s => some s
  | _ => none

def getBtScalar (v : Bt) : Except Err (Option Scalar) := do
  match ← getBtInt v with
  | some i => .ok (some (.int i))
  | none => .ok ((getBtStr v).map .str)

/-- `check_scalar_order`. -/
def checkScalarOrder (a b : Bt) : Except Err Unit := do
  let aInt ← getBtInt a
  let bInt ← getBtInt b
  match aInt, getBtStr a, bInt, getBtStr b with
  | some i, _, some j, _ =>
    if j.toInt ≤ i.toInt then .error (.parse "invalid config set elements: unsorted integers" [])
    else .ok ()
  | some _, _, none, some _ => .ok ()
  | none, some _, some _, _ =>
    .error (.parse "invalid config set elements: string before int" [])
  | none, some s, none, some t =>
    if t ≤ s then .error (.parse "invalid config set elements: unsorted strings" []) else .ok ()
  | _, _, _, _ =>
    .error (.parse "invalid config set elements: only ints/strings permitted" [])

/-- The loop over neighbouring elements. A list of one element is not looked at. -/
def checkElems : List Bt → Except Err Unit
  | a :: b :: rest => do
    checkScalarOrder a b
    checkElems (b :: rest)
  | _ => .ok ()

/-! ## `load_diff` -/

/-- The check of a set diff in `load_diff`. -/
def checkSetDiff (key : Bytes) (changed : List Bt) : Except Err Unit :=
  match changed with
  | [a, b] => do
    checkSublist a
    checkSublist b
  | _ => .error (.parse "config diff contains invalid set: expected 2 elements" [key])
where
  checkSublist : Bt → Except Err Unit
    | .list elems => checkElems elems
    | _ => .error (.parse "config diff contains invalid set: expected 2 sub-lists" [key])

mutual
/-- `load_diff`, with the last key of the result so far. -/
def loadDiff (env : Env) : Option Bytes → BtDict → Except Err BtDict
  | _, [] => .ok []
  | prev, (key, v) :: rest =>
    if prev.any (key ≤ ·) then .error (.bt "Diff keys are not correctly ordered")
    else do
      let v' ← loadDiffValue env key v
      let rest' ← loadDiff env (some key) rest
      .ok ((key, v') :: rest')

/-- The value under a key of a diff. Nothing consumes an integer, so the loop of the source stays
at it for ever. -/
def loadDiffValue (env : Env) : Bytes → Bt → Except Err Bt
  | key, .str mode =>
    if mode = bytes "" ∨ mode = bytes "-" then .ok (.str mode)
    else .error (.parse "config diff contains invalid dict pair" [key, mode])
  | key, .list l =>
    match env.consumeItems l with
    | none => .error .oxenc
    | some changed => do
      checkSetDiff key changed
      .ok (.list changed)
  | _, .dict d => do
    let d' ← loadDiff env none d
    .ok (.dict d')
  | _, .int _ => .error .hang
end

/-! ## `diff_impl` -/

/-- What the walk over two sorted sets does while the old one is at `o`. -/
def diffSetInner (o : Scalar) (os : List Scalar) (next : List Scalar → List Scalar × List Scalar) :
    List Scalar → List Scalar × List Scalar
  | [] => ([], o :: os)
  | n :: ns =>
    if n < o then
      let r := diffSetInner o os next ns
      (n :: r.1, r.2)
    else if o < n then
      let r := next (n :: ns)
      (r.1, o :: r.2)
    else next ns

/-- The walk of `diff_impl` over two sets: the elements added and the elements removed. -/
def diffSet : List Scalar → List Scalar → List Scalar × List Scalar
  | [] => fun new => (new, [])
  | o :: os => diffSetInner o os (diffSet os)

def setDiffBt (r : List Scalar × List Scalar) : Bt :=
  .list [.list (r.1.map Scalar.toBt), .list (r.2.map Scalar.toBt)]

mutual
/-- `df[key]` for a key that is new or whose value changed its type; for containers this is the
diff from an empty one. -/
def addedValue : DictValue → Bt
  | .dict d => .dict (addedDict d)
  | .set s => setDiffBt (s, [])
  | .scalar _ => .str (bytes "")

/-- The diff of a new dict. -/
def addedDict : Dict → BtDict
  | [] => []
  | (k, v) :: rest => (k, addedValue v) :: addedDict rest
end

mutual
def removedValue : DictValue → Bt
  | .dict d => .dict (removedDict d)
  | .set s => setDiffBt ([], s)
  | .scalar _ => .str (bytes "-")

/-- The diff of a dict that is gone. -/
def removedDict : Dict → BtDict
  | [] => []
  | (k, v) :: rest => (k, removedValue v) :: removedDict rest
end

/-- What the walk over two sorted dicts does while the old one is at the key `k`. -/
def diffDictInner (k : Bytes) (o : DictValue) (same : DictValue → Option Bt)
    (next : Dict → BtDict) : Dict → BtDict
  | [] => (k, removedValue o) :: next []
  | (k', n) :: ns =>
    if k' < k then (k', addedValue n) :: diffDictInner k o same next ns
    else if k < k' then (k, removedValue o) :: next ((k', n) :: ns)
    else match same n with
      | some v => (k, v) :: next ns
      | none => next ns

mutual
/-- `df[key]` for a key that is in both dicts, if it is assigned at all. -/
def diffValue : DictValue → DictValue → Option Bt
  | .scalar o, n =>
    match n with
    | .scalar n => if o ≠ n then some (.str (bytes "")) else none
    | n => some (addedValue n)
  | .dict o, n =>
    match n with
    | .dict n => match diffDict o n with
      | [] => none
      | df => some (.dict df)
    | n => some (addedValue n)
  | .set o, n =>
    match n with
    | .set n => match diffSet o n with
      | ([], []) => none
      | r => some (setDiffBt r)
    | n => some (addedValue n)

/-- The diff of two dicts. -/
def diffDict : Dict → Dict → BtDict
  | [], new => addedDict new
  | (k, o) :: os, new => diffDictInner k o (fun n => diffValue o n) (fun ns => diffDict os ns) new
end

/-- `diff_impl`. -/
def diffImpl (old new : Dict) : Option BtDict :=
  match diffDict old new with
  | [] => none
  | df => some df

/-! ## `apply_diff` -/

def addElems : List Bt → List Scalar → Except Err (List Scalar)
  | [], s => .ok s
  | v :: rest, s => do
    match ← getBtScalar v with
    | some a => addElems rest (SortedSet.insert a s)
    | none => .error (.config "Invalid set diff added value: expected int or scalar" [])

def removeElems : List Bt → List Scalar → Except Err (List Scalar)
  | [], s => .ok s
  | v :: rest, s => do
    match ← getBtScalar v with
    | some a => removeElems rest (SortedSet.erase a s)
    | none => .error (.config "Invalid set diff removed value: expected int or scalar" [])

/-- The part of `apply_diff` for sets. -/
def applySetDiff : List Bt → List Scalar → Except Err (List Scalar)
  | .list added :: .list removed :: _, s => do
    let s ← addElems added s
    removeElems removed s
  | _, _ => .error .badVariant

/-- The dict under a key, or the empty one a subscript would create. -/
def subdict (k : Bytes) (data : Dict) : Dict :=
  match SortedMap.find? k data with
  | some (.dict d) => d
  | _ => []

/-- The set under a key, or the empty one a subscript would create. -/
def subset (k : Bytes) (data : Dict) : List Scalar :=
  match SortedMap.find? k data with
  | some (.set s) => s
  | _ => []

mutual
def applyDiff : BtDict → Dict → Dict → Except Err Dict
  | [], data, _ => .ok data
  | (k, v) :: rest, data, source => do
    let data' ← applyValue v k data source
    applyDiff rest data' source

/-- One key of `apply_diff`. A key the source does not have, or has with another type, is erased: a
comment explains it by a later diff that must remove or replace it. -/
def applyValue : Bt → Bytes → Dict → Dict → Except Err Dict
  | .str mode, k, data, source =>
    match SortedMap.find? k source with
    | some (.scalar s) =>
      if mode = bytes "-" then .ok (SortedMap.erase k data)
      else if mode = bytes "" then .ok (SortedMap.insert k (.scalar s) data)
      else .error (.config "Invalid diff value to apply at key: expected '' or '-'" [k])
    | _ => .ok (SortedMap.erase k data)
  | .dict diff, k, data, source =>
    match SortedMap.find? k source with
    | some (.dict src) => do
      let sub ← applyDiff diff (subdict k data) src
      .ok (SortedMap.insert k (.dict sub) data)
    | _ => .ok (SortedMap.erase k data)
  | .list l, k, data, source =>
    match SortedMap.find? k source with
    | some (.set _) => do
      let s ← applySetDiff l (subset k data)
      .ok (SortedMap.insert k (.set s) data)
    | _ => .ok (SortedMap.erase k data)
  | .int _, k, data, source =>
    match SortedMap.find? k source with
    | none => .ok (SortedMap.erase k data)
    | some _ => .error (.config "Invalid diff value type to apply at key" [k])
end

end Bchat.Config
