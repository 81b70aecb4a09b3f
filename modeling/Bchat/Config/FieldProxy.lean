import Bchat.Config.Base

/-!
# Field proxies

`ConfigBase::DictFieldProxy` of `include/bchat/config/base.hpp`: the access to a value below a
sequence of keys, as in `conf["abc"]["def"] = 12`. Every change is an `Edit` together with what the
method returns, so that what holds for every edit of an object holds for the proxies.

* While the object is not Dirty, a method does nothing if there is nothing to change (`get_clean`).
* Otherwise it changes the data that `dirty()` returns: assignments and `set_insert` create dicts
  on the way and replace what is none (`get_dirty`), `erase` and `set_erase` stop there.
-/

namespace Bchat.Config

variable (value : Scalar)

mutual
def DictValue.decEq : (v w : DictValue) → Decidable (v = w)
  | .dict d, .dict d' =>
    match Dict.decEq d d' with
    | isTrue h => isTrue (congrArg _ h)
    | isFalse h => isFalse fun e => h (DictValue.dict.inj e)
  | .set s, .set s' => decidable_of_iff (s = s') ⟨congrArg _, DictValue.set.inj⟩
  | .scalar s, .scalar s' => decidable_of_iff (s = s') ⟨congrArg _, DictValue.scalar.inj⟩
  | .dict _, .set _ => isFalse nofun
  | .dict _, .scalar _ => isFalse nofun
  | .set _, .dict _ => isFalse nofun
  | .set _, .scalar _ => isFalse nofun
  | .scalar _, .dict _ => isFalse nofun
  | .scalar _, .set _ => isFalse nofun

def Dict.decEq : (d d' : Dict) → Decidable (d = d')
  | [], [] => isTrue rfl
  | [], _ :: _ => isFalse nofun
  | _ :: _, [] => isFalse nofun
  | (k, v) :: rest, (k', v') :: rest' =>
    match decEq k k', DictValue.decEq v v', Dict.decEq rest rest' with
    | isTrue hk, isTrue hv, isTrue hr => isTrue (by rw [hk, hv, hr])
    | isFalse hk, _, _ => isFalse fun e => hk (Prod.mk.inj (List.cons.inj e).1).1
    | _, isFalse hv, _ => isFalse fun e => hv (Prod.mk.inj (List.cons.inj e).1).2
    | _, _, isFalse hr => isFalse fun e => hr (List.cons.inj e).2
end

instance : DecidableEq DictValue := DictValue.decEq

/-! ## Walking along the keys -/

/-- The walk along `_inter_keys`: every key has to hold a dict. -/
def findDict : List Bytes → Dict → Option Dict
  | [], data => some data
  | k :: ks, data =>
    match SortedMap.find? k data with
    | some (.dict d) => findDict ks d
    | _ => none

/-- `get_dirty()`: creates or replaces what is on the way, and writes through the reference to the
value under the last key. -/
def getDirty (write : Option DictValue → DictValue) : List Bytes → Bytes → Dict → Dict
  | [], lastKey, data =>
    SortedMap.insert lastKey (write (SortedMap.find? lastKey data)) data
  | k :: ks, lastKey, data =>
    SortedMap.insert k (.dict (getDirty write ks lastKey (subdict k data))) data

/-- The walk of `erase` and `set_erase_impl`: changes the dict the keys lead to, and returns early
if there is none. -/
def modifyDict {α : Type*} (change : Dict → Dict × α) (early : α) : List Bytes → Dict → Dict × α
  | [], data => change data
  | k :: ks, data =>
    match SortedMap.find? k data with
    | some (.dict d) =>
      let r := modifyDict change early ks d
      (SortedMap.insert k (.dict r.1) data, r.2)
    | _ => (data, early)

/-! ## Well-formed data stays well formed -/

lemma wf_subdict_of_wf {data : Dict} (h : Dict.WF data) (k : Bytes) : Dict.WF (subdict k data) := by
  rw [subdict]
  split
  · next d hf => exact wf_of_find? h hf
  · trivial

lemma wf_getDirty {write : Option DictValue → DictValue}
    (hw : ∀ o, (∀ v ∈ o, v.WF) → (write o).WF) (ks : List Bytes) (lastKey : Bytes) {data : Dict}
    (h : Dict.WF data) : Dict.WF (getDirty write ks lastKey data) := by
  induction ks generalizing data with
  | nil => exact wf_insert h (hw _ fun v hv => wf_of_find? h hv)
  | cons k ks ih => exact wf_insert h (ih (wf_subdict_of_wf h k))

lemma wf_modifyDict {α : Type*} {change : Dict → Dict × α}
    (hc : ∀ d, Dict.WF d → Dict.WF (change d).1) (early : α) (ks : List Bytes) {data : Dict}
    (h : Dict.WF data) : Dict.WF (modifyDict change early ks data).1 := by
  induction ks generalizing data with
  | nil => exact hc data h
  | cons k ks ih =>
    rw [modifyDict]
    split
    · next d hf => exact wf_insert h (ih (wf_of_find? h hf))
    · exact h

/-! ## The methods -/

/-- An edit with what the method returns: when it leaves the object as it is, and when it changes
the data. The methods that return nothing have `none`. -/
structure FieldEdit extends Edit where
  skipped : Option Bool
  returned : Dict → Option Bool

/-- `DictFieldProxy`, without the object it belongs to. -/
structure DictFieldProxy where
  interKeys : List Bytes
  lastKey : Bytes

namespace DictFieldProxy

variable (p : DictFieldProxy)

/-- `get_clean()`: reads without creating anything. -/
def getClean (data : Dict) : Option DictValue :=
  (findDict p.interKeys data).bind (SortedMap.find? p.lastKey)

def getCleanSet (data : Dict) : Option (List Scalar) :=
  match p.getClean data with
  | some (.set s) => some s
  | _ => none

def erase : FieldEdit where
  needed data := (p.getClean data).isSome
  apply data := (modifyDict (fun d => (SortedMap.erase p.lastKey d, ())) () p.interKeys data).1
  wf_apply _ h := wf_modifyDict (fun _ hd => Dict.wf_iff.mpr ⟨(Dict.wf_iff.mp hd).1.erase,
    fun q hq => (Dict.wf_iff.mp hd).2 q (SortedMap.mem_erase hq)⟩) () _ h
  skipped := none
  returned _ := none

def isEmptyContainer : DictValue → Bool
  | .dict d => d.isEmpty
  | .set s => s.isEmpty
  | .scalar _ => false

/-- `assign_if_changed`. A value of another type than the one at hand differs from it, as
`get_clean<T>()` finds nothing then. -/
def assignIfChanged (value : {v : DictValue // v.WF}) : FieldEdit :=
  if isEmptyContainer value.1 then p.erase
  else
    { needed := fun data => p.getClean data ≠ some value.1
      apply := getDirty (fun _ => value.1) p.interKeys p.lastKey
      wf_apply := fun _ h => wf_getDirty (fun _ _ => value.2) _ _ h
      skipped := none
      returned := fun _ => none }

/-- What `get_dirty<config::set>().insert(value)` writes. -/
def insertElem : Option DictValue → DictValue
  | some (.set s) => .set (SortedSet.insert value s)
  | _ => .set [value]

lemma wf_insertElem (o : Option DictValue) (h : ∀ v ∈ o, v.WF) : (insertElem value o).WF := by
  rw [insertElem.eq_def]
  split
  · next s => exact SortedSet.pairwise_insert (h (.set s) rfl)
  · exact List.pairwise_singleton _ _

/-- `insert_if_missing`. -/
def insertIfMissing : FieldEdit where
  needed data := value ∉ (p.getCleanSet data).getD []
  apply := getDirty (insertElem value) p.interKeys p.lastKey
  wf_apply _ h := wf_getDirty (wf_insertElem value) _ _ h
  skipped := some false
  returned _ := some true

def eraseElem (d : Dict) : Dict × Bool :=
  match SortedMap.find? p.lastKey d with
  | none => (d, false)
  | some (.set s) => (SortedMap.insert p.lastKey (.set (SortedSet.erase value s)) d, true)
  | some _ => (SortedMap.insert p.lastKey (.set []) d, false)

lemma wf_eraseElem (d : Dict) (h : Dict.WF d) : Dict.WF (p.eraseElem value d).1 := by
  rw [eraseElem]
  split
  · exact h
  · next s hf =>
    have hs : s.Pairwise (· < ·) := wf_of_find? h hf
    exact wf_insert h (SortedSet.pairwise_erase hs)
  · exact wf_insert h List.Pairwise.nil

/-- `set_erase_impl`. -/
def setEraseImpl : FieldEdit where
  needed data := value ∈ (p.getCleanSet data).getD []
  apply data := (modifyDict (p.eraseElem value) false p.interKeys data).1
  wf_apply _ h := wf_modifyDict (p.wf_eraseElem value) false _ h
  skipped := some false
  returned data := some (modifyDict (p.eraseElem value) false p.interKeys data).2

end DictFieldProxy

/-- The methods of a proxy that change the data. -/
inductive FieldOp
  /-- `operator=` of a string, an integer, a set or a dict -/
  | assign (value : {v : DictValue // v.WF})
  | erase
  | setInsert (value : Scalar)
  | setErase (value : Scalar)

/-- The operations of a proxy. -/
def DictFieldProxy.edit (p : DictFieldProxy) : FieldOp → FieldEdit
  | .assign value => p.assignIfChanged value
  | .erase => p.erase
  | .setInsert value => p.insertIfMissing value
  | .setErase value => p.setEraseImpl value

/-- A method call on a proxy of the object. -/
def ConfigBase.editField (env : Env) (e : FieldEdit) (cb : ConfigBase) :
    Except Err (ConfigBase × Option Bool) :=
  if cb.state ≠ .dirty ∧ e.needed cb.config.base.data = false then .ok (cb, e.skipped)
  else do
    let cb ← cb.dirty env
    let returned := e.returned cb.config.base.data
    let cb ← cb.modifyData e.apply
    .ok (cb, returned)

end Bchat.Config
