import Bchat.Lib.Bytes
import Bchat.Lib.SortedMap

/-!
# Config data

The application data of a config message: nested dicts whose leaves are integers, strings and
sets of integers and strings (`include/bchat/config.hpp`), and the pruning of empty containers
(`src/config.cpp`).
-/

namespace Bchat.Config

/-! ## Scalars -/

/-- A string or an integer. -/
inductive Scalar
  | int (i : Int64)
  | str (s : Bytes)
  deriving DecidableEq, Repr

namespace Scalar

/-- A variant compares by its alternative first: integers come before strings. -/
def toSum : Scalar → Lex (Int ⊕ Bytes)
  | .int i => toLex (.inl i.toInt)
  | .str s => toLex (.inr s)

lemma toSum_injective : Function.Injective toSum := by
  intro a b h
  cases a with
  | int i =>
    cases b with
    | int j =>
      have hij : i.toInt = j.toInt := Sum.inl.inj (toLex_inj.mp h)
      rw [Int64.toInt_inj.mp hij]
    | str t => exact absurd (toLex_inj.mp h) (by simp)
  | str s =>
    cases b with
    | int j => exact absurd (toLex_inj.mp h) (by simp)
    | str t => rw [Sum.inr.inj (toLex_inj.mp h)]

instance : LinearOrder Scalar := LinearOrder.lift' toSum toSum_injective

@[simp] lemma int_lt_int {i j : Int64} : Scalar.int i < .int j ↔ i.toInt < j.toInt := by
  show toSum _ < toSum _ ↔ _
  simp [toSum]

@[simp] lemma str_lt_str {s t : Bytes} : Scalar.str s < .str t ↔ s < t := by
  show toSum _ < toSum _ ↔ _
  simp [toSum]

@[simp] lemma int_lt_str (i : Int64) (s : Bytes) : Scalar.int i < .str s := by
  show toSum _ < toSum _
  simp [toSum]

@[simp] lemma not_str_lt_int (s : Bytes) (i : Int64) : ¬Scalar.str s < .int i :=
  not_lt.mpr (int_lt_str i s).le

end Scalar

/-! ## Dicts -/

/-- `std::variant<dict, set, scalar>`, where `set` is a `std::set<scalar>` and `dict` a
`std::map` from strings. -/
inductive DictValue
  | dict (d : List (Bytes × DictValue))
  | set (s : List Scalar)
  | scalar (s : Scalar)
  deriving Repr

/-- A dict of the config data. -/
abbrev Dict := List (Bytes × DictValue)

mutual
/-- The invariant of the standard containers: keys and elements strictly increase. -/
def DictValue.WF : DictValue → Prop
  | .dict d => Dict.WF d
  | .set s => s.Pairwise (· < ·)
  | .scalar _ => True

/-- Keys ascend, and so do the elements of sets. -/
def Dict.WF : Dict → Prop
  | [] => True
  | (k, v) :: rest => v.WF ∧ (∀ p ∈ rest, k < p.1) ∧ Dict.WF rest
end

lemma Dict.wf_iff {d : Dict} : Dict.WF d ↔ SortedMap.Sorted d ∧ ∀ p ∈ d, p.2.WF := by
  induction d with
  | nil => simp [Dict.WF, SortedMap.sorted_nil]
  | cons q rest ih =>
    rw [Dict.WF, ih, SortedMap.sorted_cons]
    simp only [List.forall_mem_cons]
    tauto

lemma wf_insert {d : Dict} {k : Bytes} {v : DictValue} (h : Dict.WF d) (hv : v.WF) :
    Dict.WF (SortedMap.insert k v d) := by
  obtain ⟨hs, hall⟩ := Dict.wf_iff.mp h
  refine Dict.wf_iff.mpr ⟨hs.insert, fun p hp => ?_⟩
  rcases SortedMap.mem_insert hp with rfl | hp
  · exact hv
  · exact hall p hp

lemma wf_of_find? {d : Dict} (h : Dict.WF d) {k : Bytes} {v : DictValue}
    (hf : SortedMap.find? k d = some v) : v.WF :=
  (Dict.wf_iff.mp h).2 (k, v) (SortedMap.mem_of_find? hf)

mutual
def DictValue.Pruned : DictValue → Prop
  | .dict d => d ≠ [] ∧ Dict.Pruned d
  | .set s => s ≠ []
  | .scalar _ => True

/-- No empty set or dict is left. -/
def Dict.Pruned : Dict → Prop
  | [] => True
  | (_, v) :: rest => v.Pruned ∧ Dict.Pruned rest
end

lemma Dict.pruned_iff {d : Dict} : Dict.Pruned d ↔ ∀ p ∈ d, p.2.Pruned := by
  induction d with
  | nil => simp [Dict.Pruned]
  | cons q rest ih => rw [Dict.Pruned, ih, List.forall_mem_cons]

lemma DictValue.induct {P : DictValue → Prop} (hs : ∀ s, P (.scalar s)) (hset : ∀ s, P (.set s))
    (hd : ∀ d : Dict, (∀ p ∈ d, P p.2) → P (.dict d)) : ∀ v, P v
  | .scalar s => hs s
  | .set s => hset s
  | .dict d => hd d (go d)
where
  go : ∀ (d : Dict), ∀ p ∈ d, P p.2
    | [], _, h => absurd h (by simp)
    | (_, v) :: rest, p, h => by
      rcases List.mem_cons.mp h with rfl | h
      · exact DictValue.induct hs hset hd v
      · exact go rest p h

/-! ## Pruning -/

mutual
/-- `prune_` on a value: the value left over, whether it is to be removed from its parent, and
whether any key below it was removed. -/
def pruneValue : DictValue → DictValue × (Bool × Bool)
  | .dict d => (.dict (pruneEntries d).1, ((pruneEntries d).1.isEmpty, (pruneEntries d).2))
  | .set s => (.set s, (s.isEmpty, false))
  | .scalar s => (.scalar s, (false, false))

/-- The loop of `prune_` over the keys of a dict: the keys left over and whether any was
removed. -/
def pruneEntries : Dict → Dict × Bool
  | [] => ([], false)
  | (k, v) :: rest =>
    let r := pruneValue v
    let s := pruneEntries rest
    (if r.2.1 then s.1 else (k, r.1) :: s.1, r.2.1 || r.2.2 || s.2)
end

/-- `prune_` on the outermost dict, which itself is never removed. -/
def prune (d : Dict) : Dict := (pruneEntries d).1

end Bchat.Config
