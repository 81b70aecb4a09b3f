import Bchat.Config.Message

/-!
# Round trips of the sections of a message

What the writer of a section wrote is read back, and what its reader accepts is well formed. Each
reader checks the order of its input against the last key it has read, so the statements carry that
key.
-/

namespace Bchat.Config

open Bencode List SortedMap Dict DictValue

variable {K V : Type} {prev : Option SeqnoHash} {seqno lag : Int} {p : SeqnoHash × BtDict}
  {lagged : LaggedDiffs} {env : Env} {unknown : BtDict}

def After {K V : Type} [LinearOrder K] (prev : Option K) (m : List (K × V)) : Prop :=
  ∀ q ∈ prev, ∀ p ∈ m, q < p.1

lemma after_none [LinearOrder K] (m : List (K × V)) : After (none : Option K) m := by
  intro q hq
  cases hq

lemma after_some [LinearOrder K] {k : K} {m : List (K × V)} :
    After (some k) m ↔ ∀ p ∈ m, k < p.1 := by
  simp [After]

lemma not_any_le_of_after [LinearOrder K] {prev : Option K} {k : K} {v : V} {m : List (K × V)}
    (h : After prev ((k, v) :: m)) : ¬(prev.any (fun q => k ≤ q) = true) := by
  cases prev with
  | none => simp
  | some q => simpa using after_some.mp h (k, v) mem_cons_self

lemma lt_of_not_any_le [LinearOrder K] {prev : Option K} {k : K}
    (h : ¬(prev.any (fun q => k ≤ q) = true)) : ∀ q ∈ prev, q < k := by
  intro q hq
  cases hq
  simpa using h

lemma after_cons [LinearOrder K] {prev : Option K} {k : K} {v : V} {m : List (K × V)}
    (hk : ∀ q ∈ prev, q < k) (hm : After (some k) m) : After prev ((k, v) :: m) := by
  intro q hq p hp
  rcases mem_cons.mp hp with rfl | hp
  · exact hk q hq
  · exact (hk q hq).trans (after_some.mp hm p hp)

/-! ## Integers -/

lemma toInt_ofInt {i : Int} (h : InInt64 i) : (Int64.ofInt i).toInt = i := by
  obtain ⟨h1, h2⟩ := h
  exact Int64.toInt_ofInt_of_le (by omega) (by omega)

lemma inInt64_toInt (i : Int64) : InInt64 i.toInt := by
  have h1 := Int64.le_toInt i
  have h2 := Int64.toInt_lt i
  exact ⟨by omega, by omega⟩

/-! ## Data -/

lemma parseElem_toBt (s : Scalar) : parseElems.parseElem s.toBt = .ok s := by
  cases s with
  | int i => simp [Scalar.toBt, parseElems.parseElem, inInt64_toInt]
  | str s => rfl

lemma toBt_parseElem {v : Bt} {s : Scalar} (h : parseElems.parseElem v = .ok s) : s.toBt = v := by
  cases v with
  | int i =>
    rw [parseElems.parseElem] at h
    split at h
    · next hi =>
      cases h
      rw [Scalar.toBt, toInt_ofInt hi]
    · cases h
  | str s => cases h; rfl
  | list l | dict d => cases h

lemma parseElems_toBt {s : List Scalar} {prev : Option Scalar} (hs : s.Pairwise (· < ·))
    (hp : ∀ q ∈ prev, ∀ a ∈ s, q < a) : parseElems prev (s.map Scalar.toBt) = .ok s := by
  induction s generalizing prev with
  | nil => rfl
  | cons a rest ih =>
    obtain ⟨ha, hrest⟩ := pairwise_cons.mp hs
    have hlt : ∀ q ∈ prev, q < a := fun q hq => hp q hq a mem_cons_self
    have hne : prev ≠ some a := fun h => lt_irrefl a (hlt a (by simp [h]))
    have hnot : ¬(prev.any (fun q => a < q) = true) := by
      cases prev with
      | none => simp
      | some q => simpa using (hlt q rfl).le
    rw [map_cons, parseElems, parseElem_toBt, ok_bind, if_neg hne, if_neg hnot,
      ih hrest (fun q hq => by cases hq; exact ha)]
    rfl

lemma parseElems_inv {l : List Bt} {prev : Option Scalar} {s : List Scalar}
    (h : parseElems prev l = .ok s) :
    s.map Scalar.toBt = l ∧ s.Pairwise (· < ·) ∧ ∀ q ∈ prev, ∀ a ∈ s, q < a := by
  induction l generalizing prev s with
  | nil =>
    cases h
    simp
  | cons v rest ih =>
    obtain ⟨a, hv, h⟩ := bind_eq_ok.mp h
    split at h
    · cases h
    rename_i hne
    split at h
    · cases h
    rename_i hnot
    obtain ⟨rest', hrest, h⟩ := bind_eq_ok.mp h
    cases h
    obtain ⟨hmap, hpw, hlt⟩ := ih hrest
    have ha : ∀ b ∈ rest', a < b := hlt a rfl
    have hq : ∀ q ∈ prev, q < a := by
      intro q hq
      cases hq
      have hle : ¬a < q := by simpa using hnot
      exact lt_of_le_of_ne (not_lt.mp hle) fun heq => hne (by rw [heq])
    refine ⟨by rw [map_cons, toBt_parseElem hv, hmap], pairwise_cons.mpr ⟨ha, hpw⟩, ?_⟩
    intro q hq' b hb
    rcases mem_cons.mp hb with rfl | hb
    · exact hq q hq'
    · exact (hq q hq').trans (ha b hb)

mutual
lemma parseValue_toBt : ∀ v : DictValue, v.WF → v.Pruned → parseValue v.toBt = .ok v
  | .scalar (.int i), _, _ => by simp [DictValue.toBt, Scalar.toBt, parseValue, inInt64_toInt]
  | .scalar (.str s), _, _ => by simp [DictValue.toBt, Scalar.toBt, parseValue]
  | .set s, hwf, hp => by
    rw [DictValue.WF] at hwf
    rw [DictValue.Pruned] at hp
    have hne : ¬((s.map Scalar.toBt).isEmpty = true) := by simpa using hp
    rw [DictValue.toBt, parseValue, if_neg hne, parseElems_toBt hwf (by simp)]
    rfl
  | .dict d, hwf, hp => by
    rw [DictValue.WF] at hwf
    rw [DictValue.Pruned] at hp
    have hne : ¬((toBt d).isEmpty = true) := by
      cases d with
      | nil => exact absurd rfl hp.1
      | cons p rest => simp [Dict.toBt]
    rw [DictValue.toBt, parseValue, if_neg hne, parseData_toBt d none hwf hp.2 (after_none d)]
    rfl

lemma parseData_toBt : ∀ (d : Dict) (prev : Option Bytes), Dict.WF d → Dict.Pruned d →
    After prev d → parseData prev (toBt d) = .ok d
  | [], _, _, _, _ => by rw [Dict.toBt, parseData]
  | (k, v) :: rest, prev, hwf, hp, hafter => by
    rw [Dict.WF] at hwf
    rw [Dict.Pruned] at hp
    rw [Dict.toBt, parseData, if_neg (not_any_le_of_after hafter),
      parseValue_toBt v hwf.1 hp.1, ok_bind,
      parseData_toBt rest (some k) hwf.2.2 hp.2 (after_some.mpr hwf.2.1)]
    rfl
end

mutual
lemma parseValue_inv : ∀ {b : Bt} {v : DictValue}, parseValue b = .ok v →
    v.toBt = b ∧ v.WF ∧ v.Pruned
  | .str s, v, h => by
    rw [parseValue] at h
    cases h
    simp [DictValue.toBt, Scalar.toBt, DictValue.WF, DictValue.Pruned]
  | .int i, v, h => by
    rw [parseValue] at h
    split at h
    · next hi =>
      cases h
      simp [DictValue.toBt, Scalar.toBt, DictValue.WF, DictValue.Pruned, toInt_ofInt hi]
    · cases h
  | .dict d, v, h => by
    rw [parseValue] at h
    split at h
    · cases h
    rename_i hne
    obtain ⟨d', hd, h⟩ := bind_eq_ok.mp h
    cases h
    obtain ⟨hbt, hwf, hp, -⟩ := parseData_inv hd
    rw [DictValue.toBt, hbt, DictValue.WF, DictValue.Pruned]
    refine ⟨rfl, hwf, ?_, hp⟩
    rintro rfl
    rw [← hbt] at hne
    exact hne rfl
  | .list l, v, h => by
    rw [parseValue] at h
    split at h
    · cases h
    rename_i hne
    obtain ⟨s, hs, h⟩ := bind_eq_ok.mp h
    cases h
    obtain ⟨hmap, hpw, -⟩ := parseElems_inv hs
    rw [DictValue.toBt, hmap, DictValue.WF, DictValue.Pruned]
    refine ⟨rfl, hpw, ?_⟩
    rintro rfl
    rw [← hmap] at hne
    exact hne rfl

lemma parseData_inv : ∀ {b : BtDict} {prev : Option Bytes} {d : Dict}, parseData prev b = .ok d →
    toBt d = b ∧ Dict.WF d ∧ Dict.Pruned d ∧ After prev d
  | [], prev, d, h => by
    rw [parseData] at h
    cases h
    simp [Dict.toBt, Dict.WF, Dict.Pruned, After]
  | (k, v) :: rest, prev, d, h => by
    rw [parseData] at h
    split at h
    · cases h
    rename_i hnot
    obtain ⟨v', hv, h⟩ := bind_eq_ok.mp h
    obtain ⟨rest', hrest, h⟩ := bind_eq_ok.mp h
    cases h
    obtain ⟨hbt, hwf, hp⟩ := parseValue_inv hv
    obtain ⟨hbt', hwf', hp', hafter⟩ := parseData_inv hrest
    rw [Dict.toBt, hbt, hbt', Dict.WF, Dict.Pruned]
    exact ⟨rfl, ⟨hwf, after_some.mp hafter, hwf'⟩, ⟨hp, hp'⟩,
      after_cons (lt_of_not_any_le hnot) hafter⟩
end

/-! ## Diffs -/

def ScalarBefore : Bt → Bt → Prop
  | .int i, .int j => InInt64 i ∧ InInt64 j ∧ i < j
  | .int i, .str _ => InInt64 i
  | .str s, .str t => s < t
  | _, _ => False

/-- The value of a set in a diff. The elements must be in order; a single element can be
anything. -/
def SetDiffWF : List Bt → Prop
  | [.list added, .list removed] => added.IsChain ScalarBefore ∧ removed.IsChain ScalarBefore
  | _ => False

mutual
def DiffValueWF : Bt → Prop
  | .str mode => mode = bytes "" ∨ mode = bytes "-"
  | .list l => BtItemsWF l ∧ SetDiffWF l
  | .dict d => DiffWF d
  | .int _ => False

def DiffWF : BtDict → Prop
  | [] => True
  | (k, v) :: rest => DiffValueWF v ∧ (∀ p ∈ rest, k < p.1) ∧ DiffWF rest
end

lemma getBtInt_int {i : Int} (h : InInt64 i) : getBtInt (.int i) = .ok (some (Int64.ofInt i)) :=
  if_pos h

lemma getBtInt_overflow {i : Int} (h : ¬InInt64 i) : getBtInt (.int i) = .error .overflow :=
  if_neg h

lemma checkScalarOrder_eq_ok {a b : Bt} : checkScalarOrder a b = .ok () ↔ ScalarBefore a b := by
  have hread : ∀ j, getBtInt (.int j) = .ok (some (Int64.ofInt j)) ∨
      getBtInt (.int j) = .error .overflow := fun j => ite_eq_or_eq _ _ _
  unfold checkScalarOrder
  cases a with
  | int i =>
    by_cases hi : InInt64 i
    · rw [getBtInt_int hi]
      cases b with
      | int j =>
        by_cases hj : InInt64 j
        · rw [getBtInt_int hj]
          show (if (Int64.ofInt j).toInt ≤ (Int64.ofInt i).toInt then
            Except.error (Err.parse "invalid config set elements: unsorted integers" [])
              else .ok ()) = .ok () ↔ InInt64 i ∧ InInt64 j ∧ i < j
          rw [toInt_ofInt hi, toInt_ofInt hj]
          split
          · next hle => exact iff_of_false nofun fun h => absurd h.2.2 (not_lt.mpr hle)
          · next hlt => exact iff_of_true rfl ⟨hi, hj, not_le.mp hlt⟩
        · rw [getBtInt_overflow hj]
          exact iff_of_false nofun fun h => hj h.2.1
      | str t => exact iff_of_true rfl hi
      | list l | dict d => exact iff_of_false nofun id
    rw [getBtInt_overflow hi]
    cases b with
    | int j => exact iff_of_false nofun fun h => hi h.1
    | str t => exact iff_of_false nofun hi
    | list l | dict d => exact iff_of_false nofun id
  | str s =>
    cases b with
    | int j => rcases hread j with h | h <;> rw [h] <;> exact iff_of_false nofun id
    | str t =>
      show (if t ≤ s then Except.error
          (Err.parse "invalid config set elements: unsorted strings" [])
        else .ok ()) = .ok () ↔ s < t
      split
      · next hle => exact iff_of_false nofun (not_lt.mpr hle)
      · next hlt => exact iff_of_true rfl (not_le.mp hlt)
    | list l | dict d => exact iff_of_false nofun id
  | list l | dict d =>
    cases b with
    | int j => rcases hread j with h | h <;> rw [h] <;> exact iff_of_false nofun id
    | str t | list l | dict d => exact iff_of_false nofun id

lemma checkElems_eq_ok : ∀ {l : List Bt}, checkElems l = .ok () ↔ l.IsChain ScalarBefore
  | [] | [a] => by simp [checkElems]
  | a :: b :: rest => by
    rw [checkElems, bind_eq_ok, isChain_cons_cons, ← checkElems_eq_ok, ← checkScalarOrder_eq_ok]
    constructor
    · rintro ⟨_, h1, h2⟩
      exact ⟨h1, h2⟩
    · rintro ⟨h1, h2⟩
      exact ⟨(), h1, h2⟩

lemma checkSetDiff_eq_ok {key : Bytes} {l : List Bt} :
    checkSetDiff key l = .ok () ↔ SetDiffWF l := by
  match l with
  | [] => simp [checkSetDiff, SetDiffWF]
  | [a] => cases a <;> simp [checkSetDiff, SetDiffWF]
  | a :: b :: c :: rest => cases a <;> cases b <;> simp [checkSetDiff, SetDiffWF]
  | [a, b] =>
    rw [checkSetDiff, bind_eq_ok]
    cases a with
    | list added =>
      cases b with
      | list removed =>
        rw [SetDiffWF, ← checkElems_eq_ok, ← checkElems_eq_ok]
        constructor
        · rintro ⟨_, h1, h2⟩
          exact ⟨h1, h2⟩
        · rintro ⟨h1, h2⟩
          exact ⟨(), h1, h2⟩
      | _ => simp [checkSetDiff.checkSublist, SetDiffWF]
    | _ => simp [checkSetDiff.checkSublist, SetDiffWF]

mutual
lemma loadDiffValue_of_wf (env : Env) : ∀ (key : Bytes) (v : Bt), DiffValueWF v →
    loadDiffValue env key v = .ok v
  | key, .str mode, h => by
    rw [DiffValueWF] at h
    rw [loadDiffValue, if_pos h]
  | key, .list l, h => by
    rw [DiffValueWF] at h
    rw [loadDiffValue, env.consumeItems_of_wf l h.1]
    simp only
    rw [checkSetDiff_eq_ok.mpr h.2]
    rfl
  | key, .dict d, h => by
    rw [DiffValueWF] at h
    rw [loadDiffValue, loadDiff_of_wf env d none h (after_none d)]
    rfl
  | key, .int i, h => by
    rw [DiffValueWF] at h
    exact h.elim

lemma loadDiff_of_wf (env : Env) : ∀ (d : BtDict) (prev : Option Bytes), DiffWF d →
    After prev d → loadDiff env prev d = .ok d
  | [], _, _, _ => by rw [loadDiff]
  | (k, v) :: rest, prev, h, hafter => by
    rw [DiffWF] at h
    rw [loadDiff, if_neg (not_any_le_of_after hafter), loadDiffValue_of_wf env k v h.1, ok_bind,
      loadDiff_of_wf env rest (some k) h.2.2 (after_some.mpr h.2.1)]
    rfl
end

mutual
lemma loadDiffValue_wf (env : Env) : ∀ {key : Bytes} {v w : Bt},
    loadDiffValue env key v = .ok w → DiffValueWF w
  | key, .str mode, w, h => by
    rw [loadDiffValue] at h
    split at h
    · next hmode =>
      cases h
      rw [DiffValueWF]
      exact hmode
    · cases h
  | key, .list l, w, h => by
    rw [loadDiffValue] at h
    split at h
    · cases h
    rename_i changed hl
    obtain ⟨_, hc, h⟩ := bind_eq_ok.mp h
    cases h
    rw [DiffValueWF]
    exact ⟨env.wf_consumeItems hl, checkSetDiff_eq_ok.mp hc⟩
  | key, .dict d, w, h => by
    rw [loadDiffValue] at h
    obtain ⟨d', hd, h⟩ := bind_eq_ok.mp h
    cases h
    rw [DiffValueWF]
    exact (loadDiff_wf env hd).1
  | key, .int i, w, h => by
    rw [loadDiffValue] at h
    cases h

lemma loadDiff_wf (env : Env) : ∀ {prev : Option Bytes} {d d' : BtDict},
    loadDiff env prev d = .ok d' → DiffWF d' ∧ After prev d'
  | prev, [], d', h => by
    rw [loadDiff] at h
    cases h
    simp [DiffWF, After]
  | prev, (k, v) :: rest, d', h => by
    rw [loadDiff] at h
    split at h
    · cases h
    rename_i hnot
    obtain ⟨v', hv, h⟩ := bind_eq_ok.mp h
    obtain ⟨rest', hrest, h⟩ := bind_eq_ok.mp h
    cases h
    obtain ⟨hwf, hafter⟩ := loadDiff_wf env hrest
    rw [DiffWF]
    exact ⟨⟨loadDiffValue_wf env hv, after_some.mp hafter, hwf⟩,
      after_cons (lt_of_not_any_le hnot) hafter⟩
end

/-! ## Lagged diffs -/

structure LaggedWF (lagged : LaggedDiffs) : Prop where
  sorted : SortedMap.Sorted lagged
  int64 : ∀ p ∈ lagged, InInt64 p.1.seqno
  diff : ∀ p ∈ lagged, DiffWF p.2

lemma inWindow_iff : inWindow seqno lag p = true ↔ seqno - lag < p.1.seqno ∧ p.1.seqno < seqno := by
  simp [inWindow]

lemma laggedWF_filter (h : LaggedWF lagged) (q : SeqnoHash × BtDict → Bool) :
    LaggedWF (lagged.filter q) where
  sorted := h.sorted.filter q
  int64 p hp := h.int64 p (mem_of_mem_filter hp)
  diff p hp := h.diff p (mem_of_mem_filter hp)

lemma parseLaggedRow_laggedRow (env : Env) (hint : InInt64 p.1.seqno)
    (hwin : inWindow seqno lag p = true) (hdiff : DiffWF p.2) (hprev : ∀ q ∈ prev, q < p.1) :
    parseLaggedRow env seqno lag prev (laggedRow p) = .ok (some p) := by
  obtain ⟨⟨s, ⟨hash, hlen⟩⟩, d⟩ := p
  obtain ⟨hlo, hhi⟩ := inWindow_iff.mp hwin
  have hnot : ¬(prev.any (fun q => (⟨s, ⟨hash, hlen⟩⟩ : SeqnoHash) ≤ q) = true) := by
    cases prev with
    | none => simp
    | some q => simpa using hprev q rfl
  unfold laggedRow parseLaggedRow
  simp only [not_true_eq_false, hint, if_false, not_le.mpr hhi, not_le.mpr hlo, hlen, dite_true,
    hnot]
  rw [loadDiff_of_wf env d none hdiff (after_none d)]
  rfl

lemma parseLaggedDiffs_laggedRow (env : Env) (h : LaggedWF lagged)
    (hwin : ∀ p ∈ lagged, inWindow seqno lag p = true) (hafter : After prev lagged) :
    parseLaggedDiffs env seqno lag prev (lagged.map laggedRow) = .ok lagged := by
  induction lagged generalizing prev with
  | nil => rw [map_nil, parseLaggedDiffs]
  | cons p rest ih =>
    have hp : p ∈ p :: rest := mem_cons_self
    obtain ⟨hlt, hsorted⟩ := sorted_cons.mp h.sorted
    have hrest : LaggedWF rest :=
      ⟨hsorted, fun q hq => h.int64 q (mem_cons_of_mem _ hq),
        fun q hq => h.diff q (mem_cons_of_mem _ hq)⟩
    rw [map_cons, parseLaggedDiffs, parseLaggedRow_laggedRow env (h.int64 p hp) (hwin p hp)
      (h.diff p hp) (fun q hq => hafter q hq p hp), ok_bind]
    simp only
    rw [ih hrest (fun q hq => hwin q (mem_cons_of_mem _ hq)) (after_some.mpr hlt)]
    rfl

lemma parseLaggedRow_inv {row : Bt} (h : parseLaggedRow env seqno lag prev row = .ok (some p)) :
    InInt64 p.1.seqno ∧ inWindow seqno lag p = true ∧ DiffWF p.2 ∧ ∀ q ∈ prev, q < p.1 := by
  unfold parseLaggedRow at h
  split at h
  · next s row =>
    split at h
    · cases h
    rename_i hint
    split at h
    · cases h
    rename_i hhi
    split at h
    · cases h
    rename_i hlo
    split at h
    · next hash row =>
      split at h
      · next hlen =>
        split at h
        · cases h
        rename_i hnot
        split at h
        · next d row =>
          obtain ⟨diff, hd, h⟩ := bind_eq_ok.mp h
          split at h
          · cases h
            exact ⟨not_not.mp hint, inWindow_iff.mpr ⟨not_le.mp hlo, not_le.mp hhi⟩,
              (loadDiff_wf env hd).1, lt_of_not_any_le hnot⟩
          · cases h
        · cases h
      · cases h
    · cases h
  · cases h

lemma parseLaggedDiffs_inv {rows : List Bt}
    (h : parseLaggedDiffs env seqno lag prev rows = .ok lagged) :
    LaggedWF lagged ∧ (∀ p ∈ lagged, inWindow seqno lag p = true) ∧ After prev lagged := by
  induction rows generalizing prev lagged with
  | nil =>
    cases h
    exact ⟨⟨sorted_nil, by simp, by simp⟩, by simp, by simp [After]⟩
  | cons row rest ih =>
    obtain ⟨r, hrow, h⟩ := bind_eq_ok.mp h
    cases r with
    | none => exact ih h
    | some p =>
      obtain ⟨rest', hrest, h⟩ := bind_eq_ok.mp h
      cases h
      obtain ⟨hwf, hwin, hafter⟩ := ih hrest
      obtain ⟨hint, hp, hdiff, hprev⟩ := parseLaggedRow_inv hrow
      refine ⟨⟨sorted_cons.mpr ⟨after_some.mp hafter, hwf.sorted⟩, ?_, ?_⟩, ?_,
        after_cons hprev hafter⟩
      · exact forall_mem_cons.mpr ⟨hint, hwf.int64⟩
      · exact forall_mem_cons.mpr ⟨hdiff, hwf.diff⟩
      · exact forall_mem_cons.mpr ⟨hp, hwin⟩

/-! ## Unknown keys -/

/-- The next key, if there is one, is not before `bound`. -/
def StopsAt (bound : Bytes) : BtDict → Prop
  | [] => True
  | (k, _) :: _ => bound ≤ k

lemma stopsAt_cons (k : Bytes) (v : Bt) (rest : BtDict) : StopsAt k ((k, v) :: rest) := le_refl k

lemma getLast?_any_le {k : Bytes} (h : ∀ p ∈ unknown, p.1 < k) :
    ¬(unknown.getLast?.any (fun p => k ≤ p.1) = true) := by
  cases hl : unknown.getLast? with
  | none => simp
  | some p =>
    have hp : p ∈ unknown := mem_of_getLast? hl
    simpa using h p hp

lemma loadUnknowns_append (env : Env) {previous bound : Bytes} {u rest : BtDict}
    (hwf : ∀ p ∈ u, BtWF p.2) (hkey : ∀ p ∈ u, previous < p.1 ∧ p.1 < bound)
    (hstop : StopsAt bound rest) (hsorted : SortedMap.Sorted (unknown ++ u)) :
    loadUnknowns env true previous bound unknown (u ++ rest) = .ok (unknown ++ u, rest) := by
  induction u generalizing unknown with
  | nil =>
    cases rest with
    | nil => simp [loadUnknowns]
    | cons q rest =>
      obtain ⟨k, v⟩ := q
      have hk : ¬k < bound := not_lt.mpr hstop
      simp [loadUnknowns, hk]
  | cons q u ih =>
    obtain ⟨k, v⟩ := q
    obtain ⟨hprev, hbound⟩ := hkey (k, v) mem_cons_self
    have hlast : ∀ p ∈ unknown, p.1 < k := fun p hp =>
      (pairwise_append.mp hsorted).2.2 p hp (k, v) mem_cons_self
    have hnot : ¬(k ≤ previous ∨ unknown.getLast?.any (fun p => k ≤ p.1) = true) := by
      rintro (h | h)
      · exact absurd hprev (not_lt.mpr h)
      · exact getLast?_any_le hlast h
    have happ : unknown ++ (k, v) :: u = unknown ++ [(k, v)] ++ u := by simp
    rw [cons_append, loadUnknowns, if_pos hbound, if_neg hnot,
      env.consume_of_wf v (hwf (k, v) mem_cons_self)]
    simp only
    rw [ih (fun p hp => hwf p (mem_cons_of_mem _ hp))
      (fun p hp => hkey p (mem_cons_of_mem _ hp)) (happ ▸ hsorted), happ]

lemma loadUnknowns_inv {closed : Bool} {previous bound : Bytes} {pairs : BtDict}
    {unknown' rest : BtDict} (hsorted : SortedMap.Sorted unknown)
    (h : loadUnknowns env closed previous bound unknown pairs = .ok (unknown', rest)) :
    ∃ u, unknown' = unknown ++ u ∧ SortedMap.Sorted unknown' ∧ (∀ p ∈ u, BtWF p.2) ∧
      (∀ p ∈ u, previous < p.1 ∧ p.1 < bound) ∧ StopsAt bound rest ∧
      (rest = [] → closed = true) := by
  induction pairs generalizing unknown with
  | nil =>
    rw [loadUnknowns] at h
    split at h
    · next hc =>
      cases h
      exact ⟨[], by simp, hsorted, by simp, by simp, trivial, fun _ => hc⟩
    · cases h
  | cons q pairs ih =>
    obtain ⟨k, v⟩ := q
    rw [loadUnknowns] at h
    split at h
    · next hbound =>
      split at h
      · cases h
      rename_i hnot
      split at h
      · next v' hv =>
        push Not at hnot
        have hlast : ∀ p ∈ unknown, p.1 < k := by
          intro p hp
          cases hl : unknown.getLast? with
          | none => simp [getLast?_eq_none_iff.mp hl] at hp
          | some q =>
            have hq : q.1 < k := by simpa [hl] using hnot.2
            rcases getLast?_eq_some_iff.mp hl with ⟨init, rfl⟩
            rcases mem_append.mp hp with hp | hp
            · exact ((pairwise_append.mp hsorted).2.2 p hp q (by simp)).trans hq
            · rw [mem_singleton.mp hp]
              exact hq
        have hsorted' : Sorted (unknown ++ [(k, v')]) := by
          refine pairwise_append.mpr ⟨hsorted, pairwise_singleton _ _, ?_⟩
          intro p hp r hr
          rw [mem_singleton.mp hr]
          exact hlast p hp
        obtain ⟨u, hu, hs, hwf, hkey, hstop, hclosed⟩ := ih hsorted' h
        refine ⟨(k, v') :: u, by simp [hu], hs, ?_, ?_, hstop, hclosed⟩
        · exact forall_mem_cons.mpr ⟨env.wf_consume hv, hwf⟩
        · exact forall_mem_cons.mpr ⟨⟨hnot.1, hbound⟩, hkey⟩
      · cases h
    next hbound =>
    cases h
    exact ⟨[], by simp, hsorted, by simp, by simp, not_lt.mp hbound, by simp⟩

end Bchat.Config
