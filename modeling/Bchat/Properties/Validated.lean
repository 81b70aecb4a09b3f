import Bchat.Properties.Window

/-!
# Whether diffs that were accepted can be applied

`load_diff` compares the elements of a set diff in pairs of neighbours. A list of one element is
not looked at, although a comment there asks for scalars; `apply_diff` throws when it meets
anything else.
-/

namespace Bchat.Config

open Bencode List

/-! ## Accepted diffs -/

def SingleIsScalar : Bt → Prop
  | .list [v] => (scalarOf v).isSome
  | _ => True

mutual
/-- Every one-element list of a set diff holds a scalar. -/
def ScalarSets : BtDict → Prop
  | [] => True
  | (_, v) :: rest => ScalarSetsValue v ∧ ScalarSets rest

def ScalarSetsValue : Bt → Prop
  | .list l => ∀ v ∈ l, SingleIsScalar v
  | .dict d => ScalarSets d
  | _ => True
end

lemma isSome_scalarOf_of_before {a b : Bt} (h : ScalarBefore a b) :
    (scalarOf a).isSome ∧ (scalarOf b).isSome := by
  cases a <;> cases b <;> simp_all [ScalarBefore, scalarOf]

lemma scalarsOf_isSome_iff {l : List Bt} : (scalarsOf l).isSome ↔ ∀ v ∈ l, (scalarOf v).isSome := by
  induction l with
  | nil => simp [scalarsOf]
  | cons v rest ih =>
    rw [forall_mem_cons, ← ih, scalarsOf]
    cases scalarOf v <;> cases scalarsOf rest <;> simp

lemma scalarsOf_isSome_of_chain {l : List Bt} (h : l.IsChain ScalarBefore) :
    (scalarsOf l).isSome ↔ SingleIsScalar (.list l) := by
  match l, h with
  | [], _ => simp [scalarsOf, SingleIsScalar]
  | [v], _ => rw [scalarsOf_isSome_iff, SingleIsScalar]; simp
  | a :: b :: rest, h =>
    refine ⟨fun _ => trivial, fun _ => ?_⟩
    induction rest generalizing a b with
    | nil =>
      obtain ⟨ha, hb⟩ := isSome_scalarOf_of_before (isChain_cons_cons.mp h).1
      simp [scalarsOf_isSome_iff, ha, hb]
    | cons c rest ih =>
      obtain ⟨hab, hbc⟩ := isChain_cons_cons.mp h
      rw [scalarsOf_isSome_iff, forall_mem_cons, ← scalarsOf_isSome_iff]
      exact ⟨(isSome_scalarOf_of_before hab).1, ih b c hbc trivial⟩

lemma setDiffApplies_iff {l : List Bt} (h : SetDiffWF l) :
    SetDiffApplies l ↔ ∀ v ∈ l, SingleIsScalar v := by
  match l, h with
  | [.list added, .list removed], h =>
    rw [SetDiffApplies, scalarsOf_isSome_of_chain h.1, scalarsOf_isSome_of_chain h.2]
    simp

/-! ## Sources -/

mutual
/-- Data in which every value has the type that the diff is about. -/
def sourceOf : BtDict → Dict
  | [] => []
  | (k, v) :: rest => (k, sourceValue v) :: sourceOf rest

def sourceValue : Bt → DictValue
  | .list _ => .set []
  | .dict d => .dict (sourceOf d)
  | _ => .scalar (.int 0)
end

lemma find?_sourceOf (k : Bytes) (d : BtDict) :
    SortedMap.find? k (sourceOf d) = (SortedMap.find? k d).map sourceValue := by
  induction d with
  | nil => simp [sourceOf]
  | cons p d ih =>
    rw [sourceOf, SortedMap.find?_cons, SortedMap.find?_cons, ih]
    split_ifs <;> rfl

mutual
lemma scalarSets_of_applies_source : ∀ (d : BtDict) (source : Dict), DiffWF d →
    (∀ p ∈ d, SortedMap.find? p.1 source = some (sourceValue p.2)) → AppliesDict d source →
    ScalarSets d
  | [], _, _, _, _ => by rw [ScalarSets]; trivial
  | (k, v) :: rest, source, hwf, hsource, happ => by
    rw [DiffWF] at hwf
    rw [AppliesDict] at happ
    rw [ScalarSets]
    obtain ⟨hk, hrest⟩ := forall_mem_cons.mp hsource
    rw [show SortedMap.find? k source = _ from hk] at happ
    exact ⟨scalarSetsValue_of_applies_source v hwf.1 happ.1,
      scalarSets_of_applies_source rest source hwf.2.2 hrest happ.2⟩

lemma scalarSetsValue_of_applies_source : ∀ v : Bt, DiffValueWF v →
    AppliesValue v (some (sourceValue v)) → ScalarSetsValue v
  | .int _, _, _ | .str _, _, _ => by rw [ScalarSetsValue] <;> simp
  | .list l, hwf, happ => by
    rw [DiffValueWF] at hwf
    rw [ScalarSetsValue]
    rw [sourceValue, AppliesValue] at happ
    exact (setDiffApplies_iff hwf.2).mp happ
  | .dict d, hwf, happ => by
    rw [DiffValueWF] at hwf
    rw [ScalarSetsValue]
    rw [sourceValue, AppliesValue] at happ
    refine scalarSets_of_applies_source d (sourceOf d) hwf (fun p hp => ?_) happ
    rw [find?_sourceOf, hwf.sorted.find?_of_mem hp]
    rfl
end

mutual
lemma ScalarSets.applies : ∀ {d : BtDict}, DiffWF d → ScalarSets d → ∀ source : Dict,
    AppliesDict d source
  | [], _, _, _ => by rw [AppliesDict]; trivial
  | (k, v) :: rest, hwf, h, source => by
    rw [DiffWF] at hwf
    rw [ScalarSets] at h
    rw [AppliesDict]
    exact ⟨ScalarSetsValue.applies hwf.1 h.1 _, ScalarSets.applies hwf.2.2 h.2 source⟩

lemma ScalarSetsValue.applies : ∀ {v : Bt}, DiffValueWF v → ScalarSetsValue v →
    ∀ source : Option DictValue, AppliesValue v source
  | .int _, hwf, _, _ => by
    rw [DiffValueWF] at hwf
    exact hwf.elim
  | .str mode, hwf, _, source => by
    rw [DiffValueWF] at hwf
    rcases source with _ | _ | _ | _ <;> simp [AppliesValue, hwf.symm]
  | .list l, hwf, h, source => by
    rw [DiffValueWF] at hwf
    rw [ScalarSetsValue] at h
    rcases source with _ | _ | _ | _ <;> simp [AppliesValue, (setDiffApplies_iff hwf.2).mpr h]
  | .dict d, hwf, h, source => by
    rw [DiffValueWF] at hwf
    rw [ScalarSetsValue] at h
    rcases source with _ | _ | src | _ <;> simp [AppliesValue, ScalarSets.applies hwf h]
end

/-- **A diff that was accepted always applies iff its one-element lists hold scalars.** -/
lemma applyDiff_total_iff {d : BtDict} (hwf : DiffWF d) :
    (∀ data source, ∃ data', applyDiff d data source = .ok data') ↔ ScalarSets d := by
  simp only [applyDiff_ok_iff hwf]
  constructor
  · intro h
    refine scalarSets_of_applies_source d (sourceOf d) hwf (fun p hp => ?_) (h [] _)
    rw [find?_sourceOf, hwf.sorted.find?_of_mem hp]
    rfl
  · exact fun h _ source => h.applies hwf source

/-! ## Merges -/

def ConfigMessage.ScalarSets (m : ConfigMessage) : Prop :=
  Config.ScalarSets m.diff ∧ ∀ p ∈ m.laggedDiffs, Config.ScalarSets p.2

section

variable {env : Env} {verifier : Option Verifier} {signer : Option Signer} {lag : Int}
  {L : List Bytes} {ms : List ConfigMessage}

lemma wellFormed_of_accepts (h : List.Forall₂ (Accepts env verifier signer lag) L ms) :
    ∀ m ∈ ms, m.WellFormed := by
  intro m hm
  obtain ⟨b, -, hacc⟩ := exists_bytes h hm
  exact (parse_inv hacc).wf

lemma resolve_ok_iff (top : Int) (hwf : ∀ m ∈ ms, m.WellFormed) :
    (∃ m, resolve env verifier signer lag top (survivors lag ms) = .ok m) ↔
      survivors lag ms ≠ [] ∧ ∀ p ∈ replayed lag ms, AppliesDict p.2.2 p.2.1 := by
  have hdiffs : ∀ p ∈ replayed lag ms, DiffWF p.2.2 :=
    replayed_diffWF fun c hc => hwf c (mem_of_mem_survivors hc)
  constructor
  · rintro ⟨m, hm⟩
    obtain ⟨best, others, hsort, hr⟩ := resolve_inv hm
    obtain ⟨d, hd, -⟩ := hr.data
    rw [← hsort] at hd
    refine ⟨?_, applies_of_applyReplay hd⟩
    intro hnil
    rw [hnil] at hsort
    cases hsort
  rintro ⟨hne, happ⟩
  cases hsort : sortDescending (survivors lag ms) with
  | nil =>
    obtain ⟨c, hc⟩ := exists_mem_of_ne_nil _ hne
    rw [← mem_sortDescending, hsort] at hc
    cases hc
  | cons best others =>
    obtain ⟨d, hd, -⟩ := applyReplay_spec hdiffs happ best.data
    unfold replayed at hd
    unfold resolve
    rw [hsort] at hd ⊢
    simp only
    rw [hd, ok_bind]
    exact ⟨_, rfl⟩

lemma mergeAccepted_ok_iff (hwf : ∀ m ∈ ms, m.WellFormed) (hne : ms ≠ []) :
    (∃ m, mergeAccepted env verifier signer lag ms = .ok m) ↔
      (survivors lag ms).length = 1 ∨ (verifier.isSome ∧ signer = none) ∨
        (survivors lag ms ≠ [] ∧ ∀ p ∈ replayed lag ms, AppliesDict p.2.2 p.2.1) := by
  by_cases hlen : (survivors lag ms).length = 1
  · obtain ⟨m, hm⟩ := length_eq_one_iff.mp hlen
    obtain ⟨i, -, hok⟩ := mergeAccepted_single env verifier signer hm
    exact ⟨fun _ => Or.inl hlen, fun _ => ⟨_, hok⟩⟩
  by_cases hvs : verifier.isSome ∧ signer = none
  · have hms : (markRedundant lag ms).zipIdx ≠ [] := by
      intro hnil
      have hlen' : (markRedundant lag ms).zipIdx.length = 0 := by rw [hnil]; rfl
      rw [length_zipIdx, markRedundant, length_map, length_zipIdx] at hlen'
      exact hne (length_eq_zero_iff.mp hlen')
    obtain ⟨⟨⟨m, b⟩, i⟩, hmax, -⟩ := maxElement_spec hms
    rw [mergeAccepted_of_ne_one env hlen, hmax]
    simp [hvs.1, hvs.2]
  · rw [mergeAccepted_resolve env hlen hvs, resolve_ok_iff _ hwf]
    simp only [hlen, hvs, false_or]

lemma ne_nil_of_accepts (h : List.Forall₂ (Accepts env verifier signer lag) L ms) (hne : L ≠ []) :
    ms ≠ [] := by
  rintro rfl
  cases h
  exact hne rfl

section

variable (handler : Nat → Err → Except Err Unit)
  (h : List.Forall₂ (Accepts env verifier signer lag) L ms) (hne : L ≠ [])

include h hne

lemma mergeConfigs_ok_iff : (∃ r, mergeConfigs env L verifier signer lag handler = .ok r) ↔
      (survivors lag ms).length = 1 ∨ (verifier.isSome ∧ signer = none) ∨
        (survivors lag ms ≠ [] ∧ ∀ p ∈ replayed lag ms, AppliesDict p.2.2 p.2.1) := by
  rw [← mergeAccepted_ok_iff (wellFormed_of_accepts h) (ne_nil_of_accepts h hne),
    mergeConfigs_of_accepts h hne]
  cases mergeAccepted env verifier signer lag ms <;> simp [Except.map]

lemma mergeConfigs_of_scalarSets (hlag : 1 ≤ lag) (hs : ∀ m ∈ ms, m.ScalarSets) :
    ∃ r, mergeConfigs env L verifier signer lag handler = .ok r := by
  rw [mergeConfigs_ok_iff handler h hne]
  have hms := ne_nil_of_accepts h hne
  have hwf := wellFormed_of_accepts h
  obtain ⟨c, hc, -⟩ := exists_survivor_maxSeqno hlag hms
    (fun c hc p hp => by
      obtain ⟨b, -, hacc⟩ := exists_bytes h hc
      exact (inWindow_iff.mp ((parse_inv hacc).window p hp)).2)
    (fun c hc => (hwf c hc).seqno.1)
  refine Or.inr (Or.inr ⟨ne_nil_of_mem hc, fun p hp => ?_⟩)
  obtain ⟨m, hm, hpm⟩ := mem_buildReplay hp
  have hmem : m ∈ ms := mem_of_mem_survivors (mem_sortDescending.mp hm)
  have hd : Config.ScalarSets p.2.2 := by
    rcases mem_cons.mp hpm with rfl | hpm
    · exact (hs m hmem).1
    · obtain ⟨q, hq, rfl⟩ := mem_map.mp hpm
      exact (hs m hmem).2 q hq
  exact hd.applies (replayed_diffWF (fun c hc => hwf c (mem_of_mem_survivors hc)) p hp) p.2.1

end

end

/-- **Accepted diffs always apply iff their one-element lists hold scalars.** A merge of accepted
messages fails only over a diff that does not apply with the data of its message (or if no message
survives, which an assertion excludes); messages with scalars only can always be merged. The sums
`seqno + lag` stay in `int64_t`. -/
theorem validated_diffs_apply_iff (env : Env) : (∀ d d' : BtDict, loadDiff env none d = .ok d' →
      ((∀ data source, ∃ data', applyDiff d' data source = .ok data') ↔ ScalarSets d')) ∧
    (∀ (verifier : Option Verifier) (signer : Option Signer) (lag : Int)
      (handler : Nat → Err → Except Err Unit) (L : List Bytes) (ms : List ConfigMessage), L ≠ [] →
      List.Forall₂ (Accepts env verifier signer lag) L ms → (∀ m ∈ ms, InInt64 (m.seqno + lag)) →
      MarksExact env verifier signer lag L ∧
      ((∃ r, mergeConfigs env L verifier signer lag handler = .ok r) ↔
        (survivors lag ms).length = 1 ∨ (verifier.isSome ∧ signer = none) ∨
          (survivors lag ms ≠ [] ∧ ∀ p ∈ replayed lag ms, AppliesDict p.2.2 p.2.1)) ∧
      (1 ≤ lag → (∀ m ∈ ms, m.ScalarSets) →
        ∃ r, mergeConfigs env L verifier signer lag handler = .ok r)) := by
  refine ⟨fun d d' h => applyDiff_total_iff (loadDiff_wf env h).1, ?_⟩
  intro verifier signer lag handler L ms hne h hfit
  exact ⟨marksExact_of_accepts h hfit, mergeConfigs_ok_iff handler h hne,
      mergeConfigs_of_scalarSets handler h hne⟩

/-- A message whose diff says that an empty list was added to a set. -/
def oddElement : Bytes :=
  messageBytes 1 [(bytes "s", .set [.int 1])] [] [(bytes "s", .list [.list [.list []], .list []])]

def oddElementHash : Hash :=
  hashOfNat 0xf855d94d78fb65d1cc028710940355b15611d65dff4aa7e775210211f8ca42e7

def plainElement : Bytes :=
  messageBytes 1 [(bytes "s", .set [.int 1])] [] [(bytes "s", .list [.list [.int 1], .list []])]

def plainElementHash : Hash :=
  hashOfNat 0xf017e0327bce728987d08311b0c48fadd1e48be3b07b3931b1e1fb5b1db0a1ad

def validatedEnv : Env :=
  Env.bencode (tableHash [(oddElement, oddElementHash), (plainElement, plainElementHash),
    (first, firstHash)])

/-- Accepted messages that are merged, and a diff that applies to everything. -/
theorem validated_diffs_apply_plain : (∀ data source, ∃ data',
      applyDiff [(bytes "s", .list [.list [.int 1], .list []])] data source = .ok data') ∧
    ∃ ms, List.Forall₂ (Accepts validatedEnv none none 5) [plainElement, first] ms ∧
      (survivors 5 ms).length = 2 ∧ ∀ p ∈ replayed 5 ms, AppliesDict p.2.2 p.2.1 := by
  have happ := validated_diffs_apply_iff validatedEnv
  constructor
  · refine (happ.1 [(bytes "s", .list [.list [.int 1], .list []])] _ ?_).mpr ?_
    · exact loadDiff_of_wf _ _ none
        (by simp [DiffWF, DiffValueWF, SetDiffWF, BtItemsWF, BtWF, InBtInt])
        (after_none _)
    · simp [ScalarSets, ScalarSetsValue, SingleIsScalar, scalarOf, InInt64]
  have hcheck : mergeCheck validatedEnv none none 5 [plainElement, first]
      (fun configs _ _ => (survivors 5 configs).length = 2 ∧
        ∀ m ∈ configs, InInt64 (m.seqno + 5)) = true := by decide +kernel
  obtain ⟨configs, best, m, hp, hm, -, -, hlen⟩ := exists_of_mergeCheck hcheck
  obtain ⟨hlen, hfit⟩ : (survivors 5 configs).length = 2 ∧ ∀ m ∈ configs, InInt64 (m.seqno + 5) :=
    of_decide_eq_true hlen
  obtain ⟨ms, hacc⟩ : ∃ ms, Forall₂ (Accepts validatedEnv none none 5)
      [plainElement, first] ms :=
    exists_accepts fun b hb => exists_accepts_of_isSome <| by
      revert b
      decide +kernel
  rw [parseAll_of_accepts hacc] at hp
  cases hp
  refine ⟨configs, hacc, hlen, ?_⟩
  have hiff := (happ.2 none none 5 skipHandler _ configs (by simp) hacc hfit).2.1
  rcases hiff.mp ⟨_, hm⟩ with h1 | ⟨hv, -⟩ | ⟨-, h⟩
  · omega
  · cases hv
  · exact h

/-- Both messages are accepted, but they cannot be merged. -/
theorem merge_fails_on_odd_element :
    (ConfigMessage.parse validatedEnv oddElement none none 5 false).toOption.isSome ∧
    (ConfigMessage.parse validatedEnv first none none 5 false).toOption.isSome ∧
    (mergeConfigs validatedEnv [oddElement, first] none none 5 skipHandler).map (fun _ => ())
      = .error (.config "Invalid set diff added value: expected int or scalar" []) := by
  refine ⟨by decide +kernel, by decide +kernel, by decide +kernel⟩

end Bchat.Config
