import Bchat.Properties.Derive
import Bchat.Properties.Replay

/-!
# Merging two concurrent edits

Two messages derived from one base message by edits of different leaves. Merging them applies both
edits exactly when `Mergeable` holds. What can go wrong:

* one side empties a set or dict, so its data no longer has that node, and the other side adds to
  it: replaying the removal erases the node with the addition
* the edits put values of different types at one path
* replaying the diffs of the common ancestors does not lead back to the data of the base
-/

namespace Bchat.Config

open Bencode List SortedMap AnyMessage Dict DictValue

variable {verifier : Option Verifier} {signer : Option Signer} {e : Option Scalar} {a d b : Dict}
  {l : Leaf}

/-! ## Edits as changes of leaves -/

def Changed (base d : Dict) (l : Leaf) : Prop := leaf d l ≠ leaf base l

instance (base d : Dict) (l : Leaf) : Decidable (Changed base d l) :=
  inferInstanceAs (Decidable (_ ≠ _))

/-- Wherever both have a node, the nodes have one type. -/
def SameKinds (d d' : Dict) : Prop :=
  ∀ p v w, node d p = some v → node d' p = some w → v.kind = w.kind

def Gone (base d : Dict) (l : Leaf) : Prop := GoneAt l.path (some (.dict base)) (some (.dict d))

def BothApplied (base a b d : Dict) : Prop :=
  ∀ l, leaf d l = if Changed base a l then leaf a l else leaf b l

structure DisjointEdits (base a b : Dict) : Prop where
  disjoint : ∀ l, ¬(Changed base a l ∧ Changed base b l)
  typesA : SameKinds base a
  typesB : SameKinds base b

def ancestorReplay (ancestors : LaggedDiffs) (source : Dict) : Replay :=
  ancestors.map (fun p => (p.1, (source, p.2)))

/-- When a merge keeps both edits; `hi` is the side with the greater hash. -/
structure Mergeable (ancestors : LaggedDiffs) (base lo hi : Dict) : Prop where
  /-- The sides did not put values of different types at one path. -/
  kinds : SameKinds lo hi
  /-- Nothing was added below a node that the winning side removed. -/
  inserted : ∀ l, leaf base l = none → leaf lo l ≠ none → ¬Gone base hi l
  /-- The diffs of the ancestors can be applied. -/
  applies : ∀ p ∈ ancestors, AppliesDict p.2 hi
  /-- Replaying them leads back to the base, at leaves no side touches. -/
  history : ∀ l, ¬Changed base lo l → ¬Changed base hi l → ¬Gone base lo l → ¬Gone base hi l →
    replayLeaf l (ancestorReplay ancestors hi) (leaf base l) = leaf base l

/-! ## One leaf -/

lemma act_put_fits {p : List Bytes} {v : Bt} {src : Option DictValue} {a : Scalar}
    (h : act p e v src = .put a) : ∃ w, nodeAt p src = some w ∧ w.kind.Fits [] e := by
  induction p generalizing v src with
  | nil =>
    unfold act at h
    split at h
    · exact ⟨_, rfl, rfl, rfl⟩
    · exact ⟨_, rfl, rfl, rfl⟩
    · next heq => simp at heq
    · cases h
  | cons k p ih =>
    cases v with
    | dict d =>
      cases src with
      | none => cases h
      | some w =>
        cases w with
        | dict s =>
          rw [act] at h
          split at h
          · exact ih h
          · cases h
        | set s | scalar s => cases h
    | int i | str m | list l => simp [act] at h

lemma replayLeaf_none {ancestors : LaggedDiffs} {source : Dict}
    (h : ¬∃ w, node source l.path = some w ∧ w.kind.Fits [] l.elem) :
    replayLeaf l (ancestorReplay ancestors source) none = none := by
  induction ancestors with
  | nil => rfl
  | cons p rest ih =>
    have hact : (actOf p.2 source l).apply none = none := by
      cases ha : actOf p.2 source l with
      | keep | clear => rfl
      | put a => exact absurd (act_put_fits ha) h
    show replayLeaf l (ancestorReplay rest source) ((actOf p.2 source l).apply none) = none
    rw [hact]
    exact ih

lemma fits_of_node {q r : List Bytes} {w : DictValue} (h : node d (q ++ r) = some w)
    (hfit : w.kind.Fits [] e) : ∃ u, node d q = some u ∧ u.kind.Fits r e := by
  unfold node at h ⊢
  rw [nodeAt_append] at h
  cases hq : nodeAt q (some (.dict d)) with
  | none => rw [hq] at h; simp at h
  | some u =>
    rw [hq] at h
    refine ⟨u, rfl, ?_⟩
    cases r with
    | nil =>
      cases h
      exact hfit
    | cons k r =>
      cases u with
      | dict s => simp [kind, Kind.Fits]
      | set s | scalar s => simp at h

section

variable {base lo hi : Dict} {ancestors : LaggedDiffs}

lemma no_fit_of_clash {x y : Dict} (hkinds : SameKinds x y)
    (h : ClashAt l.path l.elem (some (.dict x))) :
    ¬∃ w, node y l.path = some w ∧ w.kind.Fits [] l.elem := by
  obtain ⟨q, r, v, hp, hv, hno⟩ := h
  rintro ⟨w, hw, hfit⟩
  rw [hp] at hw
  obtain ⟨u, hu, hufit⟩ := fits_of_node hw hfit
  rw [hkinds q v u hv hu] at hno
  exact hno hufit

lemma sameKinds_refl (d : Dict) : SameKinds d d := by
  intro p v w hv hw
  rw [hv] at hw
  cases hw
  rfl

lemma SameKinds.symm {d' : Dict} (h : SameKinds d d') : SameKinds d' d :=
  fun p v w hv hw => (h p w v hw hv).symm

/-- The merged value of a leaf: the ancestors, the losing side, the winning side. -/
def mergedLeaf (ancestors : LaggedDiffs) (base lo hi : Dict) (l : Leaf) : Option Scalar :=
  (actOf (diffDict base hi) hi l).apply ((actOf (diffDict base lo) lo l).apply
    (replayLeaf l (ancestorReplay ancestors hi) (leaf hi l)))

lemma changed_of_insert (hb : leaf base l = none) (h : leaf lo l ≠ none) : Changed base lo l := by
  unfold Changed
  rwa [hb]

lemma mergedLeaf_of_mergeable (hb : Dict.WF base) (hl : Dict.WF lo) (hh : Dict.WF hi)
    (hd : DisjointEdits base lo hi) (hm : Mergeable ancestors base lo hi) (l : Leaf) :
    mergedLeaf ancestors base lo hi l = if Changed base lo l then leaf lo l else leaf hi l := by
  obtain ⟨hhch, hhun, hhgone⟩ := actOf_diffDict hb hh l
  obtain ⟨hlch, hlun, hlgone⟩ := actOf_diffDict hb hl l
  unfold mergedLeaf
  by_cases hch : Changed base hi l
  · have hnl : ¬Changed base lo l := fun h => hd.disjoint l ⟨h, hch⟩
    rw [hhch hch, if_neg hnl]
    simp [leaf]
  have hheq : leaf hi l = leaf base l := not_not.mp hch
  rcases hhun hheq with hk | ⟨hc, hnone, hwhy⟩
  · rw [hk, Act.apply_keep]
    by_cases hlc : Changed base lo l
    · rw [hlch hlc, if_pos hlc]
      simp [leaf]
    have hleq : leaf lo l = leaf base l := not_not.mp hlc
    rw [if_neg hlc]
    rcases hlun hleq with hlk | ⟨hlc', hlnone, -⟩
    · -- no side touches the leaf
      have hg : ¬Gone base hi l := fun h => by
        rw [hhgone h] at hk
        cases hk
      have hg' : ¬Gone base lo l := fun h => by
        rw [hlgone h] at hlk
        cases hlk
      rw [hlk, Act.apply_keep, hheq]
      exact hm.history l hlc hch hg' hg
    · rw [hlc', Act.apply_clear, hheq, ← hleq]
      exact hlnone.symm
  -- the winning side clears a leaf it does not have
  rw [hc, Act.apply_clear]
  have hhi : leaf hi l = none := hnone
  by_cases hlc : Changed base lo l
  · rw [if_pos hlc]
    by_contra hne
    have hins : leaf base l = none := by rw [← hheq, hhi]
    rcases hwhy with hgone | hclash
    · exact hm.inserted l hins (Ne.symm hne) hgone
    refine no_fit_of_clash hm.kinds.symm hclash ?_
    have hs : (leafHere l.elem (node lo l.path)).isSome :=
      Option.isSome_iff_ne_none.mpr (Ne.symm hne)
    cases hn : node lo l.path with
    | none => rw [hn] at hs; simp at hs
    | some w =>
      rw [hn] at hs
      exact ⟨w, rfl, fits_of_leafAt (p := []) hs⟩
  · rw [if_neg hlc, hhi]

lemma sameKinds_of_bothApplied (hl : Dict.WF lo) (hlp : Dict.Pruned lo) (hh : Dict.WF hi)
    (hhp : Dict.Pruned hi) (hd : DisjointEdits base lo hi) (h : BothApplied base lo hi d) :
    SameKinds lo hi := by
  intro q u w hu hw
  cases hz : node base q with
  | some z => rw [← hd.typesA q z u hz hu, ← hd.typesB q z w hz hw]
  | none =>
    have pruned_node : ∀ {x : Dict} {v : DictValue}, WF x → Pruned x →
        node x q = some v → v.Pruned := by
      intro x v hx hxp hv
      cases q with
      | nil =>
        have : node base [] = some (.dict base) := rfl
        cases hz
      | cons k q =>
        unfold node at hv
        rw [nodeAt_cons_dict] at hv
        cases hf : find? k x with
        | none => rw [hf] at hv; simp at hv
        | some y =>
          rw [hf] at hv
          exact (nodeAt_wf_pruned (wf_of_find? hx hf) (pruned_of_find? hxp hf) hv).2
    obtain ⟨p, e, hp⟩ := exists_leafAt u (pruned_node hl hlp hu)
    obtain ⟨p', e', hp'⟩ := exists_leafAt w (pruned_node hh hhp hw)
    have hbase : ∀ r f, leaf base ⟨q ++ r, f⟩ = none := by
      intro r f
      show leafAt (q ++ r) f (some (.dict base)) = none
      rw [leafAt_append]
      have : nodeAt q (some (.dict base)) = none := hz
      simp [this]
    have hleaf : ∀ {x : Dict} {v : DictValue} (r : List Bytes) (f : Option Scalar),
        node x q = some v → leaf x ⟨q ++ r, f⟩ = leafAt r f (some v) := by
      intro x v r f hv
      show leafAt (q ++ r) f (some (.dict x)) = _
      rw [leafAt_append]
      have : nodeAt q (some (.dict x)) = some v := hv
      rw [this]
    have hchanged : ∀ {x : Dict} {v : DictValue} {r : List Bytes} {f : Option Scalar},
        node x q = some v → (leafAt r f (some v)).isSome → Changed base x ⟨q ++ r, f⟩ := by
      intro x v r f hv hr
      refine changed_of_insert (hbase r f) ?_
      rw [hleaf r f hv]
      exact Option.isSome_iff_ne_none.mp hr
    have h1 := h ⟨q ++ p, e⟩
    have h2 := h ⟨q ++ p', e'⟩
    rw [if_pos (hchanged hu hp), hleaf p e hu] at h1
    rw [if_neg fun hc => hd.disjoint _ ⟨hc, hchanged hw hp'⟩, hleaf p' e' hw] at h2
    -- the node of the merged data at this path has both types
    cases hx : node d q with
    | none =>
      have : leaf d ⟨q ++ p, e⟩ = none := by
        show leafAt (q ++ p) e (some (.dict d)) = none
        rw [leafAt_append, show nodeAt q (some (.dict d)) = none from hx]
        simp
      rw [← h1, this] at hp
      simp at hp
    | some x =>
      rw [hleaf p e hx] at h1
      rw [hleaf p' e' hx] at h2
      have hk1 := (fits_of_leafAt (h1 ▸ hp)).unique (fits_of_leafAt hp)
      have hk2 := (fits_of_leafAt (h2 ▸ hp')).unique (fits_of_leafAt hp')
      rw [← hk1, ← hk2]

lemma mergeable_of_bothApplied (hb : Dict.WF base) (hl : Dict.WF lo) (hlp : Dict.Pruned lo)
    (hh : Dict.WF hi) (hhp : Dict.Pruned hi) (hd : DisjointEdits base lo hi)
    (happ : ∀ p ∈ ancestors, AppliesDict p.2 hi)
    (hleaf : ∀ l, leaf d l = mergedLeaf ancestors base lo hi l) (h : BothApplied base lo hi d) :
    Mergeable ancestors base lo hi := by
  have hkinds := sameKinds_of_bothApplied hl hlp hh hhp hd h
  refine ⟨hkinds, ?_, happ, ?_⟩
  · intro l hbl hlo hgone
    have hc := changed_of_insert hbl hlo
    have hval := h l
    rw [hleaf l, if_pos hc, mergedLeaf, (actOf_diffDict hb hh l).gone hgone, Act.apply_clear]
      at hval
    exact hlo hval.symm
  intro l hcl hch hgl hgh
  have hval := h l
  rw [hleaf l, if_neg hcl, mergedLeaf] at hval
  have hheq : leaf hi l = leaf base l := not_not.mp hch
  have hleq : leaf lo l = leaf base l := not_not.mp hcl
  rcases (actOf_diffDict hb hh l).unchanged hheq with hk | ⟨-, hnone, hwhy⟩
  · rcases (actOf_diffDict hb hl l).unchanged hleq with hlk | ⟨-, hlnone, hwhy⟩
    · rw [hk, hlk, Act.apply_keep, Act.apply_keep, hheq] at hval
      exact hval
    -- the losing side has another type there, so the winning side has nothing
    have hz : leaf base l = none := by rw [← hleq]; exact hlnone
    rw [hz]
    exact replayLeaf_none (no_fit_of_clash hkinds (hwhy.resolve_left hgl))
  have hz : leaf base l = none := by rw [← hheq]; exact hnone
  rw [hz]
  exact replayLeaf_none (no_fit_of_clash (sameKinds_refl hi) (hwhy.resolve_left hgh))

end

/-! ## Two siblings -/

section

variable {x y : ConfigMessage} {lag : Int}

structure Siblings (x y : ConfigMessage) : Prop where
  seqno : x.seqno = y.seqno
  lagged : x.laggedDiffs = y.laggedDiffs
  sorted : SortedMap.Sorted y.laggedDiffs
  lagged_lt : ∀ p ∈ y.laggedDiffs, p.1.seqno < y.seqno
  int64_min_le : -2 ^ 63 ≤ y.seqno
  lt : x.seqnoHash < y.seqnoHash

lemma Siblings.coherent (h : Siblings x y) : Coherent [x, y] where
  lagged_lt c hc p hp := by
    rcases mem_pair.mp hc with rfl | rfl
    · rw [h.seqno]
      exact h.lagged_lt p (h.lagged ▸ hp)
    · exact h.lagged_lt p hp
  int64_min_le c hc := by
    rcases mem_pair.mp hc with rfl | rfl
    · rw [h.seqno]
      exact h.int64_min_le
    · exact h.int64_min_le
  eq_of_seqnoHash a ha b hb heq := by
    rcases mem_pair.mp ha with rfl | rfl <;> rcases mem_pair.mp hb with rfl | rfl
    · rfl
    · exact absurd heq h.lt.ne
    · exact absurd heq h.lt.ne'
    · rfl

lemma Siblings.maxSeqno_eq (h : Siblings x y) : maxSeqno [x, y] = y.seqno := by
  refine le_antisymm (maxSeqno_le h.int64_min_le fun c hc => ?_) (le_maxSeqno (by simp))
  rcases mem_pair.mp hc with rfl | rfl
  · exact h.seqno.le
  · exact le_refl _

lemma Siblings.live (h : Siblings x y) (hlag : 1 ≤ lag) {c : ConfigMessage} (hc : c ∈ [x, y]) :
    Live lag [x, y] c := by
  have hseq : c.seqno = y.seqno := by
    rcases mem_pair.mp hc with rfl | rfl
    · exact h.seqno
    · rfl
  refine ⟨hc, ?_, ?_⟩
  · rintro ⟨c', hc', hs⟩
    obtain ⟨p, hp, hk⟩ := find?_isSome_iff.mp hs
    have hlt := h.coherent.lagged_lt c' hc' p hp
    have hle := le_maxSeqno hc'
    rw [hk] at hlt
    rw [h.maxSeqno_eq] at hle
    have : c.seqnoHash.seqno = y.seqno := hseq
    omega
  unfold TooOld
  rw [h.maxSeqno_eq, hseq]
  omega

lemma Siblings.buildReplay_eq (h : Siblings x y) :
    buildReplay [y, x] = ancestorReplay y.laggedDiffs y.data ++
      [(x.seqnoHash, (x.data, x.diff)), (y.seqnoHash, (y.data, y.diff))] := by
  have hanc : ∀ {s : SeqnoHash}, s.seqno = y.seqno → find? s y.laggedDiffs = none := by
    intro s hs
    refine find?_eq_none_iff.mpr fun p hp heq => ?_
    have := h.lagged_lt p hp
    rw [heq, hs] at this
    exact lt_irrefl _ this
  refine ext (sorted_buildReplay _) ?_ fun s => ?_
  · refine sorted_append.mpr ⟨h.sorted.map_value _, ?_, ?_⟩
    · exact sorted_cons.mpr ⟨by simp [h.lt], pairwise_singleton _ _⟩
    intro p hp q hq
    obtain ⟨r, hr, rfl⟩ := mem_map.mp hp
    refine SeqnoHash.lt_of_seqno_lt ?_
    have := h.lagged_lt r hr
    rcases mem_pair.mp hq with rfl | rfl
    · exact this.trans_eq h.seqno.symm
    · exact this
  rw [find?_buildReplay]
  simp only [flatMap_cons, flatMap_nil, append_nil, replayOf, ancestorReplay, h.lagged]
  rw [cons_append, SortedMap.find?_cons, SortedMap.find?_append, SortedMap.find?_append,
    SortedMap.find?_cons, SortedMap.find?_cons, SortedMap.find?_cons, SortedMap.find?_nil,
    find?_map_value (fun d => (y.data, d)),
    find?_map_value (fun d => (x.data, d))]
  by_cases hy : y.seqnoHash = s
  · subst hy
    have hxy : x.seqnoHash ≠ y.seqnoHash := h.lt.ne
    rw [hanc rfl]
    simp [hxy]
  by_cases hx : x.seqnoHash = s
  · subst hx
    simp [hy]
  cases find? s y.laggedDiffs with
  | none => simp [hx, hy]
  | some d => simp [hy]

lemma Siblings.mergeAccepted_eq (env : Env) (h : Siblings x y) (hlag : 1 ≤ lag)
    (hvs : ¬(verifier.isSome ∧ signer = none)) {configs : List ConfigMessage}
    (hconf : configs = [x, y] ∨ configs = [y, x]) :
    (mergeAccepted env verifier signer lag configs).map ConfigMessage.data =
      (applyReplay (ancestorReplay y.laggedDiffs y.data ++
        [(x.seqnoHash, (x.data, x.diff)), (y.seqnoHash, (y.data, y.diff))]) y.data).map prune := by
  have hmem : ∀ m, m ∈ configs ↔ m ∈ [x, y] := by
    intro m
    rcases hconf with rfl | rfl
    · exact Iff.rfl
    · simp [or_comm]
  have hc : Coherent configs := by refine h.coherent.of_subset fun m hm => (hmem m).mp hm
  have hlive : ∀ m, m ∈ survivors lag configs ↔ m ∈ [x, y] := by
    intro m
    have hext : Extends lag [x, y] configs :=
      ⟨fun m hm => (hmem m).mpr hm, fun m hm hn => absurd ((hmem m).mp hm) hn,
        fun m hm hn => absurd ((hmem m).mp hm) hn⟩
    rw [mem_survivors hc, ← hext.live_iff hc]
    exact ⟨fun hl => hl.mem, h.live hlag⟩
  have hne : x ≠ y := fun heq => h.lt.ne (by rw [heq])
  have hperm : (survivors lag configs).Perm [y, x] := by
    refine (perm_ext_iff_of_nodup (survivors_nodup _ _) (by simp [Ne.symm hne])).mpr ?_
    intro m
    rw [hlive m]
    simp [or_comm]
  have hlen : (survivors lag configs).length ≠ 1 := by
    rw [hperm.length_eq]
    simp
  have hsorted : sortDescending [y, x] = [y, x] := by
    refine Pairwise.insertionSort_eq ?_
    simp [h.lt.le]
  rw [mergeAccepted_resolve env hlen hvs]
  unfold resolve
  rw [sortDescending_congr hperm (survivors_pairwise _ _), hsorted]
  simp only
  rw [h.buildReplay_eq]
  cases applyReplay (ancestorReplay y.laggedDiffs y.data ++
      [(x.seqnoHash, (x.data, x.diff)), (y.seqnoHash, (y.data, y.diff))]) y.data with
  | error e | ok d => rfl

end

/-! ## Two edits of one message -/

section

variable {env : Env} {c : AnyMessage}

def AnyMessage.ancestors (env : Env) (c : AnyMessage) : LaggedDiffs :=
  (c.increment env).laggedDiffs.filter (inWindow (c.seqno + 1) c.base.lag)

def AnyMessage.publish (env : Env) (c : AnyMessage) (data : Dict) : Bytes :=
  ((c.edited env data).serialize env true).1

def AnyMessage.received (env : Env) (verifier : Option Verifier) (signer : Option Signer)
    (c : AnyMessage) (data : Dict) : ConfigMessage :=
  (c.published env data).reparsed env true verifier signer false

lemma accepts_publish (signer : Option Signer) (hc : c.WellFormed) (hseq : InInt64 (c.seqno + 1))
    (ha : Dict.WF a) (hs : SignatureAccepted env verifier (c.published env a) true) :
    Accepts env verifier signer c.base.lag (c.publish env a)
      (c.received env verifier signer a) := by
  have h := parse_serialize env (hc.published env hseq ha) hs signer false
  rw [published_lag] at h
  exact h

@[simp] lemma received_seqno (a : Dict) : (c.received env verifier signer a).seqno = c.seqno + 1 :=
  published_seqno env c a

@[simp] lemma received_data (a : Dict) : (c.received env verifier signer a).data = prune a := rfl

lemma received_diff (a : Dict) :
    (c.received env verifier signer a).diff = diffDict c.refreshed.data (prune a) :=
  published_diff env c a

lemma received_laggedDiffs (a : Dict) :
    (c.received env verifier signer a).laggedDiffs = c.ancestors env := by
  show (c.published env a).laggedDiffs.filter (inWindow _ _) = _
  rw [published_laggedDiffs, published_seqno, published_lag]
  rfl

lemma ancestors_wf (hc : c.WellFormed) (hseq : InInt64 (c.seqno + 1)) :
    LaggedWF (c.ancestors env) ∧ ∀ p ∈ c.ancestors env, p.1.seqno < c.seqno + 1 := by
  refine ⟨laggedWF_filter (hc.increment env hseq).lagged _, fun p hp => ?_⟩
  exact (inWindow_iff.mp (mem_filter.mp hp).2).2

lemma received_siblings (verifier : Option Verifier) (signer : Option Signer) (hc : c.WellFormed)
    (hseq : InInt64 (c.seqno + 1))
    (hlt : env.blake2b (c.publish env a) < env.blake2b (c.publish env b)) :
    Siblings (c.received env verifier signer a) (c.received env verifier signer b) where
  seqno := by simp
  lagged := by rw [received_laggedDiffs, received_laggedDiffs]
  sorted := by rw [received_laggedDiffs]; exact (ancestors_wf hc hseq).1.sorted
  lagged_lt p hp := by
    rw [received_laggedDiffs] at hp
    rw [received_seqno]
    exact (ancestors_wf hc hseq).2 p hp
  int64_min_le := by rw [received_seqno]; exact hseq.1
  lt := by
    exact SeqnoHash.lt_iff.mpr (.inr ⟨rfl, hlt⟩)

lemma replay_edits (env : Env) (hc : c.WellFormed) (hseq : InInt64 (c.seqno + 1)) (ha : Dict.WF a)
    (hb : Dict.WF b) (s s' : SeqnoHash) :
    let replay := ancestorReplay (c.ancestors env) (prune b) ++
      [(s, (prune a, diffDict c.refreshed.data (prune a))),
        (s', (prune b, diffDict c.refreshed.data (prune b)))]
    ((∃ d, applyReplay replay (prune b) = .ok d) ↔
      ∀ p ∈ c.ancestors env, AppliesDict p.2 (prune b)) ∧
    ∀ d, applyReplay replay (prune b) = .ok d → Dict.WF d ∧ ∀ l, leaf d l =
        mergedLeaf (c.ancestors env) c.refreshed.data (prune a) (prune b) l := by
  intro replay
  have hbase := hc.refreshed.dataWF
  have hwf : ∀ p ∈ replay, DiffWF p.2.2 := by
    intro p hp
    rcases mem_append.mp hp with hp | hp
    · obtain ⟨q, hq, rfl⟩ := mem_map.mp hp
      exact (ancestors_wf hc hseq).1.diff q hq
    rcases mem_pair.mp hp with rfl | rfl
    · exact (diffDict_wf _ _ hbase (wf_prune ha)).wf
    · exact (diffDict_wf _ _ hbase (wf_prune hb)).wf
  have happ : (∀ p ∈ c.ancestors env, AppliesDict p.2 (prune b)) →
      ∀ p ∈ replay, AppliesDict p.2.2 p.2.1 := by
    intro hanc p hp
    rcases mem_append.mp hp with hp | hp
    · obtain ⟨q, hq, rfl⟩ := mem_map.mp hp
      exact hanc q hq
    rcases mem_pair.mp hp with rfl | rfl
    · exact appliesDict_diffDict hbase (wf_prune ha)
    · exact appliesDict_diffDict hbase (wf_prune hb)
  refine ⟨⟨?_, fun hanc => ?_⟩, fun d hd => ?_⟩
  · rintro ⟨d, hd⟩ p hp
    exact applies_of_applyReplay hd (p.1, (prune b, p.2))
      (mem_append_left _ (mem_map.mpr ⟨p, hp, rfl⟩))
  · obtain ⟨d, hd, -⟩ := applyReplay_spec hwf (happ hanc) (prune b)
    exact ⟨d, hd⟩
  obtain ⟨d', hd', hdwf, hdl⟩ := applyReplay_spec hwf (applies_of_applyReplay hd) (prune b)
  rw [hd] at hd'
  cases hd'
  refine ⟨hdwf (wf_prune hb), fun l => ?_⟩
  rw [hdl, replayLeaf_append]
  rfl

lemma mergeAccepted_self {x : ConfigMessage} {lag : Int} (hlag : 1 ≤ lag) (hx : Coherent [x]) :
    (mergeAccepted env verifier signer lag [x, x]).map ConfigMessage.data = .ok x.data := by
  have hc : Coherent [x, x] := hx.of_subset (by simp)
  have hext : Extends lag [x] [x, x] :=
    ⟨by simp, fun m hm hn => absurd (by simpa using hm) hn,
      fun m hm hn => absurd (by simpa using hm) hn⟩
  obtain ⟨m, hm⟩ := hx.exists_live hlag (by simp)
  have hmx : m = x := by simpa using hm.mem
  subst hmx
  have hone : survivors lag [m] = [m] :=
    survivors_eq_singleton hx hm fun n hn => by simpa using hn.mem
  obtain ⟨i, -, hi⟩ := mergeAccepted_single env verifier signer hone
  have heq := hext.mergeAccepted_eq env verifier signer hc hlag (by simp)
  rw [hi] at heq
  cases hr : mergeAccepted env verifier signer lag [m, m] with
  | error e => rw [hr] at heq; cases heq
  | ok r =>
    rw [hr] at heq
    have hdata := congrArg (fun p : ConfigMessage × Bool => p.1.data) (Except.ok.inj heq)
    simp only [forgetIndex] at hdata
    simp [Except.map, hdata]

end

/-- The merging constructor gives data with the changes of both sides. -/
def MergesBoth (env : Env) (L : List Bytes) (verifier : Option Verifier) (signer : Option Signer)
    (lag : Int) (handler : Nat → Err → Except Err Unit) (base a b : Dict) : Prop :=
  ∃ r, mergeConfigs env L verifier signer lag handler = .ok r ∧ BothApplied base a b r.1.data

lemma mergesBoth_iff {env : Env} {L : List Bytes} {ms : List ConfigMessage} {lag : Int}
    {handler : Nat → Err → Except Err Unit} {base : Dict}
    (h : List.Forall₂ (Accepts env verifier signer lag) L ms) (hne : L ≠ []) :
    MergesBoth env L verifier signer lag handler base a b ↔
      ∃ d, (mergeAccepted env verifier signer lag ms).map ConfigMessage.data = .ok d ∧
        BothApplied base a b d := by
  unfold MergesBoth
  rw [mergeConfigs_of_accepts h hne]
  cases mergeAccepted env verifier signer lag ms with
  | error e | ok m => simp [Except.map]

/-- **Two edits of one message that change different leaves are both kept by a merge exactly when
the messages are equal or the edits are mergeable.** The side with the greater hash is `b`. -/
theorem merge_disjoint_edits_iff (env : Env) (verifier : Option Verifier) (signer : Option Signer)
    (handler : Nat → Err → Except Err Unit) (c : AnyMessage) (a b : Dict) (L : List Bytes)
    (hc : c.WellFormed) (hseq : c.seqno + 1 + c.base.lag < 2 ^ 63) (hlag : 1 ≤ c.base.lag)
    (ha : Dict.WF a) (hb : Dict.WF b) (hd : DisjointEdits c.refreshed.data (prune a) (prune b))
    (hsa : SignatureAccepted env verifier (c.published env a) true)
    (hsb : SignatureAccepted env verifier (c.published env b) true)
    (hvs : ¬(verifier.isSome ∧ signer = none))
    (hle : env.blake2b (c.publish env a) ≤ env.blake2b (c.publish env b))
    (hinj : env.blake2b (c.publish env a) = env.blake2b (c.publish env b) →
      c.publish env a = c.publish env b)
    (hL : L = [c.publish env a, c.publish env b] ∨ L = [c.publish env b, c.publish env a]) :
    MergesBoth env L verifier signer c.base.lag handler c.refreshed.data (prune a) (prune b) ↔
      c.publish env a = c.publish env b ∨
        Mergeable (c.ancestors env) c.refreshed.data (prune a) (prune b) := by
  have hge := hc.seqno.1
  have hseq : InInt64 (c.seqno + 1) := ⟨by omega, by omega⟩
  have hacca := accepts_publish signer hc hseq ha hsa
  have haccb := accepts_publish signer hc hseq hb hsb
  by_cases heq : c.publish env a = c.publish env b
  · -- one message: there is nothing to merge
    have hx : c.received env verifier signer a = c.received env verifier signer b :=
      accepts_unique (heq ▸ hacca) haccb
    have hdata : prune a = prune b := congrArg ConfigMessage.data hx
    have hF : Forall₂ (Accepts env verifier signer c.base.lag) L
        [c.received env verifier signer b, c.received env verifier signer b] := by
      rcases hL with rfl | rfl
      · exact .cons (heq ▸ haccb) (.cons haccb .nil)
      · exact .cons haccb (.cons (heq ▸ haccb) .nil)
    have hcoh : Coherent [c.received env verifier signer b] :=
      coherent_of_accepts (.cons haccb .nil) (by simp)
    refine ⟨fun _ => .inl heq, fun _ => (mergesBoth_iff hF ?_).mpr ?_⟩
    · rcases hL with rfl | rfl <;> simp
    refine ⟨prune b, mergeAccepted_self hlag hcoh, fun l => ?_⟩
    rw [hdata]
    simp
  have hlt := lt_of_le_of_ne hle fun h => heq (hinj h)
  have hsib := received_siblings verifier signer hc hseq hlt
  have hF : ∃ ms, Forall₂ (Accepts env verifier signer c.base.lag) L ms ∧
      (ms = [c.received env verifier signer a, c.received env verifier signer b] ∨
        ms = [c.received env verifier signer b, c.received env verifier signer a]) := by
    rcases hL with rfl | rfl
    · exact ⟨_, .cons hacca (.cons haccb .nil), .inl rfl⟩
    · exact ⟨_, .cons haccb (.cons hacca .nil), .inr rfl⟩
  obtain ⟨ms, hms, hms'⟩ := hF
  have hne : L ≠ [] := by rcases hL with rfl | rfl <;> simp
  rw [mergesBoth_iff hms hne, hsib.mergeAccepted_eq env hlag hvs hms']
  simp only [received_data, received_diff, received_laggedDiffs]
  obtain ⟨hok, hleaf⟩ := replay_edits env hc hseq ha hb
    (c.received env verifier signer a).seqnoHash (c.received env verifier signer b).seqnoHash
  have hbase := hc.refreshed.dataWF
  constructor
  · rintro ⟨d, hd1, hboth⟩
    refine .inr ?_
    cases hr : applyReplay (ancestorReplay (c.ancestors env) (prune b) ++
        [((c.received env verifier signer a).seqnoHash,
            (prune a, diffDict c.refreshed.data (prune a))),
          ((c.received env verifier signer b).seqnoHash,
            (prune b, diffDict c.refreshed.data (prune b)))]) (prune b) with
    | error e => rw [hr] at hd1; cases hd1
    | ok d' =>
      rw [hr] at hd1
      cases hd1
      obtain ⟨hdwf, hdl⟩ := hleaf d' hr
      refine mergeable_of_bothApplied hbase (wf_prune ha) (pruned_prune ha) (wf_prune hb)
        (pruned_prune hb) hd (hok.mp ⟨d', hr⟩) (fun l => ?_) hboth
      rw [leaf_prune hdwf, hdl]
  rintro (h | hm)
  · exact absurd h heq
  obtain ⟨d, hr⟩ := hok.mpr hm.applies
  obtain ⟨hdwf, hdl⟩ := hleaf d hr
  refine ⟨prune d, by rw [hr]; rfl, fun l => ?_⟩
  rw [leaf_prune hdwf, hdl]
  exact mergedLeaf_of_mergeable hbase (wf_prune ha) (wf_prune hb) hd hm l

/-! ## A race on one set -/

lemma not_changed_of_find?_eq {base : Dict} {k : Bytes} {p : List Bytes}
    (h : find? k d = find? k base) : ¬Changed base d ⟨k :: p, e⟩ := by
  refine not_not.mpr ?_
  show leafAt p e (find? k d) = leafAt p e (find? k base)
  rw [h]

lemma not_changed_nil (base d : Dict) (e : Option Scalar) : ¬Changed base d ⟨[], e⟩ := by
  simp [Changed, leaf]

lemma sameKinds_of_find? {d' : Dict}
    (h : ∀ k v w, SortedMap.find? k d = some v → find? k d' = some w →
      v = w ∨ (v.kind = w.kind ∧ v.kind ≠ .dict)) : SameKinds d d' := by
  intro p v w hv hw
  cases p with
  | nil =>
    cases hv
    cases hw
    rfl
  | cons k p =>
    unfold node at hv hw
    rw [nodeAt_cons_dict] at hv hw
    cases hf : find? k d with
    | none => rw [hf] at hv; simp at hv
    | some x =>
      cases hf' : find? k d' with
      | none => rw [hf'] at hw; simp at hw
      | some y =>
        rw [hf] at hv
        rw [hf'] at hw
        rcases h k x y hf hf' with rfl | ⟨hk, hnd⟩
        · rw [hv] at hw
          cases hw
          rfl
        cases p with
        | nil =>
          cases hv
          cases hw
          exact hk
        | cons k' p =>
          cases x with
          | dict s => exact absurd rfl hnd
          | set s | scalar s => simp at hv

def raceData : Dict := [(bytes "s", .set [.int 1])]

def raceDiff : BtDict := [(bytes "s", .list [.list [.int 1], .list []])]

def raceHash : Hash := hashOfNat 0xf017e0327bce728987d08311b0c48fadd1e48be3b07b3931b1e1fb5b1db0a1ad

def raceMessage : ConfigMessage :=
  { data := raceData, diff := raceDiff, laggedDiffs := [], unknown := []
    seqnoHash := ⟨1, raceHash⟩, verifiedSignature := none, unmerged := none, verifier := none
    signer := none, lag := 5 }

def raceBase : AnyMessage := .immutable raceMessage

def raceInsert : Dict := [(bytes "s", .set [.int 1, .int 2])]

/-- The other device removes the only element there is, so the set is pruned. -/
def raceRemove : Dict := []

def raceAssign : Dict := [(bytes "a", .scalar (.int 5)), (bytes "s", .set [.int 1])]

def raceEnv : Env :=
  Env.bencode (tableHash
    [(messageBytes 2 raceInsert [(⟨1, raceHash⟩, raceDiff)]
        [(bytes "s", .list [.list [.int 2], .list []])],
      hashOfNat 0x551f539ffb48378efff9241edbaec3c2f74e1140c97af1643cf2b932039f76c9),
     (messageBytes 2 raceRemove [(⟨1, raceHash⟩, raceDiff)]
        [(bytes "s", .list [.list [], .list [.int 1]])],
      hashOfNat 0x7a39fa8e81c8b3d6e7234668b40ad2bfd19efc5187786949c791edd287b80508),
     (messageBytes 2 raceAssign [(⟨1, raceHash⟩, raceDiff)] [(bytes "a", .str [])],
      hashOfNat 0x0d8efa7aca4f478c6bafadfa3f73c80695b038f75e20eec621270def3db32fdf)])

lemma raceBase_wellFormed : raceBase.WellFormed where
  seqno := by decide
  dataWF := by simp [raceMessage, raceData, Dict.WF, DictValue.WF]
  dataPruned := by simp [raceMessage, raceData, Dict.Pruned, DictValue.Pruned]
  diff := by
    have : raceDiff = addedDict raceData := rfl
    show DiffWF raceDiff
    exact (addedDict_wf raceData (by simp [raceData, Dict.WF, DictValue.WF])).1
  lagged := ⟨sorted_nil, by simp [raceMessage], by simp [raceMessage]⟩
  unknownSorted := sorted_nil
  unknownWF := by simp [raceMessage]
  unknownKey := by simp [raceMessage]

lemma raceInsert_raceRemove_disjoint : DisjointEdits raceData raceInsert raceRemove where
  disjoint := by
    rintro ⟨p, e⟩ ⟨h1, h2⟩
    cases p with
    | nil => exact not_changed_nil _ _ _ h1
    | cons k p =>
      by_cases hk : bytes "s" = k
      · subst hk
        cases p with
        | cons k' p => simp [Changed, leaf, raceInsert, raceData] at h1
        | nil =>
          cases e with
          | none => simp [Changed, leaf, raceInsert, raceData] at h1
          | some x =>
            by_cases hx : x = .int 1
            · simp [Changed, leaf, raceInsert, raceData, hx] at h1
            · simp [Changed, leaf, raceRemove, raceData, hx] at h2
      · refine not_changed_of_find?_eq ?_ h1
        rw [raceInsert, raceData, find?_cons_ne hk, find?_cons_ne hk]
  typesA := by
    refine sameKinds_of_find? fun k v w hv hw => ?_
    by_cases hk : bytes "s" = k
    · subst hk
      cases hv
      cases hw
      exact .inr ⟨rfl, by simp [kind]⟩
    · rw [raceData, find?_cons_ne hk] at hv
      cases hv
  typesB := by
    refine sameKinds_of_find? fun k v w hv hw => ?_
    cases hw

lemma not_mergesBoth_of_isEmpty {L : List Bytes}
    (h : (mergeConfigs raceEnv L none none 5 skipHandler).toOption.map
      (fun r => r.1.data.isEmpty) = some true) :
    ¬MergesBoth raceEnv L none none 5 skipHandler raceData raceInsert raceRemove := by
  rintro ⟨r, hr, hboth⟩
  rw [hr] at h
  have hnil : r.1.data = [] := by simpa [Except.toOption] using h
  have h2 := hboth ⟨[bytes "s"], some (.int 2)⟩
  rw [hnil] at h2
  exact absurd h2 (by decide)

/-- **An element inserted by one device is lost when the other device concurrently removes the
rest of the set**, in either order of arrival. -/
theorem setRace_loses_element : DisjointEdits raceBase.refreshed.data raceInsert raceRemove ∧
    raceEnv.blake2b (raceBase.publish raceEnv raceInsert) <
      raceEnv.blake2b (raceBase.publish raceEnv raceRemove) ∧
    ¬MergesBoth raceEnv [raceBase.publish raceEnv raceInsert, raceBase.publish raceEnv raceRemove]
      none none 5 skipHandler raceData raceInsert raceRemove ∧
    ¬MergesBoth raceEnv [raceBase.publish raceEnv raceRemove, raceBase.publish raceEnv raceInsert]
      none none 5 skipHandler raceData raceInsert raceRemove :=
  ⟨raceInsert_raceRemove_disjoint, by decide +kernel,
    not_mergesBoth_of_isEmpty (by decide +kernel), not_mergesBoth_of_isEmpty (by decide +kernel)⟩

lemma raceAssign_raceInsert_disjoint : DisjointEdits raceData raceAssign raceInsert where
  disjoint := by
    rintro ⟨p, e⟩ ⟨h1, h2⟩
    cases p with
    | nil => exact not_changed_nil _ _ _ h1
    | cons k p =>
      by_cases hk : bytes "s" = k
      · subst hk
        refine not_changed_of_find?_eq ?_ h1
        rw [raceAssign, raceData, find?_cons_ne (by decide)]
      · refine not_changed_of_find?_eq ?_ h2
        rw [raceInsert, raceData, find?_cons_ne hk, find?_cons_ne hk]
  typesA := by
    refine sameKinds_of_find? fun k v w hv hw => ?_
    by_cases hk : bytes "s" = k
    · subst hk
      rw [raceAssign, find?_cons_ne (by decide)] at hw
      rw [raceData, hw] at hv
      exact .inl (Option.some.inj hv).symm
    · rw [raceData, find?_cons_ne hk] at hv
      cases hv
  typesB := raceInsert_raceRemove_disjoint.typesA

/-- The hypotheses of `merge_disjoint_edits_iff` are met by the insertion and the assignment. -/
theorem merge_disjoint_edits_race :
    MergesBoth raceEnv [raceBase.publish raceEnv raceAssign, raceBase.publish raceEnv raceInsert]
      none none 5 skipHandler raceData (prune raceAssign) (prune raceInsert) ↔
      raceBase.publish raceEnv raceAssign = raceBase.publish raceEnv raceInsert ∨
        Mergeable (raceBase.ancestors raceEnv) raceData (prune raceAssign) (prune raceInsert) := by
  refine merge_disjoint_edits_iff raceEnv none none skipHandler raceBase raceAssign raceInsert _
    raceBase_wellFormed (by decide) (by decide) ?_ ?_ raceAssign_raceInsert_disjoint
    (signatureAccepted_none _ _ _) (signatureAccepted_none _ _ _) (by simp) (by decide +kernel)
    ?_ (.inl rfl)
  · simp [raceAssign, Dict.WF, DictValue.WF]
    decide
  · simp [raceInsert, Dict.WF, DictValue.WF]
  · intro h
    exact absurd h (by decide +kernel)

end Bchat.Config
