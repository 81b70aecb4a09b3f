import Bchat.Properties.BaseMerge
import Bchat.Properties.Replay

/-!
# The replay window

A merge with the result seqno `N` is documented to replay only diffs with a seqno of at least `N -
lag`. The constructor replays every lagged diff of every surviving message, and those of a message
behind the highest one can be older.
-/

namespace Bchat.Config

open Bencode List SortedMap ConfigMessage

variable {lag : Int} {configs : List ConfigMessage}

def windowStart (lag : Int) (configs : List ConfigMessage) : Int := maxSeqno configs + 1 - lag

def ConfigMessage.withoutOlder (start : Int) (c : ConfigMessage) : ConfigMessage :=
  { c with laggedDiffs := c.laggedDiffs.filter (fun p => start ≤ p.1.seqno) }

def replayed (lag : Int) (configs : List ConfigMessage) : Replay :=
  buildReplay (sortDescending (survivors lag configs))

/-! ## The survivors -/

lemma maxSeqno_withoutOlder (start : Int) (configs : List ConfigMessage) :
    maxSeqno (configs.map (withoutOlder start)) = maxSeqno configs := by
  unfold maxSeqno
  rw [foldl_map]
  rfl

lemma redundant_withoutOlder (m : ConfigMessage) (i : Nat) :
    (isRedundant (configs.map (withoutOlder (windowStart lag configs)))
        (m.withoutOlder (windowStart lag configs)) i ||
      decide (m.seqno + lag ≤ maxSeqno configs)) =
    (isRedundant configs m i || decide (m.seqno + lag ≤ maxSeqno configs)) := by
  by_cases hold : m.seqno + lag ≤ maxSeqno configs
  · simp [hold]
  have hkey : decide (windowStart lag configs ≤ m.seqnoHash.seqno) = true := by
    have hseq : m.seqno = m.seqnoHash.seqno := rfl
    unfold windowStart
    exact decide_eq_true (by omega)
  have hfind : ∀ c : ConfigMessage,
      find? m.seqnoHash (c.withoutOlder (windowStart lag configs)).laggedDiffs =
        find? m.seqnoHash c.laggedDiffs := by
    intro c
    have hf := find?_filter_key
      (fun s : SeqnoHash => decide (windowStart lag configs ≤ s.seqno)) m.seqnoHash c.laggedDiffs
    rwa [if_pos hkey] at hf
  unfold isRedundant
  rw [zipIdx_map, any_map]
  congr 1
  refine any_congr rfl fun x => ?_
  obtain ⟨c, j⟩ := x
  show (decide (i ≠ j) && ((find? m.seqnoHash
      (c.withoutOlder (windowStart lag configs)).laggedDiffs).isSome || _)) = _
  rw [hfind c]
  rfl

lemma markRedundant_withoutOlder (lag : Int) (configs : List ConfigMessage) :
    markRedundant lag (configs.map (withoutOlder (windowStart lag configs))) =
      (markRedundant lag configs).map
        (fun x => (x.1.withoutOlder (windowStart lag configs), x.2)) := by
  unfold markRedundant
  rw [zipIdx_map, map_map, map_map, maxSeqno_withoutOlder]
  refine map_congr_left fun x _ => ?_
  obtain ⟨m, i⟩ := x
  exact congrArg (Prod.mk _) (redundant_withoutOlder m i)

lemma survivors_withoutOlder (lag : Int) (configs : List ConfigMessage) :
    survivors lag (configs.map (withoutOlder (windowStart lag configs))) =
      (survivors lag configs).map (withoutOlder (windowStart lag configs)) := by
  unfold survivors survivorIdx
  rw [markRedundant_withoutOlder, zipIdx_map, filter_map, map_map, map_map]
  rfl

lemma windowStart_le {c : ConfigMessage} (h : c ∈ survivors lag configs) :
    windowStart lag configs ≤ c.seqno := by
  obtain ⟨⟨⟨c', b⟩, i⟩, hmem, rfl⟩ := mem_map.mp h
  obtain ⟨-, -, -, hold⟩ := mem_survivorIdx.mp hmem
  unfold TooOld at hold
  unfold windowStart
  show _ ≤ c'.seqno
  omega

/-! ## The replay -/

lemma sortDescending_withoutOlder (start : Int) (configs : List ConfigMessage) :
    sortDescending (configs.map (withoutOlder start)) =
      (sortDescending configs).map (withoutOlder start) :=
  (map_insertionSort (fun a b : ConfigMessage => b.seqnoHash ≤ a.seqnoHash)
    (fun a b : ConfigMessage => b.seqnoHash ≤ a.seqnoHash) (withoutOlder start) configs
    fun _ _ _ _ => Iff.rfl).symm

lemma replayOf_withoutOlder {start : Int} {c : ConfigMessage} (h : start ≤ c.seqno) :
    replayOf (c.withoutOlder start) = (replayOf c).filter (fun p => start ≤ p.1.seqno) := by
  have hown : start ≤ c.seqnoHash.seqno := h
  unfold replayOf
  rw [filter_cons_of_pos (by simpa using hown), filter_map]
  rfl

lemma buildReplay_withoutOlder {start : Int} {configs : List ConfigMessage}
    (h : ∀ c ∈ configs, start ≤ c.seqno) : buildReplay (configs.map (withoutOlder start)) =
      (buildReplay configs).filter (fun p => start ≤ p.1.seqno) := by
  have hflat : (configs.map (withoutOlder start)).flatMap replayOf =
      (configs.flatMap replayOf).filter (fun p => start ≤ p.1.seqno) := by
    rw [flatMap_map, filter_flatMap]
    exact flatMap_congr fun c hc => replayOf_withoutOlder (h c hc)
  refine ext (sorted_buildReplay _) ((sorted_buildReplay _).filter _) fun s => ?_
  have hfilter : ∀ r : Replay, find? s (r.filter (fun p => start ≤ p.1.seqno)) =
      if start ≤ s.seqno then find? s r else none := fun r => by
    simpa using find?_filter_key (fun s : SeqnoHash => decide (start ≤ s.seqno)) s r
  rw [find?_buildReplay, hflat, hfilter, hfilter, find?_buildReplay]

lemma buildReplay_split (start : Int) (configs : List ConfigMessage) :
    buildReplay configs = (buildReplay configs).filter (fun p => p.1.seqno < start) ++
      (buildReplay configs).filter (fun p => start ≤ p.1.seqno) := by
  have hdown : ∀ a b : SeqnoHash, a < b → decide (b.seqno < start) = true →
      decide (a.seqno < start) = true := by
    intro a b hab hb
    have hle := SeqnoHash.seqno_le_of_le hab.le
    have hb' := of_decide_eq_true hb
    exact decide_eq_true (by omega)
  have hsplit := (sorted_buildReplay configs).filter_append_filter hdown
  simpa [← decide_not] using hsplit.symm

lemma replayed_withoutOlder (lag : Int) (configs : List ConfigMessage) :
    replayed lag (configs.map (withoutOlder (windowStart lag configs))) =
      (replayed lag configs).filter (fun p => windowStart lag configs ≤ p.1.seqno) := by
  unfold replayed
  rw [survivors_withoutOlder, sortDescending_withoutOlder, buildReplay_withoutOlder]
  exact fun c hc => windowStart_le (mem_sortDescending.mp hc)

/-! ## What a replay leaves behind -/

lemma replayLeaf_of_keep {l : Leaf} {r : Replay} (h : ∀ p ∈ r, actOf p.2.2 p.2.1 l = .keep)
    (o : Option Scalar) : replayLeaf l r o = o := by
  induction r generalizing o with
  | nil => rfl
  | cons p r ih =>
    obtain ⟨hp, hr⟩ := forall_mem_cons.mp h
    rw [replayLeaf_cons, hp, Act.apply_keep, ih hr]

lemma replayLeaf_of_act {l : Leaf} {r : Replay} (h : ∃ p ∈ r, actOf p.2.2 p.2.1 l ≠ .keep)
    (o o' : Option Scalar) : replayLeaf l r o = replayLeaf l r o' := by
  induction r generalizing o o' with
  | nil => simp at h
  | cons p r ih =>
    rw [replayLeaf_cons, replayLeaf_cons]
    cases hp : actOf p.2.2 p.2.1 l with
    | clear | put a => rfl
    | keep =>
      obtain ⟨q, hq, hact⟩ := h
      rcases mem_cons.mp hq with rfl | hq
      · exact absurd hp hact
      · exact ih ⟨q, hq, hact⟩ o o'

lemma replayLeaf_append_eq_iff (l : Leaf) (older newer : Replay) (o : Option Scalar) :
    replayLeaf l (older ++ newer) o = replayLeaf l newer o ↔
      (∃ p ∈ newer, actOf p.2.2 p.2.1 l ≠ .keep) ∨ replayLeaf l older o = o := by
  rw [replayLeaf_append]
  by_cases hact : ∃ p ∈ newer, actOf p.2.2 p.2.1 l ≠ .keep
  · simp only [hact, true_or, iff_true]
    exact replayLeaf_of_act hact _ _
  · have hkeep : ∀ p ∈ newer, actOf p.2.2 p.2.1 l = .keep := by simpa using hact
    simp only [hact, false_or, replayLeaf_of_keep hkeep]

lemma replayLeaf_twice (l : Leaf) (r : Replay) (o : Option Scalar) :
    replayLeaf l r (replayLeaf l r o) = replayLeaf l r o := by
  by_cases hact : ∃ p ∈ r, actOf p.2.2 p.2.1 l ≠ .keep
  · exact replayLeaf_of_act hact _ _
  · exact replayLeaf_of_keep (by simpa using hact) _

/-! ## The merged data -/

section

variable {env : Env} {verifier : Option Verifier} {signer : Option Signer}

lemma mergeAccepted_of_resolve (hlen : (survivors lag configs).length ≠ 1)
    (hvs : ¬(verifier.isSome ∧ signer = none)) {best : ConfigMessage} {others : List ConfigMessage}
    (hsort : sortDescending (survivors lag configs) = best :: others) {d : Dict}
    (hd : applyReplay (replayed lag configs) best.data = .ok d) :
    ∃ m, mergeAccepted env verifier signer lag configs = .ok m ∧ m.merged = true ∧
      m.data = prune d := by
  have hd' : applyReplay (buildReplay (best :: others)) best.data = .ok d := by
    rw [← hsort]
    exact hd
  rw [mergeAccepted_resolve env hlen hvs, resolve, hsort]
  simp only [hd', ok_bind]
  exact ⟨_, rfl, rfl, rfl⟩

lemma survivors_wellFormed {handler : Nat → Err → Except Err Unit} {L : List Bytes}
    {bad : List Nat} (hparse : parseAll env verifier signer lag handler 0 L = .ok (configs, bad)) :
    ∀ c ∈ survivors lag configs, c.WellFormed := by
  intro c hc
  obtain ⟨b, -, hacc⟩ := accepts_of_mem_parseAll hparse c (mem_of_mem_survivors hc)
  exact (parse_inv hacc).wf

lemma replayed_diffWF (h : ∀ c ∈ survivors lag configs, c.WellFormed) :
    ∀ p ∈ replayed lag configs, DiffWF p.2.2 := by
  intro p hp
  obtain ⟨c, hc, hmem⟩ := mem_buildReplay hp
  have hwf := h c (mem_sortDescending.mp hc)
  rcases mem_cons.mp hmem with rfl | hmem
  · exact hwf.diff
  · obtain ⟨q, hq, rfl⟩ := mem_map.mp hmem
    exact hwf.lagged.diff q hq

/-- **Replaying the diffs of a merge a second time changes nothing**, for all messages and data. -/
theorem replay_idempotent (lag : Int) (configs : List {c : ConfigMessage // c.WellFormed})
    (data : {d : Dict // Dict.WF d}) :
    let r := replayed lag (configs.map Subtype.val)
    (applyReplay r data.1 >>= applyReplay r).map prune = (applyReplay r data.1).map prune := by
  intro r
  have hdiff : ∀ p ∈ r, DiffWF p.2.2 := replayed_diffWF fun c hc => by
    obtain ⟨⟨c, hwf⟩, -, rfl⟩ := mem_map.mp (mem_of_mem_survivors hc)
    exact hwf
  cases h : applyReplay r data.1 with
  | error e => rfl
  | ok once =>
    have happ := applies_of_applyReplay h
    obtain ⟨d, hd, hwf, hleaf⟩ := applyReplay_spec hdiff happ data.1
    cases h.symm.trans hd
    obtain ⟨twice, h2, hwf2, hleaf2⟩ := applyReplay_spec hdiff happ once
    rw [ok_bind, h2]
    refine congrArg Except.ok
        ((prune_eq_prune_iff (hwf data.2) (hwf2 (hwf data.2))).mpr fun l => ?_)
    rw [hleaf2, hleaf, replayLeaf_twice]

/-- **Older diffs make no difference to a merge exactly if every leaf is written again within the
window or has, after the older diffs, the value it has in the highest message.** -/
theorem window_respected_iff (L : List Bytes) (handler : Nat → Err → Except Err Unit)
    (bad : List Nat) (best m : ConfigMessage)
    (hparse : parseAll env verifier signer lag handler 0 L = .ok (configs, bad))
    (hmerge : mergeConfigs env L verifier signer lag handler = .ok (m, bad))
    (hmerged : m.merged = true) (hbest : Highest lag configs best) :
    m.seqno - lag = windowStart lag configs ∧ ∃ m', mergeAccepted env verifier signer lag
        (configs.map (ConfigMessage.withoutOlder (windowStart lag configs))) = .ok m' ∧
      m'.merged = true ∧ (m'.data = m.data ↔ ∀ l : Leaf,
        (∃ p ∈ replayed lag configs, windowStart lag configs ≤ p.1.seqno ∧
          actOf p.2.2 p.2.1 l ≠ .keep) ∨ replayLeaf l ((replayed lag configs).filter
          (fun p => p.1.seqno < windowStart lag configs)) (leaf best.data l) =
              leaf best.data l) := by
  obtain ⟨configs', hparse', -, hm⟩ := mergeConfigs_inv hmerge
  rw [hparse] at hparse'
  cases hparse'
  obtain ⟨hlen, hvs, hres⟩ := mergeAccepted_merged_inv hm hmerged
  obtain ⟨best', others, hsort, hr⟩ := resolve_inv hres
  obtain rfl := hbest.unique (Highest.of_sortDescending hsort)
  refine ⟨by rw [hr.seqno, windowStart], ?_⟩
  have hwf := survivors_wellFormed hparse
  have hdata := (hwf best hbest.survives).dataWF
  have hdiffs := replayed_diffWF hwf
  -- the replay as it is
  obtain ⟨d, hd, hmdata⟩ := hr.data
  rw [← hsort] at hd
  have happ : ∀ p ∈ replayed lag configs, AppliesDict p.2.2 p.2.1 := applies_of_applyReplay hd
  obtain ⟨d0, hd0, hdwf, hleaf⟩ := applyReplay_spec hdiffs happ best.data
  obtain rfl : d = d0 := Except.ok.inj (hd.symm.trans hd0)
  -- and its part in the window
  have hsub : ∀ p ∈ (replayed lag configs).filter
      (fun p => decide (windowStart lag configs ≤ p.1.seqno)), p ∈ replayed lag configs :=
    fun p hp => (mem_filter.mp hp).1
  obtain ⟨d', hd', hdwf', hleaf'⟩ := applyReplay_spec (fun p hp => hdiffs p (hsub p hp))
    (fun p hp => happ p (hsub p hp)) best.data
  rw [← replayed_withoutOlder] at hd'
  have hlen' : (survivors lag
      (configs.map (withoutOlder (windowStart lag configs)))).length ≠ 1 := by
    rw [survivors_withoutOlder, length_map]
    exact hlen
  have hsort' : sortDescending (survivors lag
      (configs.map (withoutOlder (windowStart lag configs)))) =
        best.withoutOlder (windowStart lag configs) ::
          others.map (withoutOlder (windowStart lag configs)) := by
    rw [survivors_withoutOlder, sortDescending_withoutOlder, hsort, map_cons]
  obtain ⟨m', hm', hmerged', hmdata'⟩ := mergeAccepted_of_resolve hlen' hvs hsort' hd'
  refine ⟨m', hm', hmerged', ?_⟩
  rw [hmdata, hmdata', prune_eq_prune_iff (hdwf hdata) (hdwf' hdata)]
  refine forall_congr' fun l => ?_
  have hsplit : replayed lag configs =
      (replayed lag configs).filter (fun p => p.1.seqno < windowStart lag configs) ++
        (replayed lag configs).filter (fun p => windowStart lag configs ≤ p.1.seqno) :=
    buildReplay_split _ _
  have happend := replayLeaf_append_eq_iff l
    ((replayed lag configs).filter (fun p => p.1.seqno < windowStart lag configs))
    ((replayed lag configs).filter (fun p => windowStart lag configs ≤ p.1.seqno))
    (leaf best.data l)
  rw [← hsplit] at happend
  rw [hleaf, hleaf', happend]
  simp only [mem_filter, decide_eq_true_eq, and_assoc]

end

/-! ## A key that comes back -/

/-- The fifth edit of a device that deleted the key `a` of `first` before them. -/
def latest : Bytes :=
  messageBytes 7 [(bytes "b", .scalar (.int 5))]
    [(⟨3, hashOfNat 0x2cb1bac01a52eb28d16b48bfa1a6bdcc727f5a255c7616bbc0328ff9c2641847⟩,
        [(bytes "b", .str [])]),
      (⟨4, hashOfNat 0xa026eced92faef1def6d1e8941ee7940db79b13e90329fc180ff195b39b1c915⟩,
        [(bytes "b", .str [])]),
      (⟨5, hashOfNat 0xb8ab067601e589bc8881be049f7334b8a1a2cbc540b97312108174cf30e8e49c⟩,
        [(bytes "b", .str [])]),
      (⟨6, hashOfNat 0x2f3d3c95fc534c56e2ce4ebefb7d7f6f4f97a4579a0bc0d2b445ce87a878b8bf⟩,
        [(bytes "b", .str [])])]
    [(bytes "b", .str [])]

def latestHash : Hash :=
  hashOfNat 0x4e61af58b1f506f0412233ea0d9850e2835100781fec041d81864bb157fff0f0

/-- The second edit of a device that edited `first` as well and did not touch `a`. -/
def behind : Bytes :=
  messageBytes 3 [(bytes "a", .scalar (.int 1)), (bytes "c", .scalar (.int 2))]
    [(⟨1, firstHash⟩, [(bytes "a", .str [])]),
      (⟨2, hashOfNat 0x3be42a286fa47af76130819950067e6d0b7f6e81112a373322044eea8a80650a⟩,
        [(bytes "c", .str [])])]
    [(bytes "c", .str [])]

def behindHash : Hash :=
  hashOfNat 0xe2f188d11d9931582acdbcf6ca40f6860c6f2bf3fa03de6bfc81053c21a38067

def quiet : Bytes :=
  messageBytes 3 [(bytes "c", .scalar (.int 2))]
    [(⟨2, hashOfNat 0xc022e9787de96fe89e52557d3707bd0a2c272947b5c6e973e89a23f9a2f0ff31⟩, [])]
    [(bytes "c", .str [])]

def quietHash : Hash := hashOfNat 0x3bec7fc5da7acf8c166ee581b6ba92296e9c39db4c06ffa220ecd0d82af114aa

def windowEnv : Env :=
  Env.bencode (tableHash [(latest, latestHash), (behind, behindHash), (quiet, quietHash)])

lemma actOf_nil (source : Dict) (k : Bytes) (p : List Bytes) (e : Option Scalar) :
    actOf [] source ⟨k :: p, e⟩ = .keep := by
  simp [actOf, act]

lemma actOf_root (diff : BtDict) (source : Dict) (e : Option Scalar) :
    actOf diff source ⟨[], e⟩ = .clear := by
  cases e <;> simp [actOf, act]

/-- The hypotheses are met by a conflict with a message that brings an older, empty diff. -/
theorem window_respected_quiet :
    ∃ configs m m', parseAll windowEnv none none 5 skipHandler 0 [latest, quiet] =
        .ok (configs, []) ∧
      mergeConfigs windowEnv [latest, quiet] none none 5 skipHandler = .ok (m, []) ∧
      (∃ c ∈ configs, ∃ p ∈ c.laggedDiffs, p.1.seqno < m.seqno - 5) ∧
      mergeAccepted windowEnv none none 5
        (configs.map (ConfigMessage.withoutOlder (m.seqno - 5))) = .ok m' ∧ m'.data = m.data := by
  have hcheck : mergeCheck windowEnv none none 5 [latest, quiet] (fun configs _ m =>
      configs.any (fun c => c.laggedDiffs.any (fun p => p.1.seqno < m.seqno - 5)) &&
      ((replayed 5 configs).filter (fun p => p.1.seqno < windowStart 5 configs)).all
        (fun p => p.2.2.isEmpty) &&
      (replayed 5 configs).any (fun p => windowStart 5 configs ≤ p.1.seqno)) = true := by
    decide +kernel
  obtain ⟨configs, best, m, hp, hm, hmerged, hbest, hc⟩ := exists_of_mergeCheck hcheck
  simp only [Bool.and_eq_true, any_eq_true, all_eq_true, decide_eq_true_eq, List.isEmpty_iff] at hc
  obtain ⟨⟨holder, hempty⟩, q, hq, hstart⟩ := hc
  obtain ⟨hseqno, m', hm', -, hiff⟩ := window_respected_iff _ _ [] best m hp hm hmerged hbest
  refine ⟨configs, m, m', hp, hm, holder, hseqno ▸ hm', hiff.mpr ?_⟩
  rintro ⟨path, e⟩
  cases path with
  | nil => exact Or.inl ⟨q, hq, hstart, by rw [actOf_root]; simp⟩
  | cons k path =>
    refine Or.inr (replayLeaf_of_keep (fun p hp => ?_) _)
    rw [hempty p hp, actOf_nil]

/-- The highest message has no key `a`; the merge with a message that is four updates behind brings
it back, and would not without the diffs before the window. -/
theorem merge_replays_older_diff :
    ∃ configs best m m', parseAll windowEnv none none 5 skipHandler 0 [latest, behind] =
        .ok (configs, []) ∧
      mergeConfigs windowEnv [latest, behind] none none 5 skipHandler = .ok (m, []) ∧
      m.merged = true ∧ m.seqno = 8 ∧ Highest 5 configs best ∧ mergeAccepted windowEnv none none 5
        (configs.map (ConfigMessage.withoutOlder (m.seqno - 5))) = .ok m' ∧
      leaf best.data ⟨[bytes "a"], none⟩ = none ∧ leaf m'.data ⟨[bytes "a"], none⟩ = none ∧
      leaf m.data ⟨[bytes "a"], none⟩ = some (.int 1) := by
  have hcheck : mergeCheck windowEnv none none 5 [latest, behind] (fun configs best m =>
      m.seqno = 8 && leaf best.data ⟨[bytes "a"], none⟩ = none &&
      leaf m.data ⟨[bytes "a"], none⟩ = some (.int 1) &&
      (mergeAccepted windowEnv none none 5 (configs.map (withoutOlder (m.seqno - 5)))).toOption.any
          (fun m' => leaf m'.data ⟨[bytes "a"], none⟩ = none)) = true := by
    decide +kernel
  obtain ⟨configs, best, m, hp, hm, hmerged, hbest, hc⟩ := exists_of_mergeCheck hcheck
  simp only [Bool.and_eq_true, decide_eq_true_eq, Option.any_eq_true] at hc
  obtain ⟨⟨⟨hseqno, hnone⟩, hsome⟩, m', hm', hnone'⟩ := hc
  refine ⟨configs, best, m, m', hp, hm, hmerged, hseqno, hbest, ?_, hnone, hnone', hsome⟩
  cases hr : mergeAccepted windowEnv none none 5 (configs.map (withoutOlder (m.seqno - 5))) with
  | error e => rw [hr] at hm'; cases hm'
  | ok r => rw [hr] at hm'; exact congrArg _ (Option.some.inj hm')

end Bchat.Config
