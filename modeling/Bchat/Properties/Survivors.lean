import Bchat.Config.Merge

/-!
# The messages that survive redundancy pruning

The merging constructor marks messages by position. Without positions: on a coherent list a message
survives exactly when it is `Live`, and at most once.
-/

namespace Bchat.Config

open List

variable {configs : List ConfigMessage} {lag : Int} {m : ConfigMessage} {i : Nat}

/-! ## The highest seqno -/

lemma maxSeqno_eq (configs : List ConfigMessage) :
    maxSeqno configs = (configs.map ConfigMessage.seqno).foldl max (-2 ^ 63) := by
  unfold maxSeqno
  rw [foldl_map]
  congr 1
  funext top c
  split <;> omega

lemma le_foldl_max (l : List Int) (a : Int) : a ≤ l.foldl max a := by
  induction l generalizing a with
  | nil => exact le_refl a
  | cons x rest ih => exact (le_max_left a x).trans (ih (max a x))

lemma le_foldl_max_of_mem {l : List Int} {x : Int} (a : Int) (h : x ∈ l) : x ≤ l.foldl max a := by
  induction l generalizing a with
  | nil => simp at h
  | cons y rest ih =>
    rcases mem_cons.mp h with rfl | h
    · exact (le_max_right a x).trans (le_foldl_max rest (max a x))
    · exact ih (max a y) h

lemma foldl_max_le {l : List Int} {a b : Int} (ha : a ≤ b) (hl : ∀ x ∈ l, x ≤ b) :
    l.foldl max a ≤ b := by
  induction l generalizing a with
  | nil => exact ha
  | cons y rest ih =>
    exact ih (max_le ha (hl y mem_cons_self)) fun x hx => hl x (mem_cons_of_mem y hx)

lemma le_maxSeqno {c : ConfigMessage} (h : c ∈ configs) : c.seqno ≤ maxSeqno configs := by
  rw [maxSeqno_eq]
  exact le_foldl_max_of_mem _ (mem_map_of_mem h)

lemma maxSeqno_le {b : Int} (hb : -2 ^ 63 ≤ b) (h : ∀ c ∈ configs, c.seqno ≤ b) :
    maxSeqno configs ≤ b := by
  rw [maxSeqno_eq]
  refine foldl_max_le hb fun x hx => ?_
  obtain ⟨c, hc, rfl⟩ := mem_map.mp hx
  exact h c hc

lemma int64_min_le_maxSeqno (configs : List ConfigMessage) : -2 ^ 63 ≤ maxSeqno configs := by
  rw [maxSeqno_eq]
  exact le_foldl_max _ _

lemma exists_maxSeqno (hmin : ∀ c ∈ configs, -2 ^ 63 ≤ c.seqno) (hne : configs ≠ []) :
    ∃ c ∈ configs, c.seqno = maxSeqno configs := by
  by_contra hno
  push Not at hno
  have hlt : ∀ c ∈ configs, c.seqno ≤ maxSeqno configs - 1 := fun c hc => by
    have h1 := le_maxSeqno hc
    have h2 := hno c hc
    omega
  obtain ⟨c, hc⟩ := exists_mem_of_ne_nil configs hne
  have hle := maxSeqno_le ((hmin c hc).trans (hlt c hc)) hlt
  omega

/-! ## Liveness -/

def Included (configs : List ConfigMessage) (s : SeqnoHash) : Prop :=
  ∃ c ∈ configs, (SortedMap.find? s c.laggedDiffs).isSome

def TooOld (lag : Int) (configs : List ConfigMessage) (m : ConfigMessage) : Prop :=
  m.seqno + lag ≤ maxSeqno configs

/-- What it takes to survive, said without positions. -/
structure Live (lag : Int) (configs : List ConfigMessage) (m : ConfigMessage) : Prop where
  mem : m ∈ configs
  notIncluded : ¬Included configs m.seqnoHash
  notTooOld : ¬TooOld lag configs m

/-- What parsing makes sure of, together with the absence of hash collisions. -/
structure Coherent (configs : List ConfigMessage) : Prop where
  lagged_lt : ∀ c ∈ configs, ∀ p ∈ c.laggedDiffs, p.1.seqno < c.seqno
  int64_min_le : ∀ c ∈ configs, -2 ^ 63 ≤ c.seqno
  eq_of_seqnoHash : ∀ a ∈ configs, ∀ b ∈ configs, a.seqnoHash = b.seqnoHash → a = b

lemma Coherent.live_of_maxSeqno (h : Coherent configs) (hlag : 1 ≤ lag) (hm : m ∈ configs)
    (hmax : m.seqno = maxSeqno configs) : Live lag configs m := by
  refine ⟨hm, ?_, ?_⟩
  · rintro ⟨c, hc, hs⟩
    obtain ⟨p, hp, hk⟩ := SortedMap.find?_isSome_iff.mp hs
    have hlt : m.seqno < c.seqno := by
      have hp' := h.lagged_lt c hc p hp
      rwa [hk] at hp'
    have hle := le_maxSeqno hc
    omega
  · unfold TooOld
    omega

lemma Coherent.exists_live (h : Coherent configs) (hlag : 1 ≤ lag) (hne : configs ≠ []) :
    ∃ m, Live lag configs m := by
  obtain ⟨m, hm, hmax⟩ := exists_maxSeqno h.int64_min_le hne
  exact ⟨m, h.live_of_maxSeqno hlag hm hmax⟩

/-! ## The survivors of the constructor -/

/-- The unmarked messages with their flags and indices. -/
def survivorIdx (lag : Int) (configs : List ConfigMessage) : List ((ConfigMessage × Bool) × Nat) :=
  (markRedundant lag configs).zipIdx.filter (fun p => !p.1.2)

def survivors (lag : Int) (configs : List ConfigMessage) : List ConfigMessage :=
  (survivorIdx lag configs).map (fun p => p.1.1)

lemma mem_zipIdx_markRedundant {b : Bool} :
    ((m, b), i) ∈ (markRedundant lag configs).zipIdx ↔ configs[i]? = some m ∧
      b = (isRedundant configs m i || decide (m.seqno + lag ≤ maxSeqno configs)) := by
  rw [mem_zipIdx_iff_getElem?]
  unfold markRedundant
  rw [getElem?_map, getElem?_zipIdx]
  cases configs[i]? with
  | none => simp
  | some c =>
    simp only [Option.map_some, Nat.zero_add, Option.some.injEq, Prod.mk.injEq]
    constructor <;> rintro ⟨rfl, rfl⟩
    all_goals exact ⟨rfl, rfl⟩

lemma isRedundant_eq_false_iff :
    isRedundant configs m i = false ↔ ∀ j c, configs[j]? = some c → i ≠ j →
      SortedMap.find? m.seqnoHash c.laggedDiffs = none ∧ (j < i → c.seqnoHash ≠ m.seqnoHash) := by
  unfold isRedundant
  rw [any_eq_false]
  constructor
  · intro h j c hj hij
    have hjc := h (c, j) (mem_zipIdx_iff_getElem?.mpr hj)
    simpa [hij] using hjc
  rintro h ⟨c, j⟩ hmem
  by_cases hij : i = j
  · simp [hij]
  · have hjc := h j c (mem_zipIdx_iff_getElem?.mp hmem) hij
    simpa [hij] using hjc

lemma mem_survivorIdx {b : Bool} :
    ((m, b), i) ∈ survivorIdx lag configs ↔ b = false ∧ configs[i]? = some m ∧
      isRedundant configs m i = false ∧ ¬TooOld lag configs m := by
  unfold survivorIdx TooOld
  rw [mem_filter, mem_zipIdx_markRedundant]
  constructor
  · rintro ⟨⟨hm, hb⟩, hf⟩
    have hbf : b = false := by simpa using hf
    rw [hbf] at hb
    have := Bool.or_eq_false_iff.mp hb.symm
    exact ⟨hbf, hm, this.1, of_decide_eq_false this.2⟩
  rintro ⟨hb, hm, hr, ho⟩
  refine ⟨⟨hm, ?_⟩, by simp [hb]⟩
  rw [hb, hr, decide_eq_false ho]
  rfl

lemma mem_of_mem_survivors (h : m ∈ survivors lag configs) : m ∈ configs := by
  obtain ⟨⟨⟨m', b⟩, i⟩, hidx, rfl⟩ := mem_map.mp h
  exact mem_of_getElem? (mem_survivorIdx.mp hidx).2.1

lemma mem_survivors (h : Coherent configs) : m ∈ survivors lag configs ↔ Live lag configs m := by
  unfold survivors
  rw [mem_map]
  constructor
  · rintro ⟨⟨⟨m', b⟩, i⟩, hmem, rfl⟩
    obtain ⟨-, hi, hr, ho⟩ := mem_survivorIdx.mp hmem
    have hm : m' ∈ configs := mem_of_getElem? hi
    refine ⟨hm, ?_, ho⟩
    rintro ⟨c, hc, hs⟩
    obtain ⟨j, hj⟩ := mem_iff_getElem?.mp hc
    by_cases hij : i = j
    · -- a message does not include itself
      have hcm : c = m' := by
        rw [← hij, hi] at hj
        exact (Option.some.inj hj).symm
      obtain ⟨p, hp, hk⟩ := SortedMap.find?_isSome_iff.mp hs
      have hlt := h.lagged_lt c hc p hp
      rw [hk, hcm] at hlt
      exact lt_irrefl _ hlt
    have hnone := (isRedundant_eq_false_iff.mp hr j c hj hij).1
    rw [show SortedMap.find? m'.seqnoHash c.laggedDiffs = none from hnone] at hs
    simp at hs
  rintro ⟨hm, hni, ho⟩
  -- the first message with this (seqno, hash) is the one that stays
  have hex : ∃ i : Nat, ∃ c : ConfigMessage, configs[i]? = some c ∧ c.seqnoHash = m.seqnoHash := by
    obtain ⟨i, hi⟩ := mem_iff_getElem?.mp hm
    exact ⟨i, m, hi, rfl⟩
  classical
  obtain ⟨c, hc, hkey⟩ := Nat.find_spec hex
  have hcm : c = m := h.eq_of_seqnoHash c (mem_of_getElem? hc) m hm hkey
  refine ⟨((m, false), Nat.find hex), mem_survivorIdx.mpr ⟨rfl, hcm ▸ hc, ?_, ho⟩, rfl⟩
  rw [isRedundant_eq_false_iff]
  intro j c' hj _
  refine ⟨?_, fun hlt heq => Nat.find_min hex hlt ⟨c', hj, heq⟩⟩
  by_contra hne
  exact hni ⟨c', mem_of_getElem? hj, Option.isSome_iff_ne_none.mpr hne⟩

lemma zipIdx_pairwise {α : Type} (l : List α) : l.zipIdx.Pairwise (fun a b => a.2 < b.2) := by
  rw [← pairwise_map (f := Prod.snd) (R := (· < ·)), zipIdx_map_snd]
  exact pairwise_lt_range'

lemma survivors_pairwise (lag : Int) (configs : List ConfigMessage) :
    (survivors lag configs).Pairwise (fun a b => a.seqnoHash ≠ b.seqnoHash) := by
  unfold survivors
  rw [pairwise_map]
  have hidx : (survivorIdx lag configs).Pairwise (fun a b => a.2 < b.2) :=
    (zipIdx_pairwise _).filter _
  refine hidx.imp_of_mem ?_
  rintro ⟨⟨a, ba⟩, i⟩ ⟨⟨b, bb⟩, j⟩ ha hb hij
  obtain ⟨-, hi, -, -⟩ := mem_survivorIdx.mp ha
  obtain ⟨-, -, hr, -⟩ := mem_survivorIdx.mp hb
  exact (isRedundant_eq_false_iff.mp hr i a hi (Nat.ne_of_gt hij)).2 hij

/-! ## `std::max_element` -/

def rank (x : ConfigMessage × Bool) : Bool ×ₗ SeqnoHash := toLex (!x.2, x.1.seqnoHash)

lemma worse_iff (a b : ConfigMessage × Bool) : worse a b = true ↔ rank a < rank b := by
  obtain ⟨a, ra⟩ := a
  obtain ⟨b, rb⟩ := b
  unfold worse rank
  rw [Prod.Lex.toLex_lt_toLex]
  cases ra <;> cases rb <;> simp

lemma foldl_worse_spec (rest : List ((ConfigMessage × Bool) × Nat))
    (x : (ConfigMessage × Bool) × Nat) :
    let r := rest.foldl (fun best y => if worse best.1 y.1 then y else best) x
    r ∈ x :: rest ∧ ∀ y ∈ x :: rest, rank y.1 ≤ rank r.1 := by
  induction rest generalizing x with
  | nil => simp
  | cons z rest ih =>
    obtain ⟨hmem, hle⟩ := ih (if worse x.1 z.1 then z else x)
    rw [foldl_cons]
    -- the new candidate ranks at least as high as both it was chosen from
    have hstep : rank x.1 ≤ rank (if worse x.1 z.1 then z else x).1 ∧
        rank z.1 ≤ rank (if worse x.1 z.1 then z else x).1 := by
      by_cases hw : worse x.1 z.1 = true
      · rw [if_pos hw]
        exact ⟨((worse_iff _ _).mp hw).le, le_refl _⟩
      · rw [if_neg hw]
        exact ⟨le_refl _, not_lt.mp fun hlt => hw ((worse_iff _ _).mpr hlt)⟩
    have htop := hle _ mem_cons_self
    refine ⟨?_, ?_⟩
    · rcases mem_cons.mp hmem with h | h
      · rw [h]
        split
        · exact mem_cons_of_mem _ mem_cons_self
        · exact mem_cons_self
      · exact mem_cons_of_mem _ (mem_cons_of_mem _ h)
    intro y hy
    rcases mem_cons.mp hy with rfl | hy
    · exact hstep.1.trans htop
    rcases mem_cons.mp hy with rfl | hy
    · exact hstep.2.trans htop
    · exact hle y (mem_cons_of_mem _ hy)

lemma maxElement_spec {l : List ((ConfigMessage × Bool) × Nat)} (hne : l ≠ []) :
    ∃ r, maxElement l = some r ∧ r ∈ l ∧ ∀ y ∈ l, rank y.1 ≤ rank r.1 := by
  cases l with
  | nil => exact absurd rfl hne
  | cons x rest => exact ⟨_, rfl, foldl_worse_spec rest x⟩

/-! ## The outcomes of the constructor -/

section

variable (env : Env) {verifier : Option Verifier} {signer : Option Signer}

lemma mergeAccepted_single (verifier : Option Verifier) (signer : Option Signer)
    (h : survivors lag configs = [m]) : ∃ i, ((m, false), i) ∈ survivorIdx lag configs ∧
      mergeAccepted env verifier signer lag configs = .ok { m with unmerged := some i } := by
  obtain ⟨⟨⟨m', b⟩, i⟩, hs, hm⟩ := map_eq_singleton_iff.mp h
  subst hm
  have hmem : ((m', b), i) ∈ survivorIdx lag configs := by rw [hs]; exact mem_cons_self
  have hb : b = false := (mem_survivorIdx.mp hmem).1
  refine ⟨i, hb ▸ hmem, ?_⟩
  unfold survivorIdx at hs
  unfold mergeAccepted
  simp only [hs]

lemma mergeAccepted_alone (verifier : Option Verifier) (signer : Option Signer) (hlag : 1 ≤ lag)
    (hmin : -2 ^ 63 ≤ m.seqno) :
    mergeAccepted env verifier signer lag [m] = .ok { m with unmerged := some 0 } := by
  have hmax : maxSeqno [m] = m.seqno := by
    have hall : ∀ c ∈ [m], -2 ^ 63 ≤ c.seqno := by simpa using hmin
    obtain ⟨c, hc, hmax⟩ := exists_maxSeqno hall (by simp)
    rw [← hmax, mem_singleton.mp hc]
  have hold : ¬ m.seqno + lag ≤ maxSeqno [m] := by omega
  unfold mergeAccepted markRedundant isRedundant
  simp [hold]

lemma mergeAccepted_of_ne_one (h : (survivors lag configs).length ≠ 1) :
    mergeAccepted env verifier signer lag configs = if verifier.isSome && signer.isNone then
        match maxElement (markRedundant lag configs).zipIdx with
        | some ((conf, _), i) => .ok { conf with unmerged := some i }
        | none => .error .assertion
      else resolve env verifier signer lag (maxSeqno configs) (survivors lag configs) := by
  unfold survivors survivorIdx at h ⊢
  unfold mergeAccepted
  simp only
  split
  · next heq => simp [heq] at h
  · rfl

lemma mergeAccepted_best (hlen : (survivors lag configs).length ≠ 1)
    (hne : survivors lag configs ≠ []) (hv : verifier.isSome) (hs : signer = none) :
    ∃ m i, ((m, false), i) ∈ survivorIdx lag configs ∧
      (∀ m' ∈ survivors lag configs, m'.seqnoHash ≤ m.seqnoHash) ∧
      mergeAccepted env verifier signer lag configs = .ok { m with unmerged := some i } := by
  have hidx : survivorIdx lag configs ≠ [] := fun h => hne (by simp [survivors, h])
  obtain ⟨s, hsmem⟩ := exists_mem_of_ne_nil _ hidx
  have hall : (markRedundant lag configs).zipIdx ≠ [] := ne_nil_of_mem (mem_filter.mp hsmem).1
  obtain ⟨⟨⟨m, b⟩, i⟩, hmax, hmem, hle⟩ := maxElement_spec hall
  have hflag : ∀ x ∈ survivorIdx lag configs, x.1.2 = false := fun x hx => by
    simpa using (mem_filter.mp hx).2
  -- a survivor ranks at most as high, so the element found is unmarked as well
  have hb : b = false := by
    have hrank := hle s (mem_filter.mp hsmem).1
    unfold rank at hrank
    rw [hflag s hsmem, Prod.Lex.toLex_le_toLex] at hrank
    cases b with
    | false => rfl
    | true =>
      have hlt : true < false := by simpa using hrank
      exact absurd hlt (by decide)
  subst hb
  refine ⟨m, i, mem_filter.mpr ⟨hmem, rfl⟩, ?_, ?_⟩
  · intro m' hm'
    obtain ⟨x, hx, rfl⟩ := mem_map.mp hm'
    have hrank := hle x (mem_filter.mp hx).1
    unfold rank at hrank
    rw [hflag x hx, Prod.Lex.toLex_le_toLex] at hrank
    simpa using hrank
  · rw [mergeAccepted_of_ne_one env hlen, hmax]
    simp [hv, hs]

lemma mergeAccepted_resolve (hlen : (survivors lag configs).length ≠ 1)
    (hvs : ¬(verifier.isSome ∧ signer = none)) : mergeAccepted env verifier signer lag configs =
      resolve env verifier signer lag (maxSeqno configs) (survivors lag configs) := by
  rw [mergeAccepted_of_ne_one env hlen, if_neg]
  simpa using hvs

end

end Bchat.Config
