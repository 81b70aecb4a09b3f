import Bchat.Properties.Contained

/-!
# The range of seqnos

The parser admits every seqno of `int64_t`, and the constructors add to seqnos and subtract from
them without looking at the limits. Elsewhere in this development seqnos are unbounded integers.
-/

namespace Bchat.Config

open Bencode List ConfigMessage

variable {m : ConfigMessage} {p : Bytes × ConfigMessage} {x : Int}

/-- The rows that the parser gives to `parse_lagged_diffs`. -/
def laggedRows (env : Env) (serialized : Bytes) : List Bt :=
  match env.read serialized with
  | none => []
  | some (pairs, closed) =>
    match (do
      let (_, rest) ← readSeqno pairs
      let (unknown, rest) ← loadUnknowns env closed (bytes "#") (bytes "&") [] rest
      let (_, rest) ← readData rest
      let (_, rest) ← loadUnknowns env closed (bytes "&") (bytes "<") unknown rest
      .ok rest : Except Err BtDict) with
    | .ok ((key, .list rows) :: _) => if key = bytes "<" then rows else []
    | _ => []

section

variable (env : Env) (verifier : Option Verifier) (signer : Option Signer) (lag : Int)

def parseResults (p : Bytes × ConfigMessage) : List Int :=
  if laggedRows env p.1 = [] then [] else [p.2.seqno - lag]

/-- `seqno() - lag` in `increment_impl` and `serialize_impl`, which is computed if there are lagged
diffs. -/
def lagResults (m : ConfigMessage) : List Int := if m.laggedDiffs = [] then [] else [m.seqno - lag]

/-- What comes after the pruning: `max_seqno + 1` if a conflict is resolved, otherwise the increment
of the message taken, and the serialization of the result. -/
def mergeResults (ms : List ConfigMessage) : List Int :=
  match mergeAccepted env verifier signer lag ms with
  | .error _ => [maxSeqno ms + 1]
  | .ok m =>
    (if m.merged then [maxSeqno ms + 1] else lagResults lag m ++ [m.seqno + 1]) ++
      lagResults lag (toMutable m).toConfigMessage

/-- The results of all additions to seqnos and subtractions from them, when messages are parsed and
merged and the result is serialized. -/
def seqnoResults (L : List Bytes) (ms : List ConfigMessage) : List Int :=
  (L.zip ms).flatMap (parseResults env lag) ++ ms.map (fun m => m.seqno + lag) ++
    mergeResults env verifier signer lag ms

/-- No addition or subtraction leaves the range of `int64_t`, and the message with the highest
(seqno, hash) is not redundant. -/
structure SeqnosInRange (L : List Bytes) (ms : List ConfigMessage) : Prop where
  inRange : ∀ x ∈ seqnoResults env verifier signer lag L ms, InInt64 x
  highest : ∃ p ∈ markRedundant64 lag ms, p.2 = false ∧ ∀ m ∈ ms, m.seqnoHash ≤ p.1.seqnoHash

end

section

variable {env : Env} {verifier : Option Verifier} {signer : Option Signer} {lag : Int}
  {L : List Bytes} {ms : List ConfigMessage}

lemma laggedRows_ne_nil {b : Bytes} (h : Accepts env verifier signer lag b m)
    (hm : m.laggedDiffs ≠ []) : laggedRows env b ≠ [] := by
  unfold Accepts parse at h
  unfold laggedRows
  cases hread : env.read b with
  | none => simp [hread] at h
  | some p =>
    obtain ⟨pairs, closed⟩ := p
    rw [hread] at h
    simp only at h ⊢
    have hbody : parsePairs env b pairs closed verifier signer lag false = .ok m := by
      cases hp : parsePairs env b pairs closed verifier signer lag false with
      | error e => rw [hp] at h; cases h
      | ok m' => rw [hp] at h; exact h
    obtain ⟨⟨seqno, rest₁⟩, h₁, hbody⟩ := bind_eq_ok.mp hbody
    obtain ⟨⟨unknown, rest₂⟩, h₂, hbody⟩ := bind_eq_ok.mp hbody
    obtain ⟨⟨data, rest₃⟩, h₃, hbody⟩ := bind_eq_ok.mp hbody
    obtain ⟨⟨unknown', rest₄⟩, h₄, hbody⟩ := bind_eq_ok.mp hbody
    obtain ⟨⟨lagged, rest₅⟩, h₅, hbody⟩ := bind_eq_ok.mp hbody
    have hlagged : m.laggedDiffs = lagged := by
      simp only [bind_eq_ok] at hbody
      obtain ⟨_, _, _, _, _, _, _, _, hbody⟩ := hbody
      cases hbody
      rfl
    rw [hlagged] at hm
    rw [h₁, ok_bind]
    simp only [h₂, h₃, h₄, ok_bind]
    unfold readLagged at h₅
    split at h₅
    · cases h₅
    rename_i key v rest
    split_ifs at h₅ with hkey
    · split at h₅
      · next rows =>
        obtain ⟨lagged', hrows, h₅⟩ := bind_eq_ok.mp h₅
        cases h₅
        simp only
        rw [if_pos hkey]
        rintro rfl
        cases hrows
        exact hm rfl
      · cases h₅
    · cases h₅
      exact absurd rfl hm

lemma exists_mem_zip (h : List.Forall₂ (Accepts env verifier signer lag) L ms) (hm : m ∈ ms) :
    ∃ b, (b, m) ∈ L.zip ms := by
  induction h with
  | nil => cases hm
  | cons hb _ ih =>
    rcases mem_cons.mp hm with rfl | hm
    · exact ⟨_, mem_cons_self⟩
    · obtain ⟨b, hb⟩ := ih hm
      exact ⟨b, mem_cons_of_mem _ hb⟩

lemma accepts_of_mem_zip (h : List.Forall₂ (Accepts env verifier signer lag) L ms)
    (hp : p ∈ L.zip ms) : Accepts env verifier signer lag p.1 p.2 := by
  induction h with
  | nil => cases hp
  | cons hb _ ih =>
    rcases mem_cons.mp hp with rfl | hp
    · exact hb
    · exact ih hp

lemma ne_nil_of_find? {α β : Type} [LinearOrder α] {k : α} {m : List (α × β)}
    (h : SortedMap.find? k m ≠ none) : m ≠ [] := by
  rintro rfl
  exact h rfl

lemma seqno_toMutable (htop : ∃ c ∈ survivors lag ms, c.seqno = maxSeqno ms)
    (h : mergeAccepted env verifier signer lag ms = .ok m) :
    (toMutable m).seqno = maxSeqno ms + 1 ∧ (m.merged = false → m.seqno = maxSeqno ms) := by
  unfold toMutable
  cases hu : m.unmerged with
  | none =>
    have hmerged : m.merged = true := by rw [merged, hu]; rfl
    obtain ⟨-, -, hres⟩ := mergeAccepted_merged_inv h hmerged
    obtain ⟨best, others, -, hr⟩ := resolve_inv hres
    rw [if_pos hmerged]
    exact ⟨hr.seqno, fun hf => by simp [hmerged] at hf⟩
  | some k =>
    have hmerged : m.merged = false := by rw [merged, hu]; rfl
    have hseqno := mergeAccepted_taken_seqno htop h hu
    rw [if_neg (by simp [hmerged])]
    exact ⟨by rw [← hseqno]; rfl, fun _ => hseqno⟩

lemma laggedDiffs_toMutable_ne_nil (h : mergeAccepted env verifier signer lag ms = .ok m) :
    (toMutable m).laggedDiffs ≠ [] := by
  unfold toMutable
  split
  · next hmerged =>
    obtain ⟨-, -, hres⟩ := mergeAccepted_merged_inv h hmerged
    obtain ⟨best, others, -, hr⟩ := resolve_inv hres
    rw [hr.laggedDiffs, ne_eq, map_eq_nil_iff]
    refine ne_nil_of_find? (k := best.seqnoHash) ?_
    rw [find?_buildReplay, flatMap_cons, replayOf]
    simp
  refine ne_nil_of_find? (k := m.seqnoHash) ?_
  show SortedMap.find? m.seqnoHash (SortedMap.emplace m.seqnoHash _ _) ≠ none
  rw [SortedMap.find?_emplace]
  simp

lemma mem_lagResults : x ∈ lagResults lag m ↔ m.laggedDiffs ≠ [] ∧ x = m.seqno - lag := by
  unfold lagResults
  split_ifs with h <;> simp [h]

lemma mem_parseResults :
    x ∈ parseResults env lag p ↔ laggedRows env p.1 ≠ [] ∧ x = p.2.seqno - lag := by
  unfold parseResults
  split_ifs with h <;> simp [h]

lemma inInt64_of_mem_mergeResults (hlag : 1 ≤ lag)
    (h : List.Forall₂ (Accepts env verifier signer lag) L ms) (hms : ms ≠ [])
    (htop : ∃ c ∈ survivors lag ms, c.seqno = maxSeqno ms) (hupper : maxSeqno ms + lag < 2 ^ 63)
    (hlower : ∀ p ∈ L.zip ms, laggedRows env p.1 ≠ [] → -2 ^ 63 ≤ p.2.seqno - lag)
    (hresult : Resolvable verifier signer lag ms → -2 ^ 63 ≤ maxSeqno ms + 1 - lag)
    (hx : x ∈ mergeResults env verifier signer lag ms) : InInt64 x := by
  have hmin := int64_min_le_maxSeqno ms
  unfold mergeResults at hx
  split at hx
  · rw [mem_singleton.mp hx]
    exact ⟨by omega, by omega⟩
  next m hm =>
  obtain ⟨hseqno, htaken⟩ := seqno_toMutable htop hm
  have hok : -2 ^ 63 ≤ maxSeqno ms + 1 - lag :=
    hresult ((mergeAccepted_ok_iff (wellFormed_of_accepts h) hms).mp ⟨m, hm⟩)
  rcases mem_append.mp hx with hx | hx
  · split_ifs at hx with hmerged
    · rw [mem_singleton.mp hx]
      exact ⟨by omega, by omega⟩
    have htaken := htaken (Bool.eq_false_iff.mpr hmerged)
    rcases mem_append.mp hx with hx | hx
    · -- the message that was taken is one of those that were parsed
      obtain ⟨hlagged, rfl⟩ := mem_lagResults.mp hx
      rcases mergeAccepted_inv (ne_nil_of_mem htop.choose_spec.1) hm with
        ⟨c, i, hc, rfl⟩ | ⟨-, hres⟩
      · obtain ⟨b, hb⟩ := exists_mem_zip h (mem_of_getElem? (mem_survivorIdx.mp hc).2.1)
        have hrows := laggedRows_ne_nil (accepts_of_mem_zip h hb) hlagged
        have hle : -2 ^ 63 ≤ c.seqno - lag := hlower (b, c) hb hrows
        have hc : c.seqno = maxSeqno ms := htaken
        exact ⟨hle, by omega⟩
      obtain ⟨best, others, -, hr⟩ := resolve_inv hres
      rw [merged, hr.merged] at hmerged
      exact absurd rfl hmerged
    · rw [mem_singleton.mp hx, htaken]
      exact ⟨by omega, by omega⟩
  obtain ⟨-, rfl⟩ := mem_lagResults.mp hx
  rw [show (toMutable m).toConfigMessage.seqno = maxSeqno ms + 1 from hseqno]
  exact ⟨hok, by omega⟩

/-- **How far the seqnos have to be from the limits**: `lag` below the upper one; `lag` above the
lower one if the message comes with lagged diffs, and one less for the highest seqno if the merge
succeeds. -/
theorem seqnos_in_range_iff (env : Env) (verifier : Option Verifier) (signer : Option Signer)
    (lag : Int) (hlag : 1 ≤ lag) (L : List Bytes) (hne : L ≠ []) (ms : List ConfigMessage)
    (h : List.Forall₂ (Accepts env verifier signer lag) L ms) :
    SeqnosInRange env verifier signer lag L ms ↔ (∀ m ∈ ms, m.seqno + lag < 2 ^ 63) ∧
      (∀ p ∈ L.zip ms, laggedRows env p.1 ≠ [] → -2 ^ 63 ≤ p.2.seqno - lag) ∧
      (Resolvable verifier signer lag ms → -2 ^ 63 ≤ maxSeqno ms + 1 - lag) := by
  have hwf := wellFormed_of_accepts h
  have hms := ne_nil_of_accepts h hne
  have hrange : ∀ m ∈ ms, InInt64 m.seqno := fun m hm => (hwf m hm).seqno
  have htop : ∃ c ∈ survivors lag ms, ∀ c' ∈ ms, c'.seqnoHash ≤ c.seqnoHash :=
    exists_survivor_top hlag hms
      (fun c hc p hp => by
        obtain ⟨b, -, hacc⟩ := exists_bytes h hc
        exact (inWindow_iff.mp ((parse_inv hacc).window p hp)).2)
      (fun c hc => (hrange c hc).1)
  obtain ⟨top, hsurvives, hhighest⟩ := htop
  have hmem := mem_of_mem_survivors hsurvives
  have hmax : top.seqno = maxSeqno ms := le_antisymm (le_maxSeqno hmem)
    (maxSeqno_le (hrange top hmem).1 fun m hm => SeqnoHash.seqno_le_of_le (hhighest m hm))
  constructor
  · intro hin
    refine ⟨fun m hm => ?_, fun p hp hrows => ?_, fun hresolvable => ?_⟩
    · refine (hin.inRange (m.seqno + lag) ?_).2
      exact mem_append_left _ (mem_append_right _ (mem_map.mpr ⟨m, hm, rfl⟩))
    · refine (hin.inRange (p.2.seqno - lag) ?_).1
      exact mem_append_left _ (mem_append_left _
        (mem_flatMap.mpr ⟨p, hp, mem_parseResults.mpr ⟨hrows, rfl⟩⟩))
    obtain ⟨m, hm⟩ := (mergeAccepted_ok_iff hwf hms).mpr hresolvable
    obtain ⟨hseqno, -⟩ := seqno_toMutable ⟨top, hsurvives, hmax⟩ hm
    refine (hin.inRange (maxSeqno ms + 1 - lag) (mem_append_right _ ?_)).1
    unfold mergeResults
    rw [hm]
    exact mem_append_right _
      (mem_lagResults.mpr ⟨laggedDiffs_toMutable_ne_nil hm, by rw [← hseqno]⟩)
  rintro ⟨hupper, hlower, hresult⟩
  have hadd : ∀ m ∈ ms, InInt64 (m.seqno + lag) := fun m hm =>
    ⟨by have := (hrange m hm).1; omega, hupper m hm⟩
  refine ⟨fun x hx => ?_, ?_⟩
  · rcases mem_append.mp hx with hx | hx
    · rcases mem_append.mp hx with hx | hx
      · obtain ⟨p, hp, hx⟩ := mem_flatMap.mp hx
        obtain ⟨hrows, rfl⟩ := mem_parseResults.mp hx
        have := (hrange p.2 (of_mem_zip hp).2).2
        exact ⟨hlower p hp hrows, by omega⟩
      · obtain ⟨m, hm, rfl⟩ := mem_map.mp hx
        exact hadd m hm
    · exact inInt64_of_mem_mergeResults hlag h hms ⟨top, hsurvives, hmax⟩
        (by rw [← hmax]; exact hupper top hmem) hlower hresult hx
  rw [markRedundant64_eq hadd]
  obtain ⟨⟨⟨c, b⟩, i⟩, hidx, rfl⟩ := mem_map.mp hsurvives
  exact ⟨(c, b), (mem_zipIdx' (mem_filter.mp hidx).1).2 ▸ getElem_mem _,
    (mem_survivorIdx.mp hidx).1, hhighest⟩

end

def lastMessage : Bytes := messageBytes (2 ^ 63 - 1) [] [] []

def firstMessage : Bytes := messageBytes 1 [] [] []

theorem seqnos_in_range_first : [firstMessage] ≠ [] ∧ ∃ ms,
      List.Forall₂ (Accepts (Env.bencode (tableHash [])) none none 5) [firstMessage] ms ∧
        SeqnosInRange (Env.bencode (tableHash [])) none none 5 [firstMessage] ms := by
  obtain ⟨m, hm⟩ : ∃ m, Accepts (Env.bencode (tableHash [])) none none 5 firstMessage m :=
    exists_accepts_of_isSome (by decide +kernel)
  have hseqno : m.seqno = 1 := by
    rw [← (parse_inv hm).seqnoOf_eq]
    decide +kernel
  refine ⟨by simp, [m], .cons hm .nil, ?_⟩
  refine (seqnos_in_range_iff _ none none 5 (by decide) _ (by simp) [m] (.cons hm .nil)).mpr
    ⟨?_, ?_, ?_⟩
  · intro m' hm'
    rw [mem_singleton.mp hm', hseqno]
    decide
  · intro p hp _
    rw [mem_singleton.mp hp, hseqno]
    decide
  intro _
  have := le_maxSeqno (mem_singleton_self m)
  omega

/-- The parser accepts the message with the greatest seqno, the addition of the lag overflows, and
with an addition that wraps around no message is left. -/
theorem seqno_overflow_last :
    ∃ ms, List.Forall₂ (Accepts (Env.bencode (tableHash [])) none none 5) [lastMessage] ms ∧
      (∃ m ∈ ms, ¬InInt64 (m.seqno + 5)) ∧ ∀ p ∈ markRedundant64 5 ms, p.2 = true := by
  obtain ⟨m, hm⟩ : ∃ m, Accepts (Env.bencode (tableHash [])) none none 5 lastMessage m :=
    exists_accepts_of_isSome (by decide +kernel)
  have hseqno : m.seqno = 2 ^ 63 - 1 := by
    rw [← (parse_inv hm).seqnoOf_eq]
    decide +kernel
  refine ⟨[m], .cons hm .nil, ⟨m, by simp, by rw [hseqno]; decide⟩, ?_⟩
  have hmax := le_maxSeqno (mem_singleton_self m)
  intro p hp
  obtain ⟨⟨c, i⟩, hc, rfl⟩ := mem_map.mp hp
  have hcm : c = m := by simpa using (mem_zipIdx' hc).2
  have hwrap : wrap64 (m.seqno + 5) ≤ maxSeqno [m] := by
    rw [hseqno] at hmax ⊢
    exact le_trans (by decide) hmax
  simp [hcm, hwrap]

end Bchat.Config
