import Bchat.Config.Merge
import Bchat.Properties.DiffLeaf

/-!
# Replaying diffs
-/

namespace Bchat.Config

open Bencode List SortedMap

variable (configs : List ConfigMessage) (l : Leaf)

abbrev Replay := List (SeqnoHash × (Dict × BtDict))

/-! ## Applying a replay -/

def replayLeaf (replay : Replay) (o : Option Scalar) : Option Scalar :=
  replay.foldl (fun o p => (actOf p.2.2 p.2.1 l).apply o) o

@[simp] lemma replayLeaf_cons (p : SeqnoHash × (Dict × BtDict)) (r : Replay) (o : Option Scalar) :
    replayLeaf l (p :: r) o = replayLeaf l r ((actOf p.2.2 p.2.1 l).apply o) := rfl

lemma replayLeaf_append (r r' : Replay) (o : Option Scalar) :
    replayLeaf l (r ++ r') o = replayLeaf l r' (replayLeaf l r o) :=
  foldl_append

lemma applyReplay_spec {r : Replay} (hwf : ∀ p ∈ r, DiffWF p.2.2)
    (happ : ∀ p ∈ r, AppliesDict p.2.2 p.2.1) (data : Dict) :
    ∃ data', applyReplay r data = .ok data' ∧ (Dict.WF data → Dict.WF data') ∧
      ∀ l, leaf data' l = replayLeaf l r (leaf data l) := by
  induction r generalizing data with
  | nil => exact ⟨data, rfl, id, fun _ => rfl⟩
  | cons p r ih =>
    obtain ⟨hwf1, hwf⟩ := forall_mem_cons.mp hwf
    obtain ⟨happ1, happ⟩ := forall_mem_cons.mp happ
    obtain ⟨data1, h1, hd1, hl1⟩ := applyDiff_spec hwf1 happ1 data
    obtain ⟨data2, h2, hd2, hl2⟩ := ih hwf happ data1
    refine ⟨data2, ?_, fun hd => hd2 (hd1 hd), fun l => ?_⟩
    · rw [applyReplay, h1, ok_bind, h2]
    · rw [hl2, hl1, replayLeaf_cons]

lemma applies_of_applyReplay {r : Replay} {data data' : Dict}
    (h : applyReplay r data = .ok data') : ∀ p ∈ r, AppliesDict p.2.2 p.2.1 := by
  induction r generalizing data with
  | nil => simp
  | cons p r ih =>
    obtain ⟨data1, h1, h⟩ := bind_eq_ok.mp h
    exact forall_mem_cons.mpr ⟨appliesDict_of_applyDiff h1, ih h⟩

/-! ## The replay map -/

def replayOf (c : ConfigMessage) : Replay :=
  (c.seqnoHash, (c.data, c.diff)) :: c.laggedDiffs.map (fun p => (p.1, (c.data, p.2)))

lemma buildReplay_eq :
    buildReplay configs = SortedMap.emplaceAll (configs.flatMap replayOf) [] := by
  unfold buildReplay emplaceAll
  rw [foldl_flatMap]
  congr 1
  funext r c
  rw [replayOf, foldl_cons, foldl_map]

lemma sorted_buildReplay : SortedMap.Sorted (buildReplay configs) := by
  rw [buildReplay_eq]
  exact sorted_emplaceAll sorted_nil

lemma find?_buildReplay (s : SeqnoHash) :
    SortedMap.find? s (buildReplay configs) = SortedMap.find? s (configs.flatMap replayOf) := by
  rw [buildReplay_eq, find?_emplaceAll]
  simp

lemma mem_buildReplay {configs : List ConfigMessage} {p : SeqnoHash × (Dict × BtDict)}
    (h : p ∈ buildReplay configs) : ∃ c ∈ configs, p ∈ replayOf c := by
  rw [buildReplay_eq] at h
  simpa using mem_emplaceAll h

end Bchat.Config
