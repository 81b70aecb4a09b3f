import Bchat.Properties.DiffLeaf
import Bchat.Properties.MergeOrder

/-!
# Deriving the next message

What `increment()` makes of a message, and that deriving and editing keep a message well formed.
-/

namespace Bchat.Config

open Bencode List SortedMap ConfigMessage

/-! ## Well-formed messages -/

structure MutableConfigMessage.WellFormed (m : MutableConfigMessage) : Prop where
  seqno : InInt64 m.seqno
  origWF : Dict.WF m.origData
  origPruned : Dict.Pruned m.origData
  dataWF : Dict.WF m.data
  lagged : LaggedWF m.laggedDiffs
  unknownSorted : SortedMap.Sorted m.unknown
  unknownWF : ∀ p ∈ m.unknown, BtWF p.2
  unknownKey : ∀ p ∈ m.unknown, UnknownKey p.1

lemma MutableConfigMessage.WellFormed.refreshDiff {m : MutableConfigMessage}
    (h : m.WellFormed) : m.refreshDiff.toConfigMessage.WellFormed where
  seqno := h.seqno
  dataWF := wf_prune h.dataWF
  dataPruned := pruned_prune h.dataWF
  diff := diffWF_diffImpl h.origWF (wf_prune h.dataWF)
  lagged := h.lagged
  unknownSorted := h.unknownSorted
  unknownWF := h.unknownWF
  unknownKey := h.unknownKey

lemma ConfigMessage.empty_wellFormed (env : Env) : (ConfigMessage.empty env).WellFormed where
  seqno := by
    show InInt64 0
    decide
  dataWF := by
    rw [Dict.wf_iff]
    exact ⟨sorted_nil, by simp [empty]⟩
  dataPruned := by
    rw [Dict.pruned_iff]
    simp [empty]
  diff := by simp [empty, DiffWF]
  lagged := ⟨sorted_nil, by simp [empty], by simp [empty]⟩
  unknownSorted := sorted_nil
  unknownWF := by simp [empty]
  unknownKey := by simp [empty]

def AnyMessage.WellFormed : AnyMessage → Prop
  | .immutable m => m.WellFormed
  | .mutable m => m.WellFormed

namespace AnyMessage

def refreshed : AnyMessage → ConfigMessage
  | .immutable m => m
  | .mutable m => m.refreshDiff.toConfigMessage

def ownHash (env : Env) : AnyMessage → Hash
  | .immutable m => m.seqnoHash.hash
  | .mutable m => env.blake2b (m.serialize env true).1

lemma serialize_fst (env : Env) (c : AnyMessage) (enableSigning : Bool) :
    (c.serialize env enableSigning).1 = c.refreshed.serialize env enableSigning := by
  cases c <;> rfl

lemma WellFormed.refreshed {c : AnyMessage} (h : c.WellFormed) : c.refreshed.WellFormed := by
  cases c with
  | immutable m => exact h
  | mutable m => exact MutableConfigMessage.WellFormed.refreshDiff h

@[simp] lemma refreshed_seqno (c : AnyMessage) : c.refreshed.seqno = c.seqno := by
  cases c <;> rfl

lemma WellFormed.seqno {c : AnyMessage} (h : c.WellFormed) : InInt64 c.seqno :=
  c.refreshed_seqno ▸ h.refreshed.seqno

@[simp] lemma refreshed_lag (c : AnyMessage) : c.refreshed.lag = c.base.lag := by
  cases c <;> rfl

@[simp] lemma refreshed_unknown (c : AnyMessage) : c.refreshed.unknown = c.base.unknown := by
  cases c <;> rfl

/-! ## `increment()` -/

section

variable (env : Env) (c : AnyMessage)

@[simp] lemma increment_data : (c.increment env).data = c.refreshed.data := by
  cases c <;> rfl

@[simp] lemma increment_origData : (c.increment env).origData = c.refreshed.data := by
  cases c <;> rfl

@[simp] lemma increment_seqno : (c.increment env).seqno = c.seqno + 1 := by
  cases c <;> rfl

@[simp] lemma increment_lag : (c.increment env).lag = c.base.lag := by
  cases c <;> rfl

@[simp] lemma increment_unknown : (c.increment env).unknown = c.base.unknown := by
  cases c <;> rfl

@[simp] lemma increment_verifier : (c.increment env).verifier = c.base.verifier := by
  cases c <;> rfl

@[simp] lemma increment_signer : (c.increment env).signer = c.base.signer := by
  cases c <;> rfl

end

lemma rdropWhile_dropWhile_eq {lagged : LaggedDiffs} (h : SortedMap.Sorted lagged)
    (seqno lag : Int) : (lagged.dropWhile (fun p => p.1.seqno ≤ seqno - lag)).rdropWhile
      (fun p => seqno ≤ p.1.seqno) = lagged.filter (inWindow seqno lag) := by
  rw [h.dropWhile_eq_filter (q := fun s => decide (s.seqno ≤ seqno - lag)) (fun a b hab hb => ?_),
    (h.filter _).rdropWhile_eq_filter (q := fun s => decide (seqno ≤ s.seqno))
      (fun a b hab ha => ?_), filter_filter]
  · refine filter_congr fun p _ => ?_
    simp [inWindow, Bool.and_comm]
  · have := SeqnoHash.seqno_le_of_le hab.le
    simp only [decide_eq_true_eq] at ha ⊢
    omega
  have := SeqnoHash.seqno_le_of_le hab.le
  simp only [decide_eq_true_eq] at hb ⊢
  omega

lemma incrementImpl_laggedDiffs {m : MutableConfigMessage} (h : SortedMap.Sorted m.laggedDiffs) :
    m.incrementImpl.laggedDiffs =
      m.laggedDiffs.filter (inWindow m.seqno m.lag) ++ [(m.seqnoHash, m.diff)] := by
  unfold MutableConfigMessage.incrementImpl
  simp only
  rw [rdropWhile_dropWhile_eq h]
  refine emplace_eq_append fun p hp => ?_
  exact SeqnoHash.lt_of_seqno_lt (inWindow_iff.mp (mem_filter.mp hp).2).2

lemma increment_laggedDiffs (env : Env) {c : AnyMessage} (h : c.WellFormed) :
    (c.increment env).laggedDiffs = c.refreshed.laggedDiffs.filter (inWindow c.seqno c.base.lag) ++
        [(⟨c.seqno, c.ownHash env⟩, c.refreshed.diff)] := by
  cases c with
  | immutable m => exact incrementImpl_laggedDiffs h.lagged.sorted
  | mutable m => exact incrementImpl_laggedDiffs (m := m.hash env) h.lagged.sorted

lemma WellFormed.increment (env : Env) {c : AnyMessage} (h : c.WellFormed)
    (hseq : InInt64 (c.seqno + 1)) : (c.increment env).WellFormed where
  seqno := by rw [increment_seqno]; exact hseq
  origWF := by rw [increment_origData]; exact h.refreshed.dataWF
  origPruned := by rw [increment_origData]; exact h.refreshed.dataPruned
  dataWF := by rw [increment_data]; exact h.refreshed.dataWF
  lagged := by
    have hr := h.refreshed
    have hf := laggedWF_filter hr.lagged (inWindow c.seqno c.base.lag)
    rw [increment_laggedDiffs env h]
    refine ⟨?_, ?_, ?_⟩
    · refine sorted_append.mpr ⟨hf.sorted, pairwise_singleton _ _, ?_⟩
      intro p hp q hq
      rw [mem_singleton.mp hq]
      exact SeqnoHash.lt_of_seqno_lt (inWindow_iff.mp (mem_filter.mp hp).2).2
    · intro p hp
      rcases mem_append.mp hp with hp | hp
      · exact hf.int64 p hp
      · rw [mem_singleton.mp hp, ← refreshed_seqno]
        exact hr.seqno
    intro p hp
    rcases mem_append.mp hp with hp | hp
    · exact hf.diff p hp
    · rw [mem_singleton.mp hp]
      exact hr.diff
  unknownSorted := by rw [increment_unknown, ← refreshed_unknown]; exact h.refreshed.unknownSorted
  unknownWF := by rw [increment_unknown, ← refreshed_unknown]; exact h.refreshed.unknownWF
  unknownKey := by rw [increment_unknown, ← refreshed_unknown]; exact h.refreshed.unknownKey

def edited (env : Env) (c : AnyMessage) (data : Dict) : MutableConfigMessage :=
  { c.increment env with data := data }

lemma WellFormed.edited (env : Env) {c : AnyMessage} (h : c.WellFormed)
    (hseq : InInt64 (c.seqno + 1)) {data : Dict} (hd : Dict.WF data) :
    (c.edited env data).WellFormed :=
  let hi := h.increment env hseq
  { hi with dataWF := hd }

def published (env : Env) (c : AnyMessage) (data : Dict) : ConfigMessage :=
  (c.edited env data).refreshDiff.toConfigMessage

lemma WellFormed.published (env : Env) {c : AnyMessage} (h : c.WellFormed)
    (hseq : InInt64 (c.seqno + 1)) {data : Dict} (hd : Dict.WF data) :
    (c.published env data).WellFormed :=
  (h.edited env hseq hd).refreshDiff

section

variable (env : Env) (c : AnyMessage) (data : Dict)

@[simp] lemma published_seqno : (c.published env data).seqno = c.seqno + 1 :=
  increment_seqno env c

@[simp] lemma published_lag : (c.published env data).lag = c.base.lag := increment_lag env c

lemma published_diff : (c.published env data).diff = diffDict c.refreshed.data (prune data) := by
  show (diffImpl (c.increment env).origData (prune data)).getD [] = _
  rw [getD_diffImpl, increment_origData]

lemma published_laggedDiffs :
    (c.published env data).laggedDiffs = (c.increment env).laggedDiffs := rfl

end

end AnyMessage

end Bchat.Config
