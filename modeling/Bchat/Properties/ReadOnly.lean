import Bchat.Properties.Adopt
import Bchat.Properties.Restart

/-!
# Read-only objects

An object with a public key only cannot resolve conflicts. It picks the message with the greatest
(seqno, hash) of a batch and of its own message, and adopts it if its seqno is not the current one.
So messages that conflict at the same seqno are compared by hash within a batch only: across batches
the first one is kept.
-/

namespace Bchat.Config

open Bencode List ConfigBase AnyMessage

variable {verifier : Option Verifier} {signer : Option Signer} {b : Bytes} {received : List Row}
  {batch : List Row × Finset MsgId} {pre post : List (List Row × Finset MsgId)}

def rankOf (env : Env) (b : Bytes) : SeqnoHash := ⟨seqnoOf env b, env.blake2b b⟩

lemma seqnoHash_of_accepts {env : Env} {lag : Int} {c : ConfigMessage}
    (h : Accepts env verifier signer lag b c) : c.seqnoHash = rankOf env b := by
  have hp := parse_inv h
  unfold rankOf
  rw [hp.seqnoOf_eq, ← hp.hash]
  rfl

lemma mergeAccepted_greatest (env : Env) {lag : Int} {ms : List ConfigMessage} (hc : Coherent ms)
    (hlag : 1 ≤ lag) (hne : ms ≠ []) (hv : verifier.isSome) (hs : signer = none) :
    ∃ (c : ConfigMessage) (k : Nat), ms[k]? = some c ∧ (∀ c' ∈ ms, c'.seqnoHash ≤ c.seqnoHash) ∧
      mergeAccepted env verifier signer lag ms = .ok { c with unmerged := some k } := by
  -- a message with the highest seqno survives, and it beats every message with a lower one
  have hbest : ∀ c : ConfigMessage, (∀ c' ∈ survivors lag ms, c'.seqnoHash ≤ c.seqnoHash) →
      ∀ c' ∈ ms, c'.seqnoHash ≤ c.seqnoHash := by
    intro c hle c' hc'
    obtain ⟨top, htop, hmax⟩ := exists_maxSeqno hc.int64_min_le hne
    have hlive := hle top ((mem_survivors hc).mpr (hc.live_of_maxSeqno hlag htop hmax))
    rcases (le_maxSeqno hc').lt_or_eq with hlt | heq
    · rw [← hmax] at hlt
      exact (SeqnoHash.lt_of_seqno_lt hlt).le.trans hlive
    · exact hle c' ((mem_survivors hc).mpr (hc.live_of_maxSeqno hlag hc' heq))
  by_cases hone : (survivors lag ms).length = 1
  · obtain ⟨c, hsurv⟩ := length_eq_one_iff.mp hone
    obtain ⟨k, hk, hmerge⟩ := mergeAccepted_single env verifier signer hsurv
    refine ⟨c, k, (mem_survivorIdx.mp hk).2.1, hbest c fun c' hc' => ?_, hmerge⟩
    rw [hsurv, mem_singleton] at hc'
    rw [hc']
  obtain ⟨m0, hm0⟩ := hc.exists_live hlag hne
  have hsurv : survivors lag ms ≠ [] := ne_nil_of_mem ((mem_survivors hc).mpr hm0)
  obtain ⟨c, k, hk, hle, hmerge⟩ := mergeAccepted_best env hone hsurv hv hs
  exact ⟨c, k, (mem_survivorIdx.mp hk).2.1, hbest c hle, hmerge⟩

def SigKeys.ReadOnly (keys : SigKeys) : Prop := keys.verifier.isSome ∧ keys.signer = Option.none

namespace ConfigBase

variable {env : Env} {debug : Bool} {keys : SigKeys} {cb : ConfigBase}

/-! ## The state of a read-only object -/

lemma Valid.isReadonly (h : cb.Valid keys) (hro : keys.ReadOnly) : cb.isReadonly = true := by
  unfold ConfigBase.isReadonly
  rw [h.verifier_eq, h.signer_eq, hro.1, hro.2]
  rfl

lemma Valid.after_clean (h : cb.Valid keys) (hro : keys.ReadOnly) (hc : cb.state = .clean)
    {ev : Event} (hp : cb.Permitted env debug keys ev) :
    (cb.after env debug keys ev).state = .clean := by
  have hnd : cb.state ≠ .dirty := by simp [hc]
  cases ev with
  | edit e =>
    unfold ConfigBase.after
    simp only [edit_of_ne_dirty hnd, h.isReadonly hro, if_true]
    split
    · next heq =>
      split at heq
      · cases heq
        exact hc
      · cases heq
    · exact hc
  | push =>
    show (cb.push env).2.state = .clean
    rw [push_snd_state, if_neg hnd]
    exact hc
  | confirmPushed seqno msgHashes =>
    show (cb.confirmPushed seqno msgHashes).state = .clean
    unfold ConfigBase.confirmPushed
    rw [if_neg (by simp [hc])]
    exact hc
  | merge received good =>
    show (cb.mergeRows env debug received good).1.state = .clean
    rcases mergeRows_cases env debug received good cb with heq | ⟨m, bad, hm⟩
    · rw [heq, refresh_state]
      exact hc
    have ho := mergeRows_outcome good hm (hp.noAssert received good rfl)
    generalize (cb.mergeRows env debug received good).1 = cb' at ho
    cases ho with
    | same => rw [marked_state]; exact hc
    | resolved _ hnone =>
      obtain ⟨-, -, -, -, -, hvs⟩ := hm.resolved hnone
      rw [h.verifier_eq, h.signer_eq] at hvs
      exact absurd hro hvs
    | kept hd => exact absurd hd hnd
    | superset k => exact setState_state _ _
  | oldHashes =>
    show cb.takeOldHashes.2.state = .clean
    unfold ConfigBase.takeOldHashes
    split <;> exact hc
  | restart =>
    unfold ConfigBase.after
    simp only [restore_dump env h]
    exact hc

/-- An object that can check signatures but not make them. -/
structure ReadOnly (keys : SigKeys) (cb : ConfigBase) : Prop where
  valid : cb.Valid keys
  clean : cb.state = .clean

lemma readOnly_of_reachable (hro : keys.ReadOnly)
    (h : Reachable (· = fresh env keys) (Next env debug keys) cb) : cb.ReadOnly keys := by
  refine Reachable.invariant _ ?_ ?_ h
  · rintro s rfl
    exact ⟨valid_fresh env keys, rfl⟩
  · rintro s s' ⟨hv, hc⟩ ⟨ev, hp, rfl⟩
    exact ⟨hv.after hp, hv.after_clean hro hc hp⟩

/-! ## One merge -/

def held (env : Env) (cb : ConfigBase) : Bytes := (cb.config.serialize env true).1

lemma Valid.seqnoOf_held (h : cb.Valid keys) : seqnoOf env (cb.held env) = cb.config.seqno := by
  have hparse := parse_serialize env h.wf.refreshed (signatureAccepted_none env _ true) none false
  have hseq := (parse_inv hparse).seqnoOf_eq
  unfold held
  rw [serialize_fst]
  exact hseq.trans (refreshed_seqno cb.config)

lemma mem_confs : b ∈ cb.confs env received ↔
    (∃ row ∈ received, row.conf = b) ∨ (cb.TakesPart ∧ b = cb.held env) := by
  unfold confs held
  by_cases hpart : cb.TakesPart
  · by_cases hcurr : cb.currHashes = ∅
    · rw [rows_of_unknown env received hpart hcurr]
      simp [hpart]
    · rw [rows_of_known env received hpart hcurr]
      simp [hpart, or_comm]
  · rw [rows_of_not_takesPart env received hpart]
    simp [hpart]

lemma refresh_held (h : cb.Valid keys) : (cb.refresh env).held env = cb.held env := by
  unfold refresh serializeMine
  split
  · unfold held
    rw [serialize_fst, serialize_fst, serialize_snd_refreshed h.wf]
  · rfl

lemma ReadOnly.merge (h : cb.ReadOnly keys) (hro : keys.ReadOnly) (good : Finset MsgId)
    (hacc : ∀ b ∈ cb.confs env received, ∃ c, Accepts env keys.verifier keys.signer configLags b c)
    (hinj : Set.InjOn env.blake2b {b | b ∈ cb.confs env received})
    (hne : cb.confs env received ≠ []) :
    ∃ X ∈ cb.confs env received, ∃ c, Accepts env keys.verifier keys.signer configLags X c ∧
      (∀ Y ∈ cb.confs env received, rankOf env Y ≤ rankOf env X) ∧
      (cb.mergeRows env debug received good).1.ReadOnly keys ∧
      ((c.seqno = cb.config.seqno ∧
          (cb.mergeRows env debug received good).1.config = (cb.refresh env).config) ∨
        (c.seqno ≠ cb.config.seqno ∧ ∃ k, (cb.mergeRows env debug received good).1.config =
            .immutable { c with unmerged := some k })) := by
  have hnd : cb.state ≠ .dirty := by simp [h.clean]
  obtain ⟨ms, hms⟩ := exists_accepts hacc
  have hmsne : ms ≠ [] := by
    rintro rfl
    exact hne (List.forall₂_nil_right_iff.mp hms)
  obtain ⟨c, k, hk, hle, hmerge⟩ := mergeAccepted_greatest env (coherent_of_accepts hms hinj)
    (show 1 ≤ configLags by decide) hmsne hro.1 hro.2
  obtain ⟨X, hXk, hX⟩ := exists_bytes_at hms hk
  have hm : cb.MergesTo env debug received { c with unmerged := some k } [] := by
    have hrun : mergeConfigs env (cb.confs env received) _ _ _ (mergeHandler debug) = _ :=
      mergeConfigs_of_accepts hms hne
    rw [hmerge] at hrun
    unfold MergesTo
    rw [h.valid.verifier_eq, h.valid.signer_eq]
    exact hrun
  refine ⟨X, List.mem_of_getElem? hXk, c, hX, fun Y hY => ?_, ?_⟩
  · obtain ⟨cY, hcY⟩ := hacc Y hY
    rw [← seqnoHash_of_accepts hcY, ← seqnoHash_of_accepts hX]
    exact hle cY (mem_messages hms hY hcY)
  by_cases hseq : c.seqno = cb.config.seqno
  · have hcons : (cb.constructed { c with unmerged := some k }).seqno = cb.config.seqno := by
      rw [constructed, if_neg hnd]
      exact hseq
    obtain ⟨ids, hrun⟩ := mergeRows_of_mergesTo hm good
    rw [adopt_same debug _ _ _ _ (by rw [marked_seqno]; exact hcons)] at hrun
    rw [hrun]
    exact ⟨⟨h.valid.marked received _ _, marked_state.trans h.clean⟩, .inl ⟨hseq, rfl⟩⟩
  have hklt : k < (cb.rows env received).length := by
    have := (List.getElem?_eq_some_iff.mp hXk).1
    rwa [confs, List.length_map] at this
  -- the own message has the seqno of the object
  have hmine : cb.TakesPart → k ≠ cb.mineIndex (cb.serializeMine env).1 (cb.rows env received) := by
    intro hpart heq
    have hown := own_row env received hpart
    rw [← heq] at hown
    unfold confs at hXk
    rw [List.getElem?_map, hown] at hXk
    have hXown : cb.held env = X := Option.some.inj hXk
    refine hseq ?_
    rw [← (parse_inv hX).seqnoOf_eq, ← hXown, h.valid.seqnoOf_held]
  obtain ⟨-, hclean, hconf⟩ := mergeRows_newer good hnd hm hseq hklt hmine
  have hp := parse_inv hX
  refine ⟨⟨.of_immutable hconf (by rw [hclean]; simp) { hp.wf with } hp.lag_eq hp.verifier_eq
    hp.signer_eq, hclean⟩, .inr ⟨hseq, k, hconf⟩⟩

/-! ## Any number of merges -/

def Readable (env : Env) (keys : SigKeys) (b : Bytes) : Prop :=
  ∃ c, Accepts env keys.verifier keys.signer configLags b c ∧ c.serialize env true = b

/-- A read-only object that holds one of the messages `T` or is new. -/
structure Follows (env : Env) (keys : SigKeys) (T : Set Bytes) (cb : ConfigBase) : Prop where
  readOnly : cb.ReadOnly keys
  held_mem : cb.TakesPart → cb.held env ∈ T
  held_accepted : cb.TakesPart →
    ∃ c, Accepts env keys.verifier keys.signer configLags (cb.held env) c

/-- What a batch can do to a read-only object. -/
inductive BatchOutcome (env : Env) (batch : List Row) (cb cb' : ConfigBase) : Prop
  /-- The batch has no message with a higher seqno. -/
  | kept : cb'.held env = cb.held env → cb'.config.seqno = cb.config.seqno →
      (∀ row ∈ batch, seqnoOf env row.conf ≤ cb.config.seqno) → BatchOutcome env batch cb cb'
  /-- The greatest message of the batch is adopted. -/
  | adopted (row : Row) : row ∈ batch → cb'.held env = row.conf →
      cb'.config.seqno = seqnoOf env row.conf → seqnoOf env row.conf ≠ cb.config.seqno →
      (∀ row' ∈ batch, rankOf env row'.conf ≤ rankOf env row.conf) →
      (cb.TakesPart → cb.config.seqno ≤ seqnoOf env row.conf) → BatchOutcome env batch cb cb'

section

variable {T : Set Bytes}

lemma Follows.merge (debug : Bool) (h : cb.Follows env keys T) (hro : keys.ReadOnly)
    (hinj : Set.InjOn env.blake2b T) {batch : List Row} (good : Finset MsgId)
    (hbatch : ∀ row ∈ batch, row.conf ∈ T ∧ Readable env keys row.conf) :
    (cb.mergeRows env debug batch good).1.Follows env keys T ∧
      BatchOutcome env batch cb (cb.mergeRows env debug batch good).1 := by
  have hmemT : ∀ b ∈ cb.confs env batch, b ∈ T := by
    intro b hb
    rcases mem_confs.mp hb with ⟨row, hrow, rfl⟩ | ⟨hpart, rfl⟩
    · exact (hbatch row hrow).1
    · exact h.held_mem hpart
  have hacc : ∀ b ∈ cb.confs env batch,
      ∃ c, Accepts env keys.verifier keys.signer configLags b c := by
    intro b hb
    rcases mem_confs.mp hb with ⟨row, hrow, rfl⟩ | ⟨hpart, rfl⟩
    · obtain ⟨c, hc, -⟩ := (hbatch row hrow).2
      exact ⟨c, hc⟩
    · exact h.held_accepted hpart
  by_cases hne : cb.confs env batch = []
  · -- a new object that is given nothing
    have hrows : cb.rows env batch = [] := map_eq_nil_iff.mp hne
    have hpart : ¬cb.TakesPart := by
      intro hpart
      have hmem : cb.held env ∈ cb.confs env batch := mem_confs.mpr (.inr ⟨hpart, rfl⟩)
      rw [hne] at hmem
      cases hmem
    have hempty : batch = [] := by rwa [rows_of_not_takesPart env batch hpart] at hrows
    have hrun : (cb.mergeRows env debug batch good).1 = cb := by
      have hpart' : ¬(cb.config.seqno ≠ 0 ∨ cb.state = .dirty) := hpart
      subst hempty
      unfold mergeRows serializeMine
      simp only [if_neg hpart', allRows]
      rfl
    rw [hrun]
    exact ⟨h, .kept rfl rfl (by simp [hempty])⟩
  obtain ⟨X, hXmem, c, hX, hgreatest, hro', hcase⟩ := h.readOnly.merge hro good hacc
    (hinj.mono hmemT) hne
  have hXseq := (parse_inv hX).seqnoOf_eq
  have hle : ∀ Y ∈ cb.confs env batch, seqnoOf env Y ≤ c.seqno := by
    intro Y hY
    rw [← hXseq]
    exact SeqnoHash.seqno_le_of_le (hgreatest Y hY)
  rcases hcase with ⟨hseq, hconf⟩ | ⟨hseq, k, hconf⟩
  · have hheld : (cb.mergeRows env debug batch good).1.held env = cb.held env := by
      have hsame : (cb.mergeRows env debug batch good).1.held env = (cb.refresh env).held env := by
        unfold held
        rw [hconf]
      rw [hsame, refresh_held h.readOnly.valid]
    have hseqno : (cb.mergeRows env debug batch good).1.config.seqno = cb.config.seqno := by
      rw [hconf, refresh_seqno]
    have hpart : (cb.mergeRows env debug batch good).1.TakesPart → cb.TakesPart := by
      rintro (hs | hd)
      · rw [hseqno] at hs
        exact .inl hs
      · rw [hro'.clean] at hd
        cases hd
    refine ⟨⟨hro', fun hp => ?_, fun hp => ?_⟩, .kept hheld hseqno fun row hrow => ?_⟩
    · rw [hheld]
      exact h.held_mem (hpart hp)
    · rw [hheld]
      exact h.held_accepted (hpart hp)
    · rw [← hseq]
      exact hle row.conf (mem_confs.mpr (.inl ⟨row, hrow, rfl⟩))
  rcases mem_confs.mp hXmem with ⟨row, hrow, rfl⟩ | ⟨-, rfl⟩
  · have hheld : (cb.mergeRows env debug batch good).1.held env = row.conf := by
      obtain ⟨c', hc', hser⟩ := (hbatch row hrow).2
      rw [accepts_unique hc' hX] at hser
      unfold held
      rw [hconf]
      exact hser
    refine ⟨⟨hro', fun _ => ?_, fun _ => ?_⟩, .adopted row hrow hheld ?_ ?_ ?_ ?_⟩
    · rw [hheld]
      exact (hbatch row hrow).1
    · rw [hheld]
      exact ⟨c, hX⟩
    · rw [hconf, hXseq]
      rfl
    · rw [hXseq]
      exact hseq
    · exact fun row' hrow' => hgreatest row'.conf (mem_confs.mpr (.inl ⟨row', hrow', rfl⟩))
    intro hpart
    have hown := hle _ (mem_confs.mpr (.inr ⟨hpart, rfl⟩))
    rw [h.readOnly.valid.seqnoOf_held] at hown
    rw [hXseq]
    exact hown
  -- the own message is never adopted
  refine absurd ?_ hseq
  rw [← hXseq]
  exact h.readOnly.valid.seqnoOf_held

end

/-- Successive merges, each with the ids that could be decoded. -/
def mergeAll (env : Env) (debug : Bool) : List (List Row × Finset MsgId) → ConfigBase → ConfigBase
  | [], cb => cb
  | batch :: rest, cb => (cb.mergeRows env debug batch.1 batch.2).1.mergeAll env debug rest

lemma mergeAll_append (pre post : List (List Row × Finset MsgId)) :
    cb.mergeAll env debug (pre ++ post) = (cb.mergeAll env debug pre).mergeAll env debug post := by
  induction pre generalizing cb with
  | nil => rfl
  | cons batch rest ih => exact ih

def delivered (batches : List (List Row × Finset MsgId)) : Set Bytes :=
  {b | ∃ batch ∈ batches, ∃ row ∈ batch.1, row.conf = b}

lemma mem_delivered_append :
    b ∈ delivered (pre ++ post) ↔ b ∈ delivered pre ∨ b ∈ delivered post := by
  simp [delivered, or_and_right, exists_or]

lemma mem_delivered_cons {rest : List (List Row × Finset MsgId)} :
    b ∈ delivered (batch :: rest) ↔ (∃ row ∈ batch.1, row.conf = b) ∨ b ∈ delivered rest := by
  simp [delivered]

section

variable {T : Set Bytes} {batches : List (List Row × Finset MsgId)} {s : Int} {X : Bytes}

section

variable (debug : Bool) (h : cb.Follows env keys T) (hro : keys.ReadOnly)
  (hinj : Set.InjOn env.blake2b T)

include h hro hinj

lemma Follows.mergeAll_newest
    (hall : ∀ b ∈ delivered batches, b ∈ T ∧ Readable env keys b) (hpos : 0 < cb.config.seqno)
    (htop : ∀ b ∈ delivered batches, seqnoOf env b ≤ cb.config.seqno) :
    (cb.mergeAll env debug batches).held env = cb.held env := by
  induction batches generalizing cb with
  | nil => rfl
  | cons batch rest ih =>
    simp only [mem_delivered_cons] at hall htop
    obtain ⟨h', hout⟩ := h.merge debug hro hinj batch.2
      fun row hrow => hall _ (.inl ⟨row, hrow, rfl⟩)
    cases hout with
    | kept hheld hseq _ =>
      rw [← hheld]
      refine ih h' (fun b hb => hall b (.inr hb)) (hseq ▸ hpos) ?_
      rw [hseq]
      exact fun b hb => htop b (.inr hb)
    | adopted row hrow _ _ hne _ hle =>
      have h1 := htop _ (.inl ⟨row, hrow, rfl⟩)
      have h2 := hle (.inl hpos.ne')
      omega

lemma Follows.mergeAll_older
    (hall : ∀ b ∈ delivered batches, b ∈ T ∧ Readable env keys b) (hlt : cb.config.seqno < s)
    (holder : ∀ b ∈ delivered batches, seqnoOf env b < s) :
    (cb.mergeAll env debug batches).Follows env keys T ∧
      (cb.mergeAll env debug batches).config.seqno < s := by
  induction batches generalizing cb with
  | nil => exact ⟨h, hlt⟩
  | cons batch rest ih =>
    simp only [mem_delivered_cons] at hall holder
    obtain ⟨h', hout⟩ := h.merge debug hro hinj batch.2
      fun row hrow => hall _ (.inl ⟨row, hrow, rfl⟩)
    have hlt' : (cb.mergeRows env debug batch.1 batch.2).1.config.seqno < s := by
      cases hout with
      | kept _ hseq _ => omega
      | adopted row hrow _ hseq _ _ _ =>
        have := holder _ (.inl ⟨row, hrow, rfl⟩)
        omega
    exact ih h' (fun b hb => hall b (.inr hb)) hlt' fun b hb => holder b (.inr hb)

lemma Follows.mergeAll_deciding
    (hall : ∀ b ∈ delivered (pre ++ batch :: post), b ∈ T ∧ Readable env keys b)
    (hlt : cb.config.seqno < s) (hpos : 0 < s)
    (htop : ∀ b ∈ delivered (pre ++ batch :: post), seqnoOf env b ≤ s)
    (holder : ∀ b ∈ delivered pre, seqnoOf env b < s)
    (hnew : ∃ row ∈ batch.1, seqnoOf env row.conf = s) :
    ∃ row ∈ batch.1, (∀ row' ∈ batch.1, rankOf env row'.conf ≤ rankOf env row.conf) ∧
      (cb.mergeAll env debug (pre ++ batch :: post)).held env = row.conf := by
  simp only [mem_delivered_append, mem_delivered_cons] at hall htop
  obtain ⟨h1, hlt1⟩ := h.mergeAll_older debug hro hinj (fun b hb => hall b (.inl hb)) hlt holder
  rw [mergeAll_append]
  obtain ⟨h2, hout⟩ := h1.merge debug hro hinj batch.2
    fun row hrow => hall _ (.inr (.inl ⟨row, hrow, rfl⟩))
  obtain ⟨new, hnewmem, hnewseq⟩ := hnew
  cases hout with
  | kept _ _ hle =>
    have := hle new hnewmem
    omega
  | adopted row hrow hheld hseq _ hgreatest _ =>
    have hge := SeqnoHash.seqno_le_of_le (hgreatest new hnewmem)
    have hge' : seqnoOf env new.conf ≤ seqnoOf env row.conf := hge
    refine ⟨row, hrow, hgreatest, ?_⟩
    rw [← hheld]
    refine h2.mergeAll_newest debug hro hinj (fun b hb => hall b (.inr (.inr hb))) (by omega) ?_
    intro b hb
    have := htop b (.inr (.inr hb))
    omega

end

lemma exists_first_batch (h : ∃ b ∈ delivered batches, seqnoOf env b = s)
    (htop : ∀ b ∈ delivered batches, seqnoOf env b ≤ s) :
    ∃ pre batch post, batches = pre ++ batch :: post ∧
      (∀ b ∈ delivered pre, seqnoOf env b < s) ∧ ∃ row ∈ batch.1, seqnoOf env row.conf = s := by
  induction batches with
  | nil =>
    obtain ⟨b, ⟨batch, hmem, -⟩, -⟩ := h
    cases hmem
  | cons batch rest ih =>
    simp only [mem_delivered_cons] at h htop
    by_cases hnow : ∃ row ∈ batch.1, seqnoOf env row.conf = s
    · refine ⟨[], batch, rest, rfl, ?_, hnow⟩
      rintro b ⟨_, hmem, -⟩
      cases hmem
    have hrest : ∃ b ∈ delivered rest, seqnoOf env b = s := by
      obtain ⟨b, ⟨row, hrow, rfl⟩ | hb, heq⟩ := h
      · exact absurd ⟨row, hrow, heq⟩ hnow
      · exact ⟨b, hb, heq⟩
    obtain ⟨pre, first, post, hsplit, hpre, hfirst⟩ := ih hrest fun b hb => htop b (.inr hb)
    refine ⟨batch :: pre, first, post, by rw [hsplit]; rfl, fun b hb => ?_, hfirst⟩
    rcases mem_delivered_cons.mp hb with ⟨row, hrow, rfl⟩ | hb
    · exact lt_of_le_of_ne (htop _ (.inl ⟨row, hrow, rfl⟩)) fun heq => hnow ⟨row, hrow, heq⟩
    · exact hpre b hb

/-- **A read-only object ends up with the greatest message it was given** if and only if it held
that message from the start, or the message came in the first batch that has a message of its
seqno. No sum `seqno + lag` of the messages leaves `int64_t`. -/
theorem holds_greatest_iff (hro : keys.ReadOnly)
    (hreach : Reachable (· = fresh env keys) (Next env debug keys) cb)
    (hown : cb.TakesPart → ∃ c, Accepts env keys.verifier keys.signer configLags (cb.held env) c)
    (hread : ∀ b ∈ delivered batches, Readable env keys b)
    (hinj : Set.InjOn env.blake2b (insert (cb.held env) (delivered batches)))
    (hX : X ∈ delivered batches) (hgreatest : ∀ b ∈ delivered batches, rankOf env b ≤ rankOf env X)
    (hpos : 0 < seqnoOf env X) (hfit : ∀ b ∈ insert (cb.held env) (delivered batches),
      InInt64 (seqnoOf env b + configLags)) :
    (∀ b ∈ insert (cb.held env) (delivered batches),
      wrap64 (seqnoOf env b + configLags) = seqnoOf env b + configLags) ∧
    ((cb.mergeAll env debug batches).held env = X ↔
      cb.held env = X ∨ (cb.config.seqno < seqnoOf env X ∧
        ∃ pre batch post, batches = pre ++ batch :: post ∧ (∃ row ∈ batch.1, row.conf = X) ∧
          ∀ b ∈ delivered pre, seqnoOf env b < seqnoOf env X)) := by
  refine ⟨fun b hb => wrap64_of_inInt64 (hfit b hb), ?_⟩
  have hfollows : cb.Follows env keys (insert (cb.held env) (delivered batches)) :=
    ⟨readOnly_of_reachable hro hreach, fun _ => Set.mem_insert _ _, hown⟩
  have hheld : seqnoOf env (cb.held env) = cb.config.seqno := hfollows.readOnly.valid.seqnoOf_held
  have hall : ∀ b ∈ delivered batches,
      b ∈ insert (cb.held env) (delivered batches) ∧ Readable env keys b :=
    fun b hb => ⟨Set.mem_insert_of_mem _ hb, hread b hb⟩
  have htop : ∀ b ∈ delivered batches, seqnoOf env b ≤ seqnoOf env X :=
    fun b hb => SeqnoHash.seqno_le_of_le (hgreatest b hb)
  by_cases hlt : cb.config.seqno < seqnoOf env X
  · have hne : cb.held env ≠ X := by
      intro heq
      rw [← hheld, heq] at hlt
      omega
    constructor
    · intro hfinal
      obtain ⟨pre, batch, post, hsplit, hpre, hnew⟩ := exists_first_batch ⟨X, hX, rfl⟩ htop
      subst hsplit
      obtain ⟨row, hrow, -, hrun⟩ := hfollows.mergeAll_deciding debug hro hinj hall hlt
        hpos htop hpre hnew
      exact .inr ⟨hlt, pre, batch, post, rfl, ⟨row, hrow, hrun.symm.trans hfinal⟩, hpre⟩
    rintro (heq | ⟨-, pre, batch, post, hsplit, ⟨rowX, hrowX, hrowXX⟩, hpre⟩)
    · exact absurd heq hne
    subst hsplit
    obtain ⟨row, hrow, hbest, hrun⟩ := hfollows.mergeAll_deciding debug hro hinj hall
      hlt hpos htop hpre ⟨rowX, hrowX, by rw [hrowXX]⟩
    have hmem : row.conf ∈ delivered (pre ++ batch :: post) :=
      mem_delivered_append.mpr (.inr (mem_delivered_cons.mpr (.inl ⟨row, hrow, rfl⟩)))
    have hrank : rankOf env row.conf = rankOf env X := by
      refine le_antisymm (hgreatest _ hmem) ?_
      rw [← hrowXX]
      exact hbest rowX hrowX
    rw [hrun]
    refine hinj (hall _ hmem).1 (Set.mem_insert_of_mem _ hX) ?_
    exact congrArg SeqnoHash.hash hrank
  have hkeep : (cb.mergeAll env debug batches).held env = cb.held env := by
    refine hfollows.mergeAll_newest debug hro hinj hall (by omega) fun b hb => ?_
    have := htop b hb
    omega
  rw [hkeep]
  simp [hlt]

end

end ConfigBase

/-! ## Two messages with one seqno -/

/-- The pairs of the first edit of a new config by an admin. -/
def adminPairs (value : Int64) : BtDict :=
  messagePairs 1 [(bytes "a", .scalar (.int value))]
    [(⟨0, initialHash⟩, [])] [(bytes "a", .str [])]

def highSignature : Signature :=
  signatureOfNat
    (0xce195037a14ce5244c1f613126a1a8fe112445e8cace116c6c5f152cfe6b9474 * 2 ^ 256 +
      0x70fa315a2e3c3e3a8400707c2407ee942514b76d43ce83ae36fae7f0cf31db0b)

def lowEdit : Bytes := encodeDict (adminPairs 1 ++ [(bytes "~", .str edit1Signature.val)])

def highEdit : Bytes := encodeDict (adminPairs 2 ++ [(bytes "~", .str highSignature.val)])

def memberEnv : Env :=
  Env.bencode (tableHash
    [(initial, initialHash), (lowEdit, edit1SignedHash),
      (highEdit, hashOfNat 0x716657305b290f98b68510f1a3ac33ae14c375056760e06481ee7c1f70f9ae01)])

def memberKeys : SigKeys :=
  .pubkey (tableVerifier [(Bencode.encodeOpen (adminPairs 1), edit1Signature),
    (Bencode.encodeOpen (adminPairs 2), highSignature)])

def plainBatch (contents : List Bytes) : List Row × Finset MsgId :=
  (contents.map fun b => ⟨∅, b⟩, ∅)

lemma edits_readable : ∀ b ∈ [lowEdit, highEdit], ConfigBase.Readable memberEnv memberKeys b := by
  have hparse : ∀ b ∈ [lowEdit, highEdit], (ConfigMessage.parse memberEnv b memberKeys.verifier
      memberKeys.signer configLags false).toOption.map (fun c => c.serialize memberEnv true) =
        some b := by decide +kernel
  intro b hb
  have h := hparse b hb
  cases hc : ConfigMessage.parse memberEnv b memberKeys.verifier memberKeys.signer configLags
      false with
  | error e =>
    rw [hc] at h
    cases h
  | ok c =>
    rw [hc] at h
    exact ⟨c, hc, Option.some.inj h⟩

lemma edits_rank : rankOf memberEnv lowEdit < rankOf memberEnv highEdit ∧
    ∀ b ∈ [lowEdit, highEdit], seqnoOf memberEnv b = 1 := by decide +kernel

/-- A member that gets both messages at once ends up with the greater one. -/
theorem holds_greatest_together : ((ConfigBase.fresh memberEnv memberKeys).mergeAll memberEnv true
      [plainBatch [lowEdit, highEdit]]).held memberEnv = highEdit := by
  have hdel : ∀ b ∈ delivered [plainBatch [lowEdit, highEdit]], b ∈ [lowEdit, highEdit] := by
    rintro b ⟨batch, hbatch, row, hrow, rfl⟩
    rw [mem_singleton.mp hbatch] at hrow
    obtain ⟨b, hb, rfl⟩ := mem_map.mp hrow
    exact hb
  have hhigh : ∃ row ∈ (plainBatch [lowEdit, highEdit]).1, row.conf = highEdit :=
    ⟨⟨∅, highEdit⟩, by simp [plainBatch], rfl⟩
  have hinj : ∀ b ∈ [(fresh memberEnv memberKeys).held memberEnv, lowEdit, highEdit],
      ∀ b' ∈ [(fresh memberEnv memberKeys).held memberEnv, lowEdit, highEdit],
        memberEnv.blake2b b = memberEnv.blake2b b' → b = b' := by decide +kernel
  have hmem : ∀ b ∈ insert ((fresh memberEnv memberKeys).held memberEnv)
      (delivered [plainBatch [lowEdit, highEdit]]),
      b ∈ [(fresh memberEnv memberKeys).held memberEnv, lowEdit, highEdit] := by
    rintro b (rfl | hb)
    · exact mem_cons_self
    · exact mem_cons_of_mem _ (hdel b hb)
  have hfit : ∀ b ∈ [(fresh memberEnv memberKeys).held memberEnv, lowEdit, highEdit],
      InInt64 (seqnoOf memberEnv b + configLags) := by decide +kernel
  refine (holds_greatest_iff ⟨rfl, rfl⟩ (.init rfl) (fun hpart => ?_)
    (fun b hb => edits_readable b (hdel b hb))
    (fun b hb b' hb' => hinj b (hmem b hb) b' (hmem b' hb'))
    (mem_delivered_cons.mpr (.inl hhigh)) (fun b hb => ?_) ?_
    fun b hb => hfit b (hmem b hb)).2.mpr (.inr ⟨?_, [], _, [], rfl, hhigh, ?_⟩)
  · rcases hpart with h | h <;> exact absurd h (by decide)
  · rcases mem_cons.mp (hdel b hb) with rfl | hb
    · exact edits_rank.1.le
    · rw [mem_singleton.mp hb]
  · rw [edits_rank.2 highEdit (by simp)]
    decide
  · rw [edits_rank.2 highEdit (by simp)]
    decide
  · rintro b ⟨batch, hbatch, -⟩
    cases hbatch

/-- Members that get them one after the other keep the one that came first, so that two members
hold different messages. -/
theorem earlier_batch_is_kept :
    (∀ b ∈ [lowEdit, highEdit], ConfigBase.Readable memberEnv memberKeys b) ∧
      (∀ b ∈ [lowEdit, highEdit], ¬IncludedIn memberEnv memberKeys.verifier memberKeys.signer
        configLags [lowEdit, highEdit] (rankOf memberEnv b)) ∧
      rankOf memberEnv lowEdit < rankOf memberEnv highEdit ∧
      ((ConfigBase.fresh memberEnv memberKeys).mergeAll memberEnv true
        [plainBatch [lowEdit], plainBatch [highEdit]]).held memberEnv = lowEdit ∧
      ((ConfigBase.fresh memberEnv memberKeys).mergeAll memberEnv true
        [plainBatch [highEdit], plainBatch [lowEdit]]).held memberEnv = highEdit := by
  refine ⟨edits_readable, ?_, edits_rank.1, by decide +kernel, by decide +kernel⟩
  rintro b hb ⟨b', hb', c, hc, hsome⟩
  obtain ⟨p, hp, hk⟩ := SortedMap.find?_isSome_iff.mp hsome
  have hlt := (inWindow_iff.mp ((parse_inv hc).window p hp)).2
  rw [hk, ← (parse_inv hc).seqnoOf_eq, edits_rank.2 b' hb'] at hlt
  have heq : (rankOf memberEnv b).seqno = 1 := edits_rank.2 b hb
  omega

end Bchat.Config
