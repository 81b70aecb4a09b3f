import Bchat.Properties.BaseMerge

/-!
# The entries of a merge

How the messages the constructor works with relate to the entries `_merge` has collected.
-/

namespace Bchat.Config

open Bencode List

/-! ## The messages accepted -/

section

variable {env : Env} {verifier : Option Verifier} {signer : Option Signer} {lag : Int}

def parses (env : Env) (verifier : Option Verifier) (signer : Option Signer) (lag : Int)
    (b : Bytes) : Bool :=
  (ConfigMessage.parse env b verifier signer lag false).isOk

lemma parses_iff {b : Bytes} :
    parses env verifier signer lag b = true ↔ ∃ m, Accepts env verifier signer lag b m := by
  unfold parses Accepts
  cases ConfigMessage.parse env b verifier signer lag false with
  | ok m | error e => simp [Except.isOk, Except.toBool]

lemma parseAll_forall₂ {handler : Nat → Err → Except Err Unit} {L : List Bytes} {i : Nat}
    {configs : List ConfigMessage} {bad : List Nat}
    (h : parseAll env verifier signer lag handler i L = .ok (configs, bad)) :
    List.Forall₂ (Accepts env verifier signer lag) (L.filter (parses env verifier signer lag))
      configs ∧ ∀ n b, L[n]? = some b → i + n ∉ bad → ∃ m, Accepts env verifier signer lag b m := by
  induction L generalizing i configs bad with
  | nil =>
    cases h
    exact ⟨.nil, by simp⟩
  | cons b rest ih =>
    rw [parseAll] at h
    split at h
    · next m hm =>
      obtain ⟨r, hr, h⟩ := bind_eq_ok.mp h
      cases h
      obtain ⟨hall, hbad⟩ := ih hr
      rw [filter_cons_of_pos (parses_iff.mpr ⟨m, hm⟩)]
      refine ⟨.cons hm hall, fun n b' hn hnot => ?_⟩
      cases n with
      | zero =>
        cases hn
        exact ⟨m, hm⟩
      | succ n => exact hbad n b' hn (by rwa [Nat.add_right_comm])
    rename_i e he
    split at h
    · obtain ⟨-, -, h⟩ := bind_eq_ok.mp h
      obtain ⟨r, hr, h⟩ := bind_eq_ok.mp h
      cases h
      obtain ⟨hall, hbad⟩ := ih hr
      have hno : ¬parses env verifier signer lag b = true := by
        rw [parses_iff]
        rintro ⟨m, hm⟩
        unfold Accepts at hm
        rw [he] at hm
        cases hm
      rw [filter_cons_of_neg hno]
      refine ⟨hall, fun n b' hn hnot => ?_⟩
      cases n with
      | zero => exact absurd mem_cons_self hnot
      | succ n =>
        refine hbad n b' hn fun hmem => hnot (mem_cons_of_mem _ ?_)
        rwa [Nat.add_right_comm] at hmem
    · cases h

end

lemma getElem?_append_cons_congr {α : Type} {l l₁ l₂ : List α} {a : α} {i : Nat}
    (h : i ≤ l.length) : (l ++ a :: l₁)[i]? = (l ++ a :: l₂)[i]? := by
  rcases h.lt_or_eq with h | rfl
  · rw [getElem?_append_left h, getElem?_append_left h]
  · simp

namespace ConfigBase

/-! ## The entries -/

def confs (env : Env) (received : List Row) (cb : ConfigBase) : List Bytes :=
  (cb.rows env received).map Row.conf

def TakesPart (cb : ConfigBase) : Prop := cb.config.seqno ≠ 0 ∨ cb.state = .dirty

variable {env : Env} {debug : Bool} {received : List Row} {cb : ConfigBase} {m : ConfigMessage}
  {bad : List Nat}

lemma serializeMine_of_takesPart (env : Env) (h : cb.TakesPart) :
    (cb.serializeMine env).1 = some (cb.config.serialize env true).1 := by
  have hpart : cb.config.seqno ≠ 0 ∨ cb.state = .dirty := h
  unfold serializeMine
  rw [if_pos hpart]

lemma serializeMine_of_not_takesPart (env : Env) (h : ¬cb.TakesPart) :
    (cb.serializeMine env).1 = none := by
  have hpart : ¬(cb.config.seqno ≠ 0 ∨ cb.state = .dirty) := h
  unfold serializeMine
  rw [if_neg hpart]

lemma rows_of_not_takesPart (env : Env) (received : List Row) (h : ¬cb.TakesPart) :
    cb.rows env received = received := by
  unfold rows allRows
  rw [serializeMine_of_not_takesPart env h]

lemma rows_of_known (env : Env) (received : List Row) (h : cb.TakesPart)
    (hcurr : cb.currHashes ≠ ∅) : cb.rows env received =
      ⟨cb.currHashes, (cb.config.serialize env true).1⟩ :: received := by
  unfold rows allRows
  rw [serializeMine_of_takesPart env h]
  exact if_neg hcurr

lemma rows_of_unknown (env : Env) (received : List Row) (h : cb.TakesPart)
    (hcurr : cb.currHashes = ∅) : cb.rows env received =
      received ++ [⟨cb.currHashes, (cb.config.serialize env true).1⟩] := by
  unfold rows allRows
  rw [serializeMine_of_takesPart env h, hcurr]
  exact if_pos rfl

lemma mineIndex_of_takesPart (env : Env) (rows : List Row) (h : cb.TakesPart) :
    cb.mineIndex (cb.serializeMine env).1 rows =
      if cb.currHashes = ∅ then rows.length - 1 else 0 := by
  unfold mineIndex
  rw [serializeMine_of_takesPart env h]
  simp

lemma row_cases {j : Nat} {row : Row} (h : (cb.rows env received)[j]? = some row) :
    row ∈ received ∨ (cb.TakesPart ∧ row = ⟨cb.currHashes, (cb.config.serialize env true).1⟩ ∧
      j = cb.mineIndex (cb.serializeMine env).1 (cb.rows env received)) := by
  by_cases hpart : cb.TakesPart
  · rw [mineIndex_of_takesPart env _ hpart]
    by_cases hcurr : cb.currHashes = ∅
    · rw [if_pos hcurr]
      rw [rows_of_unknown env received hpart hcurr] at h ⊢
      have hlt := (List.getElem?_eq_some_iff.mp h).1
      rw [List.length_append, List.length_singleton] at hlt ⊢
      by_cases hj : j < received.length
      · rw [List.getElem?_append_left hj] at h
        exact Or.inl (List.mem_of_getElem? h)
      have hlast : j = received.length := by omega
      subst hlast
      rw [List.getElem?_concat_length] at h
      cases h
      exact Or.inr ⟨hpart, rfl, rfl⟩
    rw [if_neg hcurr]
    rw [rows_of_known env received hpart hcurr] at h
    cases j with
    | zero =>
      cases h
      exact Or.inr ⟨hpart, rfl, rfl⟩
    | succ j => exact Or.inl (List.mem_of_getElem? h)
  left
  rw [rows_of_not_takesPart env received hpart] at h
  exact List.mem_of_getElem? h

lemma own_row (env : Env) (received : List Row) (h : cb.TakesPart) :
    (cb.rows env received)[cb.mineIndex (cb.serializeMine env).1 (cb.rows env received)]? =
      some ⟨cb.currHashes, (cb.config.serialize env true).1⟩ := by
  rw [mineIndex_of_takesPart env _ h]
  by_cases hcurr : cb.currHashes = ∅
  · rw [if_pos hcurr, rows_of_unknown env received h hcurr]
    simp
  · rw [if_neg hcurr, rows_of_known env received h hcurr]
    rfl

lemma conf_mem_confs {j : Nat} {row : Row} (h : (cb.rows env received)[j]? = some row) :
    row.conf ∈ cb.confs env received :=
  mem_map_of_mem (mem_of_getElem? h)

/-! ## The message taken -/

section

variable (h : cb.MergesTo env debug received m bad)

include h

lemma MergesTo.forall₂ :
    List.Forall₂ (Accepts env cb.config.base.verifier cb.config.base.signer configLags)
      ((cb.confs env received).filter
        (parses env cb.config.base.verifier cb.config.base.signer configLags))
      (cb.accepted env debug received) ∧
    ∀ j row, (cb.rows env received)[j]? = some row → j ∉ bad → ∃ c,
      Accepts env cb.config.base.verifier cb.config.base.signer configLags row.conf c := by
  obtain ⟨configs, hparse, -, -⟩ := mergeConfigs_inv h
  have heq : cb.accepted env debug received = configs := by
    unfold ConfigBase.accepted
    rw [hparse]
  obtain ⟨hall, hbad⟩ := parseAll_forall₂ hparse
  rw [heq]
  refine ⟨hall, fun j row hrow hj => hbad j row.conf ?_ (by rwa [Nat.zero_add])⟩
  rw [getElem?_map, hrow]
  rfl

lemma MergesTo.coherent
    (hinj : Set.InjOn env.blake2b {b | b ∈ cb.confs env received}) :
    Coherent (cb.accepted env debug received) :=
  coherent_of_accepts h.forall₂.1 (hinj.mono fun _ hb => mem_of_mem_filter hb)

lemma MergesTo.mem_accepted {b : Bytes} (hb : b ∈ cb.confs env received) {c : ConfigMessage}
    (hc : Accepts env cb.config.base.verifier cb.config.base.signer configLags b c) :
    c ∈ cb.accepted env debug received :=
  mem_messages h.forall₂.1 (mem_filter.mpr ⟨hb, parses_iff.mpr ⟨c, hc⟩⟩) hc

end

lemma mem_accepted_inv {c : ConfigMessage} (h : c ∈ cb.accepted env debug received) :
    ∃ b ∈ cb.confs env received,
      Accepts env cb.config.base.verifier cb.config.base.signer configLags b c := by
  unfold accepted at h
  split at h
  · next r hr => exact accepts_of_mem_parseAll hr c h
  · simp at h

/-- The seqno of an object is not above that of the messages it merges, if it can parse its own
message and a new object is given no negative seqnos. -/
lemma MergesTo.seqno_le (h : cb.MergesTo env debug received m bad)
    (hwf : cb.config.WellFormed) (hlag : cb.config.base.lag = configLags)
    (hown : cb.TakesPart → SignatureAccepted env cb.config.base.verifier cb.config.refreshed true)
    (hnonneg : ¬cb.TakesPart → ∀ row ∈ received, ∀ c,
      Accepts env cb.config.base.verifier cb.config.base.signer configLags row.conf c →
      0 ≤ c.seqno) : cb.config.seqno ≤ maxSeqno (cb.accepted env debug received) := by
  by_cases hpart : cb.TakesPart
  · have hparse := parse_serialize env hwf.refreshed (hown hpart) cb.config.base.signer false
    rw [AnyMessage.refreshed_lag, hlag, ← AnyMessage.serialize_fst] at hparse
    have hle := le_maxSeqno (h.mem_accepted (conf_mem_confs (own_row env _ hpart)) hparse)
    rwa [← AnyMessage.refreshed_seqno cb.config]
  obtain ⟨hne, -, hparsed⟩ := h.accepted
  obtain ⟨c, hc⟩ := exists_mem_of_ne_nil _ hne
  obtain ⟨b, hb, hacc⟩ := hparsed c hc
  rw [rows_of_not_takesPart env _ hpart] at hb
  obtain ⟨row, hrow, rfl⟩ := mem_map.mp hb
  have hpos := hnonneg hpart row hrow c hacc
  have hle := le_maxSeqno hc
  have hzero : cb.config.seqno = 0 := by
    by_contra hs
    exact hpart (Or.inl hs)
  omega

/-- The messages of a batch leave one that is not redundant, and an entry with it stands before
all those the parser rejects. -/
def TakenFirst (env : Env) (debug : Bool) (received : List Row) (cb : ConfigBase) : Prop :=
  ∀ c, (∀ n, Live configLags (cb.accepted env debug received) n ↔ n = c) →
    ∃ pre b post, cb.confs env received = pre ++ b :: post ∧
      Accepts env cb.config.base.verifier cb.config.base.signer configLags b c ∧
      ∀ b' ∈ pre, ∃ c', Accepts env cb.config.base.verifier cb.config.base.signer configLags b' c'

lemma takenFirst_of_accepts (h : ∀ b ∈ cb.confs env received, ∃ c,
      Accepts env cb.config.base.verifier cb.config.base.signer configLags b c) :
    cb.TakenFirst env debug received := by
  intro c hc
  obtain ⟨b, hb, hacc⟩ := mem_accepted_inv ((hc c).mpr rfl).mem
  obtain ⟨pre, post, hconfs⟩ := append_of_mem hb
  refine ⟨pre, b, post, hconfs, hacc, fun b' hb' => h b' ?_⟩
  rw [hconfs]
  exact mem_append_left _ hb'

structure TakenRow (env : Env) (debug : Bool) (received : List Row) (cb : ConfigBase)
    (m : ConfigMessage) (k : Nat) (row : Row) (c : ConfigMessage) : Prop where
  row_eq : (cb.rows env received)[k]? = some row
  bytes_eq : ((cb.confs env received).filter
    (parses env cb.config.base.verifier cb.config.base.signer configLags))[k]? = some row.conf
  accepts : Accepts env cb.config.base.verifier cb.config.base.signer configLags row.conf c
  message : m = { c with unmerged := some k }
  newest : c.seqno = maxSeqno (cb.accepted env debug received)
  /-- Every entry with the same seqno is the same message, and stands behind. -/
  only : ∀ j row' c', (cb.rows env received)[j]? = some row' →
    Accepts env cb.config.base.verifier cb.config.base.signer configLags row'.conf c' →
    c'.seqno = maxSeqno (cb.accepted env debug received) → row'.conf = row.conf ∧ k ≤ j

/-- **The index of the message taken is the index of its entry**, if no entry before it was
rejected. -/
lemma MergesTo.takenRow (h : cb.MergesTo env debug received m bad) {k : Nat}
    (hk : m.unmerged = some k) (hw : ¬(cb.config.base.verifier.isSome ∧
      cb.config.base.signer = none))
    (hinj : Set.InjOn env.blake2b {b | b ∈ cb.confs env received})
    (hfirst : cb.TakenFirst env debug received) :
    ∃ row c, cb.TakenRow env debug received m k row c := by
  obtain ⟨hne, hacc, -⟩ := h.accepted
  obtain ⟨c, hsurv, hidx, hm⟩ := mergeAccepted_single_inv hw hacc hk
  have hcoh := h.coherent hinj
  have hlive : ∀ n, Live configLags (cb.accepted env debug received) n ↔ n = c := by
    intro n
    rw [← mem_survivors hcoh, hsurv, mem_singleton]
  obtain ⟨-, hget, hred, -⟩ := mem_survivorIdx.mp hidx
  obtain ⟨pre, b, post, hconfs, hb, hpre⟩ := hfirst c hlive
  -- up to the entry `b` the indices of entries and of messages agree
  have hsame : ∀ i ≤ pre.length, ((cb.confs env received).filter
      (parses env cb.config.base.verifier cb.config.base.signer configLags))[i]? =
        (cb.confs env received)[i]? := by
    intro i hi
    have hfilter : pre.filter
        (parses env cb.config.base.verifier cb.config.base.signer configLags) = pre :=
      filter_eq_self.mpr fun b' hb' => parses_iff.mpr (hpre b' hb')
    rw [hconfs, filter_append, hfilter, filter_cons_of_pos (parses_iff.mpr ⟨c, hb⟩)]
    exact getElem?_append_cons_congr hi
  have hall := h.forall₂.1
  -- a message behind another one with its hash is redundant
  have hearliest : ∀ i c', (cb.accepted env debug received)[i]? = some c' →
      c'.seqnoHash = c.seqnoHash → k ≤ i := by
    intro i c' hi heq
    by_contra hlt
    exact (isRedundant_eq_false_iff.mp hred i c' hi (by omega)).2 (by omega) heq
  have hkle : k ≤ pre.length := by
    have hat : ((cb.confs env received).filter
        (parses env cb.config.base.verifier cb.config.base.signer configLags))[pre.length]? =
          some b := by
      rw [hsame _ le_rfl, hconfs]
      simp
    obtain ⟨c', hc', hacc'⟩ := exists_message_at hall hat
    exact hearliest _ c' hc' (by rw [accepts_unique hacc' hb])
  obtain ⟨bk, hbytes, hbkc⟩ := exists_bytes_at hall hget
  have hbk := hbytes
  rw [hsame k hkle] at hbk
  unfold confs at hbk
  rw [getElem?_map] at hbk
  obtain ⟨row, hrow, rfl⟩ := Option.map_eq_some_iff.mp hbk
  have hnewest : c.seqno = maxSeqno (cb.accepted env debug received) := by
    obtain ⟨c', hc', hmax⟩ := exists_maxSeqno hcoh.int64_min_le hne
    rw [← (hlive c').mp (hcoh.live_of_maxSeqno (by decide) hc' hmax)]
    exact hmax
  refine ⟨row, c, hrow, hbytes, hbkc, hm, hnewest, fun j row' c' hj hc' hmax => ?_⟩
  have hlive' := (hlive c').mp
    (hcoh.live_of_maxSeqno (by decide) (h.mem_accepted (conf_mem_confs hj) hc') hmax)
  subst hlive'
  refine ⟨hinj (conf_mem_confs hj) (conf_mem_confs hrow) ?_, ?_⟩
  · rw [← (parse_inv hc').hash, ← (parse_inv hbkc).hash]
  by_contra hlt
  have hat : ((cb.confs env received).filter
      (parses env cb.config.base.verifier cb.config.base.signer configLags))[j]? =
        some row'.conf := by
    rw [hsame j (by omega)]
    unfold confs
    rw [getElem?_map, hj]
    rfl
  obtain ⟨c2, hc2, hacc2⟩ := exists_message_at hall hat
  exact hlt (hearliest j c2 hc2 (by rw [accepts_unique hacc2 hc']))

end ConfigBase

end Bchat.Config
