import Bchat.Properties.Delivery
import Bchat.Properties.Run

/-!
# The multipart table across a restart

What a restored table does with further parts, compared with the table that was dumped.
-/

namespace Bchat.Config

open Bencode List SortedMap Device PartialMessages Option

variable {now : Int} {e : PartialMessages} {t : Multiparts} {env : Env} {tr : Transport}
  {msgId : MsgId} {message : Bytes} {part : Part} {x : Int × List PartialMessage} {n : Int}
  {parts ps : List PartialMessage} {p : PartialMessage} {dev : Device}

/-! ## Tables the handler cannot tell apart -/

/-- What the handler sees of an entry: whether the set is done, and otherwise the parts and, if
there are any, the size. -/
def PartialMessages.seen (entry : PartialMessages) : Bool × Int × List PartialMessage :=
  if entry.done then (true, 0, [])
  else if entry.parts = [] then (false, 0, [])
  else (false, entry.size, entry.parts)

def seenOf (h : Hash) (table : Multiparts) : Bool × Int × List PartialMessage :=
  ((SortedMap.find? h table).getD .new).seen

def Alike (t t' : Multiparts) : Prop := ∀ h, seenOf h t = seenOf h t'

/-- What the handler returns for a part: whether it was accepted, and what it has completed. -/
abbrev Outcome := Bool × Option (List MsgId × Bytes)

instance : DecidableEq Outcome := inferInstanceAs (DecidableEq (Bool × Option _))

def handleAll (env : Env) (tr : Transport) :
    List (Int × MsgId × Bytes) → Multiparts → List Outcome
  | [], _ => []
  | (now, msgId, message) :: rest, table =>
    let r := handleMultipart env tr now msgId message table
    (r.accepted, r.completed) :: handleAll env tr rest r.table

def SameBehaviour (env : Env) (tr : Transport) (t t' : Multiparts) : Prop :=
  ∀ parts, handleAll env tr parts t = handleAll env tr parts t'

section

variable {t' : Multiparts} {e' : PartialMessages}

lemma seenOf_insert_self (h : Hash) (e : PartialMessages) (t : Multiparts) :
    seenOf h (insert h e t) = e.seen := by
  rw [seenOf, find?_insert_self, getD_some]

lemma seenOf_emplace_new (h : Hash) (t : Multiparts) :
    seenOf h (emplace h .new t) = seenOf h t := by
  rw [seenOf, find?_emplace_new, getD_some, seenOf]

lemma storePart_congr (hdone : e.done = e'.done) (hsize : e.size = e'.size)
    (hparts : e.parts = e'.parts) : (storePart env tr now msgId part e t).accepted =
      (storePart env tr now msgId part e' t').accepted ∧
    (storePart env tr now msgId part e t).completed =
      (storePart env tr now msgId part e' t').completed ∧
    seenOf part.finalHash (storePart env tr now msgId part e t).table =
      seenOf part.finalHash (storePart env tr now msgId part e' t').table := by
  unfold storePart
  simp only [hsize, hparts]
  split
  · split
    · simp only [seenOf_insert_self, seen, hdone, and_self]
    · split <;> simp only [seenOf_insert_self, and_self]
  · simp only [seenOf_insert_self, seen, hdone, and_self]

lemma seen_eq_cases (h : e.seen = e'.seen) : (e.done = true ∧ e'.done = true) ∨
    (e.done = false ∧ e'.done = false ∧ e.parts = e'.parts ∧
      (e.parts ≠ [] → e.size = e'.size)) := by
  unfold seen at h
  cases hd : e.done <;> cases hd' : e'.done <;> simp only [hd, hd'] at h ⊢ <;>
    by_cases hp : e.parts = [] <;> by_cases hp' : e'.parts = [] <;> simp_all

lemma handleMultipart_congr_part (env : Env) (tr : Transport) (now : Int) (msgId : MsgId)
    (hparse : parsePart message = some part)
    (h : seenOf part.finalHash t = seenOf part.finalHash t') :
    (handleMultipart env tr now msgId message t).accepted =
      (handleMultipart env tr now msgId message t').accepted ∧
    (handleMultipart env tr now msgId message t).completed =
      (handleMultipart env tr now msgId message t').completed ∧
    seenOf part.finalHash (handleMultipart env tr now msgId message t).table =
      seenOf part.finalHash (handleMultipart env tr now msgId message t').table := by
  unfold handleMultipart
  simp only [hparse, find?_emplace_new, getD_some]
  have hemplace : seenOf part.finalHash (emplace part.finalHash .new t) =
      seenOf part.finalHash (emplace part.finalHash .new t') := by
    rw [seenOf_emplace_new, seenOf_emplace_new, h]
  unfold seenOf at h
  set e := (find? part.finalHash t).getD .new
  set e' := (find? part.finalHash t').getD .new
  rcases seen_eq_cases h with ⟨hd, hd'⟩ | ⟨hd, hd', hparts, hsize⟩
  · rw [if_pos hd, if_pos hd']
    exact ⟨rfl, rfl, hemplace⟩
  have hnd : ¬e.done = true := by simp [hd]
  have hnd' : ¬e'.done = true := by simp [hd']
  rw [if_neg hnd, if_neg hnd']
  have hmismatch : (e.parts ≠ [] ∧ (part.numParts.toNat : Int) ≠ e.size) ↔
      (e'.parts ≠ [] ∧ (part.numParts.toNat : Int) ≠ e'.size) := by
    rw [← hparts]
    exact and_congr_right fun hp => by rw [hsize hp]
  by_cases hm : e.parts ≠ [] ∧ (part.numParts.toNat : Int) ≠ e.size
  · rw [if_pos hm, if_pos (hmismatch.mp hm)]
    exact ⟨rfl, rfl, hemplace⟩
  rw [if_neg hm, if_neg (fun hc => hm (hmismatch.mpr hc)), ← hparts]
  split
  · refine ⟨rfl, rfl, ?_⟩
    rw [seenOf_insert_self, seenOf_insert_self]
    simp only [seen, hd, hd', hparts]
  · exact storePart_congr (hd.trans hd'.symm) rfl rfl

lemma handleMultipart_congr (env : Env) (tr : Transport) (now : Int) (msgId : MsgId)
    (message : Bytes) (h : Alike t t') : (handleMultipart env tr now msgId message t).accepted =
      (handleMultipart env tr now msgId message t').accepted ∧
    (handleMultipart env tr now msgId message t).completed =
      (handleMultipart env tr now msgId message t').completed ∧
    Alike (handleMultipart env tr now msgId message t).table
      (handleMultipart env tr now msgId message t').table := by
  cases hparse : parsePart message with
  | none =>
    unfold handleMultipart
    simp only [hparse, true_and]
    exact h
  | some part =>
    obtain ⟨hacc, hcomp, hseen⟩ := handleMultipart_congr_part env tr now msgId hparse
      (h part.finalHash)
    refine ⟨hacc, hcomp, fun k => ?_⟩
    by_cases hk : part.finalHash = k
    · exact hk ▸ hseen
    have hne : ∀ p, parsePart message = some p → p.finalHash ≠ k := by
      intro p hp
      cases hparse.symm.trans hp
      exact hk
    have hk := h k
    unfold seenOf at hk ⊢
    rw [handleMultipart_table_ne hne, handleMultipart_table_ne hne, hk]

lemma Alike.sameBehaviour (h : Alike t t') : SameBehaviour env tr t t' := by
  intro parts
  induction parts generalizing t t' with
  | nil => rfl
  | cons x parts ih =>
    obtain ⟨now, msgId, message⟩ := x
    obtain ⟨hacc, hcomp, halike⟩ := handleMultipart_congr env tr now msgId message h
    simp only [handleAll]
    rw [hacc, hcomp, ih halike]

/-! ## Parts that tell tables apart -/

def probe (h : Hash) (index numParts : UInt8) : Part := ⟨h, index, numParts, [0]⟩

lemma parsePart_probe (h : Hash) (index numParts : UInt8) (hnum : 1 < numParts)
    (hindex : index < numParts) :
    parsePart (partBuffer (probe h index numParts)) = some (probe h index numParts) := by
  refine parsePart_partBuffer hnum hindex (by simp [probe]) ?_
  rw [length_partBuffer (by simp [probe])]
  simp only [probe, length_singleton]
  decide

lemma seen_of_done (h : e.done = true) : e.seen = (true, 0, []) := by
  rw [seen, if_pos h]

lemma done_of_seen (h : e.seen = (true, x)) : e.done = true := by
  unfold seen at h
  by_contra hd
  rw [if_neg hd] at h
  split at h <;> simp at h

lemma parts_of_seen (h : e.seen = (false, n, parts)) :
    e.done = false ∧ e.parts = parts ∧ (parts ≠ [] → e.size = n) := by
  unfold seen at h
  cases hd : e.done <;> simp only [hd] at h
  · by_cases hp : e.parts = []
    · simp_all
    · simp_all
  · simp at h

lemma handleMultipart_done (env : Env) (tr : Transport) (now : Int) (msgId : MsgId)
    (hparse : parsePart message = some part) (h : seenOf part.finalHash t = (true, x)) :
    (handleMultipart env tr now msgId message t).accepted = true ∧
      (handleMultipart env tr now msgId message t).completed = none ∧
      seenOf part.finalHash (handleMultipart env tr now msgId message t).table =
        seenOf part.finalHash t := by
  unfold handleMultipart
  simp only [hparse, find?_emplace_new, getD_some]
  rw [if_pos (done_of_seen h)]
  exact ⟨rfl, rfl, seenOf_emplace_new _ _⟩

lemma handleMultipart_first (env : Env) (tr : Transport) (now : Int) (msgId : MsgId)
    (hparse : parsePart message = some part) (hnum : 1 < part.numParts)
    (h : seenOf part.finalHash t = (false, n, [])) :
    (handleMultipart env tr now msgId message t).accepted = true ∧
      seenOf part.finalHash (handleMultipart env tr now msgId message t).table =
        (false, (part.numParts.toNat : Int), [⟨part.index.toNat, msgId, part.data⟩]) := by
  obtain ⟨hd, hp, -⟩ := parts_of_seen h
  have hne : ¬(1 : Int) = part.numParts.toNat := by
    have := UInt8.lt_iff_toNat_lt.mp hnum
    simp only [UInt8.toNat_one] at this
    omega
  rw [handleMultipart_new hparse hd (.inl hp) (by rw [hp]; rfl)]
  simp [hd, hp, storePart, placePart, hne, seenOf_insert_self, seen]

lemma handleMultipart_other_size (hparse : parsePart message = some part)
    (h : seenOf part.finalHash t = (false, n, p :: ps)) (hn : (part.numParts.toNat : Int) ≠ n) :
    (handleMultipart env tr now msgId message t).accepted = false := by
  obtain ⟨hd, hp, hsize⟩ := parts_of_seen h
  unfold handleMultipart
  simp only [hparse, find?_emplace_new, getD_some]
  simp [hd, hp, hsize, hn]

lemma storePart_zeros (h : Hash) (hindex : p.index = 0) (hdata : p.data = [0])
    (hparts : e.parts = [p]) (hsize : e.size = 2) :
    (storePart env tr now msgId (probe h 1 2) e t).accepted = false := by
  have hplace : placePart ⟨(probe h 1 2).index.toNat, msgId, (probe h 1 2).data⟩ e.parts =
      [p, ⟨1, msgId, [0]⟩] := by
    rw [hparts, placePart_cons, hindex]
    rfl
  have hinflate : inflate tr.zstd (removePadding [0, 0]) = none := rfl
  unfold storePart
  simp only [hplace, hsize, map_cons, map_nil, flatten_cons, flatten_nil,
    append_nil, hdata, cons_append, nil_append, hinflate]
  split
  · split <;> rfl
  · next hne => exact absurd rfl hne

lemma handleMultipart_second (env : Env) (tr : Transport) (now : Int) (msgId : MsgId) (h : Hash)
    (hindex : p.index = 0) (hdata : p.data = [0]) (hseen : seenOf h t = (false, 2, [p])) :
    (handleMultipart env tr now msgId (partBuffer (probe h 1 2)) t).accepted = false := by
  obtain ⟨hd, hparts, hsize⟩ := parts_of_seen hseen
  have hnew : alreadySeen (1 : UInt8).toNat [p] = false := by simp [alreadySeen, hindex]
  rw [handleMultipart_new (parsePart_probe h 1 2 (by decide) (by decide)) hd
    (.inr (hsize (by simp)).symm) (by rw [← hnew, ← hparts]; rfl)]
  exact storePart_zeros h hindex hdata hparts rfl

lemma not_sameBehaviour_of_done {h : Hash} (ht : seenOf h t = (true, x))
    (ht' : seenOf h t' = (false, n, [])) : ¬SameBehaviour env tr t t' := by
  intro hsame
  have hrun := hsame [(0, [], partBuffer (probe h 0 2)), (0, [], partBuffer (probe h 1 2))]
  have hparse := parsePart_probe h 0 2 (by decide) (by decide)
  simp only [handleAll, cons.injEq, Prod.mk.injEq] at hrun
  obtain ⟨-, -, hkeep⟩ := handleMultipart_done env tr 0 [] hparse ht
  obtain ⟨hacc, -, -⟩ := handleMultipart_done env tr 0 []
    (parsePart_probe h 1 2 (by decide) (by decide)) (hkeep.trans ht)
  obtain ⟨-, hfirst⟩ := handleMultipart_first env tr 0 [] hparse
    (show 1 < (2 : UInt8) by decide) ht'
  have hrefused := handleMultipart_second env tr 0 [] h rfl rfl hfirst
  rw [hacc, hrefused] at hrun
  exact absurd hrun.2.1.1 (by decide)

lemma not_sameBehaviour_of_parts {h : Hash} {n' : Int} (ht : seenOf h t = (false, n, p :: ps))
    (ht' : seenOf h t' = (false, n', [])) : ¬SameBehaviour env tr t t' := by
  intro hsame
  obtain ⟨m, hm, hmn⟩ : ∃ m : UInt8, 1 < m ∧ (m.toNat : Int) ≠ n := by
    by_cases h2 : n = 2
    · exact ⟨3, by decide, by rw [h2]; decide⟩
    · exact ⟨2, by decide, fun hc => h2 hc.symm⟩
  have hrun := hsame [(0, [], partBuffer (probe h 0 m))]
  have hparse := parsePart_probe h 0 m hm (lt_trans (by decide) hm)
  simp only [handleAll, cons.injEq, Prod.mk.injEq] at hrun
  rw [handleMultipart_other_size hparse ht hmn, (handleMultipart_first env tr 0 [] hparse hm ht').1]
      at hrun
  exact absurd hrun.1.1 (by decide)

end

/-! ## Tables in use -/

/-- The numbers of an entry fit into a dump, and a set that has been begun has a size. -/
structure PartialMessages.WellFormed (e : PartialMessages) : Prop where
  size : InInt32 e.size
  begun : e.done = false → e.parts ≠ [] → 0 < e.size
  index : ∀ p ∈ e.parts, InInt32 p.index

structure Multiparts.WellFormed (t : Multiparts) : Prop where
  sorted : SortedMap.Sorted t
  entry : ∀ p ∈ t, p.2.WellFormed

lemma inInt32_byte (b : UInt8) : InInt32 b.toNat := by
  have := b.toNat_lt
  unfold InInt32
  omega

lemma PartialMessages.wellFormed_new : new.WellFormed where
  size := by decide
  begun _ h := absurd rfl h
  index := by simp [new]

lemma PartialMessages.wellFormed_finish (now lifetime : Int) :
    (finish now lifetime).WellFormed where
  size := show InInt32 0 by decide
  begun h := absurd h (by simp [finish])
  index := by simp [finish]

lemma parsePart_numParts {message : Bytes} {part : Part} (h : parsePart message = some part) :
    1 < part.numParts := by
  unfold parsePart at h
  split at h
  · cases h
  split at h
  · split at h
    · cases h
    simp only [bind_eq_bind, bind_eq_some_iff, Prod.exists, dite_none_right_eq_some] at h
    obtain ⟨hash, rest, -, hlen, indexBytes, rest', -, sizeBytes, rest'', -, h⟩ := h
    split at h
    · simp only [ite_none_left_eq_some, ite_none_right_eq_some,
        bind_eq_some_iff, Prod.exists, not_or, not_le, some.injEq] at h
      obtain ⟨hnum, data, rest, -, -, -, rfl⟩ := h
      exact hnum.1
    · cases h
  · cases h

namespace Multiparts.WellFormed

lemma nil : Multiparts.WellFormed [] := ⟨sorted_nil, by simp⟩

lemma insert (ht : t.WellFormed) (h : Hash) (he : e.WellFormed) :
    Multiparts.WellFormed (insert h e t) where
  sorted := ht.sorted.insert
  entry p hp := by
    rcases mem_insert hp with rfl | hp
    · exact he
    · exact ht.entry p hp

lemma emplace_new (ht : t.WellFormed) (h : Hash) : Multiparts.WellFormed (emplace h .new t) where
  sorted := ht.sorted.emplace
  entry p hp := by
    rcases mem_emplace hp with rfl | hp
    · exact wellFormed_new
    · exact ht.entry p hp

lemma getD (ht : t.WellFormed) (h : Hash) : ((find? h t).getD .new).WellFormed := by
  cases hf : find? h t with
  | none => exact wellFormed_new
  | some e => exact ht.entry _ (mem_of_find? hf)

lemma expire (ht : t.WellFormed) (now : Int) : (expireMultiparts now t).WellFormed where
  sorted := ht.sorted.filter _
  entry p hp := ht.entry p (mem_of_mem_filter hp)

lemma storePart (ht : t.WellFormed) (he : e.WellFormed) (hsize : 0 < e.size) :
    (storePart env tr now msgId part e t).table.WellFormed := by
  have hparts : ∀ q ∈ placePart ⟨part.index.toNat, msgId, part.data⟩ e.parts, InInt32 q.index := by
    intro q hq
    rcases mem_placePart.mp hq with rfl | hq
    · exact inInt32_byte part.index
    · exact he.index q hq
  unfold Config.storePart
  simp only
  split
  · split
    · exact ht.insert _ ⟨he.size, fun _ _ => hsize, hparts⟩
    split
    all_goals exact ht.insert _ (wellFormed_finish _ _)
  · exact ht.insert _ ⟨he.size, fun _ _ => hsize, hparts⟩

lemma handleMultipart (ht : t.WellFormed) :
    (handleMultipart env tr now msgId message t).table.WellFormed := by
  unfold Config.handleMultipart
  cases hparse : parsePart message with
  | none => exact ht
  | some part =>
    have hnum : (0 : Int) < part.numParts.toNat := by
      have := UInt8.lt_iff_toNat_lt.mp (parsePart_numParts hparse)
      omega
    have hgetD := ht.getD part.finalHash
    have hentry : PartialMessages.WellFormed
        { (find? part.finalHash t).getD .new with size := part.numParts.toNat } :=
      ⟨inInt32_byte _, fun _ _ => hnum, hgetD.index⟩
    simp only [find?_emplace_new, getD_some]
    split
    · exact ht.emplace_new _
    split
    · exact ht.emplace_new _
    split
    · exact (ht.emplace_new _).insert _ hentry
    · exact (ht.emplace_new _).storePart hentry hnum

end Multiparts.WellFormed

/-! ## Dumping and restoring -/

lemma loadParts_dumpPart (h : ∀ p ∈ parts, InInt32 p.index) :
    loadParts (parts.map dumpPart) = .ok parts := by
  induction parts with
  | nil => rfl
  | cons p parts ih =>
    have hp : loadPart (dumpPart p) = .ok p := by
      exact if_pos (h p mem_cons_self)
    rw [map_cons, loadParts, hp, ok_bind, ih fun q hq => h q (mem_cons_of_mem _ hq)]
    rfl

def PartialMessages.restoredExpiry (e : PartialMessages) : Int := epochMs e.expiry * 10 ^ 6

/-- What a restart makes of an entry. Nothing in it is done any more. -/
def PartialMessages.restored (now : Int) (e : PartialMessages) : Option PartialMessages :=
  if e.restoredExpiry < now then none
  else if e.done then some ⟨false, 0, [], e.restoredExpiry⟩
  else some ⟨false, e.size, if 0 < e.size then e.parts else [], e.restoredExpiry⟩

lemma requireInt_cons_self (key : Bytes) (i : Int) (rest : BtDict) :
    requireInt key ((key, .int i) :: rest) = .ok (i, rest) := by
  unfold requireInt
  rw [skipUntil_cons_self]

lemma loadEntry_dumpEntry (now : Int) (he : e.WellFormed) :
    loadEntry now (dumpEntry e) = .ok (e.restored now) := by
  unfold loadEntry dumpEntry restored restoredExpiry
  cases hd : e.done with
  | true =>
    simp only [if_true, append_nil, requireInt_cons_self, ok_bind]
    rw [if_neg (by decide)]
    split <;> rfl
  | false =>
    simp only [Bool.false_eq_true, if_false, cons_append, nil_append,
      requireInt_cons_self, ok_bind, not_true, he.size]
    split
    · rfl
    split
    · rw [skipUntil_cons_self]
      simp only [loadParts_dumpPart he.index, ok_bind]
    · rfl

lemma loadMultiparts_dumpEntry (now : Int) {l : Multiparts} (hl : l.WellFormed)
    (ht : SortedMap.Sorted t) (hnew : ∀ p ∈ l, find? p.1 t = none) :
    ∃ t', loadMultiparts now (l.map fun p => (p.1.val, .dict (dumpEntry p.2))) t = .ok t' ∧
      SortedMap.Sorted t' ∧ ∀ h, SortedMap.find? h t' =
        (find? h t).or ((find? h l).bind (restored now)) := by
  induction l generalizing t with
  | nil => exact ⟨t, rfl, ht, fun h => by simp⟩
  | cons p l ih =>
    obtain ⟨k, e⟩ := p
    obtain ⟨hlt, hsorted⟩ := sorted_cons.mp hl.sorted
    obtain ⟨he, hentries⟩ := forall_mem_cons.mp hl.entry
    obtain ⟨hk, hnew⟩ := forall_mem_cons.mp hnew
    have hkl : find? k l = none := find?_eq_none_iff.mpr fun q hq => (hlt q hq).ne'
    rw [map_cons, loadMultiparts, dif_pos k.2, loadEntry_dumpEntry now he, ok_bind]
    cases hr : e.restored now with
    | none =>
      obtain ⟨t', hload, hsorted', hfind⟩ := ih ⟨hsorted, hentries⟩ ht hnew
      refine ⟨t', hload, hsorted', fun h => ?_⟩
      rw [hfind, SortedMap.find?_cons]
      by_cases hkh : k = h
      · rw [← hkh, hkl, if_pos rfl, bind_some, hr, bind_none]
      · rw [if_neg hkh]
    | some pm =>
      have hnew' : ∀ q ∈ l, find? q.1 (insert k pm t) = none := fun q hq => by
        rw [find?_insert_ne (hlt q hq).ne, hnew q hq]
      obtain ⟨t', hload, hsorted', hfind⟩ := ih ⟨hsorted, hentries⟩ ht.insert hnew'
      refine ⟨t', hload, hsorted', fun h => ?_⟩
      rw [hfind, SortedMap.find?_cons, find?_insert]
      by_cases hkh : k = h
      · rw [← hkh, hkl, if_pos rfl, if_pos rfl, bind_some, hr, hk]
        rfl
      · rw [if_neg hkh, if_neg hkh]

lemma PartialMessages.WellFormed.restored {e' : PartialMessages} (he : e.WellFormed)
    (h : e.restored now = some e') : e'.WellFormed := by
  unfold PartialMessages.restored at h
  split at h
  · cases h
  split at h
  · cases h
    exact ⟨show InInt32 0 by decide, fun _ hne => absurd rfl hne, by simp⟩
  cases h
  by_cases hsize : 0 < e.size
  · simp only [hsize, if_true]
    exact ⟨he.size, fun _ _ => hsize, he.index⟩
  · simp only [hsize, if_false]
    exact ⟨he.size, fun _ hne => absurd rfl hne, by simp⟩

lemma PartialMessages.seen_restored_of_done (hd : e.done = true) (now : Int) :
    ((e.restored now).getD .new).seen = (false, 0, []) := by
  unfold restored
  split <;> rfl

lemma PartialMessages.seen_restored_of_expired (h : e.restoredExpiry < now) :
    ((e.restored now).getD .new).seen = (false, 0, []) := by
  unfold restored
  rw [if_pos h]
  rfl

lemma PartialMessages.WellFormed.seen_restored (he : e.WellFormed) (hd : e.done = false)
    (h : e.parts ≠ [] → now ≤ e.restoredExpiry) : ((e.restored now).getD .new).seen = e.seen := by
  unfold PartialMessages.restored
  by_cases hp : e.parts = []
  · simp only [hd, hp, seen, ite_self, Bool.false_eq_true, if_false, if_true]
    split <;> rfl
  · rw [if_neg (not_lt.mpr (h hp))]
    simp [hd, hp, seen, he.begun hd hp]

lemma sameBehaviour_restored_iff {env : Env} {tr : Transport} {t' : Multiparts}
    (ht : t.WellFormed) (hfind : ∀ h, SortedMap.find? h t' = (find? h t).bind (restored now)) :
    SameBehaviour env tr t t' ↔ ∀ p ∈ t, p.2.done = false ∧
      (p.2.parts ≠ [] → now ≤ p.2.restoredExpiry) := by
  have hseen : ∀ {h e}, SortedMap.find? h t = some e →
      seenOf h t = e.seen ∧ seenOf h t' = ((e.restored now).getD .new).seen := by
    intro h e he
    unfold seenOf
    rw [hfind, he]
    exact ⟨rfl, rfl⟩
  constructor
  · rintro hsame ⟨h, e⟩ hmem
    obtain ⟨hseen, hseen'⟩ := hseen (ht.sorted.find?_of_mem hmem)
    have hd : e.done = false := by
      by_contra hd
      rw [Bool.not_eq_false] at hd
      rw [seen_restored_of_done hd] at hseen'
      exact not_sameBehaviour_of_done (hseen.trans (seen_of_done hd)) hseen' hsame
    refine ⟨hd, fun hp => ?_⟩
    by_contra hlate
    rw [seen_restored_of_expired (not_le.mp hlate)] at hseen'
    obtain ⟨p, ps, hcons⟩ := exists_cons_of_ne_nil hp
    have hbegun : e.seen = (false, e.size, p :: ps) := by
      unfold seen
      rw [if_neg (by simp [hd]), if_neg hp, hcons]
    exact not_sameBehaviour_of_parts (hseen.trans hbegun) hseen' hsame
  intro hall
  refine Alike.sameBehaviour fun h => ?_
  cases he : find? h t with
  | none =>
    unfold seenOf
    rw [hfind, he]
    rfl
  | some e =>
    obtain ⟨hd, hp⟩ := hall _ (mem_of_find? he)
    rw [(hseen he).1, (hseen he).2, (ht.entry _ (mem_of_find? he)).seen_restored hd hp]

lemma Device.loadTable_dump (env : Env) (now now' : Int) (hwf : dev.multiparts.WellFormed) :
    ∃ t', loadTable env now' (dev.dump env now).1 = .ok t' ∧ t'.WellFormed ∧
      ∀ h, SortedMap.find? h t' = (SortedMap.find? h (expireMultiparts now dev.multiparts)).bind
        (restored now') := by
  have hexpired := hwf.expire now
  obtain ⟨t', hload, hsorted, hfind⟩ := loadMultiparts_dumpEntry now' hexpired
    (t := []) sorted_nil (fun p _ => rfl)
  have hdump : dumpMultiparts now (expireMultiparts now dev.multiparts) =
      (expireMultiparts now dev.multiparts).map fun p => (p.1.val, .dict (dumpEntry p.2)) := by
    unfold dumpMultiparts expireMultiparts
    rw [List.filter_filter]
    simp only [Bool.and_self]
  refine ⟨t', ?_, ⟨hsorted, ?_⟩, fun h => by rw [hfind, SortedMap.find?_nil, none_or]⟩
  · unfold loadTable dump makeDump
    rw [env.read_encode]
    simp only [afterHashes, skipUntil_cons_self, hdump]
    exact hload
  intro p hp
  have hf := hsorted.find?_of_mem hp
  rw [hfind, SortedMap.find?_nil, none_or] at hf
  obtain ⟨e, he, hr⟩ := bind_eq_some_iff.mp hf
  exact (hexpired.entry _ (mem_of_find? he)).restored hr

/-! ## Runs -/

namespace Device

/-- What can happen to the multipart table: the object merges, pushes, is dumped or restored, or
does something that leaves the table alone. -/
inductive Next (env : Env) (tr : Transport) : Device → Device → Prop
  | merge (dev : Device) (debug : Bool) (now : Int) (configs : List (MsgId × Bytes)) :
    Next env tr dev (dev.merge env tr debug now configs).1
  | push (dev : Device) (now : Int) : Next env tr dev (dev.push env tr now).1
  | dump (dev : Device) (now : Int) : Next env tr dev (dev.dump env now).2
  | restore {dev dev' : Device} (now now' : Int) (sigKeys : SigKeys) :
    restore env now' (dev.dump env now).1 sigKeys = .ok dev' → Next env tr dev dev'
  | other (dev : Device) (base : ConfigBase) (keys : List Key) :
    Next env tr dev ⟨base, keys, dev.multiparts⟩

lemma wellFormed_decodeAll (keys : List Key) (now : Int) (configs : List (MsgId × Bytes))
    (ht : t.WellFormed) : (decodeAll env tr keys now configs t).2.2.1.WellFormed := by
  induction configs generalizing t with
  | nil => exact ht
  | cons x configs ih =>
    refine ih ?_
    unfold decode
    split
    · unfold decodePlain
      simp only
      split
      · exact ht.handleMultipart
      · split <;> exact ht
    · exact ht

lemma wellFormed_push (now : Int) (h : dev.multiparts.WellFormed) :
    (dev.push env tr now).1.multiparts.WellFormed := by
  unfold push
  split
  · exact h
  simp only
  split
  · exact h
  split
  · exact h.insert _ (wellFormed_finish _ _)
  · exact h

lemma wellFormed_next {dev' : Device} (h : dev.multiparts.WellFormed) (hn : Next env tr dev dev') :
    dev'.multiparts.WellFormed := by
  cases hn with
  | merge debug now configs =>
    unfold merge
    split
    · exact h
    · exact (wellFormed_decodeAll _ _ _ h).expire now
  | push now => exact wellFormed_push now h
  | dump now => exact h.expire now
  | restore now now' sigKeys hr =>
    obtain ⟨t', hload, hwf, -⟩ := loadTable_dump env now now' h
    unfold restore at hr
    rw [hload] at hr
    cases hb : ConfigBase.restore env (dev.dump env now).1 sigKeys with
    | error e => rw [hb] at hr; cases hr
    | ok base =>
      rw [hb] at hr
      cases hr
      exact hwf
  | other base keys => exact h

lemma wellFormed_of_reachable (h : Reachable (fun dev => dev.multiparts = []) (Next env tr) dev) :
    dev.multiparts.WellFormed :=
  h.invariant (fun dev => dev.multiparts.WellFormed) (fun _ h0 => h0 ▸ .nil)
    fun _ _ => wellFormed_next

/-! ## What a restart keeps -/

/-- After a restart the table gives the same results as before on every sequence of parts exactly if
no set in it was done, and those that were begun have not expired, by the milliseconds of the
dump. -/
theorem restored_sameBehaviour_iff {dev : Device}
    (hreach : Reachable (fun dev => dev.multiparts = []) (Next env tr) dev) (now now' : Int)
    (sigKeys : SigKeys) : ∃ restored, restore env now' (dev.dump env now).1 sigKeys =
        (ConfigBase.restore env (dev.dump env now).1 sigKeys).map (⟨·, [], restored⟩) ∧
      (SameBehaviour env tr (dev.dump env now).2.multiparts restored ↔
        ∀ p ∈ expireMultiparts now dev.multiparts, p.2.done = false ∧
          (p.2.parts ≠ [] → now' ≤ epochMs p.2.expiry * 10 ^ 6)) := by
  have hwf := (wellFormed_of_reachable hreach).expire now
  obtain ⟨restored, hload, -, hfind⟩ := loadTable_dump env now now' (wellFormed_of_reachable hreach)
  refine ⟨restored, ?_, ?_⟩
  · unfold restore
    rw [hload]
    cases ConfigBase.restore env (dev.dump env now).1 sigKeys <;> rfl
  · show SameBehaviour env tr (expireMultiparts now dev.multiparts) restored ↔ _
    exact sameBehaviour_restored_iff hwf hfind

end Device

/-! ## Samples -/

def smallMessage : Bytes := messageBytes 1 [] [] []

def smallHash : Hash := hashOfNat 0x5a39208f2ed5e7059074b714a6c7951149e6ad3a28a794e5c0dcbebbb52293f5

def smallEnv : Env :=
  Env.bencode (tableHash [(smallMessage, smallHash), (initial, initialHash)])

/-- Two parts of it, as another client could have split it. -/
def smallParts : List Bytes :=
  [Device.partBuffer ⟨smallHash, 0, 2, smallMessage.take 10⟩,
    Device.partBuffer ⟨smallHash, 1, 2, smallMessage.drop 10⟩]

/-- An object that was given the first parts of the message. -/
def receiverOf (n : Nat) : Device :=
  (Device.merge smallEnv sampleTransport false 0
    ((smallParts.take n).map fun p =>
      (bytes "id", encrypt tagAead p sampleKey sampleTransport.domain))
    ⟨.fresh smallEnv .none, [sampleKey], []⟩).1

lemma receiverOf_reachable (n : Nat) : Reachable (fun dev => dev.multiparts = [])
    (Device.Next smallEnv sampleTransport) (receiverOf n) :=
  .step (.init rfl) (.merge _ _ _ _)

/-- An object with the first part is restored with it. -/
theorem restored_sameBehaviour_begun :
    ∃ restored, Device.restore smallEnv 0 ((receiverOf 1).dump smallEnv 0).1 .none =
        (ConfigBase.restore smallEnv ((receiverOf 1).dump smallEnv 0).1 .none).map
          (⟨·, [], restored⟩) ∧
      SameBehaviour smallEnv sampleTransport ((receiverOf 1).dump smallEnv 0).2.multiparts
        restored := by
  obtain ⟨restored, hr, hiff⟩ := restored_sameBehaviour_iff (receiverOf_reachable 1) 0 0 .none
  exact ⟨restored, hr, hiff.mpr (by decide +kernel)⟩

/-- An object that has completed the message ignores its parts; after a restart it completes the
message again. -/
theorem completed_again_after_restart :
    Reachable (fun dev => dev.multiparts = []) (Device.Next smallEnv sampleTransport)
        (receiverOf 2) ∧
      handleAll smallEnv sampleTransport (smallParts.map fun p => (0, bytes "id", p))
        ((receiverOf 2).dump smallEnv 0).2.multiparts = [(true, none), (true, none)] ∧
      (Device.restore smallEnv 0 ((receiverOf 2).dump smallEnv 0).1 .none).toOption.map (fun dev =>
        handleAll smallEnv sampleTransport (smallParts.map fun p => (0, bytes "id", p))
          dev.multiparts) =
        some [(true, none), (true, some ([bytes "id", bytes "id"], smallMessage))] := by
  refine ⟨receiverOf_reachable 2, ?_, ?_⟩
  · decide +kernel
  · decide +kernel

end Bchat.Config
