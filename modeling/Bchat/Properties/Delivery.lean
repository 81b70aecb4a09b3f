import Bchat.Roundtrip.Parts

/-!
# Delivering a pushed message

What happens to the messages of a `push()` on their way into another object: which of them make the
object merge something, and what.
-/

namespace Bchat.Config

open Bencode List Device

variable {parts : List PartialMessage} {msgs chunks : List Bytes} {seen : Finset Nat} {key : Key}
  {table : Multiparts} {env : Env} {tr : Transport} {now : Int} {plain : Bytes} {debug : Bool}
  {recv : Device} {p : PartialMessage} {i : Nat} {entry : PartialMessages}
  {received : List (MsgId × Bytes)} {conf : Bytes}
variable (hash : Bytes → Hash) (v : Bytes)

/-! ## The list of parts -/

lemma placePart_cons (p q : PartialMessage) (parts : List PartialMessage) :
    placePart p (q :: parts) =
      if q.index < p.index then q :: placePart p parts else p :: q :: parts := by
  unfold placePart
  by_cases hlt : q.index < p.index
  · simp [hlt]
  · simp [hlt]

lemma mem_placePart {q : PartialMessage} : q ∈ placePart p parts ↔ q = p ∨ q ∈ parts := by
  unfold placePart
  rw [mem_append, mem_cons, or_left_comm, ← mem_append, takeWhile_append_dropWhile]

lemma pairwise_placePart (h : parts.Pairwise (fun q r => q.index < r.index))
    (hnew : ∀ q ∈ parts, q.index ≠ p.index) :
    (placePart p parts).Pairwise (fun q r => q.index < r.index) := by
  induction parts with
  | nil => simp [placePart]
  | cons q parts ih =>
    obtain ⟨hq, hparts⟩ := pairwise_cons.mp h
    rw [placePart_cons]
    split
    · next hlt =>
      refine pairwise_cons.mpr ⟨?_, ih hparts fun r hr => hnew r (mem_cons_of_mem _ hr)⟩
      intro r hr
      rcases mem_placePart.mp hr with rfl | hr
      · exact hlt
      · exact hq r hr
    rename_i hge
    have hlt : p.index < q.index := lt_of_le_of_ne (not_lt.mp hge) (hnew q mem_cons_self).symm
    refine pairwise_cons.mpr ⟨?_, h⟩
    intro r hr
    rcases mem_cons.mp hr with rfl | hr
    · exact hlt
    · exact hlt.trans (hq r hr)

lemma alreadySeen_iff {i : Int} (h : parts.Pairwise (fun q r => q.index < r.index)) :
    alreadySeen i parts = true ↔ ∃ p ∈ parts, p.index = i := by
  induction parts with
  | nil => simp [alreadySeen]
  | cons q parts ih =>
    obtain ⟨hq, hparts⟩ := pairwise_cons.mp h
    unfold alreadySeen at ih ⊢
    by_cases hlt : q.index < i
    · rw [dropWhile_cons_of_pos (by simpa using hlt), ih hparts]
      simp [hlt.ne]
    rw [dropWhile_cons_of_neg (by simpa using hlt)]
    simp only [head?_cons, Option.any_some, decide_eq_true_eq, mem_cons,
      exists_eq_or_imp, iff_self_or, forall_exists_index, and_imp]
    intro r hr hri
    exact absurd (hri ▸ hq r hr) hlt

/-! ## Collecting parts -/

structure Collected (chunks : List Bytes) (seen : Finset Nat) (parts : List PartialMessage) :
    Prop where
  sorted : parts.Pairwise (fun p q => p.index < q.index)
  mem_seen : ∀ i : Nat, i ∈ seen ↔ ∃ p ∈ parts, p.index = i
  chunk : ∀ p ∈ parts, ∃ i : Nat, p.index = i ∧ chunks[i]? = some p.data

namespace Collected

lemma nil : Collected chunks ∅ [] :=
  ⟨Pairwise.nil, fun i => by simp, fun p hp => absurd hp not_mem_nil⟩

section

variable (h : Collected chunks seen parts)

include h

lemma nodup : (parts.map PartialMessage.index).Nodup := pairwise_map.mpr (h.sorted.imp ne_of_lt)

lemma toFinset_index : (parts.map PartialMessage.index).toFinset = seen.image Nat.cast := by
  ext k
  simp only [mem_toFinset, mem_map, Finset.mem_image]
  constructor
  · rintro ⟨p, hp, rfl⟩
    obtain ⟨i, hi, -⟩ := h.chunk p hp
    exact ⟨i, (h.mem_seen i).mpr ⟨p, hp, hi⟩, hi.symm⟩
  · rintro ⟨i, hi, rfl⟩
    exact (h.mem_seen i).mp hi

lemma length_eq_card : parts.length = seen.card := by
  have hcard := congrArg Finset.card h.toFinset_index
  rwa [toFinset_card_of_nodup h.nodup, length_map,
    Finset.card_image_of_injective _ Nat.cast_injective] at hcard

lemma seen_subset : seen ⊆ Finset.range chunks.length := by
  intro i hi
  obtain ⟨p, hp, hpi⟩ := (h.mem_seen i).mp hi
  obtain ⟨j, hj, hchunk⟩ := h.chunk p hp
  obtain ⟨hlt, -⟩ := List.getElem?_eq_some_iff.mp hchunk
  have : i = j := by exact_mod_cast hpi.symm.trans hj
  rw [this]
  exact Finset.mem_range.mpr hlt

lemma alreadySeen (i : Nat) : alreadySeen i parts = true ↔ i ∈ seen := by
  rw [h.mem_seen, alreadySeen_iff h.sorted]

lemma place (hi : i ∉ seen) (msgId : MsgId) {chunk : Bytes}
    (hchunk : chunks[i]? = some chunk) :
    Collected chunks (insert i seen) (placePart ⟨i, msgId, chunk⟩ parts) where
  sorted := pairwise_placePart h.sorted fun q hq heq => hi ((h.mem_seen i).mpr ⟨q, hq, heq⟩)
  mem_seen j := by
    rw [Finset.mem_insert, h.mem_seen]
    simp only [mem_placePart, exists_eq_or_imp, Nat.cast_inj]
    rw [eq_comm]
  chunk q hq := by
    rcases mem_placePart.mp hq with rfl | hq
    · exact ⟨i, rfl, hchunk⟩
    · exact h.chunk q hq

end

lemma data_eq (h : Collected chunks (Finset.range chunks.length) parts) :
    parts.map PartialMessage.data = chunks := by
  have hindex : parts.map PartialMessage.index = (range chunks.length).map Nat.cast := by
    refine SortedSet.ext (pairwise_map.mpr h.sorted) ?_ ?_
    · exact pairwise_map.mpr (pairwise_lt_range.imp Int.ofNat_lt.mpr)
    intro k
    rw [← mem_toFinset, h.toFinset_index]
    simp
  have hlen : parts.length = chunks.length := by rw [h.length_eq_card, Finset.card_range]
  refine ext_getElem (by rw [length_map, hlen]) fun k hk hk' => ?_
  have hkp : k < parts.length := by rwa [hlen]
  obtain ⟨i, hi, hchunk⟩ := h.chunk parts[k] (getElem_mem hkp)
  have hki : (parts[k]).index = k := by
    have := congrArg (fun l => l[k]?) hindex
    simpa [hkp, hk'] using this
  have : i = k := by exact_mod_cast hi.symm.trans hki
  rw [this, getElem?_eq_getElem hk'] at hchunk
  rw [getElem_map]
  exact (Option.some.inj hchunk).symm

end Collected

/-! ## The progress of a set -/

/-- How far the set with the given hash and chunks has come when the given indices have arrived. -/
inductive Progress (h : Hash) (chunks : List Bytes) (table : Multiparts) : Finset Nat → Prop
  | absent : SortedMap.find? h table = none → Progress h chunks table ∅
  | collecting {seen : Finset Nat} {entry : PartialMessages} :
    SortedMap.find? h table = some entry → entry.done = false → entry.size = chunks.length →
    Collected chunks seen entry.parts → seen ≠ Finset.range chunks.length →
    Progress h chunks table seen
  | done {entry : PartialMessages} : SortedMap.find? h table = some entry → entry.done = true →
    Progress h chunks table (Finset.range chunks.length)

namespace Progress

variable {h : Hash} {table' : Multiparts}

lemma congr (hp : Progress h chunks table seen)
    (heq : SortedMap.find? h table' = SortedMap.find? h table) : Progress h chunks table' seen := by
  cases hp with
  | absent hf => exact .absent (heq.trans hf)
  | collecting hf hdone hsize hcoll hne => exact .collecting (heq.trans hf) hdone hsize hcoll hne
  | done hf hdone => exact .done (heq.trans hf) hdone

end Progress

section

variable {msgId : MsgId} {message : Bytes} {part : Part} {h : Hash}

lemma find?_emplace_new (h : Hash) (table : Multiparts) :
    SortedMap.find? h (SortedMap.emplace h .new table) =
      some ((SortedMap.find? h table).getD .new) := by
  rw [SortedMap.find?_emplace, if_pos rfl]
  cases SortedMap.find? h table <;> rfl

lemma storePart_table_ne (hne : part.finalHash ≠ h) :
    SortedMap.find? h (storePart env tr now msgId part entry table).table =
      SortedMap.find? h table := by
  unfold storePart
  simp only
  split
  · split
    · exact SortedMap.find?_insert_ne hne _ _
    split
    all_goals exact SortedMap.find?_insert_ne hne _ _
  · exact SortedMap.find?_insert_ne hne _ _

lemma handleMultipart_table_ne (hne : ∀ part, parsePart message = some part →
    part.finalHash ≠ h) : SortedMap.find? h (handleMultipart env tr now msgId message table).table =
      SortedMap.find? h table := by
  unfold handleMultipart
  cases hparse : parsePart message with
  | none => rfl
  | some part =>
    have hne := hne part hparse
    have hemplace : SortedMap.find? h (SortedMap.emplace part.finalHash .new table) =
        SortedMap.find? h table := by
      rw [SortedMap.find?_emplace, if_neg hne, Option.or_none]
    simp only
    split
    · exact hemplace
    split
    · exact hemplace
    split
    · rw [SortedMap.find?_insert_ne hne, hemplace]
    · rw [storePart_table_ne hne, hemplace]

lemma storePart_progress (hsize : entry.size = chunks.length) (hdone : entry.done = false)
    (hcoll : Collected chunks seen entry.parts) (hnew : part.index.toNat ∉ seen)
    (hchunk : chunks[part.index.toNat]? = some part.data)
    (hhash : env.blake2b chunks.flatten = part.finalHash)
    (hplain : inflate tr.zstd (removePadding chunks.flatten) = some plain) :
    Progress part.finalHash chunks (storePart env tr now msgId part entry table).table
      (insert part.index.toNat seen) ∧
    (storePart env tr now msgId part entry table).completed.map Prod.snd =
      if insert part.index.toNat seen = Finset.range chunks.length then some plain else none := by
  have hplace := hcoll.place hnew msgId hchunk
  have hlen := hplace.length_eq_card
  by_cases hall : insert part.index.toNat seen = Finset.range chunks.length
  · rw [hall] at hplace hlen ⊢
    rw [Finset.card_range] at hlen
    have hdata := hplace.data_eq
    unfold storePart
    simp only [hlen, hsize, hdata, hhash, hplain, ne_eq, not_true, if_false, if_true,
      Option.map_some, and_true]
    exact .done (SortedMap.find?_insert_self _ _ _) rfl
  have hne : ¬(((placePart ⟨part.index.toNat, msgId, part.data⟩ entry.parts).length : Int) =
      entry.size) := by
    intro heq
    refine hall (Finset.eq_of_subset_of_card_le hplace.seen_subset ?_)
    rw [Finset.card_range]
    omega
  unfold storePart
  simp only [if_neg hne, if_neg hall, Option.map_none, and_true]
  exact .collecting (SortedMap.find?_insert_self _ _ _) hdone hsize hplace hall

lemma handleMultipart_new (hparse : parsePart message = some part)
    (hdone : ((SortedMap.find? part.finalHash table).getD .new).done = false)
    (hsize : ((SortedMap.find? part.finalHash table).getD .new).parts = [] ∨
      (part.numParts.toNat : Int) = ((SortedMap.find? part.finalHash table).getD .new).size)
    (hnew : alreadySeen part.index.toNat ((SortedMap.find? part.finalHash table).getD .new).parts =
      false) :
    handleMultipart env tr now msgId message table = storePart env tr now msgId part
        { (SortedMap.find? part.finalHash table).getD .new with size := part.numParts.toNat }
        (SortedMap.emplace part.finalHash .new table) := by
  have hmatch : ¬(((SortedMap.find? part.finalHash table).getD .new).parts ≠ [] ∧
      (part.numParts.toNat : Int) ≠ ((SortedMap.find? part.finalHash table).getD .new).size) :=
    fun hc => hsize.elim hc.1 hc.2
  unfold handleMultipart
  simp only [hparse, find?_emplace_new, Option.getD_some]
  rw [if_neg (by simp [hdone]), if_neg hmatch, if_neg (by simp [hnew])]

lemma handleMultipart_progress (now : Int) (msgId : MsgId) (hparse : parsePart message = some part)
    (hp : Progress part.finalHash chunks table seen) (hnum : part.numParts.toNat = chunks.length)
    (hchunk : chunks[part.index.toNat]? = some part.data)
    (hhash : env.blake2b chunks.flatten = part.finalHash)
    (hplain : inflate tr.zstd (removePadding chunks.flatten) = some plain) :
    Progress part.finalHash chunks (handleMultipart env tr now msgId message table).table
      (insert part.index.toNat seen) ∧
    (handleMultipart env tr now msgId message table).completed.map Prod.snd =
      if part.index.toNat ∉ seen ∧ insert part.index.toNat seen = Finset.range chunks.length then
        some plain else none := by
  have hlt : part.index.toNat < chunks.length := (List.getElem?_eq_some_iff.mp hchunk).1
  have hemplace := find?_emplace_new part.finalHash table
  cases hp with
  | absent hf =>
    rw [handleMultipart_new hparse (by rw [hf]; rfl) (by rw [hf]; exact .inl rfl) (by rw [hf]; rfl)]
    simp only [hf, Option.getD_none, Finset.notMem_empty, not_false_iff, true_and]
    exact storePart_progress (congrArg Nat.cast hnum) rfl .nil (Finset.notMem_empty _) hchunk hhash
      hplain
  | collecting hf hdone hsize hcoll hne =>
    next entry =>
    have hsame : (part.numParts.toNat : Int) = entry.size := by rw [hsize, hnum]
    have hentry : { entry with size := (part.numParts.toNat : Int) } = entry := by rw [hsame]
    by_cases hseen : part.index.toNat ∈ seen
    · unfold handleMultipart
      simp only [hparse, hemplace, hf, Option.getD_some, hentry]
      rw [if_neg (by simp [hdone]), if_neg (fun hc => hc.2 hsame),
        if_pos ((hcoll.alreadySeen _).mpr hseen), Finset.insert_eq_of_mem hseen]
      simp only [hseen, not_true, false_and, if_false, Option.map_none, and_true]
      exact .collecting (SortedMap.find?_insert_self _ _ _) hdone hsize hcoll hne
    have hnew : alreadySeen part.index.toNat entry.parts = false := by
      rw [Bool.eq_false_iff]
      exact fun ha => hseen ((hcoll.alreadySeen _).mp ha)
    rw [handleMultipart_new hparse (by rw [hf]; exact hdone) (by rw [hf]; exact .inr hsame)
      (by rw [hf]; exact hnew)]
    simp only [hf, Option.getD_some, hentry, hseen, not_false_iff, true_and]
    exact storePart_progress hsize hdone hcoll hseen hchunk hhash hplain
  | done hf hdone =>
    have hmem : part.index.toNat ∈ Finset.range chunks.length := Finset.mem_range.mpr hlt
    unfold handleMultipart
    simp only [hparse, hemplace, Option.getD_some]
    rw [hf, Option.getD_some, if_pos hdone, Finset.insert_eq_of_mem hmem]
    simp only [hmem, not_true, if_false, Option.map_none, and_true]
    refine .done ?_ hdone
    rw [hemplace, hf]
    rfl

end

/-! ## Received messages -/

structure IsPart (tr : Transport) (keys : List Key) (h : Hash) (chunks : List Bytes) (i : Nat)
    (conf : Bytes) : Prop where
  opens : ∃ buffer, Device.openMessage tr keys conf = some buffer ∧
    (removePadding buffer).head? = some (ascii 'm') ∧
    ∃ part, parsePart (removePadding buffer) = some part ∧ part.finalHash = h ∧
      part.index.toNat = i ∧ part.numParts.toNat = chunks.length ∧
      chunks[part.index.toNat]? = some part.data

def Foreign (tr : Transport) (keys : List Key) (h : Hash) (conf : Bytes) : Prop :=
  ∀ buffer, Device.openMessage tr keys conf = some buffer →
    ∀ part, parsePart (removePadding buffer) = some part → part.finalHash ≠ h

def indicesIn (msgs : List Bytes) (received : List (MsgId × Bytes)) : Finset Nat :=
  (Finset.range msgs.length).filter fun i => ∃ x ∈ received, msgs[i]? = some x.2

lemma mem_indicesIn : i ∈ indicesIn msgs received ↔ ∃ x ∈ received, msgs[i]? = some x.2 := by
  unfold indicesIn
  rw [Finset.mem_filter, Finset.mem_range, and_iff_right_iff_imp]
  rintro ⟨x, -, hx⟩
  exact (List.getElem?_eq_some_iff.mp hx).1

lemma indicesIn_nil (msgs : List Bytes) : indicesIn msgs [] = ∅ := by
  ext i
  simp [mem_indicesIn]

lemma indicesIn_append (msgs : List Bytes) (l l' : List (MsgId × Bytes)) :
    indicesIn msgs (l ++ l') = indicesIn msgs l ∪ indicesIn msgs l' := by
  ext i
  simp only [mem_indicesIn, Finset.mem_union, mem_append, or_and_right, exists_or]

lemma notMem_indicesIn_iff (hi : msgs[i]? = some conf) :
    i ∉ indicesIn msgs received ↔ ∀ x ∈ received, x.2 ≠ conf := by
  simp only [mem_indicesIn, hi, Option.some.injEq, not_exists, not_and]
  exact forall₂_congr fun x _ => ne_comm

lemma insert_indicesIn_iff (hnodup : msgs.Nodup) (hi : msgs[i]? = some conf) :
    insert i (indicesIn msgs received) = Finset.range msgs.length ↔
      ∀ m ∈ msgs, m ≠ conf → ∃ x ∈ received, x.2 = m := by
  constructor
  · intro hall m hm hne
    obtain ⟨j, hj⟩ := mem_iff_getElem?.mp hm
    have hmem : j ∈ insert i (indicesIn msgs received) := by
      rw [hall]
      exact Finset.mem_range.mpr (List.getElem?_eq_some_iff.mp hj).1
    rcases Finset.mem_insert.mp hmem with rfl | hmem
    · exact absurd (Option.some.inj (hj.symm.trans hi)) hne
    · obtain ⟨x, hx, hjx⟩ := mem_indicesIn.mp hmem
      exact ⟨x, hx, Option.some.inj (hjx.symm.trans hj)⟩
  intro hall
  refine Finset.Subset.antisymm ?_ fun j hj => ?_
  · exact Finset.insert_subset (Finset.mem_range.mpr (List.getElem?_eq_some_iff.mp hi).1)
      (Finset.filter_subset _ _)
  have hlt := Finset.mem_range.mp hj
  obtain ⟨m, hm⟩ : ∃ m, msgs[j]? = some m := ⟨_, getElem?_eq_getElem hlt⟩
  by_cases hconf : m = conf
  · have hji : j = i := (getElem?_inj hlt hnodup).mp (by rw [hm, hconf, hi])
    exact Finset.mem_insert.mpr (.inl hji)
  · obtain ⟨x, hx, hxm⟩ := hall m (mem_of_getElem? hm) hconf
    exact Finset.mem_insert_of_mem (mem_indicesIn.mpr ⟨x, hx, by rw [hm, hxm]⟩)

namespace Device

section

variable {keys : List Key} {h : Hash}

lemma decode_part (now : Int) (msgId : MsgId) (hpart : IsPart tr keys h chunks i conf)
    (hp : Progress h chunks table seen) (hhash : env.blake2b chunks.flatten = h)
    (hplain : inflate tr.zstd (removePadding chunks.flatten) = some plain) :
    Progress h chunks (decode env tr keys now msgId conf table).table (insert i seen) ∧
    (decode env tr keys now msgId conf table).row.map Row.conf =
      if i ∉ seen ∧ insert i seen = Finset.range chunks.length then some plain else none := by
  obtain ⟨buffer, hopen, hm, part, hparse, rfl, rfl, hnum, hchunk⟩ := hpart.opens
  obtain ⟨htable, hdone⟩ := handleMultipart_progress now msgId hparse hp hnum hchunk hhash hplain
  unfold decode decodePlain
  simp only [hopen, hm, if_true, Option.map_map]
  exact ⟨htable, hdone⟩

lemma decode_foreign {msgId : MsgId} (hf : Foreign tr keys h conf) :
    SortedMap.find? h (decode env tr keys now msgId conf table).table =
      SortedMap.find? h table := by
  unfold decode
  split
  · next buffer hopen =>
    unfold decodePlain
    simp only
    split
    · exact handleMultipart_table_ne (hf buffer hopen)
    · split <;> rfl
  · rfl

lemma decodeAll_progress (now : Int) (received : List (MsgId × Bytes)) (hnodup : msgs.Nodup)
    (hparts : ∀ i conf, msgs[i]? = some conf → IsPart tr keys h chunks i conf)
    (hreceived : ∀ x ∈ received, x.2 ∈ msgs ∨ Foreign tr keys h x.2)
    (hp : Progress h chunks table seen) (hhash : env.blake2b chunks.flatten = h)
    (hplain : inflate tr.zstd (removePadding chunks.flatten) = some plain) :
    Progress h chunks (decodeAll env tr keys now received table).2.2.1
      (seen ∪ indicesIn msgs received) := by
  induction received generalizing table seen with
  | nil =>
    rw [indicesIn_nil, Finset.union_empty]
    exact hp
  | cons x received ih =>
    obtain ⟨msgId, conf⟩ := x
    obtain ⟨hx, hrest⟩ := forall_mem_cons.mp hreceived
    by_cases hmem : conf ∈ msgs
    · obtain ⟨i, hi⟩ := mem_iff_getElem?.mp hmem
      have hstep := (decode_part now msgId (hparts i conf hi) hp hhash hplain).1
      have hunion : seen ∪ indicesIn msgs ((msgId, conf) :: received) =
          insert i seen ∪ indicesIn msgs received := by
        ext j
        simp only [Finset.mem_union, mem_indicesIn, mem_cons, exists_eq_or_imp, Finset.mem_insert]
        have hji : msgs[j]? = some conf ↔ j = i := by
          refine ⟨fun hj => ?_, fun hj => hj ▸ hi⟩
          have hlt := (List.getElem?_eq_some_iff.mp hj).1
          exact (getElem?_inj hlt hnodup).mp (hj.trans hi.symm)
        rw [hji, or_assoc, or_left_comm]
      rw [hunion]
      exact ih hrest hstep
    have hforeign := hx.resolve_left hmem
    have hunion : indicesIn msgs ((msgId, conf) :: received) = indicesIn msgs received := by
      ext j
      simp only [mem_indicesIn, mem_cons, exists_eq_or_imp, or_iff_right_iff_imp]
      exact fun hj => absurd (mem_of_getElem? hj) hmem
    rw [hunion]
    exact ih hrest (hp.congr (decode_foreign hforeign))

end

/-! ## Runs of merges -/

def mergeAll (env : Env) (tr : Transport) (debug : Bool) :
    List (Int × List (MsgId × Bytes)) → Device → Device
  | [], dev => dev
  | (now, configs) :: calls,
      dev => mergeAll env tr debug calls (dev.merge env tr debug now configs).1

def Retains (env : Env) (tr : Transport) (debug : Bool) (h : Hash) :
    List (Int × List (MsgId × Bytes)) → Device → Prop
  | [], _ => True
  | (now, configs) :: calls, dev =>
    (∀ entry, SortedMap.find? h (decodeAll env tr dev.keys now configs dev.multiparts).2.2.1 =
      some entry → now ≤ entry.expiry) ∧
    Retains env tr debug h calls (dev.merge env tr debug now configs).1

lemma find?_expireMultiparts {h : Hash} {now : Int} {table : Multiparts}
    (hkeep : ∀ entry, SortedMap.find? h table = some entry → now ≤ entry.expiry) :
    SortedMap.find? h (expireMultiparts now table) = SortedMap.find? h table := by
  unfold expireMultiparts
  induction table with
  | nil => rfl
  | cons p table ih =>
    obtain ⟨k, entry⟩ := p
    rw [SortedMap.find?_cons] at hkeep
    by_cases hk : k = h
    · have hle := hkeep entry (if_pos hk)
      rw [filter_cons_of_pos (by simpa using hle), SortedMap.find?_cons, SortedMap.find?_cons,
        if_pos hk, if_pos hk]
    rw [if_neg hk] at hkeep
    rw [SortedMap.find?_cons_ne hk, filter_cons]
    split
    · rw [SortedMap.find?_cons_ne hk, ih hkeep]
    · exact ih hkeep

section

variable {h : Hash}

lemma merge_keys (env : Env) (tr : Transport) (debug : Bool) (now : Int)
    (configs : List (MsgId × Bytes)) (dev : Device) :
    (dev.merge env tr debug now configs).1.keys = dev.keys := by
  unfold merge
  split <;> rfl

lemma merge_multiparts (now : Int) (configs : List (MsgId × Bytes)) {dev : Device}
    (hkeys : dev.keys ≠ []) : (dev.merge env tr debug now configs).1.multiparts =
      expireMultiparts now (decodeAll env tr dev.keys now configs dev.multiparts).2.2.1 := by
  unfold merge
  rw [if_neg (by simpa using hkeys)]

lemma mergeAll_progress (calls : List (Int × List (MsgId × Bytes))) (hkeys : recv.keys ≠ [])
    (hnodup : msgs.Nodup)
    (hparts : ∀ i conf, msgs[i]? = some conf → IsPart tr recv.keys h chunks i conf)
    (hreceived : ∀ x ∈ calls.flatMap Prod.snd, x.2 ∈ msgs ∨ Foreign tr recv.keys h x.2)
    (hretains : Retains env tr debug h calls recv)
    (hp : Progress h chunks recv.multiparts seen) (hhash : env.blake2b chunks.flatten = h)
    (hplain : inflate tr.zstd (removePadding chunks.flatten) = some plain) :
    Progress h chunks (mergeAll env tr debug calls recv).multiparts
      (seen ∪ indicesIn msgs (calls.flatMap Prod.snd)) := by
  induction calls generalizing recv seen with
  | nil =>
    rw [flatMap_nil, indicesIn_nil, Finset.union_empty]
    exact hp
  | cons call calls ih =>
    obtain ⟨now, configs⟩ := call
    obtain ⟨hkeep, hretains⟩ := hretains
    rw [flatMap_cons] at hreceived ⊢
    have hstep := decodeAll_progress now configs hnodup hparts
      (fun x hx => hreceived x (mem_append_left _ hx)) hp hhash hplain
    have hmerged : Progress h chunks (recv.merge env tr debug now configs).1.multiparts
        (seen ∪ indicesIn msgs configs) := by
      rw [merge_multiparts now configs hkeys]
      exact hstep.congr (find?_expireMultiparts hkeep)
    rw [indicesIn_append, ← Finset.union_assoc]
    have hk := merge_keys env tr debug now configs recv
    exact ih (by rwa [hk]) (by rwa [hk])
      (by rw [hk]; exact fun x hx => hreceived x (mem_append_right _ hx)) hretains hmerged

end

/-! ## The messages of a push -/

lemma encrypt_injective (aead : Aead) (key : Key) (domain : Domain) :
    Function.Injective fun m => encrypt aead m key domain := by
  intro m m' heq
  have h := decrypt_encrypt aead m key domain
  simp only at heq
  rw [heq, decrypt_encrypt] at h
  exact (Except.ok.inj h).symm

lemma openMessage_encrypt {tr : Transport} {keys : List Key} {m : Bytes} (hkey : key ∈ keys)
    (honly : ∀ k ∈ keys, k ≠ key →
      (decrypt tr.aead (encrypt tr.aead m key tr.domain) k tr.domain).toOption = none) :
    openMessage tr keys (encrypt tr.aead m key tr.domain) = some m := by
  unfold openMessage
  induction keys with
  | nil => simp at hkey
  | cons k keys ih =>
    rw [findSome?_cons]
    by_cases hk : k = key
    · rw [hk, decrypt_encrypt]
      rfl
    rw [honly k mem_cons_self hk]
    exact ih ((mem_cons.mp hkey).resolve_left (Ne.symm hk)) fun k' hk' =>
      honly k' (mem_cons_of_mem _ hk')

lemma serialize_bencode (c : AnyMessage) (enableSigning : Bool) :
    ∃ l, (c.serialize (Env.bencode hash) enableSigning).1 = ascii 'd' :: l := by
  have himpl : ∀ (m : ConfigMessage) (d : BtDict),
      ∃ l, m.serializeImpl (Env.bencode hash) d enableSigning = ascii 'd' :: l := by
    intro m d
    unfold ConfigMessage.serializeImpl
    split <;> exact ⟨_, rfl⟩
  cases c with
  | immutable m => exact himpl m m.diff
  | mutable m => exact himpl m.refreshDiff.toConfigMessage m.refreshDiff.diff

lemma nodup_partBuffers (finalHash : Hash) {msg : Bytes}
    (hcount : 2 ≤ (splitChunks msg.length msg).length ∧ (splitChunks msg.length msg).length ≤ 66) :
    (partBuffers finalHash msg).Nodup := by
  rw [nodup_iff_injective_get]
  intro i j heq
  have hi : (partBuffers finalHash msg)[i.val]? = some ((partBuffers finalHash msg).get i) :=
    getElem?_eq_getElem i.isLt
  have hj : (partBuffers finalHash msg)[j.val]? = some ((partBuffers finalHash msg).get i) := by
    rw [heq]
    exact getElem?_eq_getElem j.isLt
  obtain ⟨ci, -, -, -, -, hpi⟩ := parsePart_partBuffers hcount hi
  obtain ⟨cj, -, -, -, -, hpj⟩ := parsePart_partBuffers hcount hj
  have hindex := congrArg (fun p => p.map fun p => p.index.toNat) (hpi.symm.trans hpj)
  have hlt : ∀ k : Fin (partBuffers finalHash msg).length, k.val < 66 := fun k =>
    lt_of_lt_of_le k.isLt ((length_partBuffers finalHash msg).trans_le hcount.2)
  have := hlt i
  have := hlt j
  simp only [Option.map_some, Option.some.injEq, UInt8.toNat_ofNat'] at hindex
  omega

lemma isPart_encrypt {tr : Transport} {keys : List Key} {finalHash : Hash} {msg : Bytes}
    (hkey : key ∈ keys)
    (hcount : 2 ≤ (splitChunks msg.length msg).length ∧ (splitChunks msg.length msg).length ≤ 66)
    (honly : ∀ k ∈ keys, k ≠ key → (decrypt tr.aead conf k tr.domain).toOption = none)
    (hconf : ((partBuffers finalHash msg).map (encrypt tr.aead · key tr.domain))[i]? = some conf) :
    IsPart tr keys finalHash (splitChunks msg.length msg) i conf := by
  rw [getElem?_map] at hconf
  obtain ⟨buffer, hbuffer, rfl⟩ := Option.map_eq_some_iff.mp hconf
  obtain ⟨chunk, hchunk, -, hpad, hm, hparse⟩ := parsePart_partBuffers hcount hbuffer
  have hi := (List.getElem?_eq_some_iff.mp hchunk).1
  have hindex : (UInt8.ofNat i).toNat = i :=
    UInt8.toNat_ofNat_of_lt' (show i < UInt8.size by unfold UInt8.size; omega)
  have hnum : (UInt8.ofNat (splitChunks msg.length msg).length).toNat =
      (splitChunks msg.length msg).length :=
    UInt8.toNat_ofNat_of_lt' (show _ < UInt8.size by unfold UInt8.size; omega)
  refine ⟨buffer, openMessage_encrypt hkey honly, by rwa [hpad], _, by rw [hpad, hparse], rfl,
    hindex, hnum, ?_⟩
  simp only [hindex, hchunk]

lemma decodeAll_snoc (env : Env) (tr : Transport) (keys : List Key) (now : Int)
    (before : List (MsgId × Bytes)) (msgId : MsgId) (conf : Bytes) (table : Multiparts) :
    (decodeAll env tr keys now (before ++ [(msgId, conf)]) table).1 =
      (decodeAll env tr keys now before table).1 ++ (decode env tr keys now msgId conf
          (decodeAll env tr keys now before table).2.2.1).row.toList := by
  induction before generalizing table with
  | nil => simp [decodeAll]
  | cons x before ih =>
    rw [cons_append]
    simp only [decodeAll]
    rw [ih, append_assoc]

/-- Another object receives messages: it has the key, and no other key of it opens them; it has not
seen the set before; nothing else it is given is a part of the set; and the entry of the set does
not expire meanwhile. -/
structure Receives (env : Env) (tr : Transport) (debug : Bool) (key : Key) (msgs : List Bytes)
    (h : Hash) (recv : Device) (calls : List (Int × List (MsgId × Bytes)))
    (before : List (MsgId × Bytes)) : Prop where
  holds_key : key ∈ recv.keys
  other_keys : ∀ k ∈ recv.keys, k ≠ key → ∀ m ∈ msgs,
    (decrypt tr.aead m k tr.domain).toOption = none
  unseen : SortedMap.find? h recv.multiparts = none
  others : ∀ x ∈ calls.flatMap Prod.snd ++ before, x.2 ∈ msgs ∨ Foreign tr recv.keys h x.2
  retains : Retains env tr debug h calls recv

section

variable {msg : Bytes} {h : Hash} {calls : List (Int × List (MsgId × Bytes))}
  {before : List (MsgId × Bytes)}

lemma Receives.part
    (hcount : 2 ≤ (splitChunks msg.length msg).length ∧ (splitChunks msg.length msg).length ≤ 66)
    (hr : Receives env tr debug key
      ((partBuffers (env.blake2b msg) msg).map (encrypt tr.aead · key tr.domain))
      (env.blake2b msg) recv calls before)
    (hplain : inflate tr.zstd (removePadding msg) = some plain) (now : Int) (msgId : MsgId)
    (hconf : conf ∈ (partBuffers (env.blake2b msg) msg).map (encrypt tr.aead · key tr.domain)) :
    (decode env tr recv.keys now msgId conf (decodeAll env tr recv.keys now before
      (mergeAll env tr debug calls recv).multiparts).2.2.1).row.map Row.conf =
      if (∀ x ∈ calls.flatMap Prod.snd ++ before, x.2 ≠ conf) ∧
        (∀ m ∈ (partBuffers (env.blake2b msg) msg).map (encrypt tr.aead · key tr.domain),
          m ≠ conf → ∃ x ∈ calls.flatMap Prod.snd ++ before, x.2 = m) then some plain
      else none := by
  obtain ⟨hkey, hother, hunseen, hothers, hretains⟩ := hr
  set msgs := (partBuffers (env.blake2b msg) msg).map (encrypt tr.aead · key tr.domain) with hmsgs
  have hnodup : msgs.Nodup :=
    (nodup_partBuffers _ hcount).map (encrypt_injective tr.aead key tr.domain)
  have hparts : ∀ i m, msgs[i]? = some m →
      IsPart tr recv.keys (env.blake2b msg) (splitChunks msg.length msg) i m := fun i m hm =>
    isPart_encrypt hkey hcount (fun k hk hne => hother k hk hne m (mem_of_getElem? hm)) hm
  have hflat : (splitChunks msg.length msg).flatten = msg := flatten_splitChunks _ _ le_rfl
  have hlen : msgs.length = (splitChunks msg.length msg).length := by
    rw [hmsgs, length_map, length_partBuffers]
  have hhash : env.blake2b (splitChunks msg.length msg).flatten = env.blake2b msg := by rw [hflat]
  have hplain' : inflate tr.zstd (removePadding (splitChunks msg.length msg).flatten) =
      some plain := by rw [hflat, hplain]
  have hrun := mergeAll_progress calls (ne_nil_of_mem hkey) hnodup hparts
    (fun x hx => hothers x (mem_append_left _ hx)) hretains (.absent hunseen) hhash hplain'
  have hprogress := decodeAll_progress now before hnodup hparts
    (fun x hx => hothers x (mem_append_right _ hx)) hrun hhash hplain'
  rw [Finset.empty_union, ← indicesIn_append] at hprogress
  obtain ⟨i, hi⟩ := mem_iff_getElem?.mp hconf
  rw [(decode_part now msgId (hparts i conf hi) hprogress hhash hplain').2, ← hlen]
  exact if_congr (and_congr (notMem_indicesIn_iff hi) (insert_indicesIn_iff hnodup hi)) rfl rfl

lemma Receives.single (hr : Receives env tr debug key [encrypt tr.aead msg key tr.domain] h recv
      calls before) (hplain : inflate tr.zstd (removePadding msg) = some plain)
    (hm : (removePadding msg).head? ≠ some (ascii 'm')) (now : Int) (msgId : MsgId)
    (table : Multiparts) :
    (decode env tr recv.keys now msgId (encrypt tr.aead msg key tr.domain) table).row.map Row.conf =
      some plain := by
  have hopen := openMessage_encrypt hr.holds_key fun k hk hne =>
    hr.other_keys k hk hne _ mem_cons_self
  unfold decode decodePlain
  simp only [hopen, if_neg hm, hplain, Option.map_some]

end

lemma push_msgs (env : Env) (tr : Transport) (now : Int) {sender : Device}
    (hkey : sender.keys.head? = some key)
    (hsize : (packed tr (sender.base.config.serialize env true).1).length ≤ maxMultipartSize) :
    ∃ sent, (sender.push env tr now).2 = .ok sent ∧ sent.msgs =
      if maxMessageSize < (packed tr (sender.base.config.serialize env true).1).length +
          encryptDataOverhead then
        (partBuffers (env.blake2b (packed tr (sender.base.config.serialize env true).1))
          (packed tr (sender.base.config.serialize env true).1)).map
          (encrypt tr.aead · key tr.domain)
      else [encrypt tr.aead (packed tr (sender.base.config.serialize env true).1) key
        tr.domain] := by
  obtain ⟨keys, hkeys⟩ := head?_eq_some_iff.mp hkey
  unfold push
  simp only [hkeys, if_neg (not_lt.mpr hsize)]
  split
  all_goals exact ⟨_, rfl, rfl⟩

/-- The messages of a `push()` are few and small, and bring the serialized message to every
receiver: a message sent in one piece each time it is received, a part of a larger one exactly if it
is the last one missing, whatever the order of the parts, how often each is received and what else
the calls contain. -/
theorem push_delivers (tr : Transport) (time : Int) (sender : Device) (key : Key)
    (hkey : sender.keys.head? = some key)
    (hsize : (packed tr (sender.base.config.serialize (.bencode hash) true).1).length ≤
        maxMultipartSize) :
    ∃ sent, (sender.push (.bencode hash) tr time).2 = .ok sent ∧
      1 ≤ sent.msgs.length ∧ sent.msgs.length ≤ 255 ∧ (∀ m ∈ sent.msgs, m.length ≤ maxMessageSize) ∧
      ∀ debug recv calls before now msgId, ∀ conf ∈ sent.msgs,
        Receives (.bencode hash) tr debug key sent.msgs
          (hash (packed tr (sender.base.config.serialize (.bencode hash) true).1)) recv calls
          before → (decodeAll (.bencode hash) tr recv.keys now (before ++ [(msgId, conf)])
          (mergeAll (.bencode hash) tr debug calls recv).multiparts).1.map Row.conf =
        (decodeAll (.bencode hash) tr recv.keys now before
          (mergeAll (.bencode hash) tr debug calls recv).multiparts).1.map Row.conf ++
        if sent.msgs.length = 1 ∨ ((∀ x ∈ calls.flatMap Prod.snd ++ before, x.2 ≠ conf) ∧
            ∀ m ∈ sent.msgs, m ≠ conf → ∃ x ∈ calls.flatMap Prod.snd ++ before, x.2 = m) then
          [(sender.base.config.serialize (.bencode hash) true).1] else [] := by
  obtain ⟨sent, hsent, hmsgs⟩ := push_msgs (.bencode hash) tr time hkey hsize
  obtain ⟨l, hl⟩ := serialize_bencode hash sender.base.config true
  rw [hl] at hsize hmsgs ⊢
  refine ⟨sent, hsent, ?_⟩
  have hplain := inflate_packed tr l
  have hnotPart := head?_removePadding_packed tr l
  set msg := packed tr (ascii 'd' :: l)
  by_cases hlarge : maxMessageSize < msg.length + encryptDataOverhead
  · rw [if_pos hlarge] at hmsgs
    have hcount := length_splitChunks_bounds hlarge hsize
    have hlen : sent.msgs.length = (splitChunks msg.length msg).length := by
      rw [hmsgs, length_map, length_partBuffers]
    refine ⟨by omega, by omega, ?_, ?_⟩
    · intro m hm
      rw [hmsgs] at hm
      obtain ⟨buffer, hbuffer, rfl⟩ := mem_map.mp hm
      obtain ⟨i, hi⟩ := mem_iff_getElem?.mp hbuffer
      obtain ⟨-, -, hfits, -⟩ := parsePart_partBuffers hcount hi
      rwa [encrypt_length]
    intro debug recv calls before now msgId conf hconf hr
    have hone : sent.msgs.length ≠ 1 := by omega
    simp only [decodeAll_snoc, map_append, hone, false_or]
    rw [hmsgs] at hconf hr ⊢
    rw [← Option.toList_map, hr.part hcount hplain now msgId hconf]
    split <;> rfl
  rw [if_neg hlarge] at hmsgs
  have hone : sent.msgs.length = 1 := by rw [hmsgs]; rfl
  refine ⟨by omega, by omega, ?_, ?_⟩
  · intro m hm
    rw [hmsgs] at hm
    rw [mem_singleton.mp hm, encrypt_length]
    exact not_lt.mp hlarge
  intro debug recv calls before now msgId conf hconf hr
  rw [hmsgs] at hconf hr
  rw [if_pos (.inl hone), decodeAll_snoc, map_append, mem_singleton.mp hconf,
    ← Option.toList_map, hr.single hplain hnotPart now msgId]
  rfl

end Device

/-! ## Samples -/

lemma length_tagged (k : Key) (_ : Nonce) (m : Bytes) :
    (m ++ k.val.take 16).length = m.length + 16 := by
  simp [k.2]

lemma untag_tagged (k : Key) (_ : Nonce) (m : Bytes) :
    (if (m ++ k.val.take 16).drop ((m ++ k.val.take 16).length - 16) = k.val.take 16 then
      some ((m ++ k.val.take 16).take ((m ++ k.val.take 16).length - 16)) else none) = some m := by
  simp [k.2]

def tagAead : Aead where
  keyHash b := ⟨(b ++ List.replicate 32 0).take 32, by simp⟩
  nonceHash _ m := ⟨(m ++ List.replicate 24 0).take 24, by simp⟩
  aeadEncrypt k _ m := m ++ k.val.take 16
  aeadDecrypt k _ c :=
    if c.drop (c.length - 16) = k.val.take 16 then some (c.take (c.length - 16)) else none
  aeadEncrypt_length := length_tagged
  aeadDecrypt_encrypt := untag_tagged

def storeZstd : Zstd := ⟨fun _ b => b, some, fun _ _ => rfl⟩

def sampleTransport : Transport where
  aead := tagAead
  zstd := storeZstd
  domain := ⟨bytes "Test", by decide⟩

def sampleKey : Key := ⟨List.replicate 32 7, by decide⟩

/-- The bytes of a linear congruential generator, which do not compress. -/
def noise : Nat → Nat → Bytes
  | 0, _ => []
  | n + 1, x =>
    UInt8.ofNat (x / 2 ^ 56) :: noise n ((x * 6364136223846793005 + 1442695040888963407) % 2 ^ 64)

lemma length_noise (n x : Nat) : (noise n x).length = n := by
  induction n generalizing x with
  | zero => rfl
  | succ n ih => rw [noise, length_cons, ih]

@[irreducible] def noiseString : Bytes := noise 80000 1

lemma length_noiseString : noiseString.length = 80000 := by
  rw [noiseString, length_noise]

/-- The function that agrees with BLAKE2b on the message below, the only one that is hashed. -/
def noiseHash : Bytes → Hash := fun _ =>
  hashOfNat 0x3181f33df52d9246bf22149f876acac47966a81fdfd21dcd8b9cc797b4928694

def messageOf : ConfigMessage :=
  { data := [(bytes "k", .scalar (.str v))], diff := [(bytes "k", .str [])], laggedDiffs := []
    unknown := [], seqnoHash := ⟨1, zeroHash⟩, verifiedSignature := none, unmerged := none
    verifier := none, signer := none, lag := 5 }

def senderOf : Device := ⟨⟨.immutable (messageOf v), .clean, ∅, ∅, false⟩, [sampleKey], []⟩

lemma length_serialize_messageOf : ((messageOf v).serialize (.bencode hash) true).length =
      v.length + (encodeNat v.length).length + 32 := by
  have heq : (messageOf v).serialize (.bencode hash) true =
      encodeDict [(bytes "#", .int 1), (bytes "&", .dict [(bytes "k", .str v)]),
        (bytes "<", .list []), (bytes "=", .dict [(bytes "k", .str [])])] := rfl
  have hkey : ∀ c ∈ ["#", "&", "<", "=", "k"], (encodeStr (bytes c)).length = 3 := by decide +kernel
  have hone : (encodeInt 1).length = 3 := by decide +kernel
  have hnil : (encodeStr []).length = 2 := by decide +kernel
  have hv : (encodeStr v).length = (encodeNat v.length).length + (v.length + 1) := by
    rw [encodeStr, length_append, length_cons]
  rw [heq]
  simp only [encodeDict, encodePairs, encode, encodeItems, length_append, length_cons,
    length_nil, hv, hone, hnil, hkey "#" (by decide), hkey "&" (by decide),
    hkey "<" (by decide), hkey "=" (by decide), hkey "k" (by decide)]
  omega

lemma length_packed_messageOf {v : Bytes} (hv : v.length = 80000) :
    76760 < (packed sampleTransport ((messageOf v).serialize (.bencode hash) true)).length ∧
      (packed sampleTransport ((messageOf v).serialize (.bencode hash) true)).length ≤
        90000 := by
  have hnat : (encodeNat v.length).length ≤ 5 := length_encodeNat_le (by omega) (by omega)
  have hlen := length_serialize_messageOf hash v
  have hstored : compressMessage storeZstd 1 ((messageOf v).serialize (.bencode hash) true) =
      (messageOf v).serialize (.bencode hash) true := by
    unfold compressMessage storeZstd
    simp
  have hpacked : packed sampleTransport ((messageOf v).serialize (.bencode hash) true) =
      padMessage ((messageOf v).serialize (.bencode hash) true) encryptDataOverhead :=
    congrArg (padMessage · encryptDataOverhead) hstored
  rw [hpacked, padMessage_length, hlen]
  unfold paddedSize encryptDataOverhead
  simp only
  rw [if_neg (by omega), if_neg (by omega), if_neg (by omega)]
  omega

lemma push_two_parts (env : Env) (tr : Transport) (now : Int) (sender : Device) (key : Key)
    (hkey : sender.keys.head? = some key)
    (hlow : 76760 < (packed tr (sender.base.config.serialize env true).1).length)
    (hhigh : (packed tr (sender.base.config.serialize env true).1).length ≤ 90000) :
    ∃ sent m₀ m₁, (sender.push env tr now).2 = .ok sent ∧ sent.msgs = [m₀, m₁] ∧ m₁ ≠ m₀ := by
  have hsize := hhigh.trans (show 90000 ≤ maxMultipartSize by decide)
  obtain ⟨sent, hsent, hmsgs⟩ := push_msgs env tr now hkey hsize
  generalize packed tr (sender.base.config.serialize env true).1 = msg at *
  have hlarge : maxMessageSize < msg.length + encryptDataOverhead := by
    unfold maxMessageSize encryptDataOverhead
    omega
  rw [if_pos hlarge] at hmsgs
  have hlen : sent.msgs.length = 2 := by
    rw [hmsgs, length_map, length_partBuffers, length_splitChunks _ _ le_rfl, maxChunkSize_eq]
    omega
  have hnodup := (nodup_partBuffers (env.blake2b msg) (length_splitChunks_bounds hlarge hsize)).map
    (encrypt_injective tr.aead key tr.domain)
  rw [← hmsgs] at hnodup
  obtain ⟨m₀, m₁, htwo⟩ := length_eq_two.mp hlen
  rw [htwo] at hnodup
  exact ⟨sent, m₀, m₁, hsent, htwo, fun heq => by simp [heq] at hnodup⟩

/-- The parts of a message of 80000 bytes arrive in reverse order. -/
theorem push_delivers_reversed : ∃ sent m₀ m₁,
    ((senderOf noiseString).push (.bencode noiseHash) sampleTransport 0).2 = .ok sent ∧
      sent.msgs = [m₀, m₁] ∧ (Device.decodeAll (.bencode noiseHash) sampleTransport [sampleKey] 0
        [(bytes "b", m₁)] []).1.map Row.conf = [] ∧
      (Device.decodeAll (.bencode noiseHash) sampleTransport [sampleKey] 0
        [(bytes "b", m₁), (bytes "a", m₀)] []).1.map Row.conf =
        [(messageOf noiseString).serialize (.bencode noiseHash) true] := by
  have hbounds := length_packed_messageOf noiseHash length_noiseString
  have hsize : (packed sampleTransport
      ((senderOf noiseString).base.config.serialize (.bencode noiseHash) true).1).length ≤
      maxMultipartSize := hbounds.2.trans (by decide)
  obtain ⟨sent, m₀, m₁, hsent, hmsgs, hne⟩ := push_two_parts (.bencode noiseHash) sampleTransport 0
    (senderOf noiseString) sampleKey rfl hbounds.1 hbounds.2
  obtain ⟨sent', hsent', -, -, -, hall⟩ := push_delivers noiseHash sampleTransport 0
    (senderOf noiseString) sampleKey rfl hsize
  cases hsent'.symm.trans hsent
  have hreceives : ∀ before : List (MsgId × Bytes), (∀ x ∈ before, x.2 ∈ sent.msgs) →
      Device.Receives (.bencode noiseHash) sampleTransport true sampleKey sent.msgs
        (noiseHash (packed sampleTransport
          ((senderOf noiseString).base.config.serialize (.bencode noiseHash) true).1))
        ⟨(senderOf noiseString).base, [sampleKey], []⟩ [] before := fun before hbefore =>
    { holds_key := mem_cons_self
      other_keys := fun k hk hne => absurd (mem_singleton.mp hk) hne
      unseen := rfl
      others := fun x hx => .inl (hbefore x hx)
      retains := trivial }
  have hfirst := hall true _ [] [] 0 (bytes "b") m₁ (by simp [hmsgs]) (hreceives [] (by simp))
  have hsecond := hall true _ [] [(bytes "b", m₁)] 0 (bytes "a") m₀ (by simp [hmsgs])
    (hreceives _ (by simp [hmsgs]))
  rw [if_neg (by simp [hmsgs, hne.symm])] at hfirst
  rw [if_pos (by simp [hmsgs, hne])] at hsecond
  refine ⟨sent, m₀, m₁, hsent, hmsgs, hfirst, ?_⟩
  refine hsecond.trans ?_
  exact congrArg (· ++ _) hfirst

/-- A message that fits into one piece is presented twice when it is received twice. -/
theorem duplicate_message_presented_twice : ∃ sent m,
    ((senderOf (bytes "v")).push (.bencode noiseHash) sampleTransport 0).2 = .ok sent ∧
      sent.msgs = [m] ∧ (Device.decodeAll (.bencode noiseHash) sampleTransport [sampleKey] 0
        [(bytes "a", m), (bytes "a", m)] []).1.map Row.conf =
        [(messageOf (bytes "v")).serialize (.bencode noiseHash) true,
          (messageOf (bytes "v")).serialize (.bencode noiseHash) true] := by
  have hsize : (packed sampleTransport ((senderOf (bytes "v")).base.config.serialize
      (.bencode noiseHash) true).1).length = 216 := by decide +kernel
  obtain ⟨sent, hsent, hmsgs⟩ := push_msgs (.bencode noiseHash) sampleTransport 0
    (show (senderOf (bytes "v")).keys.head? = some sampleKey from rfl) (by rw [hsize]; decide)
  rw [hsize, if_neg (by decide)] at hmsgs
  exact ⟨sent, _, hsent, hmsgs, by decide +kernel⟩

end Bchat.Config
