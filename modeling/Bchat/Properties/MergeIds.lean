import Bchat.Properties.Contained
import Bchat.Properties.Delivery

/-!
# The ids that a merge reports

`merge()` returns the ids of the messages that were of use: it collects them while the messages are
decoded, and removes those the merging constructor could not parse. The entries are looked up by
index, and the own message is the first entry, the last one or none.
-/

namespace Bchat.Config

open Bencode Device ConfigBase

variable {id : MsgId} {env : Env} {table : Multiparts} {keys : List Key}

/-! ## What the messages of a call are -/

inductive Receipt
  /-- It cannot be decrypted or decoded, or it is a part that does not fit the other parts. -/
  | unreadable
  /-- A message in one part. -/
  | single (conf : Bytes)
  /-- A part of a set that is done. -/
  | processed
  /-- A part of a set that it does not complete. -/
  | pending (set : Hash)
  /-- The last part of a set, with the message put together if that is possible. -/
  | completing (set : Hash) (message : Option Bytes)
  deriving DecidableEq

variable {receipt : Receipt} {es : List (MsgId × Receipt)}

def partReceipt (env : Env) (tr : Transport) (table : Multiparts) (part : Part) : Receipt :=
  let entry := (SortedMap.find? part.finalHash table).getD .new
  if entry.done then .processed
  else if entry.parts ≠ [] ∧ (part.numParts.toNat : Int) ≠ entry.size then .unreadable
  else if alreadySeen part.index.toNat entry.parts then .pending part.finalHash
  else
    let parts := placePart ⟨part.index.toNat, [], part.data⟩ entry.parts
    if (parts.length : Int) = part.numParts.toNat then
      let recombined := (parts.map PartialMessage.data).flatten
      if env.blake2b recombined ≠ part.finalHash then .completing part.finalHash none
      else .completing part.finalHash (inflate tr.zstd (removePadding recombined))
    else .pending part.finalHash

def receiptOf (env : Env) (tr : Transport) (keys : List Key) (table : Multiparts) (conf : Bytes) :
    Receipt :=
  match Device.openMessage tr keys conf with
  | none => .unreadable
  | some plain =>
    let plain := removePadding plain
    if plain.head? = some (ascii 'm') then
      match parsePart plain with
      | none => .unreadable
      | some part => partReceipt env tr table part
    else
      match inflate tr.zstd plain with
      | some conf => .single conf
      | none => .unreadable

/-- What the messages of a call are, one after the other. -/
def receipts (env : Env) (tr : Transport) (keys : List Key) (now : Int) :
    List (MsgId × Bytes) → Multiparts → List (MsgId × Receipt)
  | [], _ => []
  | (hash, conf) :: rest, table =>
    (hash, receiptOf env tr keys table conf) ::
      receipts env tr keys now rest (Device.decode env tr keys now hash conf table).table

/-- Whether a call completes a set, and the message it makes of its parts, if that is possible. -/
def fate (set : Hash) : List (MsgId × Receipt) → Option (Option Bytes)
  | [] => none
  | (_, .completing set' message) :: rest => if set' = set then some message else fate set rest
  | _ :: rest => fate set rest

/-- A message is of use: a valid config message, a part of a set that the call completes to one, or
a part of a set that the call does not complete or that is done. -/
def Receipt.usable (accepted : Bytes → Bool) (rest : List (MsgId × Receipt)) : Receipt → Bool
  | .unreadable => false
  | .single conf => accepted conf
  | .processed => true
  | .pending set =>
    match fate set rest with
    | none => true
    | some message => message.any accepted
  | .completing _ message => message.any accepted

def usableIds (accepted : Bytes → Bool) : List (MsgId × Receipt) → Finset MsgId
  | [] => ∅
  | (id, receipt) :: rest =>
    if receipt.usable accepted rest then insert id (usableIds accepted rest)
    else usableIds accepted rest

/-! ## Decoding -/

def Receipt.good : Receipt → Bool
  | .unreadable | .completing _ none => false
  | _ => true

/-- The ids that are kept while the messages are decoded. -/
def goodIds : List (MsgId × Receipt) → Finset MsgId
  | [] => ∅
  | (id, receipt) :: rest => if receipt.good then insert id (goodIds rest) else goodIds rest

/-- The entry that a message adds to those to merge, if any. -/
def Receipt.RowOf (id : MsgId) : Receipt → Option Row → Prop
  | .single conf, row => row = some ⟨{id}, conf⟩
  | .completing _ (some conf), row => ∃ ids, id ∈ ids ∧ row = some ⟨ids, conf⟩
  | _, row => row = none

section

variable {tr : Transport} {now : Int}

lemma storePart_receipt {part : Part} {entry : PartialMessages}
    (hsize : entry.size = part.numParts.toNat) :
    let r := storePart env tr now id part entry table
    let parts := placePart ⟨part.index.toNat, [], part.data⟩ entry.parts
    let receipt : Receipt :=
      if (parts.length : Int) = part.numParts.toNat then
        if env.blake2b (parts.map PartialMessage.data).flatten ≠ part.finalHash then
          .completing part.finalHash none
        else .completing part.finalHash
          (inflate tr.zstd (removePadding (parts.map PartialMessage.data).flatten))
      else .pending part.finalHash
    r.accepted = receipt.good ∧
      receipt.RowOf id (r.completed.map fun c => ⟨c.1.toFinset, c.2⟩) := by
  have hlen : (placePart ⟨part.index.toNat, [], part.data⟩ entry.parts).length =
      (placePart ⟨part.index.toNat, id, part.data⟩ entry.parts).length := by
    simp [placePart]
  have hdata : (placePart ⟨part.index.toNat, [], part.data⟩ entry.parts).map PartialMessage.data =
      (placePart ⟨part.index.toNat, id, part.data⟩ entry.parts).map PartialMessage.data := by
    simp [placePart]
  have hid : id ∈ ((placePart ⟨part.index.toNat, id, part.data⟩ entry.parts).map
      PartialMessage.messageId).toFinset := by
    simp [placePart]
  unfold storePart
  dsimp only
  rw [hlen, hdata, hsize]
  split_ifs
  · exact ⟨rfl, rfl⟩
  · split
    · next plain hinflate =>
      rw [hinflate]
      exact ⟨rfl, _, hid, rfl⟩
    rename_i hinflate
    rw [hinflate]
    exact ⟨rfl, rfl⟩
  · exact ⟨rfl, rfl⟩

lemma handleMultipart_receipt {message : Bytes} {part : Part} (h : parsePart message = some part) :
    (handleMultipart env tr now id message table).accepted = (partReceipt env tr table part).good ∧
      (partReceipt env tr table part).RowOf id
        ((handleMultipart env tr now id message table).completed.map
          fun c => ⟨c.1.toFinset, c.2⟩) := by
  have hentry : (SortedMap.find? part.finalHash (SortedMap.emplace part.finalHash .new table)).getD
      .new = (SortedMap.find? part.finalHash table).getD .new := by
    rw [SortedMap.find?_emplace]
    cases SortedMap.find? part.finalHash table <;> simp
  unfold handleMultipart partReceipt
  rw [h]
  dsimp only
  rw [hentry]
  generalize (SortedMap.find? part.finalHash table).getD .new = entry
  by_cases hdone : entry.done
  · rw [if_pos hdone, if_pos hdone]
    exact ⟨rfl, rfl⟩
  rw [if_neg hdone, if_neg hdone]
  by_cases hfit : entry.parts ≠ [] ∧ (part.numParts.toNat : Int) ≠ entry.size
  · rw [if_pos hfit, if_pos hfit]
    exact ⟨rfl, rfl⟩
  rw [if_neg hfit, if_neg hfit]
  by_cases hseen : alreadySeen part.index.toNat entry.parts
  · rw [if_pos hseen, if_pos hseen]
    exact ⟨rfl, rfl⟩
  rw [if_neg hseen, if_neg hseen]
  exact storePart_receipt rfl

lemma decode_receipt {conf : Bytes} :
    (decode env tr keys now id conf table).good = (receiptOf env tr keys table conf).good ∧
      (receiptOf env tr keys table conf).RowOf id (decode env tr keys now id conf table).row := by
  unfold Device.decode receiptOf
  cases openMessage tr keys conf with
  | none => exact ⟨rfl, rfl⟩
  | some plain =>
    unfold decodePlain
    dsimp only
    split_ifs
    · cases hpart : parsePart (removePadding plain) with
      | none =>
        unfold handleMultipart
        rw [hpart]
        exact ⟨rfl, rfl⟩
      | some part => exact handleMultipart_receipt hpart
    · cases inflate tr.zstd (removePadding plain) with
      | none | some conf => exact ⟨rfl, rfl⟩

lemma decodeAll_good (configs : List (MsgId × Bytes)) (table : Multiparts) :
    (decodeAll env tr keys now configs table).2.1 =
      goodIds (receipts env tr keys now configs table) := by
  induction configs generalizing table with
  | nil => rfl
  | cons p rest ih =>
    rw [receipts, decodeAll, goodIds]
    dsimp only
    rw [decode_receipt.1, ih]

lemma exists_row_of_mem_receipts {configs : List (MsgId × Bytes)}
    (h : (id, receipt) ∈ receipts env tr keys now configs table) : ∃ row, receipt.RowOf id row ∧
      ∀ r ∈ row, r ∈ (decodeAll env tr keys now configs table).1 := by
  induction configs generalizing table with
  | nil => cases h
  | cons p rest ih =>
    rcases List.mem_cons.mp h with heq | h
    · cases heq
      exact ⟨_, decode_receipt.2, fun r hr => List.mem_append_left _ (Option.mem_toList.mpr hr)⟩
    · obtain ⟨row, hrow, hmem⟩ := ih h
      exact ⟨row, hrow, fun r hr => List.mem_append_right _ (hmem r hr)⟩

lemma map_fst_receipts (configs : List (MsgId × Bytes)) (table : Multiparts) :
    (receipts env tr keys now configs table).map Prod.fst = configs.map Prod.fst := by
  induction configs generalizing table with
  | nil => rfl
  | cons p rest ih => rw [receipts, List.map_cons, List.map_cons, ih]

end

/-! ## The indices -/

lemma mem_foldl_sdiff {rows : List (Row × Nat)} {P : Row × Nat → Prop} [DecidablePred P]
    {good : Finset MsgId} :
    id ∈ rows.foldl (fun good p => if P p then good \ p.1.ids else good) good ↔
      id ∈ good ∧ ∀ p ∈ rows, P p → id ∉ p.1.ids := by
  induction rows generalizing good with
  | nil => simp
  | cons p rows ih =>
    rw [List.foldl_cons, ih]
    split_ifs with hp <;> simp [hp, and_assoc]

section

variable {verifier : Option Verifier} {signer : Option Signer} {lag : Int}

lemma mem_removeBad {own : Option Nat} {rows : List Row} {good : Finset MsgId} :
    id ∈ removeBad own (rejectedFrom env verifier signer lag 0 (rows.map Row.conf)) rows good ↔
      id ∈ good ∧ ∀ (i : Nat) (row : Row), rows[i]? = some row → own ≠ some i →
        isAccepted env verifier signer lag row.conf = false → id ∉ row.ids := by
  unfold removeBad
  rw [mem_foldl_sdiff (P := fun p : Row × Nat => own ≠ some p.2 ∧
    p.2 ∈ rejectedFrom env verifier signer lag 0 (rows.map Row.conf))]
  refine and_congr_right fun _ => ⟨?_, ?_⟩
  · intro h i row hrow hown hrej
    refine h (row, i) (List.mem_zipIdx_iff_getElem?.mpr hrow) ⟨hown, ?_⟩
    exact mem_rejectedFrom_zero.mpr ⟨row.conf, by rw [List.getElem?_map, hrow]; rfl, hrej⟩
  rintro h ⟨row, i⟩ hmem ⟨hown, hbad⟩
  have hrow := List.mem_zipIdx_iff_getElem?.mp hmem
  obtain ⟨b, hb, hrej⟩ := mem_rejectedFrom_zero.mp hbad
  rw [List.getElem?_map, hrow] at hb
  cases hb
  exact h i row hrow hown hrej

lemma forall_allRows_iff (cb : ConfigBase) (mine : Option Bytes) (received : List Row)
    {P : Row → Prop} : (∀ (i : Nat) (row : Row), (cb.allRows mine received)[i]? = some row →
      (if mine.isSome then some (cb.mineIndex mine (cb.allRows mine received)) else none) ≠ some i →
      P row) ↔ ∀ row ∈ received, P row := by
  unfold mineIndex allRows
  cases mine with
  | none =>
    simp only [Option.isSome_none, Bool.false_eq_true, if_false, ne_eq, reduceCtorEq,
      not_false_eq_true, forall_const]
    exact ⟨fun h row hrow => by
      obtain ⟨i, hi⟩ := List.mem_iff_getElem?.mp hrow
      exact h i row hi, fun h i row hi => h row (List.mem_of_getElem? hi)⟩
  | some conf =>
    simp only [Option.isSome_some, if_true, true_and]
    split_ifs with hcurr
    · simp only [List.length_append, List.length_singleton, Nat.add_sub_cancel, ne_eq,
        Option.some.injEq]
      constructor
      · intro h row hrow
        obtain ⟨i, hi⟩ := List.mem_iff_getElem?.mp hrow
        have hlt : i < received.length := (List.getElem?_eq_some_iff.mp hi).1
        exact h i row (by rw [List.getElem?_append_left hlt, hi]) hlt.ne'
      intro h i row hi hne
      rcases Nat.lt_or_ge i received.length with hlt | hge
      · rw [List.getElem?_append_left hlt] at hi
        exact h row (List.mem_of_getElem? hi)
      have hzero : i - received.length = 0 := by
        by_contra hpos
        rw [List.getElem?_eq_none (by simp; omega)] at hi
        cases hi
      omega
    simp only [ne_eq, Option.some.injEq]
    constructor
    · intro h row hrow
      obtain ⟨i, hi⟩ := List.mem_iff_getElem?.mp hrow
      exact h (i + 1) row hi (by omega)
    intro h i row hi hne
    cases i with
    | zero => exact absurd rfl hne
    | succ i => exact h row (List.mem_of_getElem? hi)

/-- The id is one of those of an entry that the parser rejects. -/
def Dropped (accepted : Bytes → Bool) (received : List Row) (id : MsgId) : Prop :=
  ∃ row ∈ received, accepted row.conf = false ∧ id ∈ row.ids

/-- **Wherever the own entry is, the loop over the indices removes the ids of the received entries
that the parser rejects.** -/
lemma mem_removeBad_rows (cb : ConfigBase) (mine : Option Bytes) (received : List Row)
    (good : Finset MsgId) (id : MsgId) : id ∈ removeBad
        (if mine.isSome then some (cb.mineIndex mine (cb.allRows mine received)) else none)
        (rejectedFrom env verifier signer lag 0 ((cb.allRows mine received).map Row.conf))
        (cb.allRows mine received) good ↔
      id ∈ good ∧ ¬Dropped (isAccepted env verifier signer lag) received id := by
  rw [mem_removeBad, forall_allRows_iff cb mine received]
  simp [Dropped]

lemma parseAll_mergeHandler_iff (L : List Bytes) :
    parseAll env verifier signer lag (mergeHandler true) 0 L ≠ .error .assertion ↔
      ∀ b ∈ L.head?, ∀ e, ConfigMessage.parse env b verifier signer lag false = .error e →
        e.isConfigError = false := by
  have hlater : ∀ (L : List Bytes) (i : Nat),
      parseAll env verifier signer lag (mergeHandler true) (i + 1) L ≠ .error .assertion := by
    intro L
    induction L with
    | nil => simp [parseAll]
    | cons b rest ih =>
      intro i h
      rw [parseAll] at h
      split at h
      · rcases bind_eq_error.mp h with h | ⟨_, _, h⟩
        · exact ih _ h
        · cases h
      rename_i e he
      split_ifs at h
      · have hhandler : mergeHandler true (i + 1) e = .ok () := by simp [mergeHandler]
        rw [hhandler, ok_bind] at h
        rcases bind_eq_error.mp h with h | ⟨_, _, h⟩
        · exact ih _ h
        · cases h
      · cases h
        exact parse_ne_assertion b verifier signer lag false he
  cases L with
  | nil => simp [parseAll]
  | cons b rest =>
    rw [parseAll]
    simp only [List.head?_cons, Option.mem_def, Option.some.injEq, forall_eq']
    cases hb : ConfigMessage.parse env b verifier signer lag false with
    | ok m =>
      simp only [reduceCtorEq, false_implies, implies_true, iff_true]
      intro h
      rcases bind_eq_error.mp h with h | ⟨_, _, h⟩
      · exact hlater rest 0 h
      · cases h
    | error e =>
      simp only [Except.error.injEq, forall_eq']
      split_ifs with hconfig
      · constructor
        · intro h
          exact absurd rfl h
        intro h
        rw [hconfig] at h
        cases h
      constructor
      · exact fun _ => Bool.eq_false_iff.mpr hconfig
      intro _ h
      cases h
      exact parse_ne_assertion b verifier signer lag false hb

end

/-! ## The ids reported -/

/-- The ids of messages that are of use are not those of a rejected entry, and those of parts that
are not of use are. -/
def Consistent (accepted : Bytes → Bool) (dropped : MsgId → Prop) : List (MsgId × Receipt) → Prop
  | [] => True
  | (id, receipt) :: rest =>
    (if receipt.usable accepted rest then ¬dropped id
      else ∀ set, receipt = .pending set → dropped id) ∧ Consistent accepted dropped rest

section

variable {accepted : Bytes → Bool} {dropped : MsgId → Prop}

lemma mem_map_of_mem_goodIds (h : id ∈ goodIds es) : id ∈ es.map Prod.fst := by
  induction es with
  | nil => simp [goodIds] at h
  | cons e rest ih =>
    rw [goodIds] at h
    split_ifs at h
    · rcases Finset.mem_insert.mp h with rfl | h
      · exact List.mem_cons_self
      · exact List.mem_cons_of_mem _ (ih h)
    · exact List.mem_cons_of_mem _ (ih h)

lemma mem_map_of_mem_usableIds (h : id ∈ usableIds accepted es) : id ∈ es.map Prod.fst := by
  induction es with
  | nil => simp [usableIds] at h
  | cons e rest ih =>
    rw [usableIds] at h
    split_ifs at h
    · rcases Finset.mem_insert.mp h with rfl | h
      · exact List.mem_cons_self
      · exact List.mem_cons_of_mem _ (ih h)
    · exact List.mem_cons_of_mem _ (ih h)

lemma reported_iff_usable_iff {rest : List (MsgId × Receipt)} {row : Option Row}
    (hrow : receipt.RowOf id row)
    (hdropped : ∀ r ∈ row, accepted r.conf = false → ∀ id ∈ r.ids, dropped id) :
    (receipt.good = true ∧ ¬dropped id ↔ receipt.usable accepted rest = true) ↔
      if receipt.usable accepted rest then ¬dropped id
      else ∀ set, receipt = .pending set → dropped id := by
  have hconf : ∀ conf ids, id ∈ ids → row = some ⟨ids, conf⟩ → ∀ b, b = accepted conf →
      ((¬dropped id ↔ b = true) ↔ if b then ¬dropped id else True) := by
    rintro conf ids hid rfl b hb
    cases b with
    | true => simp
    | false => simp [hdropped _ rfl hb.symm id hid]
  cases receipt with
  | unreadable | processed => simp [Receipt.good, Receipt.usable]
  | pending set =>
    simp only [Receipt.good, true_and, Receipt.pending.injEq, forall_eq']
    cases Receipt.usable accepted rest (.pending set) <;> simp
  | single conf =>
    simp only [Receipt.good, true_and, reduceCtorEq, false_implies, implies_true]
    exact hconf conf {id} (Finset.mem_singleton_self id) hrow _ rfl
  | completing set message =>
    cases message with
    | none => simp [Receipt.good, Receipt.usable]
    | some conf =>
      obtain ⟨ids, hid, hrow⟩ := hrow
      simp only [Receipt.good, true_and, reduceCtorEq, false_implies, implies_true]
      exact hconf conf ids hid hrow _ rfl

lemma forall_reported_iff (hids : (es.map Prod.fst).Nodup)
    (hrow : ∀ id receipt, (id, receipt) ∈ es →
      ∃ row, receipt.RowOf id row ∧ ∀ r ∈ row, accepted r.conf = false → ∀ id ∈ r.ids, dropped id) :
    (∀ id, id ∈ goodIds es ∧ ¬dropped id ↔ id ∈ usableIds accepted es) ↔
      Consistent accepted dropped es := by
  induction es with
  | nil => simp [goodIds, usableIds, Consistent]
  | cons e rest ih =>
    obtain ⟨id, receipt⟩ := e
    have hnot : id ∉ rest.map Prod.fst := (List.nodup_cons.mp hids).1
    have ih := ih (List.nodup_cons.mp hids).2 fun id' r h => hrow id' r (List.mem_cons_of_mem _ h)
    obtain ⟨row, hrowOf, hdropped⟩ := hrow id receipt List.mem_cons_self
    have hgood : ∀ x, x ∈ goodIds ((id, receipt) :: rest) ↔
        x = id ∧ receipt.good = true ∨ x ∈ goodIds rest := by
      intro x
      rw [goodIds]
      split_ifs with h <;> simp [h]
    have husable : ∀ x, x ∈ usableIds accepted ((id, receipt) :: rest) ↔
        x = id ∧ receipt.usable accepted rest = true ∨ x ∈ usableIds accepted rest := by
      intro x
      rw [usableIds]
      split_ifs with h <;> simp [h]
    have hng : id ∉ goodIds rest := mt mem_map_of_mem_goodIds hnot
    have hnu : id ∉ usableIds accepted rest := mt mem_map_of_mem_usableIds hnot
    rw [Consistent, ← reported_iff_usable_iff hrowOf hdropped, ← ih]
    simp only [hgood, husable]
    constructor
    · intro h
      refine ⟨by simpa [hng, hnu] using h id, fun x => ?_⟩
      by_cases hx : x = id
      · subst hx
        simp [hng, hnu]
      · simpa [hx] using h x
    rintro ⟨hhead, htail⟩ x
    by_cases hx : x = id
    · subst hx
      simpa [hng, hnu] using hhead
    · simpa [hx] using htail x

end

/-! ## Merging -/

lemma map_eq_ok {ε α β : Type} {x : Except ε α} {f : α → β} {b : β} (h : x.map f = .ok b) :
    ∃ a, f a = b := by
  cases x with
  | error e => cases h
  | ok a => exact ⟨a, Except.ok.inj h⟩

lemma mergeRows_ids {debug : Bool} {received : List Row} {good ids : Finset MsgId}
    {cb : ConfigBase} (h : (cb.mergeRows env debug received good).2 = .ok ids) (id : MsgId) :
    id ∈ ids ↔ id ∈ good ∧ ¬Dropped (isAccepted env cb.config.base.verifier
      cb.config.base.signer configLags) received id := by
  unfold mergeRows at h
  simp only at h
  rw [show (cb.serializeMine env).2 = cb.refresh env from rfl, refresh_allRows] at h
  split at h
  · next hempty =>
    have hnil : received = [] := by
      rw [List.isEmpty_iff] at hempty
      unfold rows allRows at hempty
      split at hempty
      · exact hempty
      · split_ifs at hempty
        simp at hempty
    cases h
    simp [Dropped, hnil]
  split at h
  · cases h
  rename_i newConf bad hmake
  rw [refresh_verifier, refresh_signer] at hmake
  obtain ⟨⟨m, bad'⟩, hmerge, hmake⟩ := bind_eq_ok.mp hmake
  cases hmake
  obtain ⟨r, hparse, hmerge⟩ := bind_eq_ok.mp hmerge
  cases parseAll_inv hparse
  dsimp only at hmerge
  split at hmerge
  · cases hmerge
  obtain ⟨m', -, hmerge⟩ := bind_eq_ok.mp hmerge
  cases hmerge
  obtain ⟨_, rfl⟩ := map_eq_ok h
  rw [← refresh_allRows]
  exact mem_removeBad_rows (cb.refresh env) _ received good id

def Device.HandlerHolds (env : Env) (tr : Transport) (now : Int) (configs : List (MsgId × Bytes))
    (dev : Device) : Prop :=
  parseAll env dev.base.config.base.verifier dev.base.config.base.signer configLags
    (mergeHandler true) 0 ((dev.base.rows env
      (Device.decodeAll env tr dev.keys now configs dev.multiparts).1).map Row.conf) ≠
    .error .assertion

def Device.accepts (env : Env) (dev : Device) : Bytes → Bool :=
  isAccepted env dev.base.config.base.verifier dev.base.config.base.signer configLags

/-- **The assertion in the error handler holds iff the first entry is not rejected; and the ids
reported are those of the messages that are of use iff** no such id is also that of a part of a set
that the call completes to a rejected message, and every part of a set that it completes to no valid
message is one of a rejected message. -/
theorem merge_reports_usable_iff (env : Env) (tr : Transport) (now : Int) (dev : Device)
    (configs : List (MsgId × Bytes)) (hids : (configs.map Prod.fst).Nodup) :
    (dev.HandlerHolds env tr now configs ↔ ∀ row ∈ (dev.base.rows env
          (Device.decodeAll env tr dev.keys now configs dev.multiparts).1).head?,
        ∀ e, ConfigMessage.parse env row.conf dev.base.config.base.verifier
          dev.base.config.base.signer configLags false = .error e → e.isConfigError = false) ∧
    ∀ debug ids, (dev.merge env tr debug now configs).2 = .ok ids →
      (ids = usableIds (dev.accepts env) (receipts env tr dev.keys now configs dev.multiparts) ↔
        Consistent (dev.accepts env) (Dropped (dev.accepts env)
            (Device.decodeAll env tr dev.keys now configs dev.multiparts).1)
          (receipts env tr dev.keys now configs dev.multiparts)) := by
  constructor
  · unfold Device.HandlerHolds
    rw [parseAll_mergeHandler_iff, List.head?_map]
    simp only [Option.mem_def, Option.map_eq_some_iff, forall_exists_index, and_imp,
      forall_apply_eq_imp_iff₂]
  intro debug ids h
  unfold merge at h
  split_ifs at h
  have hmem := mergeRows_ids h
  rw [decodeAll_good] at hmem
  rw [Finset.ext_iff, ← forall_reported_iff (by rw [map_fst_receipts]; exact hids)]
  · exact forall_congr' fun id => by rw [hmem id]; rfl
  intro id receipt hreceipt
  obtain ⟨row, hrow, hrows⟩ := exists_row_of_mem_receipts hreceipt
  exact ⟨row, hrow, fun r hr hrej id hid => ⟨r, hrows r hr, hrej, hid⟩⟩

def throws {α : Type} (e : Err) : Except Err α → Bool
  | .error e' => e' = e
  | .ok _ => false

lemma eq_error_of_throws {α : Type} {e : Err} {x : Except Err α} (h : throws e x = true) :
    x = .error e := by
  cases x with
  | ok a => cases h
  | error e' => rw [of_decide_eq_true h]

def mergeIdsEnv : Env :=
  Env.bencode (tableHash [(first, firstHash),
    (bytes "xy", hashOfNat 0xa62c49eca12bda8fc4a9d17d2b5ba7b798424c5ae35e2ac679e4ba0ad02927ba)])

def newDevice : Device := { Device.fresh mergeIdsEnv .none with keys := [sampleKey] }

def sealed (plain : Bytes) : Bytes :=
  encrypt sampleTransport.aead plain sampleKey sampleTransport.domain

/-- A new object gets a valid message. -/
theorem merge_reports_usable_single : ([(bytes "a", sealed first)].map Prod.fst).Nodup ∧
      newDevice.HandlerHolds mergeIdsEnv sampleTransport 0 [(bytes "a", sealed first)] ∧
      ∀ ids, (newDevice.merge mergeIdsEnv sampleTransport true 0 [(bytes "a", sealed first)]).2 =
        .ok ids → ids = {bytes "a"} := by
  have hids : ([(bytes "a", sealed first)].map Prod.fst).Nodup := by simp
  have hreceipts : receipts mergeIdsEnv sampleTransport newDevice.keys 0
      [(bytes "a", sealed first)] newDevice.multiparts = [(bytes "a", .single first)] := by
    decide +kernel
  have hrows : ((decodeAll mergeIdsEnv sampleTransport newDevice.keys 0
      [(bytes "a", sealed first)] newDevice.multiparts).1.map Row.conf) = [first] := by
    decide +kernel
  have haccepts : newDevice.accepts mergeIdsEnv first = true := by decide +kernel
  obtain ⟨hholds, hreports⟩ := merge_reports_usable_iff mergeIdsEnv sampleTransport 0 newDevice
    [(bytes "a", sealed first)] hids
  refine ⟨hids, hholds.mpr ?_, fun ids h => ?_⟩
  · intro row hrow e he
    have hconf : (newDevice.base.rows mergeIdsEnv (decodeAll mergeIdsEnv sampleTransport
        newDevice.keys 0 [(bytes "a", sealed first)] newDevice.multiparts).1).map Row.conf =
          [first] := by
      decide +kernel
    have hmem : row.conf ∈ [first] := hconf ▸ List.mem_map_of_mem (List.mem_of_mem_head? hrow)
    rw [List.mem_singleton.mp hmem] at he
    simp [accepts, isAccepted, parsed, he, Except.toOption] at haccepts
  rw [(hreports true ids h).mpr ?_, hreceipts]
  · simp [usableIds, Receipt.usable, haccepts]
  rw [hreceipts]
  simp only [Consistent, Receipt.usable, haccepts, if_true, and_true]
  rintro ⟨row, hrow, hrej, -⟩
  have hconf : row.conf ∈ [first] := hrows ▸ List.mem_map_of_mem hrow
  rw [List.mem_singleton.mp hconf] at hrej
  have := haccepts.symm.trans hrej
  cases this

def forgedPart (index : UInt8) (data : Bytes) : Bytes :=
  sealed (Part.encode ⟨hashOfNat 1, index, 2, data⟩)

/-- A new object gets a message that is not a config message, and the assertion fails. It gets two
parts that do not fit together, and reports the first. -/
theorem merge_reports_forged :
    ¬newDevice.HandlerHolds mergeIdsEnv sampleTransport 0 [(bytes "a", sealed (bytes "de"))] ∧
    (newDevice.merge mergeIdsEnv sampleTransport true 0
      [(bytes "a", forgedPart 0 (bytes "x")), (bytes "b", forgedPart 1 (bytes "y"))]).2.toOption =
        some {bytes "a"} ∧
    usableIds (newDevice.accepts mergeIdsEnv) (receipts mergeIdsEnv sampleTransport newDevice.keys 0
      [(bytes "a", forgedPart 0 (bytes "x")), (bytes "b", forgedPart 1 (bytes "y"))]
      newDevice.multiparts) = ∅ := by
  refine ⟨?_, by decide +kernel, by decide +kernel⟩
  unfold Device.HandlerHolds
  rw [not_not]
  exact eq_error_of_throws (by decide +kernel)

end Bchat.Config
