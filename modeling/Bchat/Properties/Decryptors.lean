import Bchat.Attachments.Decrypt
import Bchat.Config.Diff

/-!
# The decryptors of attachments

A `Decryptor` does not depend on how its input is cut into pieces.
-/

namespace Bchat.Attachments

open Config Chunks List

variable {ss : SecretStream}
variable {ms : List (Bytes × UInt8)} {st : ss.State} {c m data x : Bytes} {cs : List Bytes}
  {d d' : Decryptor ss} {isFinal : Bool} {r : Bool × Decryptor ss}

lemma encryptedChunkTotal_pos : 0 < encryptedChunkTotal := by decide

/-! ## Streams -/

def pullAll (ss : SecretStream) : ss.State → List Bytes → Option (List (Bytes × UInt8))
  | _, [] => some []
  | st, c :: cs =>
    match ss.pull st c with
    | none => none
    | some (m, tag, st) => (pullAll ss st cs).map ((m, tag) :: ·)

def plainOf (ms : List (Bytes × UInt8)) : Bytes := (ms.map Prod.fst).flatten

@[simp] lemma plainOf_nil : plainOf [] = [] := rfl

@[simp] lemma plainOf_cons (p : Bytes × UInt8) (ms : List (Bytes × UInt8)) :
    plainOf (p :: ms) = p.1 ++ plainOf ms := rfl

def FinalLast : List (Bytes × UInt8) → Prop
  | [] => False
  | [p] => p.2 = tagFinal
  | p :: q :: ms => p.2 ≠ tagFinal ∧ FinalLast (q :: ms)

lemma finalLast_cons {p : Bytes × UInt8} (h : ms ≠ []) :
    FinalLast (p :: ms) ↔ p.2 ≠ tagFinal ∧ FinalLast ms := by
  cases ms with
  | nil => exact absurd rfl h
  | cons q ms => exact Iff.rfl

lemma FinalLast.ne_nil (h : FinalLast ms) : ms ≠ [] := by
  rintro rfl
  exact h

lemma pullAll_cons (h : pullAll ss st (c :: cs) = some ms) :
    ∃ m tag st' ms', ss.pull st c = some (m, tag, st') ∧ pullAll ss st' cs = some ms' ∧
      ms = (m, tag) :: ms' := by
  rw [pullAll] at h
  split at h
  · cases h
  rename_i m tag st' hpull
  obtain ⟨ms', hms', rfl⟩ := Option.map_eq_some_iff.mp h
  exact ⟨m, tag, st', ms', hpull, hms', rfl⟩

lemma pullAll_of_pull {st' : ss.State} {tag : UInt8} (hpull : ss.pull st c = some (m, tag, st'))
    (hms : pullAll ss st' cs = some ms) : pullAll ss st (c :: cs) = some ((m, tag) :: ms) := by
  rw [pullAll, hpull]
  dsimp only
  rw [hms]
  rfl

lemma pullAll_nil_iff : pullAll ss st cs = some [] ↔ cs = [] := by
  constructor
  · intro h
    cases cs with
    | nil => rfl
    | cons c cs =>
      obtain ⟨m, tag, st', ms', -, -, hms⟩ := pullAll_cons h
      cases hms
  · rintro rfl
    rfl

lemma length_pullAll (h : pullAll ss st cs = some ms) :
    ms.length = cs.length ∧ cs.flatten.length = (plainOf ms).length + 17 * ms.length := by
  induction cs generalizing st ms with
  | nil =>
    cases h
    exact ⟨rfl, rfl⟩
  | cons c cs ih =>
    obtain ⟨m, tag, st', ms', hpull, hms', rfl⟩ := pullAll_cons h
    obtain ⟨hcount, hlen⟩ := ih hms'
    have hc := ss.pull_length _ _ _ _ _ hpull
    refine ⟨by rw [length_cons, length_cons, hcount], ?_⟩
    rw [flatten_cons, length_append, plainOf_cons, length_append, length_cons]
    dsimp only
    omega

/-- The data behind the padding, or the data as they are if the padding is removed already. -/
def Strips (depadded : Bool) (stream data : Bytes) : Prop :=
  if depadded then stream = data else ∃ n, stream = List.replicate n 0 ++ 1 :: data

lemma strips_append {rest : Bytes} (h : Strips false (m ++ rest) data) :
    (m.dropWhile (· == 0) = [] ∧ Strips false rest data) ∨
      ∃ x, m.dropWhile (· == 0) = 1 :: x ∧ data = x ++ rest := by
  obtain ⟨n, h⟩ := h
  rcases append_eq_append_iff.mp h with ⟨a, ha, hrest⟩ | ⟨a, rfl, hrest⟩
  · left
    obtain ⟨hm, ha'⟩ := append_eq_replicate_iff.mp ha.symm |>.2
    refine ⟨?_, a.length, ?_⟩
    · rw [hm, dropWhile_replicate]
      rfl
    · rw [hrest, ← ha']
  cases a with
  | nil =>
    left
    refine ⟨?_, 0, by simpa using hrest.symm⟩
    rw [append_nil, dropWhile_replicate]
    rfl
  | cons b a =>
    right
    obtain ⟨rfl, rfl⟩ : 1 = b ∧ data = a ++ rest := by simpa using hrest
    refine ⟨a, ?_, rfl⟩
    rw [dropWhile_append, dropWhile_replicate]
    rfl

namespace Decryptor

variable {output : Output}

/-! ## Pieces -/

structure Ready (d : Decryptor ss) : Prop where
  failed : d.failed = false
  finished : d.finished = false
  buf : d.buf.length < d.target
  st : d.header = d.st.isSome
  final : d.hitFinal = true → d.header = true

lemma emit_buf (d : Decryptor ss) (b out : Bytes) : emit output { d with buf := b } out =
      (emit output d out).map (fun d => { d with buf := b }) := by
  unfold emit
  split
  · cases output d.written out <;> rfl
  split
  · rfl
  split
  · rfl
  split
  · rfl
  · cases output d.written _ <;> rfl

lemma processChunk_buf (d : Decryptor ss) (b chunk : Bytes) (isFinal : Bool) :
    processChunk output { d with buf := b } chunk isFinal =
      (processChunk output d chunk isFinal).map (fun d => { d with buf := b }) := by
  unfold processChunk
  dsimp only
  split
  · rfl
  split
  · rfl
  split
  · rfl
  split
  · rfl
  split
  · rfl
  · next out tag st _ => exact emit_buf { d with st := some st, hitFinal := tag = tagFinal } b out

lemma processHeader_buf (d : Decryptor ss) (b hdr : Bytes) : processHeader { d with buf := b } hdr =
      (processHeader d hdr).map (fun d => { d with buf := b }) := by
  unfold processHeader
  split
  · rfl
  split
  · rfl
  · split <;> rfl

lemma emit_keeps {out : Bytes} (h : emit output d out = .ok d') :
    d'.buf = d.buf ∧ d'.header = d.header ∧ d'.finished = d.finished ∧ d'.st = d.st ∧
      d'.hitFinal = d.hitFinal := by
  unfold emit at h
  split at h
  · obtain ⟨w, -, h⟩ := bind_eq_ok.mp h
    cases h
    exact ⟨rfl, rfl, rfl, rfl, rfl⟩
  split at h
  · cases h
    exact ⟨rfl, rfl, rfl, rfl, rfl⟩
  split at h
  · cases h
    exact ⟨rfl, rfl, rfl, rfl, rfl⟩
  split at h
  · cases h
    exact ⟨rfl, rfl, rfl, rfl, rfl⟩
  obtain ⟨w, -, h⟩ := bind_eq_ok.mp h
  cases h
  exact ⟨rfl, rfl, rfl, rfl, rfl⟩

lemma processChunk_keeps {chunk : Bytes} (h : processChunk output d chunk isFinal = .ok d') :
    d'.buf = d.buf ∧ d'.header = d.header ∧ d'.finished = d.finished ∧
      d'.st.isSome = d.st.isSome ∧
      (d'.hitFinal = true → d.hitFinal = true ∨ d.st.isSome = true) := by
  unfold processChunk at h
  split at h
  · cases h
    exact ⟨rfl, rfl, rfl, rfl, .inl⟩
  split at h
  · cases h
  split at h
  · cases h
    exact ⟨rfl, rfl, rfl, rfl, .inl⟩
  split at h
  · cases h
  next hst =>
  split at h
  · cases h
    exact ⟨rfl, rfl, rfl, rfl, .inl⟩
  · obtain ⟨hbuf, hheader, hfinished, hst', -⟩ := emit_keeps h
    exact ⟨hbuf, hheader, hfinished, by rw [hst', hst]; rfl, fun _ => .inr (by rw [hst]; rfl)⟩

lemma processHeader_keeps {hdr : Bytes} (h : processHeader d hdr = .ok d') :
    d'.buf = d.buf ∧ d'.finished = d.finished ∧
      (d'.failed = false → d'.header = true ∧ d'.st.isSome = true) := by
  unfold processHeader at h
  split at h
  · cases h
  split at h
  · cases h
    exact ⟨rfl, rfl, fun hf => Bool.noConfusion hf⟩
  split at h
  · cases h
    exact ⟨rfl, rfl, fun _ => ⟨rfl, rfl⟩⟩
  · cases h

lemma updateChunks_of_lt (h : x.length < encryptedChunkTotal) :
    updateChunks output d x = .ok (true, if x = [] then d else { d with buf := x }) := by
  rw [updateChunks, dif_neg (not_le.mpr h)]

lemma updateChunks_of_le (h : encryptedChunkTotal ≤ x.length) : updateChunks output d x =
      processChunk output d (x.take encryptedChunkTotal) false >>= fun d =>
        if d.failed then .ok (false, d)
        else updateChunks output d (x.drop encryptedChunkTotal) := by
  rw [updateChunks, dif_pos h]
  cases processChunk output d (x.take encryptedChunkTotal) false <;> rfl

lemma updateDirect_of_header (h : d.header = true) (x : Bytes) :
    updateDirect output d x = updateChunks output d x := by
  rw [updateDirect, if_pos h]

lemma processBuf_buf (d : Decryptor ss) (b buf : Bytes) :
    processBuf output { d with buf := b } buf =
      (processBuf output d buf).map (fun d => { d with buf := b }) := by
  unfold processBuf
  split
  · exact processChunk_buf d b buf false
  · exact processHeader_buf d b buf

lemma processBuf_keeps {buf : Bytes} (h : processBuf output d buf = .ok d') :
    d'.buf = d.buf ∧ d'.finished = d.finished ∧ (d'.failed = false → d'.header = true ∧
      (d.header = d.st.isSome → d'.st.isSome = true)) := by
  unfold processBuf at h
  split at h
  · next hheader =>
    obtain ⟨hbuf, hkeep, hfinished, hst, -⟩ := processChunk_keeps h
    exact ⟨hbuf, hfinished, fun _ => ⟨hkeep.trans hheader, fun h => by rw [hst, ← h, hheader]⟩⟩
  · obtain ⟨hbuf, hfinished, hopen⟩ := processHeader_keeps h
    exact ⟨hbuf, hfinished, fun hf => ⟨(hopen hf).1, fun _ => (hopen hf).2⟩⟩

structure Fresh (d : Decryptor ss) : Prop where
  failed : d.failed = false
  finished : d.finished = false
  buf : d.buf = []
  st : d.header = d.st.isSome
  final : d.hitFinal = true → d.header = true

lemma target_pos (d : Decryptor ss) : 0 < d.target := by
  unfold target
  split <;> decide

lemma Fresh.ready (h : Fresh d) : Ready d :=
  ⟨h.failed, h.finished, by rw [h.buf]; exact d.target_pos, h.st, h.final⟩

lemma Fresh.clear (h : Fresh d) : { d with buf := [] } = d := by
  rw [← h.buf]

lemma Ready.fresh (h : Ready d) : Fresh { d with buf := [] } :=
  ⟨h.failed, h.finished, rfl, h.st, h.final⟩

lemma Fresh.processBuf (h : Fresh d) {buf : Bytes}
    (hd : Decryptor.processBuf output d buf = .ok d') (hfailed : d'.failed = false) : Fresh d' := by
  obtain ⟨hbuf, hfinished, hopen⟩ := processBuf_keeps hd
  exact ⟨hfailed, hfinished.trans h.finished, hbuf.trans h.buf,
    (hopen hfailed).1.trans ((hopen hfailed).2 h.st).symm, fun _ => (hopen hfailed).1⟩

lemma updateDirect_short (h : Fresh d) (hx : x.length < d.target) :
    updateDirect output d x = .ok (true, { d with buf := x }) := by
  unfold target at hx
  unfold updateDirect
  split
  · next hheader =>
    rw [if_pos hheader] at hx
    rw [updateChunks_of_lt hx]
    split
    · next hnil => rw [hnil, h.clear]
    · rfl
  next hheader =>
  rw [if_neg hheader] at hx
  rw [if_neg (not_le.mpr hx)]

lemma updateDirect_long (hx : d.target ≤ x.length) :
    updateDirect output d x = processBuf output d (x.take d.target) >>= fun d' =>
        if d'.failed then .ok (false, d') else updateDirect output d' (x.drop d.target) := by
  have hchunks : updateDirect output d x = processBuf output d (x.take d.target) >>= fun d' =>
      if d'.failed then .ok (false, d') else updateChunks output d' (x.drop d.target) := by
    unfold target at *
    unfold updateDirect processBuf
    split at hx
    · next hheader =>
      simp only [if_pos hheader]
      exact updateChunks_of_le hx
    · next hheader => simp only [if_neg hheader, if_pos hx]
  rw [hchunks]
  cases hd : processBuf output d (x.take d.target) with
  | error e => rfl
  | ok d' =>
    rw [ok_bind, ok_bind]
    split
    · rfl
    · next hfailed =>
      exact (updateDirect_of_header ((processBuf_keeps hd).2.2 (by simpa using hfailed)).1 _).symm

lemma update_eq_updateDirect (h : Ready d) (x : Bytes) :
    update output d x = updateDirect output { d with buf := [] } (d.buf ++ x) := by
  unfold update
  rw [if_neg (by simp [h.failed]), if_neg (by simp [h.finished])]
  by_cases hbuf : d.buf = []
  · rw [if_pos hbuf, hbuf, nil_append]
    rw [← hbuf]
  rw [if_neg hbuf, if_neg (not_not.mpr h.buf)]
  dsimp only
  by_cases hx : x.length < d.target - d.buf.length
  · have hsteal : min (d.target - d.buf.length) x.length = x.length := by omega
    have hlen : (d.buf ++ x).length < d.target := by
      rw [length_append]
      omega
    rw [hsteal, take_length, if_pos hlen.ne, updateDirect_short h.fresh hlen]
  have hsteal : min (d.target - d.buf.length) x.length = d.target - d.buf.length := by omega
  have hfull : (d.buf ++ x.take (d.target - d.buf.length)) = (d.buf ++ x).take d.target := by
    rw [take_append, take_of_length_le h.buf.le]
  have hrest : x.drop (d.target - d.buf.length) = (d.buf ++ x).drop d.target := by
    rw [drop_append, drop_of_length_le h.buf.le, nil_append]
  have hlen : d.target ≤ (d.buf ++ x).length := by
    rw [length_append]
    omega
  rw [hsteal, hfull, hrest, if_neg (by rw [length_take]; omega),
    updateDirect_long (d := { d with buf := [] }) hlen, processBuf_buf d []]
  show _ = Except.map _ (processBuf output d ((d.buf ++ x).take d.target)) >>= _
  cases processBuf output d ((d.buf ++ x).take d.target) <;> rfl

lemma update_of_failed (h : d.failed = true) (x : Bytes) : update output d x = .ok (false, d) := by
  rw [update, if_pos h]

lemma updateDirect_append (h : Fresh d) (x y : Bytes) : updateDirect output d (x ++ y) =
      updateDirect output d x >>= fun r => update output r.2 y := by
  induction hn : x.length using Nat.strong_induction_on generalizing d x with
  | _ n ih =>
    by_cases hx : d.target ≤ x.length
    · have hxy : d.target ≤ (x ++ y).length := by
        rw [length_append]
        omega
      rw [updateDirect_long hx, updateDirect_long hxy, take_append_of_le_length hx,
        drop_append_of_le_length hx]
      cases hd : Decryptor.processBuf output d (x.take d.target) with
      | error e => rfl
      | ok d' =>
        rw [ok_bind, ok_bind]
        rcases Bool.eq_false_or_eq_true d'.failed with hfailed | hfailed
        · rw [if_pos hfailed, if_pos hfailed, ok_bind, update_of_failed hfailed]
        rw [if_neg (by simp [hfailed]), if_neg (by simp [hfailed])]
        have hpos := d.target_pos
        exact ih _ (by rw [length_drop]; omega) (h.processBuf hd hfailed) _ rfl
    · have hready : Ready { d with buf := x } :=
        ⟨h.failed, h.finished, not_le.mp hx, h.st, h.final⟩
      rw [updateDirect_short h (not_le.mp hx), ok_bind, update_eq_updateDirect hready, h.clear]

/-- **Two calls to `update` do what one call with all the data does.** -/
lemma update_append (h : Ready d) (x y : Bytes) :
    update output d (x ++ y) = update output d x >>= fun r => update output r.2 y := by
  rw [update_eq_updateDirect h, update_eq_updateDirect h, ← append_assoc]
  exact updateDirect_append h.fresh _ _

lemma update_nil (h : Ready d) : update output d [] = .ok (true, d) := by
  rw [update_eq_updateDirect h, append_nil, updateDirect_short h.fresh h.buf]

/-- What a call returns and leaves: a failure, or a decryptor that can go on. -/
def Settled (r : Bool × Decryptor ss) : Prop :=
  (r.1 = false ∧ r.2.failed = true) ∨ (r.1 = true ∧ Ready r.2)

lemma updateDirect_settled (h : Fresh d) (hr : updateDirect output d x = .ok r) : Settled r := by
  induction hn : x.length using Nat.strong_induction_on generalizing d x with
  | _ n ih =>
    by_cases hx : d.target ≤ x.length
    · rw [updateDirect_long hx] at hr
      obtain ⟨d', hd, hr⟩ := bind_eq_ok.mp hr
      rcases Bool.eq_false_or_eq_true d'.failed with hfailed | hfailed
      · rw [if_pos hfailed] at hr
        cases hr
        exact .inl ⟨rfl, hfailed⟩
      rw [if_neg (by simp [hfailed])] at hr
      have hpos := d.target_pos
      exact ih _ (by rw [length_drop]; omega) (h.processBuf hd hfailed) hr rfl
    rw [updateDirect_short h (not_le.mp hx)] at hr
    cases hr
    exact .inr ⟨rfl, h.failed, h.finished, not_le.mp hx, h.st, h.final⟩

lemma update_ready (h : Ready d) (hr : update output d x = .ok r) : Settled r := by
  rw [update_eq_updateDirect h] at hr
  exact updateDirect_settled h.fresh hr

lemma feed_eq (h : d.failed = true ∨ Ready d) (pieces : List Bytes) :
    feed output d pieces = (update output d pieces.flatten).map Prod.snd := by
  induction pieces generalizing d with
  | nil =>
    rcases h with h | h
    · rw [flatten_nil, update_of_failed h]
      rfl
    · rw [flatten_nil, update_nil h]
      rfl
  | cons piece pieces ih =>
    rw [feed, flatten_cons]
    rcases h with h | h
    · rw [update_of_failed h, update_of_failed h, ok_bind]
      refine (ih (.inl h)).trans ?_
      rw [update_of_failed h]
    rw [update_append h]
    cases hr : update output d piece with
    | error e => rfl
    | ok r => exact ih ((update_ready h hr).imp And.right And.right)

/-! ## Chunks -/

def consume (output : Output) (d : Decryptor ss) : List Bytes → Except Failure (Decryptor ss)
  | [] => .ok d
  | c :: cs => do
    let d ← d.processChunk output c true
    if d.failed then .ok d else consume output d cs

def report (d : Decryptor ss) : Bool × Bytes := (!d.failed && d.hitFinal, d.written)

def finish (output : Output) (d : Decryptor ss) : Except Failure (Bool × Bytes) := do
  let (ok, d) ← d.finalize output
  .ok (ok, d.written)

lemma finish_of_failed (h : d.failed = true) : finish output d = .ok d.report := by
  rw [finish, finalize, if_pos h, ok_bind, report, h]
  rfl

/-- The end of `finalize`. -/
def concluded (d : Decryptor ss) : Bool × Decryptor ss :=
  if d.failed then (false, d) else if d.hitFinal then (true, d) else
      (false, { d with failed := true })

lemma finalize_of_ne_failed (h : d.failed = false) : finalize output d = (if d.buf = [] then .ok d
        else (d.processChunk output d.buf true).map (fun d => { d with buf := [] })) >>=
          fun d => .ok d.concluded := by
  have hend : ∀ d : Decryptor ss, (if d.failed then .ok (false, d)
      else if ¬d.hitFinal then .ok (false, { d with failed := true })
      else .ok (true, d) : Except Failure (Bool × Decryptor ss)) = .ok d.concluded := by
    intro d
    unfold concluded
    split_ifs <;> rfl
  rw [finalize, if_neg (by simp [h])]
  split
  · exact hend d
  cases d.processChunk output d.buf true with
  | error e => rfl
  | ok d' => exact hend _

lemma finish_of_ne_failed (h : d.failed = false) : finish output d = (if d.buf = [] then .ok d
        else (d.processChunk output d.buf true).map (fun d => { d with buf := [] })) >>=
          fun d => .ok d.report := by
  have hend : ∀ d : Decryptor ss, (d.concluded.1, d.concluded.2.written) = d.report := by
    intro d
    unfold concluded report
    split_ifs <;> simp [*]
  rw [finish, finalize_of_ne_failed h, bind_assoc]
  simp only [ok_bind, hend]

lemma finish_of_fresh (h : Fresh d) : finish output d = .ok d.report := by
  rw [finish_of_ne_failed h.failed, if_pos h.buf, ok_bind]

lemma finish_of_buf (h : Fresh d) (hx : x ≠ []) :
    finish output { d with buf := x } = consume output d [x] >>= fun d => .ok d.report := by
  have hfailed : ({ d with buf := x } : Decryptor ss).failed = false := h.failed
  rw [finish_of_ne_failed hfailed, if_neg hx, processChunk_buf, consume]
  cases d.processChunk output x true with
  | error e => rfl
  | ok d' =>
    rw [ok_bind, consume, ite_self]
    rfl

lemma processChunk_full (h : c.length = encryptedChunkTotal) :
    processChunk output d c false = processChunk output d c true := by
  unfold processChunk
  simp [h]

lemma updateDirect_finish (h : Fresh d) (hheader : d.header = true) (x : Bytes) :
    (updateDirect output d x >>= fun r => finish output r.2) =
      consume output d (chunks encryptedChunkTotal x) >>= fun d => .ok d.report := by
  induction hn : x.length using Nat.strong_induction_on generalizing d x with
  | _ n ih =>
    have hpos := encryptedChunkTotal_pos
    have htarget : d.target = encryptedChunkTotal := by rw [target, if_pos hheader]
    by_cases hx : d.target ≤ x.length
    · have hnil : x ≠ [] := by
        rintro rfl
        exact absurd hx (not_le.mpr d.target_pos)
      rw [updateDirect_long hx, processBuf, if_pos hheader]
      rw [htarget] at hx ⊢
      have hlen : (x.take encryptedChunkTotal).length = encryptedChunkTotal := by
        rw [length_take]
        omega
      rw [chunks_cons hpos hnil, consume, processChunk_full hlen]
      cases hd : processChunk output d (x.take encryptedChunkTotal) true with
      | error e => rfl
      | ok d' =>
        rw [ok_bind, ok_bind]
        rcases Bool.eq_false_or_eq_true d'.failed with hfailed | hfailed
        · rw [if_pos hfailed, if_pos hfailed, ok_bind, ok_bind, finish_of_failed hfailed]
        rw [if_neg (by simp [hfailed]), if_neg (by simp [hfailed])]
        obtain ⟨hbuf, hkeep, hfinished, hst, -⟩ := processChunk_keeps hd
        exact ih _ (by rw [length_drop]; omega)
          ⟨hfailed, hfinished.trans h.finished, hbuf.trans h.buf, by rw [hkeep, hst, h.st],
            fun _ => hkeep.trans hheader⟩
          (hkeep.trans hheader) _ rfl
    rw [updateDirect_short h (not_le.mp hx), ok_bind]
    by_cases hnil : x = []
    · rw [hnil, h.clear, chunks_nil, consume, ok_bind, finish_of_fresh h]
    · rw [chunks_of_length_le hnil (htarget ▸ (not_le.mp hx).le)]
      exact finish_of_buf h hnil

def opened (ss : SecretStream) (header : StreamHeader) (key : Key) : Decryptor ss :=
  { key := key, header := true, st := some (ss.init header key) }

lemma fresh_opened (header : StreamHeader) (key : Key) : Fresh (opened ss header key) :=
  ⟨rfl, rfl, rfl, rfl, fun _ => rfl⟩

lemma fresh_new (key : Key) : Fresh ({ key := key } : Decryptor ss) :=
  ⟨rfl, rfl, rfl, rfl, nofun⟩

lemma run_eq_finish (key : Key) (pieces : List Bytes) : run ss output key pieces =
      updateDirect output ({ key := key } : Decryptor ss) pieces.flatten >>=
        fun r => finish output r.2 := by
  have hnew : Fresh ({ key := key } : Decryptor ss) := fresh_new key
  have hfeed : feed output _ pieces = _ := feed_eq (.inr hnew.ready) pieces
  rw [update_eq_updateDirect hnew.ready, hnew.clear, hnew.buf, nil_append] at hfeed
  show feed output _ pieces >>= finish output = _
  rw [hfeed]
  cases updateDirect output ({ key := key } : Decryptor ss) pieces.flatten <;> rfl

lemma run_of_header (header : StreamHeader) (body : Bytes) (key : Key) {pieces : List Bytes}
    (h : pieces.flatten = ascii 'S' :: (header.val ++ body)) : run ss output key pieces =
      consume output (opened ss header key) (chunks encryptedChunkTotal body) >>=
        fun d => .ok d.report := by
  have hsplit : pieces.flatten = (ascii 'S' :: header.val) ++ body := h
  have hlen : (ascii 'S' :: header.val).length = ({ key := key } : Decryptor ss).target := by
    rw [length_cons, header.2]
    rfl
  have hlong : ({ key := key } : Decryptor ss).target ≤ pieces.flatten.length := by
    rw [hsplit, length_append, hlen]
    omega
  have hheader : processBuf output ({ key := key } : Decryptor ss) (ascii 'S' :: header.val) =
      .ok (opened ss header key) := by
    simp [processBuf, processHeader, header.2, opened]
  rw [run_eq_finish, updateDirect_long hlong, hsplit, take_left' hlen, drop_left' hlen, hheader,
    ok_bind, if_neg (by simp [opened])]
  exact updateDirect_finish (fresh_opened header key) rfl body

/-! ### Success -/

lemma emit_strips {rest : Bytes} (h : Strips d.depadded (m ++ rest) data)
    (hout : ∀ w x, w ++ x <+: d.written ++ data → output w x = .ok (w ++ x)) :
    ∃ d' data', emit output d m = .ok d' ∧ d'.failed = d.failed ∧
      d'.written ++ data' = d.written ++ data ∧ Strips d'.depadded rest data' := by
  unfold emit
  rcases Bool.eq_false_or_eq_true d.depadded with hpad | hpad
  · rw [hpad] at h
    obtain rfl : m ++ rest = data := h
    rw [if_pos hpad, hout d.written m ⟨rest, by rw [append_assoc]⟩, ok_bind]
    refine ⟨_, rest, rfl, rfl, append_assoc .., ?_⟩
    rw [hpad]
    rfl
  rw [hpad] at h
  rw [if_neg (by simp [hpad])]
  rcases strips_append h with ⟨hm, hrest⟩ | ⟨x, hm, rfl⟩
  · rw [hm]
    refine ⟨d, data, rfl, rfl, rfl, ?_⟩
    rwa [hpad]
  rw [hm]
  dsimp only
  by_cases hx : x = []
  · rw [if_pos hx]
    exact ⟨_, rest, rfl, rfl, by rw [hx]; rfl, rfl⟩
  · rw [if_neg hx, hout d.written x ⟨rest, by rw [append_assoc]⟩, ok_bind]
    exact ⟨_, rest, rfl, rfl, append_assoc .., rfl⟩

lemma processChunk_of_pull {st₀ : ss.State} {tag : UInt8} (hfinal : d.hitFinal = false)
    (hc : c.length ≤ encryptedChunkTotal) (hst : d.st = some st₀)
    (hpull : ss.pull st₀ c = some (m, tag, st)) : processChunk output d c true =
      emit output { d with st := some st, hitFinal := tag = tagFinal } m := by
  have hlen := ss.pull_length _ _ _ _ _ hpull
  have hge : ¬c.length < encryptChunkOverhead := by
    unfold encryptChunkOverhead
    omega
  rw [processChunk, if_neg (by simp [hfinal]), if_neg (by simp; exact hc), if_neg hge, hst]
  dsimp only
  rw [hpull]

/-- **A stream whose last message is the final one is written as it is, without the padding.** -/
lemma consume_of_pullAll {st₀ : ss.State} (hfailed : d.failed = false) (hhit : d.hitFinal = false)
    (hcs : ∀ c ∈ cs, c.length ≤ encryptedChunkTotal) (hst₀ : d.st = some st₀)
    (hpull : pullAll ss st₀ cs = some ms) (hfinal : FinalLast ms)
        (hstrip : Strips d.depadded (plainOf ms) data)
    (hout : ∀ w x, w ++ x <+: d.written ++ data → output w x = .ok (w ++ x)) :
    ∃ d', consume output d cs = .ok d' ∧ d'.report = (true, d.written ++ data) := by
  induction cs generalizing d st₀ ms data with
  | nil =>
    cases hpull
    exact hfinal.elim
  | cons c cs ih =>
    obtain ⟨m, tag, st, ms', hm, hms', rfl⟩ := pullAll_cons hpull
    obtain ⟨hc, hcs⟩ := forall_mem_cons.mp hcs
    obtain ⟨d', data', hemit, hfailed', hwritten, hstrip'⟩ :=
      emit_strips (d := { d with st := some st, hitFinal := tag = tagFinal }) hstrip hout
    obtain ⟨-, -, -, hst, hhit'⟩ := emit_keeps hemit
    rw [consume, processChunk_of_pull hhit hc hst₀ hm, hemit, ok_bind,
      if_neg (by rw [hfailed']; simp [hfailed])]
    by_cases hnil : ms' = []
    · subst hnil
      rw [pullAll_nil_iff.mp hms', consume]
      refine ⟨d', rfl, ?_⟩
      have htag : tag = tagFinal := hfinal
      have hdata : data' = [] := by
        unfold Strips at hstrip'
        split at hstrip'
        · exact hstrip'.symm
        · obtain ⟨n, hn⟩ := hstrip'
          simp at hn
      rw [hdata, append_nil] at hwritten
      rw [report, hfailed', hhit', hwritten]
      simp [hfailed, htag]
    obtain ⟨htag, hfinal'⟩ := (finalLast_cons hnil).mp hfinal
    have hhit'' : d'.hitFinal = false := by
      rw [hhit']
      exact decide_eq_false htag
    obtain ⟨d'', hconsume, hreport⟩ := ih (hfailed'.trans hfailed) hhit'' hcs hst
      hms' hfinal' hstrip' (by rw [hwritten]; exact hout)
    exact ⟨d'', hconsume, by rw [hreport, hwritten]⟩

/-! ### What success says -/

lemma pull_of_processChunk (h : processChunk output d c isFinal = .ok d')
    (hfailed : d'.failed = false) :
    d.hitFinal = false ∧ ∃ st m tag st', d.st = some st ∧ d'.st = some st' ∧
      ss.pull st c = some (m, tag, st') ∧ d'.hitFinal = decide (tag = tagFinal) := by
  unfold processChunk at h
  split at h
  · cases h
    cases hfailed
  rename_i hhit
  split at h
  · cases h
  split at h
  · cases h
    cases hfailed
  split at h
  · cases h
  rename_i hst
  split at h
  · cases h
    cases hfailed
  rename_i m tag st' hpull
  obtain ⟨-, -, -, hst', hfinal⟩ := emit_keeps h
  exact ⟨by simpa using hhit, _, m, tag, st', hst, hst', hpull, hfinal⟩

/-- A success of a decryptor says that the last message, and no other, has the final tag. -/
lemma finalLast_of_consume (h : consume output d cs = .ok d') (hfailed : d'.failed = false)
    (hhit : d'.hitFinal = true) (hhit₀ : d.hitFinal = false) {st : ss.State}
    (hst : d.st = some st) : ∃ ms, pullAll ss st cs = some ms ∧ FinalLast ms := by
  induction cs generalizing d st with
  | nil =>
    cases h
    exact absurd hhit (by simp [hhit₀])
  | cons c cs ih =>
    obtain ⟨d₁, hd₁, h⟩ := bind_eq_ok.mp h
    have hfailed₁ : d₁.failed = false := by
      by_contra hne
      rw [if_pos (by simpa using hne)] at h
      cases h
      exact hne hfailed
    rw [if_neg (by simp [hfailed₁])] at h
    obtain ⟨-, st₀, m, tag, st', hst₀, hst', hpull, hfinal⟩ := pull_of_processChunk hd₁ hfailed₁
    obtain rfl : st₀ = st := Option.some.inj (hst₀.symm.trans hst)
    by_cases htag : tag = tagFinal
    · have hcs : cs = [] := by
        cases cs with
        | nil => rfl
        | cons c' cs =>
          -- a chunk after the final one fails
          rw [consume, processChunk, if_pos (by rw [hfinal]; simpa using htag), ok_bind,
            if_pos rfl] at h
          cases h
          cases hfailed
      subst hcs
      exact ⟨[(m, tag)], pullAll_of_pull hpull rfl, htag⟩
    · obtain ⟨ms, hms, hlast⟩ := ih h (by rw [hfinal]; exact decide_eq_false htag) hst'
      exact ⟨(m, tag) :: ms, pullAll_of_pull hpull hms,
          (finalLast_cons hlast.ne_nil).mpr ⟨htag, hlast⟩⟩

/-! ### No exceptions -/

lemma processChunk_collect (d : Decryptor ss) (hc : c.length ≤ encryptedChunkTotal)
    (hopen : d.st.isSome = true ∨ c.length < encryptChunkOverhead) :
    ∃ d', processChunk collect d c true = .ok d' := by
  unfold processChunk
  split
  · exact ⟨_, rfl⟩
  rw [if_neg (by simp; exact hc)]
  split
  · exact ⟨_, rfl⟩
  next hshort =>
  obtain ⟨st, hst⟩ := Option.isSome_iff_exists.mp (hopen.resolve_right hshort)
  rw [hst]
  dsimp only
  split
  · exact ⟨_, rfl⟩
  unfold emit collect
  split
  · exact ⟨_, rfl⟩
  split
  · exact ⟨_, rfl⟩
  split
  · exact ⟨_, rfl⟩
  · split <;> exact ⟨_, rfl⟩

lemma processBuf_collect {buf : Bytes} (h : buf.length = d.target) (hst : d.header = d.st.isSome) :
    ∃ d', processBuf collect d buf = .ok d' := by
  unfold target at h
  unfold processBuf
  split at h
  · next hheader =>
    rw [if_pos hheader, processChunk_full h]
    exact processChunk_collect d h.le (.inl (hst ▸ hheader))
  next hheader =>
  have hdrop : (buf.drop 1).length = 24 := by
    rw [length_drop, h]
    rfl
  rw [if_neg hheader, processHeader, if_neg hheader, dif_pos hdrop]
  split <;> exact ⟨_, rfl⟩

lemma updateDirect_collect (h : Fresh d) (x : Bytes) : ∃ r, updateDirect collect d x = .ok r := by
  induction hn : x.length using Nat.strong_induction_on generalizing d x with
  | _ n ih =>
    by_cases hx : d.target ≤ x.length
    · obtain ⟨d', hd⟩ := processBuf_collect (length_take_of_le hx) h.st
      rw [updateDirect_long hx, hd, ok_bind]
      split
      · exact ⟨_, rfl⟩
      next hfailed =>
      have hpos := d.target_pos
      exact ih _ (by rw [length_drop]; omega) (h.processBuf hd (by simpa using hfailed)) _ rfl
    · exact ⟨_, updateDirect_short h (not_le.mp hx)⟩

lemma update_collect (h : Ready d) (x : Bytes) : ∃ r, update collect d x = .ok r := by
  rw [update_eq_updateDirect h]
  exact updateDirect_collect h.fresh _

/-- `finalize` finds the header, or too little in the buffer for a chunk. -/
def Opened (d : Decryptor ss) : Prop :=
  d.header = true ∨ d.failed = true ∨ d.buf.length < encryptChunkOverhead

lemma Ready.buf_le (h : Ready d) : d.buf.length ≤ encryptedChunkTotal := by
  have hlt := h.buf
  unfold target encryptHeader encryptedChunkTotal encryptChunkSize at *
  split at hlt <;> omega

lemma finalize_collect (h : Ready d) (hopen : Opened d) : ∃ r, finalize collect d = .ok r := by
  have hst : d.st.isSome = true ∨ d.buf.length < encryptChunkOverhead :=
    hopen.imp (fun hheader => h.st ▸ hheader) fun hrest =>
      hrest.resolve_left (by simp [h.failed])
  obtain ⟨d', hd⟩ := processChunk_collect d h.buf_le hst
  rw [finalize_of_ne_failed h.failed, hd]
  split <;> exact ⟨_, rfl⟩

/-- `finalize` on the beginning of a header that is long enough for a chunk. -/
lemma finalize_unopened (h : Ready d) (hopen : ¬Opened d) :
    finalize output d = .error .indeterminate := by
  obtain ⟨hheader, -, hlong⟩ : ¬d.header = true ∧ ¬d.failed = true ∧
      ¬d.buf.length < encryptChunkOverhead := by simpa [Opened] using hopen
  have hst : d.st = none := Option.not_isSome_iff_eq_none.mp (h.st ▸ hheader)
  have hfinal : ¬d.hitFinal = true := fun hfinal => hheader (h.final hfinal)
  have hbuf : d.buf ≠ [] := by
    intro hnil
    simp [hnil, encryptChunkOverhead] at hlong
  rw [finalize_of_ne_failed h.failed, if_neg hbuf, processChunk, if_neg hfinal,
    if_neg (by simp; exact h.buf_le), if_neg hlong, hst]
  rfl

lemma consume_collect (hst : d.st.isSome = true) (hcs : ∀ c ∈ cs, c.length ≤ encryptedChunkTotal) :
    ∃ d', consume collect d cs = .ok d' := by
  induction cs generalizing d with
  | nil => exact ⟨d, rfl⟩
  | cons c cs ih =>
    obtain ⟨hc, hcs⟩ := forall_mem_cons.mp hcs
    obtain ⟨d₁, hd₁⟩ := processChunk_collect d hc (.inl hst)
    rw [consume, hd₁, ok_bind]
    split
    · exact ⟨d₁, rfl⟩
    · exact ih ((processChunk_keeps hd₁).2.2.2.1.trans hst) hcs

/-- The length of an input that ends within the header and is long enough for a chunk. -/
def BreaksOff (n : Nat) : Prop := encryptChunkOverhead ≤ n ∧ n < 1 + encryptHeader

/-- **A decryptor that collects its output reports failures, but throws nothing**; it is undefined
exactly for an input that breaks off in the header. -/
lemma run_collect (key : Key) (pieces : List Bytes) :
    (BreaksOff pieces.flatten.length ∧ run ss collect key pieces = .error .indeterminate) ∨
      (¬BreaksOff pieces.flatten.length ∧ ∃ r, run ss collect key pieces = .ok r) := by
  have hnew : Fresh ({ key := key } : Decryptor ss) := fresh_new key
  rw [run_eq_finish]
  by_cases hlen : pieces.flatten.length < 1 + encryptHeader
  · rw [updateDirect_short hnew hlen, ok_bind]
    have hready : Ready ({ key := key, buf := pieces.flatten } : Decryptor ss) :=
      ⟨rfl, rfl, hlen, rfl, nofun⟩
    by_cases hbreak : BreaksOff pieces.flatten.length
    · refine .inl ⟨hbreak, ?_⟩
      have hunopened : ¬Opened ({ key := key, buf := pieces.flatten } : Decryptor ss) := by
        rintro (h | h | h)
        · cases h
        · cases h
        · exact absurd h (not_lt.mpr hbreak.1)
      rw [finish, finalize_unopened hready hunopened]
      rfl
    · obtain ⟨r, hr⟩ := finalize_collect hready
        (.inr (.inr (not_le.mp fun h => hbreak ⟨h, hlen⟩)))
      exact .inr ⟨hbreak, _, by rw [finish, hr]; rfl⟩
  refine .inr ⟨fun h => hlen h.2, ?_⟩
  obtain ⟨d, hd⟩ := processBuf_collect (length_take_of_le (not_lt.mp hlen)) hnew.st
  have hd : processBuf collect ({ key := key } : Decryptor ss)
    (pieces.flatten.take ({ key := key } : Decryptor ss).target) = .ok d := hd
  rw [updateDirect_long (not_lt.mp hlen), hd, ok_bind]
  rcases Bool.eq_false_or_eq_true d.failed with hfailed | hfailed
  · rw [if_pos hfailed, ok_bind, finish_of_failed hfailed]
    exact ⟨_, rfl⟩
  rw [if_neg (by simp [hfailed])]
  have hfresh := hnew.processBuf hd hfailed
  obtain ⟨hheader, hst⟩ := (processBuf_keeps hd).2.2 hfailed
  rw [updateDirect_finish hfresh hheader]
  obtain ⟨d', hd'⟩ := consume_collect (hst rfl) fun c hc => length_le_of_mem_chunks hc
  rw [hd', ok_bind]
  exact ⟨_, rfl⟩

end Decryptor

end Bchat.Attachments
