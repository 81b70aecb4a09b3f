import Bchat.Groups.Keys

/-!
# The list of keys

What `insert_key` and `remove_expired` do to a sorted list of keys.
-/

namespace Bchat.Groups

open Config List Keys

variable {keys l : List KeyInfo} {k last new : KeyInfo} {g : Int}

def Superseded (a b : KeyInfo) : Prop := a.timestamp + keyExpiry < b.timestamp

instance (a b : KeyInfo) : Decidable (Superseded a b) := inferInstanceAs (Decidable (_ < _))

lemma lapsed64_iff {a b : KeyInfo} (ha : InSysTime a.timestamp) (hb : InSysTime b.timestamp) :
    lapsed64 a.timestamp b.timestamp = true ↔ Superseded a b := by
  have hin : ∀ i, -9223372036854775808 ≤ i ∧ i < 9223372036854775808 → wrap64 i = i :=
    fun i hi => wrap64_of_inInt64 hi
  unfold InSysTime at ha hb
  unfold lapsed64 Superseded keyExpiry
  rw [hin (a.timestamp * 1000000) (by omega), hin (b.timestamp * 1000000) (by omega),
    hin _ (by omega), decide_eq_true_iff]
  omega

/-- The comparisons with `KEY_EXPIRY` that the source makes among these keys are exact. -/
def TimesExact (keys : List KeyInfo) : Prop :=
  ∀ a ∈ keys, ∀ b ∈ keys, (lapsed64 a.timestamp b.timestamp = true ↔ Superseded a b)

lemma timesExact_of_inSysTime {keys : List KeyInfo} (h : ∀ i ∈ keys, InSysTime i.timestamp) :
    TimesExact keys :=
  fun a ha b hb => lapsed64_iff (h a ha) (h b hb)

lemma not_superseded_self (a : KeyInfo) : ¬Superseded a a := by
  unfold Superseded keyExpiry
  omega

def Sorted (keys : List KeyInfo) : Prop := keys.Pairwise (· < ·)

def Distinct (keys : List KeyInfo) : Prop :=
  ∀ a ∈ keys, ∀ b ∈ keys, a.generation = b.generation → a.key = b.key → a = b

instance (keys : List KeyInfo) : Decidable (Distinct keys) :=
  inferInstanceAs (Decidable (∀ a ∈ keys, ∀ b ∈ keys, _ → _ → _))

def Settled (keys : List KeyInfo) : Prop :=
  ∀ front last, keys.head? = some front → keys.getLast? = some last →
    ∀ b ∈ keys, front.generation < b.generation →
      (∀ c ∈ keys, front.generation < c.generation → b ≤ c) → ¬Superseded b last

lemma Sorted.head_le (h : Sorted keys) {front : KeyInfo} (hf : keys.head? = some front)
    (hk : k ∈ keys) : front ≤ k := by
  cases keys with
  | nil => cases hk
  | cons a rest =>
    cases hf
    rcases mem_cons.mp hk with rfl | hk
    · exact le_refl _
    · exact ((pairwise_cons.mp h).1 k hk).le

lemma Sorted.le_getLast (h : Sorted keys) (hl : keys.getLast? = some last) (hk : k ∈ keys) :
    k ≤ last := by
  obtain ⟨init, rfl⟩ := getLast?_eq_some_iff.mp hl
  rcases mem_append.mp hk with hk | hk
  · exact ((pairwise_append.mp h).2.2 k hk last (by simp)).le
  · rw [mem_singleton.mp hk]

lemma Sorted.ext {l' : List KeyInfo} (h : Sorted l) (h' : Sorted l') (hmem : ∀ k, k ∈ l ↔ k ∈ l') :
    l = l' :=
  SortedSet.ext h h' hmem

/-! ## Expiry -/

structure Dropped (last : Int) (keys kept : List KeyInfo) : Prop where
  suffix : ∃ dropped, keys = dropped ++ kept ∧
    (∀ d ∈ dropped, ∀ k ∈ kept, d.generation < k.generation) ∧
    (dropped ≠ [] → ∃ front ∈ kept.head?, front.timestamp + keyExpiry < last)
  ne_nil : kept ≠ []
  settled : ∀ front ∈ kept.head?, ∀ b ∈ kept, front.generation < b.generation →
    (∀ c ∈ kept, front.generation < c.generation → b ≤ c) → ¬b.timestamp + keyExpiry < last

lemma dropLapsed_spec (last : Int) {pre : List KeyInfo} {front : KeyInfo}
    (hhead : pre.head? = some front) (hpre : ∀ k ∈ pre, k.generation = g)
    (hsorted : Sorted (pre ++ l)) :
    Dropped last (pre ++ l) (Keys.dropLapsed last (pre ++ l) g l) := by
  have hne : pre ≠ [] := by
    rintro rfl
    cases hhead
  have hfront : front.generation = g := hpre front (mem_of_mem_head? hhead)
  induction l generalizing pre front g with
  | nil =>
    rw [dropLapsed, append_nil]
    refine ⟨⟨[], rfl, by simp, by simp⟩, hne, ?_⟩
    intro f hf b hb hlt
    rw [hhead, Option.mem_some_iff] at hf
    rw [← hf, hfront, hpre b hb] at hlt
    exact absurd hlt (lt_irrefl _)
  | cons k rest ih =>
    rw [dropLapsed]
    have happ : pre ++ k :: rest = pre ++ [k] ++ rest := by simp
    split
    · next hk =>
      rw [happ] at hsorted ⊢
      refine ih (by simp [hhead]) ?_ hsorted (by simp) hfront
      intro x hx
      rcases mem_append.mp hx with hx | hx
      · exact hpre x hx
      · rw [mem_singleton.mp hx, hk]
    rename_i hk
    obtain ⟨-, hrest, hcross⟩ := pairwise_append.mp hsorted
    have hgk : g < k.generation := by
      have hle := KeyInfo.generation_le_of_le
        (hcross front (mem_of_mem_head? hhead) k mem_cons_self).le
      omega
    split
    · next hold =>
      -- the generation has lapsed, and the next one begins at `k`
      have hone : ∀ x ∈ [k], x.generation = k.generation := by simp
      have hd := ih rfl hone hrest (cons_ne_nil k []) rfl
      rw [singleton_append] at hd
      obtain ⟨dropped, heq, hgen, hsup⟩ := hd.suffix
      refine ⟨⟨pre ++ dropped, by rw [append_assoc, ← heq], ?_, ?_⟩, hd.ne_nil, hd.settled⟩
      · intro d hdm x hx
        rcases mem_append.mp hdm with hdm | hdm
        · have hkx : k ≤ x := by
            have hx' : x ∈ k :: rest := by
              rw [heq]
              exact mem_append_right _ hx
            exact Sorted.head_le hrest rfl hx'
          have := KeyInfo.generation_le_of_le hkx
          rw [hpre d hdm]
          omega
        · exact hgen d hdm x hx
      intro _
      by_cases hnil : dropped = []
      · rw [hnil, nil_append] at heq
        exact ⟨k, by rw [← heq]; rfl, hold⟩
      · exact hsup hnil
    next hold =>
    refine ⟨⟨[], rfl, by simp, by simp⟩, by simp, ?_⟩
    intro f hf b hb hlt hleast
    have hf' : f = front := by
      rw [head?_append_of_ne_nil _ hne, hhead] at hf
      exact (Option.mem_some_iff.mp hf).symm
    subst hf'
    -- `k` is the first key after the front generation
    have hbk : b = k := by
      refine le_antisymm (hleast k (by simp) (by omega)) ?_
      rcases mem_append.mp hb with hb | hb
      · rw [hfront, hpre b hb] at hlt
        exact absurd hlt (lt_irrefl _)
      · exact Sorted.head_le hrest rfl hb
    rw [hbk]
    exact hold

lemma dropLapsed_eq_self {last : Int} {keep : List KeyInfo}
    (h : ∀ pre b post, l = pre ++ b :: post → (∀ k ∈ pre, k.generation = g) → b.generation ≠ g →
      ¬b.timestamp + keyExpiry < last) : Keys.dropLapsed last keep g l = keep := by
  induction l with
  | nil => rfl
  | cons k rest ih =>
    rw [dropLapsed]
    by_cases hk : k.generation = g
    · rw [if_pos hk]
      refine ih fun pre b post hl hpre hb => h (k :: pre) b post (by rw [hl]; rfl) ?_ hb
      exact forall_mem_cons.mpr ⟨hk, hpre⟩
    · rw [if_neg hk, if_neg (h [] k rest rfl (by simp) hk)]

lemma unexpired_cons {rest : List KeyInfo} (h : rest.getLast? = some last) :
    Keys.unexpired (k :: rest) = Keys.dropLapsed last.timestamp (k :: rest) k.generation rest := by
  unfold unexpired
  simp only [h]

section

variable (h : Sorted keys)

include h

lemma unexpired_spec (hlast : keys.getLast? = some last) :
    Dropped last.timestamp keys (Keys.unexpired keys) := by
  cases keys with
  | nil => cases hlast
  | cons k rest =>
    cases hr : rest.getLast? with
    | none =>
      rw [getLast?_eq_none_iff.mp hr]
      show Dropped last.timestamp [k] [k]
      refine ⟨⟨[], rfl, by simp, by simp⟩, by simp, ?_⟩
      intro f hf b hb hlt
      rw [head?_cons, Option.mem_some_iff] at hf
      rw [mem_singleton.mp hb, hf] at hlt
      exact absurd hlt (lt_irrefl _)
    | some last' =>
      have heq : last' = last := by
        obtain ⟨init, rfl⟩ := getLast?_eq_some_iff.mp hr
        rw [← cons_append, getLast?_append] at hlast
        simpa using hlast
      rw [unexpired_cons hr, heq]
      have hpre : ∀ x ∈ [k], x.generation = k.generation := by simp
      exact dropLapsed_spec last.timestamp rfl hpre h

lemma unexpired_suffix : ∃ dropped, keys = dropped ++ Keys.unexpired keys := by
  cases hl : keys.getLast? with
  | none => exact ⟨[], by rw [getLast?_eq_none_iff.mp hl]; rfl⟩
  | some last =>
    obtain ⟨dropped, heq, -⟩ := (unexpired_spec h hl).suffix
    exact ⟨dropped, heq⟩

lemma mem_of_mem_unexpired (hk : k ∈ Keys.unexpired keys) : k ∈ keys := by
  obtain ⟨dropped, heq⟩ := unexpired_suffix h
  rw [heq]
  exact mem_append_right _ hk

lemma sorted_unexpired : Sorted (Keys.unexpired keys) := by
  obtain ⟨dropped, heq⟩ := unexpired_suffix h
  have h' := h
  rw [heq] at h'
  exact (pairwise_append.mp h').2.1

lemma getLast?_unexpired : (Keys.unexpired keys).getLast? = keys.getLast? := by
  cases hl : keys.getLast? with
  | none => rw [getLast?_eq_none_iff.mp hl]; rfl
  | some last =>
    have hd := unexpired_spec h hl
    obtain ⟨dropped, heq, -⟩ := hd.suffix
    rw [heq, getLast?_append_of_ne_nil _ hd.ne_nil] at hl
    exact hl

lemma settled_unexpired : Settled (Keys.unexpired keys) := by
  intro front last hf hl b hb hlt hleast
  rw [getLast?_unexpired h] at hl
  exact (unexpired_spec h hl).settled front hf b hb hlt hleast

lemma superseded_of_not_mem_unexpired (hk : k ∈ keys) (hdrop : k ∉ Keys.unexpired keys) :
    ∃ front ∈ keys, ∃ last, keys.getLast? = some last ∧ k.generation < front.generation ∧
      Superseded front last := by
  obtain ⟨last, hl⟩ : ∃ last, keys.getLast? = some last :=
    Option.ne_none_iff_exists'.mp (mt getLast?_eq_none_iff.mp (ne_nil_of_mem hk))
  obtain ⟨dropped, heq, hgen, hsup⟩ := (unexpired_spec h hl).suffix
  have hkd : k ∈ dropped := by
    rw [heq] at hk
    exact (mem_append.mp hk).resolve_right hdrop
  obtain ⟨front, hf, hold⟩ := hsup (ne_nil_of_mem hkd)
  have hfm := mem_of_mem_head? hf
  exact ⟨front, mem_of_mem_unexpired h hfm, last, hl, hgen k hkd front hfm, hold⟩

lemma unexpired_eq_self (hs : Settled keys) : Keys.unexpired keys = keys := by
  cases keys with
  | nil => rfl
  | cons k rest =>
    cases hr : rest.getLast? with
    | none =>
      rw [getLast?_eq_none_iff.mp hr]
      rfl
    | some last =>
      have hlast : (k :: rest).getLast? = some last := by
        rw [getLast?_cons, hr]
        rfl
      rw [unexpired_cons hr]
      refine dropLapsed_eq_self fun pre b post hrest hpre hb => ?_
      have hsub : ∀ x ∈ b :: post, x ∈ k :: rest := fun x hx => by
        rw [hrest]
        exact mem_cons_of_mem _ (mem_append_right _ hx)
      have hle : ∀ x ∈ k :: rest, k.generation ≤ x.generation := fun x hx =>
        KeyInfo.generation_le_of_le (Sorted.head_le h rfl hx)
      have hkb : k.generation < b.generation := by
        have := hle b (hsub b mem_cons_self)
        omega
      refine hs k last rfl hlast b (hsub b mem_cons_self) hkb fun c hc hlt => ?_
      -- the keys before `b` have the front generation
      rcases mem_cons.mp hc with rfl | hc
      · exact absurd hlt (lt_irrefl _)
      rw [hrest] at hc h
      rcases mem_append.mp hc with hc | hc
      · rw [hpre c hc] at hlt
        exact absurd hlt (lt_irrefl _)
      · have hpost := (pairwise_append.mp (pairwise_cons.mp h).2).2.1
        exact Sorted.head_le hpost rfl hc

end

/-! ## Inserting -/

lemma mem_insertSorted : k ∈ Keys.insertSorted new keys ↔ k = new ∨ k ∈ keys := by
  have hsplit : k ∈ keys ↔ k ∈ keys.takeWhile (· < new) ∨ k ∈ keys.dropWhile (· < new) := by
    rw [← mem_append, takeWhile_append_dropWhile]
  unfold insertSorted
  rw [mem_append, mem_cons, hsplit]
  tauto

lemma sorted_insertSorted (h : Sorted keys) (hnew : new ∉ keys) :
    Sorted (Keys.insertSorted new keys) := by
  induction keys with
  | nil => exact pairwise_singleton _ _
  | cons k rest ih =>
    obtain ⟨hlt, hrest⟩ := pairwise_cons.mp h
    rw [mem_cons, not_or] at hnew
    obtain ⟨hne, hnr⟩ := hnew
    by_cases hk : k < new
    · have heq : insertSorted new (k :: rest) = k :: insertSorted new rest := by
        unfold insertSorted
        rw [takeWhile_cons_of_pos (by simpa using hk),
          dropWhile_cons_of_pos (by simpa using hk), cons_append]
      rw [heq]
      refine pairwise_cons.mpr ⟨fun x hx => ?_, ih hrest hnr⟩
      rcases mem_insertSorted.mp hx with rfl | hx
      · exact hk
      · exact hlt x hx
    have heq : insertSorted new (k :: rest) = new :: k :: rest := by
      unfold insertSorted
      rw [takeWhile_cons_of_neg (by simpa using hk),
        dropWhile_cons_of_neg (by simpa using hk), nil_append]
    rw [heq]
    have hnk : new < k := lt_of_le_of_ne (not_lt.mp hk) hne
    refine pairwise_cons.mpr ⟨fun x hx => ?_, h⟩
    rcases mem_cons.mp hx with rfl | hx
    · exact hnk
    · exact hnk.trans (hlt x hx)

lemma mem_equalRange (h : Sorted keys) :
    k ∈ Keys.equalRange g keys ↔ k ∈ keys ∧ k.generation = g := by
  unfold equalRange
  induction keys with
  | nil => simp
  | cons a rest ih =>
    obtain ⟨hlt, hrest⟩ := pairwise_cons.mp h
    by_cases ha : a.generation < g
    · rw [dropWhile_cons_of_pos (by simpa using ha), ih hrest, mem_cons]
      constructor
      · rintro ⟨hk, hg⟩
        exact ⟨.inr hk, hg⟩
      rintro ⟨rfl | hk, hg⟩
      · omega
      · exact ⟨hk, hg⟩
    rw [dropWhile_cons_of_neg (by simpa using ha)]
    have hge : ∀ x ∈ a :: rest, a.generation ≤ x.generation := fun x hx =>
      KeyInfo.generation_le_of_le (Sorted.head_le h rfl hx)
    -- from here on the generations do not decrease
    have htake : ∀ l : List KeyInfo, Sorted l → (∀ x ∈ l, g ≤ x.generation) →
        (k ∈ l.takeWhile (fun k => decide ¬g < k.generation) ↔ k ∈ l ∧ k.generation = g) := by
      intro l hl hg
      induction l with
      | nil => simp
      | cons x l ihl =>
        obtain ⟨hxlt, hl'⟩ := pairwise_cons.mp hl
        have hgx := hg x mem_cons_self
        by_cases hx : g < x.generation
        · rw [takeWhile_cons_of_neg (by simpa using hx)]
          constructor
          · intro hk
            cases hk
          rintro ⟨hk, hkg⟩
          have := KeyInfo.generation_le_of_le (Sorted.head_le hl rfl hk)
          omega
        rw [takeWhile_cons_of_pos (by simpa using hx), mem_cons, mem_cons,
          ihl hl' fun y hy => hg y (mem_cons_of_mem _ hy)]
        constructor
        · rintro (rfl | ⟨hk, hkg⟩)
          · exact ⟨.inl rfl, by omega⟩
          · exact ⟨.inr hk, hkg⟩
        rintro ⟨rfl | hk, hkg⟩
        · exact .inl rfl
        · exact .inr ⟨hk, hkg⟩
    exact htake _ h fun x hx => by
      have := hge x hx
      omega

lemma isStale_iff (h : Sorted keys) :
    Keys.isStale new keys = true ↔ ∃ front last, keys.head? = some front ∧
      keys.getLast? = some last ∧ new.generation < front.generation ∧ Superseded front last := by
  unfold isStale
  cases hf : keys.head? with
  | none => simp
  | some front =>
    cases hl : keys.getLast? with
    | none => simp
    | some last =>
      simp only [Bool.and_eq_true, decide_eq_true_eq, Option.some.injEq]
      constructor
      · rintro ⟨⟨-, hlt⟩, hsup⟩
        exact ⟨front, last, rfl, rfl, hlt, hsup⟩
      rintro ⟨front', last', rfl, rfl, hlt, hsup⟩
      obtain ⟨rest, rfl⟩ := head?_eq_some_iff.mp hf
      refine ⟨⟨⟨?_, ?_⟩, hlt⟩, hsup⟩
      · -- a single key does not supersede itself
        cases rest with
        | nil =>
          cases hl
          exact absurd hsup (not_superseded_self _)
        | cons b rest => simp
      have hnot : ¬front < new := fun hlt' => by
        have := KeyInfo.generation_le_of_le hlt'.le
        omega
      rw [takeWhile_cons_of_neg (by simpa using hnot)]
      rfl

namespace Keys

def Knows (k : Keys) (new : KeyInfo) : Prop :=
  ∃ i ∈ k.keys, i.generation = new.generation ∧ i.key = new.key

lemma any_equalRange_iff {k : Keys} (h : Sorted k.keys) (new : KeyInfo) :
    (equalRange new.generation k.keys).any (fun i => i.key = new.key) = true ↔ k.Knows new := by
  simp only [any_eq_true, decide_eq_true_eq, Knows, mem_equalRange h, and_assoc]

lemma insertKey_cases (hash : MsgId) (new : KeyInfo) {k : Keys} (h : Sorted k.keys) : (k.Knows new ∧
      k.insertKey hash new = { k with activeMsgs := k.activeMsgs.add new.generation hash }) ∨
    (¬k.Knows new ∧ k.insertKey hash new = k ∧ ∃ front last, k.keys.head? = some front ∧
      k.keys.getLast? = some last ∧ new.generation < front.generation ∧ Superseded front last) ∨
    (¬k.Knows new ∧ new ∉ k.keys ∧ k.insertKey hash new = { ({ k with
            activeMsgs := k.activeMsgs.add new.generation hash
            keys := insertSorted new k.keys } : Keys).removeExpired with needsDump := true }) := by
  unfold insertKey
  by_cases hknown : k.Knows new
  · exact .inl ⟨hknown, if_pos ((any_equalRange_iff h new).mpr hknown)⟩
  rw [if_neg fun hany => hknown ((any_equalRange_iff h new).mp hany)]
  by_cases hstale : isStale new k.keys = true
  · exact .inr (.inl ⟨hknown, if_pos hstale, (isStale_iff h).mp hstale⟩)
  · refine .inr (.inr ⟨hknown, fun hmem => hknown ⟨new, hmem, rfl, rfl⟩, if_neg hstale⟩)

end Keys

end Bchat.Groups
