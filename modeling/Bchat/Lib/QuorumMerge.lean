import Mathlib

/-!
# Merging sorted lists by quorum

A cursor walks over each sorted list; a min-heap holds the cursors. In each round the cursors at
the least element are popped together; the element is kept if there are enough of them, and each
of them moves on by one.

A list has at most one cursor, so a round counts lists and not elements. A list that repeats an
element meets it again in the next round: `quorumMerge_count` says how often an element is kept.
-/

namespace QuorumMerge

open List Cursor

variable {α : Type*} [LinearOrder α]

/-- A cursor: the element it is at, and those after it. -/
structure Cursor (α : Type*) where
  val : α
  rest : List α
  deriving DecidableEq, Repr

namespace Cursor

/-- What the cursor still has to go through. -/
def remaining (c : Cursor α) : List α := c.val :: c.rest

def ofList : List α → Option (Cursor α)
  | [] => none
  | v :: rest => some ⟨v, rest⟩

/-- The cursor one further, unless it is at the end. -/
def next (c : Cursor α) : Option (Cursor α) := ofList c.rest

end Cursor

/-! ## The merge -/

def push (heap : List (Cursor α)) (c : Cursor α) : List (Cursor α) :=
  heap.orderedInsert (fun a b => a.val ≤ b.val) c

/-- Whether a cursor is at an element that is neither less nor greater. -/
def isAt (current : α) (c : Cursor α) : Bool :=
    !(decide (c.val < current) || decide (current < c.val))

/-- The cursors popped in a round: those that are at the least element. -/
def same (heap : List (Cursor α)) (current : α) : List (Cursor α) := heap.takeWhile (isAt current)

def others (heap : List (Cursor α)) (current : α) : List (Cursor α) := heap.dropWhile (isAt current)

def afterRound (heap : List (Cursor α)) (current : α) : List (Cursor α) :=
  ((same heap current).filterMap Cursor.next).foldl push (others heap current)

def rounds (required : Nat) : Nat → List (Cursor α) → List α
  | 0, _ => []
  | _ + 1, [] => []
  | fuel + 1, top :: heap =>
    (if required ≤ (same (top :: heap) top.val).length then [top.val] else []) ++
      rounds required fuel (afterRound (top :: heap) top.val)

/-- The elements that are at the front of at least `required` lists in some round. Every round takes
at least one element off the lists. -/
def quorumMerge (required : Nat) (lists : List (List α)) : List α :=
  rounds required (lists.map List.length).sum ((lists.filterMap Cursor.ofList).foldl push [])

/-! ## The heap -/

structure Valid (heap : List (Cursor α)) : Prop where
  ordered : heap.Pairwise (fun a b => a.val ≤ b.val)
  sorted : ∀ c ∈ heap, c.remaining.Pairwise (· ≤ ·)

lemma isAt_iff {current : α} {c : Cursor α} : isAt current c = true ↔ c.val = current := by
  unfold isAt
  rw [Bool.not_eq_true', Bool.or_eq_false_iff, decide_eq_false_iff_not, decide_eq_false_iff_not,
    not_lt, not_lt]
  exact ⟨fun ⟨h, h'⟩ => le_antisymm h' h, fun h => ⟨h.ge, h.le⟩⟩

lemma Valid.push {heap : List (Cursor α)} (h : Valid heap) {c : Cursor α}
    (hc : c.remaining.Pairwise (· ≤ ·)) : Valid (push heap c) where
  ordered := by
    exact Pairwise.orderedInsert c heap h.ordered
  sorted d hd := by
    rcases mem_cons.mp ((perm_orderedInsert _ c heap).mem_iff.mp hd) with rfl | hd
    · exact hc
    · exact h.sorted d hd

lemma Valid.foldl_push {cs heap : List (Cursor α)} (h : Valid heap)
    (hcs : ∀ c ∈ cs, c.remaining.Pairwise (· ≤ ·)) : Valid (cs.foldl QuorumMerge.push heap) := by
  induction cs generalizing heap with
  | nil => exact h
  | cons c cs ih =>
    obtain ⟨hc, hcs⟩ := forall_mem_cons.mp hcs
    exact ih (h.push hc) hcs

lemma foldl_push_perm (cs heap : List (Cursor α)) : (cs.foldl push heap).Perm (cs ++ heap) := by
  induction cs generalizing heap with
  | nil => exact Perm.refl _
  | cons c cs ih =>
    refine (ih _).trans ?_
    exact ((perm_orderedInsert _ c heap).append_left cs).trans perm_middle

lemma pairwise_next {c d : Cursor α} (hc : c.remaining.Pairwise (· ≤ ·)) (h : c.next = some d) :
    d.remaining.Pairwise (· ≤ ·) ∧ c.val ≤ d.val := by
  unfold Cursor.next at h
  unfold Cursor.remaining at hc ⊢
  cases hr : c.rest with
  | nil => rw [hr] at h; cases h
  | cons v rest =>
    rw [hr] at h hc
    cases h
    obtain ⟨hv, hrest⟩ := pairwise_cons.mp hc
    exact ⟨hrest, hv v mem_cons_self⟩

/-! ## One round -/

section

variable {top : Cursor α} {heap : List (Cursor α)}

lemma same_append_others (heap : List (Cursor α)) (current : α) :
    same heap current ++ others heap current = heap :=
  takeWhile_append_dropWhile

lemma val_of_mem_same {current : α} {c : Cursor α} (h : c ∈ same heap current) : c.val = current :=
  isAt_iff.mp (mem_takeWhile_imp h)

lemma lt_of_mem_others (h : Valid (top :: heap)) {c : Cursor α}
    (hc : c ∈ others (top :: heap) top.val) : top.val < c.val := by
  have hord := h.ordered
  rw [← same_append_others (top :: heap) top.val] at hord
  have hord' := (pairwise_append.mp hord).2.1
  have hmin : ∀ d ∈ top :: heap, top.val ≤ d.val := by
    intro d hd
    rcases mem_cons.mp hd with rfl | hd
    · exact le_rfl
    · exact rel_of_pairwise_cons h.ordered hd
  -- the first of them is not at the least element, and the others come after it
  cases hd : others (top :: heap) top.val with
  | nil => rw [hd] at hc; cases hc
  | cons d ds =>
    have hfirst : d.val ≠ top.val := by
      have hne : (others (top :: heap) top.val) ≠ [] := by rw [hd]; simp
      have hhead := head_dropWhile_not (isAt top.val) hne
      have : (others (top :: heap) top.val).head hne = d := by simp [hd]
      unfold others at this
      rw [this] at hhead
      intro heq
      rw [isAt_iff.mpr heq] at hhead
      cases hhead
    have hmem : d ∈ top :: heap := by
      rw [← same_append_others (top :: heap) top.val, hd]
      simp
    have hlt : top.val < d.val := lt_of_le_of_ne (hmin d hmem) (Ne.symm hfirst)
    rw [hd] at hc hord'
    rcases mem_cons.mp hc with rfl | hc
    · exact hlt
    · exact hlt.trans_le (rel_of_pairwise_cons hord' hc)

lemma Valid.afterRound (h : Valid (top :: heap)) : Valid (afterRound (top :: heap) top.val) := by
  have hsplit := same_append_others (top :: heap) top.val
  have hothers : Valid (others (top :: heap) top.val) := by
    refine ⟨?_, fun c hc => h.sorted c ?_⟩
    · have hord := h.ordered
      rw [← hsplit] at hord
      exact (pairwise_append.mp hord).2.1
    · rw [← hsplit]
      exact mem_append_right _ hc
  refine hothers.foldl_push fun c hc => ?_
  obtain ⟨d, hd, hnext⟩ := mem_filterMap.mp hc
  refine (pairwise_next (h.sorted d ?_) hnext).1
  rw [← hsplit]
  exact mem_append_left _ hd

/-- How many cursors have an element at least `k` times before them. -/
def atLeast (heap : List (Cursor α)) (x : α) (k : Nat) : Nat :=
  heap.countP (fun c => k ≤ c.remaining.count x)

lemma atLeast_append (l l' : List (Cursor α)) (x : α) (k : Nat) :
    atLeast (l ++ l') x k = atLeast l x k + atLeast l' x k :=
  countP_append

lemma atLeast_perm {l l' : List (Cursor α)} (h : l.Perm l') (x : α) (k : Nat) :
    atLeast l x k = atLeast l' x k :=
  h.countP_eq _

lemma atLeast_afterRound (heap : List (Cursor α)) (current x : α) (k : Nat) :
    atLeast (afterRound heap current) x k =
      atLeast ((same heap current).filterMap Cursor.next) x k + atLeast (others heap current) x
          k := by
  rw [← atLeast_append]
  exact atLeast_perm (foldl_push_perm _ _) x k

lemma atLeast_split (heap : List (Cursor α)) (current x : α) (k : Nat) :
    atLeast heap x k = atLeast (same heap current) x k + atLeast (others heap current) x k := by
  rw [← atLeast_append, same_append_others]

lemma atLeast_next_single (c : Cursor α) (x : α) (k : Nat) :
    atLeast c.next.toList x (k + 1) = atLeast [c] x (if x = c.val then k + 2 else k + 1) := by
  obtain ⟨v, rest⟩ := c
  cases rest with
  | nil =>
    by_cases hx : x = v
    · simp [Cursor.next, Cursor.ofList, atLeast, Cursor.remaining, hx]
    · simp [Cursor.next, Cursor.ofList, atLeast, Cursor.remaining, hx, Ne.symm hx]
  | cons w rest =>
    by_cases hx : x = v
    · simp [Cursor.next, Cursor.ofList, atLeast, Cursor.remaining, hx]
    · simp [Cursor.next, Cursor.ofList, atLeast, Cursor.remaining, hx, Ne.symm hx, count_cons]

lemma atLeast_next {cs : List (Cursor α)} {current : α} (h : ∀ c ∈ cs, c.val = current) (x : α)
    (k : Nat) : atLeast (cs.filterMap Cursor.next) x (k + 1) =
      atLeast cs x (if x = current then k + 2 else k + 1) := by
  induction cs with
  | nil => rfl
  | cons c cs ih =>
    obtain ⟨hc, hcs⟩ := forall_mem_cons.mp h
    have hsplit : (c :: cs).filterMap Cursor.next = c.next.toList ++ cs.filterMap Cursor.next := by
      rw [filterMap_cons]
      cases c.next <;> rfl
    rw [hsplit, atLeast_append, ih hcs, atLeast_next_single, hc, ← atLeast_append]
    rfl

lemma atLeast_others (h : Valid (top :: heap)) (k : Nat) :
    atLeast (others (top :: heap) top.val) top.val (k + 1) = 0 := by
  unfold atLeast
  rw [countP_eq_zero]
  intro c hc
  have hlt := lt_of_mem_others h hc
  have hsorted : c.remaining.Pairwise (· ≤ ·) := h.sorted c (by
    rw [← same_append_others (top :: heap) top.val]
    exact mem_append_right _ hc)
  have hzero : c.remaining.count top.val = 0 := by
    rw [count_eq_zero]
    intro hmem
    rcases mem_cons.mp hmem with heq | hmem
    · exact absurd heq hlt.ne
    · exact absurd (rel_of_pairwise_cons hsorted hmem) (not_le.mpr hlt)
  simp [hzero]

lemma atLeast_same_one (heap : List (Cursor α)) (current : α) :
    atLeast (same heap current) current 1 = (same heap current).length := by
  unfold atLeast
  rw [countP_eq_length]
  intro c hc
  simp [Cursor.remaining, val_of_mem_same hc]

lemma atLeast_antitone (heap : List (Cursor α)) (x : α) {k l : Nat} (h : k ≤ l) :
    atLeast heap x l ≤ atLeast heap x k := by
  refine countP_mono_left fun c _ hc => ?_
  simp only [decide_eq_true_eq] at hc ⊢
  exact h.trans hc

lemma atLeast_afterRound_ne {x : α} (hx : x ≠ top.val) (k : Nat) :
    atLeast (afterRound (top :: heap) top.val) x (k + 1) = atLeast (top :: heap) x (k + 1) := by
  rw [atLeast_afterRound, atLeast_next (fun c hc => val_of_mem_same hc), if_neg hx, ← atLeast_split]

lemma atLeast_afterRound_self (h : Valid (top :: heap)) (k : Nat) :
    atLeast (afterRound (top :: heap) top.val) top.val (k + 1) =
      atLeast (top :: heap) top.val (k + 2) := by
  rw [atLeast_afterRound, atLeast_next (fun c hc => val_of_mem_same hc), if_pos rfl,
    atLeast_split (top :: heap) top.val, atLeast_others h, atLeast_others h]

lemma length_same (h : Valid (top :: heap)) :
    (same (top :: heap) top.val).length = atLeast (top :: heap) top.val 1 := by
  rw [atLeast_split _ top.val, atLeast_same_one, atLeast_others h]
  rfl

/-- How much the cursors still have to go through. -/
def total (heap : List (Cursor α)) : Nat := (heap.map (fun c => c.remaining.length)).sum

omit [LinearOrder α] in
lemma total_append (l l' : List (Cursor α)) : total (l ++ l') = total l + total l' := by
  simp [total]

omit [LinearOrder α] in
lemma total_next (cs : List (Cursor α)) :
    total (cs.filterMap Cursor.next) + cs.length = total cs := by
  induction cs with
  | nil => rfl
  | cons c cs ih =>
    have hone : total ((c :: cs).filterMap Cursor.next) =
        c.rest.length + total (cs.filterMap Cursor.next) := by
      rw [filterMap_cons, Cursor.next]
      cases c.rest with
      | nil => simp [Cursor.ofList]
      | cons v rest => simp [Cursor.ofList, total, Cursor.remaining]
    have htotal : total (c :: cs) = c.rest.length + 1 + total cs := by
      simp [total, Cursor.remaining]
    rw [hone, htotal, length_cons]
    omega

lemma same_length_pos (top : Cursor α) (heap : List (Cursor α)) :
    0 < (same (top :: heap) top.val).length := by
  unfold same
  rw [takeWhile_cons_of_pos (isAt_iff.mpr rfl)]
  exact Nat.succ_pos _

lemma total_afterRound (top : Cursor α) (heap : List (Cursor α)) :
    total (afterRound (top :: heap) top.val) < total (top :: heap) := by
  have hperm : total (afterRound (top :: heap) top.val) =
      total ((same (top :: heap) top.val).filterMap Cursor.next ++ others (top :: heap) top.val) :=
    ((foldl_push_perm _ _).map _).sum_nat
  have hsplit : total (top :: heap) =
      total (same (top :: heap) top.val) + total (others (top :: heap) top.val) := by
    rw [← total_append, same_append_others]
  have hpos := same_length_pos top heap
  have hnext := total_next (same (top :: heap) top.val)
  rw [hperm, total_append, hsplit]
  omega

end

/-! ## All rounds -/

lemma mem_afterRound_ge {top : Cursor α} {heap : List (Cursor α)} (h : Valid (top :: heap))
    {c : Cursor α} (hc : c ∈ afterRound (top :: heap) top.val) : top.val ≤ c.val := by
  rcases mem_append.mp ((foldl_push_perm _ _).mem_iff.mp hc) with hc | hc
  · obtain ⟨d, hd, hnext⟩ := mem_filterMap.mp hc
    have hmem : d ∈ top :: heap := by
      rw [← same_append_others (top :: heap) top.val]
      exact mem_append_left _ hd
    have hle := (pairwise_next (h.sorted d hmem) hnext).2
    rwa [val_of_mem_same hd] at hle
  · exact (lt_of_mem_others h hc).le

lemma rounds_sorted (required : Nat) : ∀ (fuel : Nat) (heap : List (Cursor α)), Valid heap →
    (rounds required fuel heap).Pairwise (· ≤ ·) ∧
      ∀ b, (∀ c ∈ heap, b ≤ c.val) → ∀ x ∈ rounds required fuel heap, b ≤ x
  | 0, _, _ => by simp [rounds]
  | _ + 1, [], _ => by simp [rounds]
  | fuel + 1, top :: heap, h => by
    obtain ⟨hsorted, hge⟩ := rounds_sorted required fuel _ h.afterRound
    have htop := hge top.val fun c hc => mem_afterRound_ge h hc
    rw [rounds]
    constructor
    · split_ifs
      · exact pairwise_cons.mpr ⟨htop, hsorted⟩
      · exact hsorted
    intro b hb x hx
    have hbtop := hb top mem_cons_self
    rcases mem_append.mp hx with hx | hx
    · split_ifs at hx
      · rw [mem_singleton.mp hx]
        exact hbtop
      · cases hx
    · exact hbtop.trans (htop x hx)

lemma rounds_count (required : Nat) (x : α) : ∀ (fuel : Nat) (heap : List (Cursor α)),
    Valid heap → total heap ≤ fuel → ∀ k,
      k + 1 ≤ (rounds required fuel heap).count x ↔ max 1 required ≤ atLeast heap x (k + 1)
  | 0, [], _, _, k => by simp [rounds, atLeast]
  | 0, c :: heap, _, hfuel, k => by simp [total, Cursor.remaining] at hfuel
  | _ + 1, [], _, _, k => by simp [rounds, atLeast]
  | fuel + 1, top :: heap, h, hfuel, k => by
    have hless := total_afterRound top heap
    have ih := rounds_count required x fuel _ h.afterRound (by omega)
    have hlen := length_same h
    rw [rounds, count_append]
    by_cases hx : x = top.val
    · subst hx
      have hpos := same_length_pos top heap
      have hanti : ∀ l, atLeast (top :: heap) top.val (l + 1) ≤ atLeast (top :: heap) top.val 1 :=
        fun l => atLeast_antitone _ _ (by omega)
      simp only [atLeast_afterRound_self h] at ih
      split_ifs with henough
      · -- the element is kept once more than after this round
        rw [count_singleton_self]
        cases k with
        | zero =>
          have hkeep : max 1 required ≤ atLeast (top :: heap) top.val 1 := by omega
          exact ⟨fun _ => hkeep, fun _ => by omega⟩
        | succ k =>
          rw [← ih k]
          omega
      -- no later round has more lists with the element
      rw [count_nil, Nat.zero_add, ih k]
      have hk := hanti k
      have hk' : atLeast (top :: heap) top.val (k + 2) ≤ atLeast (top :: heap) top.val 1 :=
        hanti (k + 1)
      omega
    have hzero : count x (if required ≤ (same (top :: heap) top.val).length
        then [top.val] else []) = 0 := by
      split_ifs
      · simp [Ne.symm hx]
      · rfl
    rw [hzero, Nat.zero_add, ih k, atLeast_afterRound_ne hx]

/-! ## The merge -/

lemma valid_initial {lists : List (List α)} (h : ∀ l ∈ lists, l.Pairwise (· ≤ ·)) :
    Valid ((lists.filterMap Cursor.ofList).foldl push []) := by
  refine Valid.foldl_push ⟨Pairwise.nil, by simp⟩ fun c hc => ?_
  obtain ⟨l, hl, hof⟩ := mem_filterMap.mp hc
  cases l with
  | nil => cases hof
  | cons v rest =>
    cases hof
    exact h _ hl

omit [LinearOrder α] in
lemma total_initial (lists : List (List α)) :
    total (lists.filterMap Cursor.ofList) = (lists.map length).sum := by
  induction lists with
  | nil => rfl
  | cons l lists ih =>
    cases l with
    | nil =>
      rw [filterMap_cons_none rfl, ih]
      simp
    | cons v rest =>
      show total ((⟨v, rest⟩ : Cursor α) :: lists.filterMap Cursor.ofList) = _
      rw [map_cons, sum_cons, ← ih]
      simp [total, Cursor.remaining]

lemma atLeast_initial (lists : List (List α)) (x : α) (k : Nat) :
    atLeast (lists.filterMap Cursor.ofList) x (k + 1) =
      lists.countP (fun l => k + 1 ≤ l.count x) := by
  induction lists with
  | nil => rfl
  | cons l lists ih =>
    cases l with
    | nil => rw [filterMap_cons_none rfl, ih, countP_cons_of_neg (by simp)]
    | cons v rest =>
      show atLeast ((⟨v, rest⟩ : Cursor α) :: lists.filterMap Cursor.ofList) x (k + 1) = _
      rw [countP_cons, ← ih, atLeast, countP_cons]
      rfl

section

variable (required : Nat) {lists : List (List α)} (h : ∀ l ∈ lists, l.Pairwise (· ≤ ·))

include h

/-- An element is kept at least `k + 1` times iff enough lists have it at least `k + 1` times. -/
lemma quorumMerge_count (x : α) (k : Nat) : k + 1 ≤ (quorumMerge required lists).count x ↔
      max 1 required ≤ lists.countP (fun l => k + 1 ≤ l.count x) := by
  have hperm := foldl_push_perm (lists.filterMap Cursor.ofList) ([] : List (Cursor α))
  rw [append_nil] at hperm
  have htotal : total ((lists.filterMap Cursor.ofList).foldl push []) = (lists.map length).sum := by
    rw [← total_initial]
    exact (hperm.map _).sum_nat
  rw [quorumMerge, rounds_count required x _ _ (valid_initial h) htotal.le, ← atLeast_initial,
    atLeast_perm hperm]

lemma quorumMerge_sorted : (quorumMerge required lists).Pairwise (· ≤ ·) :=
  (rounds_sorted required _ _ (valid_initial h)).1

lemma mem_quorumMerge (x : α) :
    x ∈ quorumMerge required lists ↔ max 1 required ≤ lists.countP (fun l => x ∈ l) := by
  have hcount := quorumMerge_count required h x 0
  simp only [Nat.zero_add, Nat.one_le_iff_ne_zero, Ne, count_eq_zero, not_not] at hcount
  exact hcount

/-- Every element is kept at most once iff no element is repeated in enough lists. -/
lemma nodup_quorumMerge : (quorumMerge required lists).Nodup ↔
      ∀ x, lists.countP (fun l => 2 ≤ l.count x) < max 1 required := by
  rw [nodup_iff_count_le_one]
  refine forall_congr' fun x => ?_
  rw [← not_le, ← quorumMerge_count required h x 1]
  omega

end

lemma quorumMerge_congr (required : Nat) {lists lists' : List (List α)}
    (h : ∀ l ∈ lists, l.Pairwise (· ≤ ·)) (h' : ∀ l ∈ lists', l.Pairwise (· ≤ ·))
    (hcount : ∀ x k, lists.countP (fun l => k + 1 ≤ l.count x) =
      lists'.countP (fun l => k + 1 ≤ l.count x)) :
    quorumMerge required lists = quorumMerge required lists' := by
  refine Perm.eq_of_pairwise (fun _ _ _ _ => le_antisymm) (quorumMerge_sorted required h)
    (quorumMerge_sorted required h') (perm_iff_count.mpr fun x => ?_)
  have hle : ∀ k, k + 1 ≤ (quorumMerge required lists).count x ↔
      k + 1 ≤ (quorumMerge required lists').count x := by
    intro k
    rw [quorumMerge_count required h, quorumMerge_count required h', hcount]
  by_contra hne
  rcases Nat.lt_or_gt_of_ne hne with hlt | hlt
  · exact absurd ((hle _).mpr hlt) (by omega)
  · exact absurd ((hle _).mp hlt) (by omega)

end QuorumMerge
