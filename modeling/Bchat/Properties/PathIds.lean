import Bchat.Properties.RouterChanges

/-!
# The ids of paths

No id is used for two things at a time: `IdsInOrder` holds at the start of the router and every
outcome keeps it.
-/

namespace Bchat.Network.Router

open Relation List OnionPath Rows PendingRotation Function Nat

variable {env : Environment} {config : RouterConfig} {clock : Clock}
variable {s s' : Router} {id k pathId newPathId : PathId} {f : OnionPath → OnionPath}
  {c : PathCategory} {path oldPath : OnionPath} {pending : PendingRotation}

/-- No id is used twice, every id is below the counter, and what is not active yet was neither used
nor planned to be rotated. -/
structure IdsInOrder (s : Router) : Prop where
  uses_le : ∀ id, s.uses id ≤ 1
  used : ∀ id, s.uses id ≠ 0 → id.number < s.uniqueIds
  sent : ∀ id ∈ s.sentRequests.map SentRequest.pathId, id.number < s.uniqueIds
  planned : ∀ id ∈ s.planned, id.number < s.uniqueIds
  pending : ∀ id ∈ s.pendingPaths.map PendingPath.id ++ s.retryTimers.map RetryTimer.pathId,
    id ∉ s.sentRequests.map SentRequest.pathId ∧ id ∉ s.planned ∧ id.label ≠ .rotation
  rotations : ∀ id ∈ s.pendingRotationPaths.map PendingRotation.newPathId,
    id ∉ s.planned ∧ id.label = .rotation

lemma IdsInOrder.fresh (h : IdsInOrder s) {label : IdLabel} (hlabel : label ≠ .rotation) :
    FreeId s.idMade ⟨label, s.uniqueIds⟩ where
  number := lt_succ_self _
  uses := by
    by_contra hne
    exact absurd (h.used ⟨label, s.uniqueIds⟩ hne) (lt_irrefl _)
  sent hmem := absurd (h.sent _ hmem) (lt_irrefl _)
  planned hmem := absurd (h.planned _ hmem) (lt_irrefl _)
  label := hlabel

lemma IdsInOrder.newPathId_lt (h : IdsInOrder s) (id : PathId)
    (hmem : id ∈ s.pendingRotationPaths.map PendingRotation.newPathId) :
    id.number < s.uniqueIds := by
  have hcount := count_pos_iff.2 hmem
  exact h.used id (by rw [uses]; omega)

lemma sum_update (count : List OnionPath → Nat) (f : PathCategory → List OnionPath)
    (c : PathCategory) (l : List OnionPath) :
    count (update f c l .standard) + count (update f c l .file) + count (f c) =
      count (f .standard) + count (f .file) + count l := by
  cases c <;> rw [update_self, update_of_ne (by decide)]
  · omega
  · omega

lemma count_update (f : PathCategory → List OnionPath) (c : PathCategory) (l : List OnionPath)
    (id : PathId) : ((update f c l .standard).map OnionPath.id).count id +
        ((update f c l .file).map OnionPath.id).count id + ((f c).map OnionPath.id).count id =
      ((f .standard).map OnionPath.id).count id + ((f .file).map OnionPath.id).count id +
        (l.map OnionPath.id).count id :=
  sum_update (fun l => (l.map OnionPath.id).count id) f c l

def IsPathId (s : Router) (id : PathId) : Prop :=
  ∃ c, id ∈ (s.paths c).map OnionPath.id ∨ id ∈ (s.pathsPendingDrop c).map OnionPath.id

lemma IsPathId.uses_ne_zero (h : IsPathId s id) :
    0 < ((s.paths .standard).map OnionPath.id).count id + ((s.paths .file).map OnionPath.id).count
        id +
      ((s.pathsPendingDrop .standard).map OnionPath.id).count id +
      ((s.pathsPendingDrop .file).map OnionPath.id).count id := by
  obtain ⟨c, h | h⟩ := h <;> have h := count_pos_iff.2 h <;> cases c <;> omega

lemma IsPathId.notMem (hle : ∀ id, s.uses id ≤ 1) (h : IsPathId s id) :
    id ∉ s.pendingPaths.map PendingPath.id ++ s.retryTimers.map RetryTimer.pathId ∧
      id ∉ s.pendingRotationPaths.map PendingRotation.newPathId := by
  have hpos := h.uses_ne_zero
  have hle := hle id
  rw [uses] at hle
  refine ⟨fun hmem => ?_, fun hmem => ?_⟩
  · have hcount := count_pos_iff.2 hmem
    rw [count_append] at hcount
    omega
  · have hcount := count_pos_iff.2 hmem
    omega

lemma IdsInOrder.of_le (h : IdsInOrder s) (huses : ∀ id, s'.uses id ≤ s.uses id)
    (hids : s.uniqueIds ≤ s'.uniqueIds) (hsent : ∀ id ∈ s'.sentRequests.map SentRequest.pathId,
      id ∈ s.sentRequests.map SentRequest.pathId ∨ IsPathId s' id)
    (hplan : ∀ id ∈ s'.planned, id ∈ s.planned ∨ IsPathId s' id)
    (hpend : ∀ id ∈ s'.pendingPaths.map PendingPath.id ++ s'.retryTimers.map RetryTimer.pathId,
      id ∈ s.pendingPaths.map PendingPath.id ++ s.retryTimers.map RetryTimer.pathId)
    (hrot : ∀ id ∈ s'.pendingRotationPaths.map PendingRotation.newPathId,
      id ∈ s.pendingRotationPaths.map PendingRotation.newPathId) : IdsInOrder s' := by
  have hle : ∀ id, s'.uses id ≤ 1 := fun id => (huses id).trans (h.uses_le id)
  have hused : ∀ id, s'.uses id ≠ 0 → id.number < s'.uniqueIds := by
    intro id hne
    have hs := huses id
    exact (h.used id (by omega)).trans_le hids
  have hpath : ∀ id, IsPathId s' id → id.number < s'.uniqueIds := by
    intro id hp
    have hpos := hp.uses_ne_zero
    exact hused id (by rw [uses]; omega)
  refine ⟨hle, hused, ?_, ?_, ?_, ?_⟩ <;> intro id hmem
  · rcases hsent id hmem with hold | hp
    · exact (h.sent id hold).trans_le hids
    · exact hpath id hp
  · rcases hplan id hmem with hold | hp
    · exact (h.planned id hold).trans_le hids
    · exact hpath id hp
  · obtain ⟨h1, h2, h3⟩ := h.pending id (hpend id hmem)
    refine ⟨fun hs => ?_, fun hs => ?_, h3⟩
    · rcases hsent id hs with hold | hp
      · exact h1 hold
      · exact (hp.notMem hle).1 hmem
    rcases hplan id hs with hold | hp
    · exact h2 hold
    · exact (hp.notMem hle).1 hmem
  obtain ⟨h1, h2⟩ := h.rotations id (hrot id hmem)
  refine ⟨fun hs => ?_, h2⟩
  rcases hplan id hs with hold | hp
  · exact h1 hold
  · exact (hp.notMem hle).2 hmem

lemma count_append {α : Type} (key : α → PathId) (rows : List α) (a : α) (id : PathId) :
    ((rows ++ [a]).map key).count id = (rows.map key).count id + if key a = id then 1 else 0 := by
  rw [map_append, List.count_append, map_singleton]
  by_cases h : key a = id
  · simp [h]
  · rw [if_neg h, count_eq_zero_of_not_mem (l := [key a]) (by simpa using Ne.symm h)]

lemma count_erase {α : Type} {key : α → PathId} {rows : List α} {a : α}
    (h : find key k rows = some a) (id : PathId) : (rows.map key).count id =
      ((erase key k rows).map key).count id + if k = id then 1 else 0 := by
  have hperm := ((perm_cons_erase h).map key).count_eq id
  rw [hperm, map_cons, count_cons, find_key h]
  simp

lemma mem_map_of_mem_erase {α : Type} {key : α → PathId} {rows : List α}
    (h : id ∈ (erase key k rows).map key) : id ∈ rows.map key :=
  (Rows.erase_sublist.map key).subset h

lemma uses_modifyPath (s : Router) (c : PathCategory) (id : PathId)
    (hf : ∀ p, s.findPath c id = some p → (f p).id = p.id) (k : PathId) :
    (s.modifyPath c id f).uses k = s.uses k := by
  rw [uses, uses, modifyPath_ids s c id hf, modifyPath_ids s c id hf]
  rfl

lemma isPathId_modifyPath (hf : ∀ p, s.findPath c id = some p → (f p).id = p.id) :
    IsPathId (s.modifyPath c id f) k ↔ IsPathId s k := by
  refine exists_congr fun c' => ?_
  rw [modifyPath_ids s c id hf]
  rfl

lemma uses_retirePath_le (h : s.findPath c path.id = some path) (k : PathId) :
    (s.retirePath c path).uses k ≤ s.uses k := by
  have hactive := count_update s.paths c (erase OnionPath.id path.id (s.paths c)) k
  have hdying := count_update s.pathsPendingDrop c (if path.activeRequests = 0 then
    s.pathsPendingDrop c else s.pathsPendingDrop c ++ [path]) k
  have herase := count_erase h k
  have hadd : ((if path.activeRequests = 0 then s.pathsPendingDrop c else
      s.pathsPendingDrop c ++ [path]).map OnionPath.id).count k ≤
      ((s.pathsPendingDrop c).map OnionPath.id).count k + if path.id = k then 1 else 0 := by
    split
    · exact Nat.le_add_right _ _
    · exact Nat.le_of_eq (count_append OnionPath.id _ path k)
  rw [uses, uses]
  simp only [retirePath]
  omega

lemma IsPathId.retirePath (h : IsPathId s k) (hfind : s.findPath c path.id = some path)
    (hne : path.id ≠ k) : IsPathId (s.retirePath c path) k := by
  have hkeep : ∀ c', k ∈ (s.paths c').map OnionPath.id →
      k ∈ ((s.retirePath c path).paths c').map OnionPath.id := by
    intro c' hk
    by_cases hc : c' = c
    · subst hc
      have hcount := count_erase hfind k
      rw [if_neg hne] at hcount
      rw [retirePath_paths_self]
      refine count_pos_iff.1 ?_
      have := count_pos_iff.2 hk
      omega
    · rw [retirePath_paths_of_ne s c path hc]
      exact hk
  have hdying : ∀ c', k ∈ (s.pathsPendingDrop c').map OnionPath.id →
      k ∈ ((s.retirePath c path).pathsPendingDrop c').map OnionPath.id := by
    intro c' hk
    by_cases hc : c' = c
    · subst hc
      rw [retirePath_dying_self]
      split
      · exact hk
      · rw [map_append]
        exact mem_append_left _ hk
    · rw [retirePath_dying_of_ne s c path hc]
      exact hk
  obtain ⟨c', hk⟩ := h
  exact ⟨c', hk.imp (hkeep c') (hdying c')⟩

lemma uses_decrement_le (s : Router) (pathId : PathId) (c : PathCategory) (k : PathId) :
    (s.decrementAndCleanupPath pathId c).uses k ≤ s.uses k := by
  rcases decrementAndCleanupPath_cases pathId c s with
    ⟨path, -, h⟩ | ⟨-, -, h⟩ | ⟨-, path, hfind, ⟨-, h⟩ | ⟨-, h⟩⟩
  · rw [h]
    refine le_of_eq (uses_modifyPath s c pathId ?_ k)
    exact fun _ _ => rfl
  · rw [h]
  · have hcount := count_update s.pathsPendingDrop c
      (Rows.erase OnionPath.id pathId (s.pathsPendingDrop c)) k
    have herase := count_erase hfind k
    rw [h, uses, uses]
    simp only [removeFailureListeners]
    omega
  have hcount := count_update s.pathsPendingDrop c (Rows.modify OnionPath.id pathId
    (fun p => { p with activeRequests := p.activeRequests - 1 }) (s.pathsPendingDrop c)) k
  have hsame : (Rows.modify OnionPath.id pathId
      (fun p => { p with activeRequests := p.activeRequests - 1 })
      (s.pathsPendingDrop c)).map OnionPath.id = (s.pathsPendingDrop c).map OnionPath.id :=
    map_modify _ fun _ _ => rfl
  rw [hsame] at hcount
  rw [h, uses, uses]
  simp only
  omega

/-! ## Changes keep the ids in order -/

lemma IdsInOrder.sameTables (h : IdsInOrder s) (hsame : SameTables s s') : IdsInOrder s' := by
  refine h.of_le (fun id => ?_) hsame.ids ?_ ?_ ?_ ?_
  · rw [uses, uses, hsame.paths, hsame.dying, hsame.pending, hsame.rotations, hsame.timers]
  · rw [hsame.sent]
    exact fun _ => .inl
  · rw [Router.planned, Router.planned, hsame.schedule, hsame.rotations]
    exact fun _ => .inl
  · rw [hsame.pending, hsame.timers]
    exact fun _ => id
  · rw [hsame.rotations]
    exact fun _ => id

lemma addPending_pendingPaths {path : PendingPath} (h : FreeId s path.id) :
    (s.addPending c path).pendingPaths = s.pendingPaths ++ [path] := by
  have hnot : path.id ∉ s.pendingPaths.map PendingPath.id := by
    intro hmem
    have hcount := count_pos_iff.2 hmem
    have huses := h.uses
    rw [uses] at huses
    omega
  rw [Router.addPending]
  rw [erase_of_notMem hnot]

lemma IdsInOrder.addPending (h : IdsInOrder s) {path : PendingPath} (hfree : FreeId s path.id) :
    IdsInOrder (s.addPending c path) := by
  have hpend := addPending_pendingPaths (c := c) hfree
  have huses : ∀ id, (s.addPending c path).uses id = s.uses id + if path.id = id then 1 else 0 := by
    intro id
    rw [uses, hpend, count_append PendingPath.id, uses]
    simp only [Router.addPending]
    omega
  refine ⟨?_, ?_, h.sent, h.planned, ?_, h.rotations⟩
  · intro id
    rw [huses]
    split
    · rename_i heq
      rw [← heq, hfree.uses]
    · exact h.uses_le id
  · intro id hne
    rw [huses] at hne
    by_cases heq : path.id = id
    · rw [← heq]
      exact hfree.number
    · rw [if_neg heq] at hne
      exact h.used id hne
  intro id hmem
  rw [hpend, map_append, mem_append, mem_append] at hmem
  rcases hmem with (hmem | hmem) | hmem
  · exact h.pending id (mem_append_left _ hmem)
  · rw [map_singleton, mem_singleton] at hmem
    rw [hmem]
    exact ⟨hfree.sent, hfree.planned, hfree.label⟩
  · exact h.pending id (mem_append_right _ hmem)

lemma mem_schedulePathRotation {rotateAt : Int} {e : ScheduledRotation} :
    e ∈ (s.schedulePathRotation pathId c rotateAt).pathRotationSchedule ↔
      e = ⟨rotateAt, pathId, c⟩ ∨ e ∈ s.pathRotationSchedule :=
  mem_orderedInsert _

lemma mem_planned_schedule {rotateAt : Int}
    (h : id ∈ (s.schedulePathRotation pathId c rotateAt).planned) :
    id ∈ s.planned ∨ id = pathId := by
  rcases mem_append.1 h with h | h
  · obtain ⟨e, he, rfl⟩ := mem_map.1 h
    rcases mem_schedulePathRotation.1 he with rfl | he
    · exact .inr rfl
    · exact .inl (mem_append_left _ (mem_map_of_mem he))
  · exact .inl (mem_append_right _ h)

lemma recordSent_map {γ : Type} (s : Router) (c c' : PathCategory) (index : Nat)
    (path : OnionPath) (request : Request) (g : OnionPath → γ)
    (hg : ∀ p : OnionPath, g { p with activeRequests := p.activeRequests + 1 } = g p) :
    ((s.recordSent c index path request).paths c').map g = (s.paths c').map g := by
  by_cases hc : c' = c
  · subst hc
    rw [recordSent_paths_self]
    apply ext_getElem?
    intro i
    simp only [getElem?_map, getElem?_modify]
    split <;> cases (s.paths c')[i]? <;> simp [hg]
  · rw [recordSent_paths_of_ne s c path hc]

lemma recordSent_ids (s : Router) (c c' : PathCategory) (index : Nat) (path : OnionPath)
    (request : Request) : ((s.recordSent c index path request).paths c').map OnionPath.id
      = (s.paths c').map OnionPath.id :=
  recordSent_map s c c' index path request OnionPath.id fun _ => rfl

lemma decrementAndCleanupPath_eq (pathId : PathId) (c : PathCategory) (s : Router) :
    ∃ paths dying listeners, s.decrementAndCleanupPath pathId c =
      { s with paths := paths, pathsPendingDrop := dying, failureListeners := listeners } := by
  rcases decrementAndCleanupPath_cases pathId c s with
    ⟨path, -, h⟩ | ⟨-, -, h⟩ | ⟨-, path, -, ⟨-, h⟩ | ⟨-, h⟩⟩ <;> exact ⟨_, _, _, h⟩

lemma IdsInOrder.answered (h : IdsInOrder s) (pathId : PathId) (c : PathCategory) (index : Nat) :
    IdsInOrder ((s.decrementAndCleanupPath pathId c).forgetSent index) := by
  have huses := uses_decrement_le s pathId c
  obtain ⟨paths, dying, listeners, heq⟩ := decrementAndCleanupPath_eq pathId c s
  rw [heq] at huses ⊢
  refine h.of_le huses (le_refl _) (fun id hmem => .inl ?_) (fun _ => .inl) (fun _ => id)
    (fun _ => id)
  exact ((eraseIdx_sublist s.sentRequests index).map SentRequest.pathId).subset hmem

lemma isPathId_of_find (h : s.findPath c id = some path) : IsPathId s id :=
  ⟨c, .inl (by rw [← find_key h]; exact mem_map_of_mem (find_mem h))⟩

lemma uses_takeRotation
    (h : find PendingRotation.newPathId newPathId s.pendingRotationPaths = some pending)
    (id : PathId) :
    s.uses id = (s.takeRotation newPathId).uses id + if newPathId = id then 1 else 0 := by
  have herase := count_erase h id
  rw [uses, uses]
  simp only [takeRotation]
  omega

lemma mem_planned_takeRotation (h : id ∈ (s.takeRotation newPathId).planned) : id ∈ s.planned := by
  refine mem_append.2 ((mem_append.1 h).imp (fun h => h) fun h => ?_)
  exact (Rows.erase_sublist.map oldPathId).subset h

lemma IdsInOrder.takeRotation (h : IdsInOrder s)
    (hfind : Rows.find PendingRotation.newPathId newPathId s.pendingRotationPaths = some pending) :
    IdsInOrder (s.takeRotation newPathId) := by
  refine h.of_le ?_ (le_refl _) (fun _ => .inl) (fun _ hmem => .inl (mem_planned_takeRotation hmem))
    (fun _ => id) (fun _ => mem_map_of_mem_erase)
  intro id
  have := uses_takeRotation hfind id
  omega

lemma IdsInOrder.postponeRotation (h : IdsInOrder s) (hfind : s.findPath c pathId = some path) :
    IdsInOrder (postponeRotation clock c pathId s) := by
  have hids : ∀ p, s.findPath c pathId = some p →
      ({ p with rotationInProgress := false } : OnionPath).id = p.id := fun _ _ => rfl
  refine h.of_le (fun k => le_of_eq (uses_modifyPath s c pathId hids k)) (le_refl _)
    (fun _ => .inl) ?_ (fun _ => id) (fun _ => id)
  intro id hmem
  refine (mem_planned_schedule hmem).imp (fun hold => hold) ?_
  rintro rfl
  exact (isPathId_modifyPath hids).2 (isPathId_of_find hfind)

lemma findPath_append {new : OnionPath} (h : s.findPath c id = some path) :
    { s with paths := update s.paths c (s.paths c ++ [new]) }.findPath c id
      = some path := by
  show find OnionPath.id id (update s.paths c (s.paths c ++ [new]) c) = some path
  rw [update_self]
  exact find_append h

lemma uses_completeRotation_le (hold : s.findPath pending.category oldPath.id = some oldPath)
    (rotateAt : Int) (id : PathId) : (completeRotation pending oldPath rotateAt s).uses id ≤
      s.uses id + if pending.newPathId = id then 1 else 0 := by
  let t := s.schedulePathRotation pending.newPathId pending.category rotateAt
  let u : Router := { t with
    paths := update t.paths pending.category
      (t.paths pending.category ++ [pending.newPath]) }
  have hfind : u.findPath pending.category oldPath.id = some oldPath := findPath_append hold
  have hretire := uses_retirePath_le hfind id
  have hcount := count_update s.paths pending.category
    (s.paths pending.category ++ [pending.newPath]) id
  rw [count_append OnionPath.id] at hcount
  have hu : u.uses id = s.uses id + if pending.newPath.id = id then 1 else 0 := by
    rw [uses, uses]
    simp only [u, t, schedulePathRotation]
    omega
  exact hretire.trans_eq hu

lemma IdsInOrder.completeRotation (h : IdsInOrder s)
    (hpending : Rows.find PendingRotation.newPathId pending.newPathId s.pendingRotationPaths
      = some pending) (hold : s.findPath pending.category oldPath.id = some oldPath)
    (rotateAt : Int) :
    IdsInOrder (completeRotation pending oldPath rotateAt (s.takeRotation pending.newPathId)) := by
  have hne : oldPath.id ≠ pending.newPathId := by
    intro heq
    refine ((isPathId_of_find hold).notMem h.uses_le).2 ?_
    rw [heq]
    exact mem_map_of_mem (find_mem hpending)
  refine h.of_le ?_ (le_refl _) (fun _ => .inl) ?_ (fun _ => id) (fun _ => mem_map_of_mem_erase)
  · intro id
    have htake := uses_takeRotation hpending id
    have hcomplete := uses_completeRotation_le
      (s := s.takeRotation pending.newPathId) hold rotateAt id
    omega
  intro id hmem
  refine (mem_planned_schedule hmem).imp mem_planned_takeRotation ?_
  rintro rfl
  refine IsPathId.retirePath ?_ ?_ hne
  · refine ⟨pending.category, .inl ?_⟩
    simp only [update_self, map_append]
    exact mem_append_right _ mem_cons_self
  · exact findPath_append hold

/-! ## Outcomes keep the ids in order -/

section

variable (h : IdsInOrder s)

include h

lemma IdsInOrder.modifyPath (c : PathCategory) (pathId : PathId)
    (hf : ∀ p, s.findPath c pathId = some p → (f p).id = p.id) :
    IdsInOrder (s.modifyPath c pathId f) :=
  h.of_le (fun k => le_of_eq (uses_modifyPath s c pathId hf k)) (le_refl _)
    (fun _ => .inl) (fun _ => .inl) (fun _ => id) (fun _ => id)

lemma IdsInOrder.buildChange (hchange : BuildChange config s s') : IdsInOrder s' := by
  cases hchange with
  | quiet hsame => exact h.sameTables hsame
  | addPending c hbuild => exact h.addPending hbuild.free

lemma IdsInOrder.useChange (hchange : UseChange config s s') : IdsInOrder s' := by
  cases hchange with
  | build hbuild => exact h.buildChange hbuild
  | @send c index path request hget _ =>
    refine h.of_le ?_ (le_refl _) ?_ (fun _ => .inl) (fun _ => id) (fun _ => id)
    · intro id
      rw [uses, uses, recordSent_ids, recordSent_ids]
      exact le_refl _
    intro id hmem
    rw [recordSent, map_append, mem_append] at hmem
    refine hmem.imp (fun hold => hold) fun hnew => ⟨c, .inl ?_⟩
    rw [map_singleton, mem_singleton] at hnew
    rw [recordSent_ids, hnew]
    exact mem_map_of_mem (mem_of_getElem? hget)

lemma IdsInOrder.failureChange (hchange : FailureChange config s s') : IdsInOrder s' := by
  cases hchange with
  | build hbuild => exact h.buildChange hbuild
  | strike c pathId count =>
    refine h.modifyPath c pathId ?_
    exact fun _ _ => rfl
  | @repair c path =>
    refine h.modifyPath c path.id ?_
    exact fun _ _ => rfl
  | @retire c path hfind =>
    refine h.of_le ?_ (le_refl _) (fun _ => .inl) (fun _ => .inl) (fun _ => id) (fun _ => id)
    intro k
    exact uses_retirePath_le (s := s.removeFailureListeners path) hfind k

lemma IdsInOrder.useChanges (hchanges : UseChanges config s s') : IdsInOrder s' := by
  induction hchanges with
  | refl => exact h
  | tail _ hchange ih => exact ih.useChange hchange

lemma IdsInOrder.failureChanges (hchanges : FailureChanges config s s') : IdsInOrder s' := by
  induction hchanges with
  | refl => exact h
  | tail _ hchange ih => exact ih.failureChange hchange

lemma IdsInOrder.recordVerification
    (hid : pending.newPathId = ⟨.rotation, s.uniqueIds⟩) (hold : IsPathId s pending.oldPathId)
    (request : Request) (rotateAt : Int) :
    IdsInOrder (s.idMade.recordVerification pending request rotateAt) := by
  set t := s.idMade.recordVerification pending request rotateAt with ht
  have huses : ∀ id, t.uses id = s.uses id + if pending.newPathId = id then 1 else 0 := by
    intro id
    have hcount : (t.pendingRotationPaths.map newPathId).count id =
        (s.pendingRotationPaths.map newPathId).count id + if pending.newPathId = id then 1 else 0 :=
      count_append newPathId s.pendingRotationPaths _ id
    rw [uses, hcount, uses]
    simp only [ht, Router.recordVerification, idMade]
    omega
  have hfresh : ∀ id : PathId, id.number < s.uniqueIds → pending.newPathId ≠ id := by
    rintro id hlt rfl
    rw [hid] at hlt
    exact absurd hlt (lt_irrefl _)
  have hplanned : ∀ id, id ∈ t.planned → id ∈ s.planned ∨ id = pending.oldPathId := by
    intro id hmem
    rcases mem_append.1 hmem with hmem | hmem
    · exact .inl (mem_append_left _ hmem)
    rw [ht, Router.recordVerification, map_append, mem_append] at hmem
    refine hmem.imp (fun hmem => mem_append_right _ hmem) fun hmem => ?_
    exact mem_singleton.1 hmem
  have holdlt : pending.oldPathId.number < s.uniqueIds := by
    have hpos := hold.uses_ne_zero
    exact h.used _ (by rw [uses]; omega)
  have hlt : ∀ id, id ∈ t.planned → id.number < s.uniqueIds := by
    intro id hmem
    rcases hplanned id hmem with hmem | rfl
    · exact h.planned id hmem
    · exact holdlt
  refine ⟨?_, ?_, ?_, ?_, ?_, ?_⟩
  · intro id
    rw [huses]
    split
    · rename_i heq
      have hzero : s.uses id = 0 := by
        by_contra hne
        exact hfresh id (h.used id hne) heq
      omega
    · exact h.uses_le id
  · intro id hne
    rw [huses] at hne
    by_cases heq : pending.newPathId = id
    · rw [← heq, hid]
      exact lt_succ_self _
    · rw [if_neg heq] at hne
      exact (h.used id hne).trans (lt_succ_self _)
  · intro id hmem
    rw [ht, Router.recordVerification, map_append, mem_append] at hmem
    rcases hmem with hmem | hmem
    · exact (h.sent id hmem).trans (lt_succ_self _)
    · rw [mem_singleton.1 hmem, hid]
      exact lt_succ_self _
  · exact fun id hmem => (hlt id hmem).trans (lt_succ_self _)
  · intro id hmem
    obtain ⟨hsent, hplan, hlabel⟩ := h.pending id hmem
    refine ⟨fun hs => ?_, fun hp => ?_, hlabel⟩
    · rw [ht, Router.recordVerification, map_append, mem_append] at hs
      rcases hs with hs | hs
      · exact hsent hs
      · rw [mem_singleton.1 hs, hid] at hlabel
        exact hlabel rfl
    rcases hplanned id hp with hp | rfl
    · exact hplan hp
    · exact (hold.notMem h.uses_le).1 hmem
  intro id hmem
  rw [ht, Router.recordVerification, map_append, mem_append] at hmem
  rcases hmem with hmem | hmem
  · obtain ⟨hplan, hlabel⟩ := h.rotations id hmem
    refine ⟨fun hp => ?_, hlabel⟩
    rcases hplanned id hp with hp | rfl
    · exact hplan hp
    · exact (hold.notMem h.uses_le).2 hmem
  have heq : id = pending.newPathId := mem_singleton.1 hmem
  refine ⟨fun hp => hfresh id (hlt id hp) heq.symm, ?_⟩
  rw [heq, hid]

end

lemma IdsInOrder.turn {entry : ScheduledRotation} (h : IdsInOrder s)
    (hturn : Turn config clock entry s s') : IdsInOrder s' := by
  cases hturn with
  | skip => exact h
  | postpone hfind _ hsame => exact (h.postponeRotation hfind).sameTables hsame
  | @start _ path nodes request hfind _ _ _ hsame =>
    have hkeep : ∀ p, s.findPath entry.category entry.pathId = some p →
        ({ p with rotationInProgress := true } : OnionPath).id = p.id := fun _ _ => rfl
    have hmarked : IdsInOrder (markRotating entry s) :=
      h.modifyPath entry.category entry.pathId hkeep
    have hold : IsPathId (markRotating entry s) entry.pathId :=
      (isPathId_modifyPath hkeep).2 (isPathId_of_find hfind)
    exact (IdsInOrder.recordVerification hmarked rfl hold request _).sameTables hsame

lemma IdsInOrder.turns {due : List ScheduledRotation} (h : IdsInOrder s)
    (hturns : Turns config clock due s s') : IdsInOrder s' := by
  induction hturns with
  | nil => exact h
  | cons hturn _ ih => exact ih (h.turn hturn)

section

variable (h : IdsInOrder s) {path : PendingPath}
  (hfind : Rows.find PendingPath.id path.id s.pendingPaths = some path)

include h hfind

lemma IdsInOrder.failPending
    {timer : Option RetryTimer} (htimer : ∀ x ∈ timer, x.pathId = path.id) :
    IdsInOrder (s.failPending path.id timer) := by
  have htimers : ∀ id, ((s.retryTimers ++ timer.toList).map RetryTimer.pathId).count id ≤
      (s.retryTimers.map RetryTimer.pathId).count id + if path.id = id then 1 else 0 := by
    intro id
    cases timer with
    | none => simp
    | some x => simp [htimer x rfl, count_singleton]
  refine h.of_le ?_ (le_refl _) (fun _ => .inl) (fun _ => .inl) ?_ (fun _ => id)
  · intro id
    have herase := count_erase hfind id
    have htimers := htimers id
    rw [uses, uses]
    simp only [Router.failPending]
    omega
  intro id hmem
  rcases mem_append.1 hmem with hmem | hmem
  · exact mem_append_left _ (mem_map_of_mem_erase hmem)
  rw [Router.failPending, map_append, mem_append] at hmem
  rcases hmem with hmem | hmem
  · exact mem_append_right _ hmem
  obtain ⟨x, hx, rfl⟩ := mem_map.1 hmem
  rw [htimer x (Option.mem_toList.1 hx)]
  exact mem_append_left _ (mem_map_of_mem (find_mem hfind))

lemma IdsInOrder.activatePath (c : PathCategory) :
    IdsInOrder (activatePath config clock c path (s.failPending path.id none)) := by
  refine h.of_le ?_ (Nat.le_refl _) (fun _ => .inl) ?_ ?_ (fun _ => id)
  · intro id
    have herase := count_erase hfind id
    have hcount := count_update s.paths c (s.paths c ++ [path.activeAt clock.system]) id
    rw [count_append OnionPath.id] at hcount
    have hid : (path.activeAt clock.system).id = path.id := rfl
    rw [hid] at hcount
    rw [uses, uses]
    simp only [Router.activatePath, schedulePathRotation, Router.failPending, Option.toList_none,
      append_nil]
    omega
  · intro id hmem
    refine (mem_planned_schedule hmem).imp (fun hold => hold) ?_
    rintro rfl
    refine ⟨c, .inl ?_⟩
    rw [activatePath_paths_self, List.map_append]
    exact List.mem_append_right _ List.mem_cons_self
  intro id hmem
  rcases List.mem_append.1 hmem with hmem | hmem
  · exact List.mem_append_left _ (mem_map_of_mem_erase hmem)
  · refine mem_append_right _ ?_
    simpa [Router.activatePath, schedulePathRotation, Router.failPending] using hmem

end

lemma IdsInOrder.dropTimer (h : IdsInOrder s) (index : Nat) : IdsInOrder (s.dropTimer index) := by
  have hsub := (eraseIdx_sublist s.retryTimers index).map RetryTimer.pathId
  refine h.of_le ?_ (le_refl _) (fun _ => .inl) (fun _ => .inl) ?_ (fun _ => id)
  · intro id
    have hcount := hsub.count_le id
    rw [uses, uses]
    simp only [Router.dropTimer]
    omega
  intro id hmem
  rcases mem_append.1 hmem with hmem | hmem
  · exact mem_append_left _ hmem
  · exact mem_append_right _ (hsub.subset hmem)

lemma IdsInOrder.verified (h : IdsInOrder s) (pathId : PathId) (success timeout : Bool)
    (rotateAt : Int) :
    IdsInOrder (onRotationVerificationResponse clock pathId success timeout rotateAt s) := by
  rcases onRotationVerificationResponse_cases clock pathId success timeout rotateAt s with
    ⟨-, heq⟩ | ⟨pending, hpending, ⟨-, heq⟩ | ⟨oldPath, hold, heq | heq⟩⟩ <;> rw [heq]
  · exact h
  · exact h.takeRotation hpending
  · exact (h.takeRotation hpending).postponeRotation hold
  have hid := find_key hpending
  rw [← hid] at hpending ⊢
  rw [← find_key hold] at hold
  exact h.completeRotation hpending hold rotateAt

lemma IdsInOrder.closeConnections (h : IdsInOrder s) : IdsInOrder s.closeConnections := by
  refine h.of_le ?_ (le_refl _) (fun _ => .inl) (fun _ hmem => absurd hmem not_mem_nil)
    (fun _ hmem => mem_append_right _ (by simpa [Router.closeConnections] using hmem))
    (fun _ hmem => absurd hmem not_mem_nil)
  intro id
  rw [uses, uses]
  simp only [Router.closeConnections, map_nil, count_nil]
  omega

lemma IdsInOrder.setSchedule (h : IdsInOrder s) {rest : List ScheduledRotation}
    (hrest : rest ⊆ s.pathRotationSchedule) :
    IdsInOrder { s with pathRotationSchedule := rest } := by
  refine h.of_le (fun _ => le_refl _) (le_refl _) (fun _ => .inl) ?_ (fun _ => id) (fun _ => id)
  intro id hmem
  exact .inl (mem_append.2 ((mem_append.1 hmem).imp_left fun hmem => map_subset _ hrest hmem))

lemma IdsInOrder.start (cachedEdgeNodes : List CachedEdgeNode) (mnodeCache : List MasterNode)
    (mnodeStrikes : Strikes) : IdsInOrder (start cachedEdgeNodes mnodeCache mnodeStrikes) where
  uses_le _ := zero_le _
  used _ hne := absurd rfl hne
  sent _ hmem := absurd hmem not_mem_nil
  planned _ hmem := absurd hmem not_mem_nil
  pending _ hmem := absurd hmem not_mem_nil
  rotations _ hmem := absurd hmem not_mem_nil

lemma IdsInOrder.outcome {event : Event} (h : IdsInOrder s)
    (hout : Outcome config clock event s s') : IdsInOrder s' := by
  cases hout with
  | used huse => exact h.useChanges huse
  | refilled | clearedCache => exact ⟨h.1, h.2, h.3, h.4, h.5, h.6⟩
  | checkFailed _ hfind htimer hsame => exact (h.failPending hfind htimer).sameTables hsame
  | activated hfind _ huse =>
    have h := (h.activatePath hfind _).useChanges huse
    exact ⟨h.1, h.2, h.3, h.4, h.5, h.6⟩
  | answered hfail => exact (h.failureChanges hfail).answered _ _ _
  | verified hfail _ _ success timeout =>
    exact ((h.failureChanges hfail).answered _ _ _).verified _ success timeout _
  | @disconnected key _ _ hfail =>
    have h : IdsInOrder (s.dropListeners key) := ⟨h.1, h.2, h.3, h.4, h.5, h.6⟩
    exact h.failureChanges hfail
  | @rotated due rest _ hschedule hturns =>
    refine (h.setSchedule ?_).turns hturns
    rw [hschedule]
    exact subset_append_right due rest
  | retried huse => exact (h.dropTimer _).useChanges huse
  | closed => exact h.closeConnections
  | suspended =>
    refine IdsInOrder.closeConnections ?_
    exact ⟨h.1, h.2, h.3, h.4, h.5, h.6⟩

end Bchat.Network.Router
