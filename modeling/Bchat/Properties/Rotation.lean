import Bchat.Properties.RouterSteps

/-!
# Every path is rotated

An active path is either scheduled for rotation once, or it is being rotated and one pending
rotation has it as the old path. The schedule, the flag of the path and the table of pending
rotations change in different places, so the invariant is about all three. During a turn of the
timer the due entries count as scheduled.
-/

namespace Bchat.Network.Router

open Relation List Rows Function Nat

variable {env : Environment} {config : RouterConfig} {clock : Clock} {s s' : Router}
  {due : List ScheduledRotation}
variable {e : ScheduledRotation} {schedule : List ScheduledRotation} {id newPathId : PathId}
  {rotations : List PendingRotation} {r pending : PendingRotation} {c c' : PathCategory}
  {path : PendingPath} {p : OnionPath}

def scheduledAs (schedule : List ScheduledRotation) (id : PathId) : List PathCategory :=
  (schedule.filter (·.pathId = id)).map (·.category)

def rotatingAs (rotations : List PendingRotation) (id : PathId) : List PathCategory :=
  (rotations.filter (·.oldPathId = id)).map (·.category)

def OnTrack (rotationInProgress : Bool) (scheduled rotating : List PathCategory)
    (c : PathCategory) : Prop :=
  if rotationInProgress then scheduled = [] ∧ rotating = [c] else scheduled = [c] ∧ rotating = []

def inFlight (s : Router) (id : PathId) : Nat := (s.sentRequests.map SentRequest.pathId).count id

/-! ## Entries -/

lemma scheduledAs_cons_self (e : ScheduledRotation) (schedule : List ScheduledRotation) :
    scheduledAs (e :: schedule) e.pathId = e.category :: scheduledAs schedule e.pathId := by
  rw [scheduledAs, filter_cons_of_pos (by simp)]
  rfl

lemma scheduledAs_cons_of_ne (h : e.pathId ≠ id) :
    scheduledAs (e :: schedule) id = scheduledAs schedule id := by
  rw [scheduledAs, filter_cons_of_neg (by simpa using h)]
  rfl

lemma scheduledAs_eq_nil (h : id ∉ schedule.map ScheduledRotation.pathId) :
    scheduledAs schedule id = [] := by
  rw [scheduledAs, map_eq_nil_iff, filter_eq_nil_iff]
  intro e he heq
  exact h (mem_map.2 ⟨e, he, by simpa using heq⟩)

lemma rotatingAs_eq_nil (h : id ∉ rotations.map PendingRotation.oldPathId) :
    rotatingAs rotations id = [] := by
  rw [rotatingAs, map_eq_nil_iff, filter_eq_nil_iff]
  intro r hr heq
  exact h (mem_map.2 ⟨r, hr, by simpa using heq⟩)

lemma scheduledAs_perm {l l' : List ScheduledRotation} (h : l.Perm l') (id : PathId) :
    (scheduledAs l id).Perm (scheduledAs l' id) :=
  (h.filter _).map _

lemma rotatingAs_perm {l l' : List PendingRotation} (h : l.Perm l') (id : PathId) :
    (rotatingAs l id).Perm (rotatingAs l' id) :=
  (h.filter _).map _

lemma rotatingAs_cons_self (r : PendingRotation) (rotations : List PendingRotation) :
    rotatingAs (r :: rotations) r.oldPathId = r.category :: rotatingAs rotations r.oldPathId := by
  rw [rotatingAs, filter_cons_of_pos (by simp)]
  rfl

lemma rotatingAs_cons_of_ne (h : r.oldPathId ≠ id) :
    rotatingAs (r :: rotations) id = rotatingAs rotations id := by
  rw [rotatingAs, filter_cons_of_neg (by simpa using h)]
  rfl

lemma OnTrack.perm {b : Bool} {l l' r r' : List PathCategory} (h : OnTrack b l r c)
    (hl : l'.Perm l) (hr : r'.Perm r) : OnTrack b l' r' c := by
  cases b with
  | false =>
    obtain ⟨rfl, rfl⟩ := h
    exact ⟨perm_singleton.1 hl, perm_nil.1 hr⟩
  | true =>
    obtain ⟨rfl, rfl⟩ := h
    exact ⟨perm_nil.1 hl, perm_singleton.1 hr⟩

/-! ## The invariant -/

structure Rotating (due : List ScheduledRotation) (s : Router) : Prop where
  paths : ∀ c, ∀ p ∈ s.paths c, OnTrack p.rotationInProgress
    (scheduledAs (due ++ s.pathRotationSchedule) p.id) (rotatingAs s.pendingRotationPaths p.id) c
  unmarked : ∀ r ∈ s.pendingRotationPaths, r.newPath.rotationInProgress = false
  verified : ∀ r ∈ s.pendingRotationPaths, s.inFlight r.newPathId ≤ 1

lemma Rotating.of_same (h : Rotating due s) (hplans : SamePlans s s')
    (hpaths : ∀ c, ∀ p ∈ s'.paths c, ∃ q ∈ s.paths c, SamePath q p)
    (hsent : ∀ r ∈ s.pendingRotationPaths, s'.inFlight r.newPathId ≤ s.inFlight r.newPathId) :
    Rotating due s' := by
  refine ⟨fun c p hp => ?_, ?_, ?_⟩
  · obtain ⟨q, hq, hsame⟩ := hpaths c p hp
    rw [hplans.schedule, hplans.rotations, hsame.id, hsame.rotationInProgress]
    exact h.paths c q hq
  · rw [hplans.rotations]
    exact h.unmarked
  · rw [hplans.rotations]
    exact fun r hr => (hsent r hr).trans (h.verified r hr)

lemma Rotating.useChange (h : Rotating due s) (hids : IdsInOrder s)
    (hchange : UseChange config s s') : Rotating due s' := by
  refine h.of_same hchange.samePlans (fun c p hp => hchange.mem_paths hp) ?_
  intro r hr
  cases hchange with
  | build hbuild => rw [inFlight, hbuild.onlyPending.sent, inFlight]
  | @send c index path request hget _ =>
    -- the new path of a rotation is not active, so nothing else is sent on it
    have hne : path.id ≠ r.newPathId := by
      intro heq
      have hpath : IsPathId s path.id := ⟨c, .inl (mem_map_of_mem (mem_of_getElem? hget))⟩
      refine (hpath.notMem hids.uses_le).2 ?_
      rw [heq]
      exact mem_map_of_mem hr
    have hcount := count_append SentRequest.pathId s.sentRequests
      ⟨path.id, path.nodes, request, none⟩ r.newPathId
    rw [if_neg hne] at hcount
    exact le_of_eq hcount

lemma Rotating.useChanges (h : Rotating due s) (hids : IdsInOrder s)
    (hchanges : UseChanges config s s') : Rotating due s' := by
  have hboth : IdsInOrder s' ∧ Rotating due s' := by
    induction hchanges with
    | refl => exact ⟨hids, h⟩
    | tail _ hchange ih => exact ⟨ih.1.useChange hchange, ih.2.useChange ih.1 hchange⟩
  exact hboth.2

lemma Rotating.failureChanges (h : Rotating due s) (hchanges : FailureChanges config s s') :
    Rotating due s' := by
  refine h.of_same hchanges.samePlans (fun c p hp => ?_) fun r _ => ?_
  · obtain ⟨q, hq, hsame, -⟩ := hchanges.mem_paths hp
    exact ⟨q, hq, hsame⟩
  · rw [inFlight, hchanges.sent, inFlight]

/-! ## Schedules -/

lemma scheduledAs_schedulePathRotation (due : List ScheduledRotation) (s : Router)
    (pathId : PathId) (c : PathCategory) (rotateAt : Int) (id : PathId) :
    (scheduledAs (due ++ (s.schedulePathRotation pathId c rotateAt).pathRotationSchedule) id).Perm
      (scheduledAs (⟨rotateAt, pathId, c⟩ :: (due ++ s.pathRotationSchedule)) id) := by
  refine scheduledAs_perm ?_ id
  refine ((perm_orderedInsert _ _ _).append_left due).trans ?_
  exact perm_middle

section

variable (h : IdsInOrder s) (hfind : Rows.find PendingPath.id path.id s.pendingPaths = some path)

include h hfind

lemma IdsInOrder.pending_unplanned : scheduledAs s.pathRotationSchedule path.id = [] ∧
      rotatingAs s.pendingRotationPaths path.id = [] := by
  have hmem : path.id ∈ s.pendingPaths.map PendingPath.id ++ s.retryTimers.map RetryTimer.pathId :=
    mem_append_left _ (mem_map_of_mem (find_mem hfind))
  have hplanned := (h.pending _ hmem).2.1
  rw [Router.planned, mem_append, not_or] at hplanned
  exact ⟨scheduledAs_eq_nil hplanned.1, rotatingAs_eq_nil hplanned.2⟩

lemma IdsInOrder.ne_pending (hp : p ∈ s.paths c) : p.id ≠ path.id := by
  intro heq
  have hpath : IsPathId s p.id := ⟨c, .inl (mem_map_of_mem hp)⟩
  refine (hpath.notMem h.uses_le).1 (mem_append_left _ ?_)
  rw [heq]
  exact mem_map_of_mem (find_mem hfind)

end

lemma mem_activatePath (h : p ∈ (activatePath config clock c path s).paths c') :
    p ∈ s.paths c' ∨ c' = c ∧ p = path.activeAt clock.system := by
  by_cases hc : c' = c
  · subst hc
    rw [activatePath_paths_self, mem_append, mem_singleton] at h
    exact h.imp_right fun h => ⟨rfl, h⟩
  · rw [activatePath_paths_of_ne _ _ hc] at h
    exact .inl h

lemma Rotating.activatePath (h : Rotating [] s) (hids : IdsInOrder s)
    (hfind : find PendingPath.id path.id s.pendingPaths = some path) (c : PathCategory) :
    Rotating [] (activatePath config clock c path (s.failPending path.id none)) := by
  refine ⟨fun c' p hp => ?_, h.unmarked, h.verified⟩
  have hperm := scheduledAs_schedulePathRotation [] s path.id c
    (clock.steady + config.pathRotationFrequency) p.id
  rcases mem_activatePath hp with hold | ⟨rfl, rfl⟩
  · rw [scheduledAs_cons_of_ne (hids.ne_pending hfind hold).symm] at hperm
    exact (h.paths c' p hold).perm hperm (.refl _)
  obtain ⟨hsched, hrot⟩ := hids.pending_unplanned hfind
  have hself := scheduledAs_cons_self
    ⟨clock.steady + config.pathRotationFrequency, path.id, c'⟩ s.pathRotationSchedule
  rw [hsched] at hself
  exact ⟨perm_singleton.1 (hperm.trans (.of_eq hself)), hrot⟩

/-! ## Responses -/

lemma decrementAndCleanupPath_samePlans (pathId : PathId) (c : PathCategory) (s : Router) :
    SamePlans s (s.decrementAndCleanupPath pathId c) := by
  obtain ⟨paths, dying, listeners, h⟩ := decrementAndCleanupPath_eq pathId c s
  rw [h]
  exact ⟨rfl, rfl, rfl, le_refl _⟩

lemma mem_decrementAndCleanupPath {pathId : PathId}
    (h : p ∈ (s.decrementAndCleanupPath pathId c).paths c') : ∃ q ∈ s.paths c', SamePath q p := by
  rcases decrementAndCleanupPath_cases pathId c s with
    ⟨path, -, heq⟩ | ⟨-, -, heq⟩ | ⟨-, path, -, ⟨-, heq⟩ | ⟨-, heq⟩⟩
  · rw [heq] at h
    rcases mem_of_mem_modifyPath h with h | ⟨rfl, q, hq, rfl⟩
    · exact ⟨p, h, .refl p⟩
    · exact ⟨q, find_mem hq, ⟨rfl, rfl, rfl, rfl, rfl, rfl⟩⟩
  all_goals
    rw [heq] at h
    exact ⟨p, h, .refl p⟩

lemma decrementAndCleanupPath_sent (pathId : PathId) (c : PathCategory) (s : Router) :
    (s.decrementAndCleanupPath pathId c).sentRequests = s.sentRequests := by
  obtain ⟨paths, dying, listeners, h⟩ := decrementAndCleanupPath_eq pathId c s
  rw [h]

lemma answered_sent (s : Router) (sent : SentRequest) (index : Nat) :
    (s.answered sent index).sentRequests = s.sentRequests.eraseIdx index := by
  rw [answered, forgetSent, decrementAndCleanupPath_sent]

lemma Rotating.answered (h : Rotating due s) (sent : SentRequest) (index : Nat) :
    Rotating due (s.answered sent index) := by
  have hplans := decrementAndCleanupPath_samePlans sent.pathId
    (toPathCategory sent.request.category) s
  refine h.of_same ⟨hplans.schedule, hplans.rotations, hplans.file, hplans.ids⟩
    (fun c p hp => mem_decrementAndCleanupPath hp) fun r _ => ?_
  rw [inFlight, answered_sent, inFlight]
  exact ((eraseIdx_sublist s.sentRequests index).map SentRequest.pathId).count_le _

/-! ## One path off track -/

structure OffTrack (due : List ScheduledRotation) (id : PathId) (s : Router) : Prop where
  paths : ∀ c, ∀ p ∈ s.paths c, p.id ≠ id → OnTrack p.rotationInProgress
    (scheduledAs (due ++ s.pathRotationSchedule) p.id) (rotatingAs s.pendingRotationPaths p.id) c
  unscheduled : scheduledAs (due ++ s.pathRotationSchedule) id = []
  resting : rotatingAs s.pendingRotationPaths id = []
  unmarked : ∀ r ∈ s.pendingRotationPaths, r.newPath.rotationInProgress = false
  verified : ∀ r ∈ s.pendingRotationPaths, s.inFlight r.newPathId ≤ 1

lemma Rotating.offTrack_of_due (h : Rotating (e :: due) s) {path : OnionPath}
    (hpath : path ∈ s.paths e.category) (hid : path.id = e.pathId)
    (hflag : path.rotationInProgress = false) : OffTrack due e.pathId s := by
  have htrack := h.paths e.category path hpath
  rw [hflag, hid, cons_append, scheduledAs_cons_self] at htrack
  refine ⟨fun c p hp hne => ?_, (cons_eq_cons.1 htrack.1).2, htrack.2, h.unmarked, h.verified⟩
  have hother := h.paths c p hp
  rwa [cons_append, scheduledAs_cons_of_ne hne.symm] at hother

lemma perm_takeRotation
    (hfind : find PendingRotation.newPathId newPathId s.pendingRotationPaths = some pending)
    (id : PathId) : (rotatingAs s.pendingRotationPaths id).Perm
      (rotatingAs (pending :: (s.takeRotation newPathId).pendingRotationPaths) id) :=
  rotatingAs_perm (perm_cons_erase hfind) id

lemma Rotating.offTrack_of_taken (h : Rotating due s)
    (hfind : find PendingRotation.newPathId newPathId s.pendingRotationPaths = some pending)
    {path : OnionPath} (hpath : path ∈ s.paths c) (hid : path.id = pending.oldPathId) :
    c = pending.category ∧ OffTrack due pending.oldPathId (s.takeRotation newPathId) := by
  have htrack := h.paths c path hpath
  have hperm := perm_takeRotation hfind pending.oldPathId
  rw [rotatingAs_cons_self] at hperm
  rw [hid] at htrack
  -- a path with a pending rotation is marked
  have hmarked : scheduledAs (due ++ s.pathRotationSchedule) pending.oldPathId = [] ∧
      rotatingAs s.pendingRotationPaths pending.oldPathId = [c] := by
    cases hflag : path.rotationInProgress with
    | true =>
      rw [hflag] at htrack
      exact htrack
    | false =>
      rw [hflag] at htrack
      rw [htrack.2] at hperm
      exact (not_perm_cons_nil hperm.symm).elim
  rw [hmarked.2] at hperm
  have hsingle := perm_singleton.1 hperm.symm
  obtain ⟨hc, hrest⟩ := cons_eq_cons.1 hsingle
  refine ⟨hc.symm, fun c' p hp hne => ?_, hmarked.1, hrest, ?_, ?_⟩
  · have hother := perm_takeRotation hfind p.id
    rw [rotatingAs_cons_of_ne hne.symm] at hother
    exact (h.paths c' p hp).perm (.refl _) hother.symm
  · exact fun r hr => h.unmarked r (erase_sublist.subset hr)
  · exact fun r hr => h.verified r (erase_sublist.subset hr)

lemma IdsInOrder.uniqueIds (h : IdsInOrder s) : UniqueIds s := by
  refine nodup_iff_count_le_one.2 fun id => ?_
  have hle := h.uses_le id
  rw [uses] at hle
  rw [map_append, List.count_append]
  omega

lemma OffTrack.postponeRotation (h : OffTrack due id s) (hids : UniqueIds s) {path : OnionPath}
    (hfind : s.findPath c id = some path) : Rotating due (postponeRotation clock c id s) := by
  refine ⟨fun c' p hp => ?_, h.unmarked, h.verified⟩
  have hperm := scheduledAs_schedulePathRotation due s id c (clock.steady + oneMinute) p.id
  rcases (mem_modifyPath hids hfind).1 hp with ⟨hold, hne⟩ | ⟨rfl, rfl⟩
  · rw [scheduledAs_cons_of_ne hne.symm] at hperm
    exact (h.paths c' p hold hne).perm hperm (.refl _)
  obtain rfl : path.id = id := find_key hfind
  have hself := scheduledAs_cons_self ⟨clock.steady + oneMinute, path.id, c'⟩
    (due ++ s.pathRotationSchedule)
  rw [h.unscheduled] at hself
  exact ⟨perm_singleton.1 (hperm.trans (.of_eq hself)), h.resting⟩

lemma OffTrack.recordVerification (h : OffTrack due e.pathId s) (hids : IdsInOrder s)
    {path : OnionPath} (hfind : s.findPath e.category e.pathId = some path)
    (nodes : List MasterNode) (request : Request) (rotateAt : Int) :
    Rotating due ((markRotating e s).idMade.recordVerification (rotationOf clock s e path nodes)
      request rotateAt) := by
  set r := rotationOf clock s e path nodes
  set t := (markRotating e s).idMade.recordVerification r request rotateAt with ht
  have hperm : ∀ id, (rotatingAs t.pendingRotationPaths id).Perm
      (rotatingAs (verifying r :: s.pendingRotationPaths) id) := by
    intro id
    exact rotatingAs_perm perm_append_comm id
  have hsent : ∀ id, t.inFlight id =
      s.inFlight id + if (⟨.rotation, s.uniqueIds⟩ : PathId) = id then 1 else 0 :=
    fun id => count_append SentRequest.pathId s.sentRequests _ id
  refine ⟨fun c p hp => ?_, fun r hr => ?_, fun r hr => ?_⟩
  · have hperm := hperm p.id
    rcases (mem_modifyPath hids.uniqueIds hfind).1 hp with ⟨hold, hne⟩ | ⟨rfl, rfl⟩
    · rw [rotatingAs_cons_of_ne hne.symm] at hperm
      exact (h.paths c p hold hne).perm (.refl _) hperm
    have hid : path.id = e.pathId := find_key hfind
    have hself := rotatingAs_cons_self (verifying r) s.pendingRotationPaths
    have hrest : rotatingAs s.pendingRotationPaths (verifying r).oldPathId = [] := h.resting
    rw [hrest] at hself
    refine ⟨?_, perm_singleton.1 (hperm.trans (.of_eq ?_))⟩
    · rw [hid]
      exact h.unscheduled
    · rw [hid]
      exact hself
  · rcases mem_append.1 hr with hr | hr
    · exact h.unmarked r hr
    · rw [mem_singleton.1 hr]
      rfl
  rw [hsent]
  rcases mem_append.1 hr with hr | hr
  · have hlt := hids.newPathId_lt _ (mem_map_of_mem hr)
    rw [if_neg (fun heq => by rw [← heq] at hlt; exact absurd hlt (lt_irrefl _))]
    exact h.verified r hr
  -- nothing was sent under an id that is made only now
  have hnone : s.inFlight r.newPathId = 0 := by
    refine count_eq_zero_of_not_mem fun hmem => ?_
    rw [mem_singleton.1 hr] at hmem
    exact absurd (hids.sent _ hmem) (lt_irrefl _)
  rw [hnone]
  split <;> decide

lemma Rotating.turn (h : Rotating (e :: due) s) (hids : IdsInOrder s)
    (hturn : Turn config clock e s s') : Rotating due s' := by
  cases hturn with
  | skip hskip =>
    refine ⟨fun c p hp => ?_, h.unmarked, h.verified⟩
    have htrack := h.paths c p hp
    rw [cons_append] at htrack
    -- a path that is scheduled is found and is not marked
    have hne : e.pathId ≠ p.id := by
      intro hid
      rw [← hid, scheduledAs_cons_self] at htrack
      cases hflag : p.rotationInProgress with
      | true =>
        rw [hflag] at htrack
        exact absurd htrack.1 (cons_ne_nil _ _)
      | false =>
        rw [hflag] at htrack
        obtain rfl := (cons_eq_cons.1 htrack.1).1
        have hfind : s.findPath e.category e.pathId = some p :=
          (find_eq_some (hids.uniqueIds.nodup _)).2 ⟨hp, hid.symm⟩
        rw [hskip p hfind] at hflag
        cases hflag
    rwa [scheduledAs_cons_of_ne hne] at htrack
  | postpone hfind hflag hsame =>
    have hoff := h.offTrack_of_due (find_mem hfind) (find_key hfind) hflag
    refine (hoff.postponeRotation hids.uniqueIds hfind).of_same hsame.onlyPending.toSamePlans ?_ ?_
    · intro c p hp
      rw [hsame.paths] at hp
      exact ⟨p, hp, .refl p⟩
    · intro r _
      rw [inFlight, hsame.sent, inFlight]
  | @start _ path nodes request hfind hflag _ _ hsame =>
    have hoff := h.offTrack_of_due (find_mem hfind) (find_key hfind) hflag
    refine (hoff.recordVerification hids hfind nodes request _).of_same
      hsame.onlyPending.toSamePlans ?_ ?_
    · intro c p hp
      rw [hsame.paths] at hp
      exact ⟨p, hp, .refl p⟩
    · intro r _
      rw [inFlight, hsame.sent, inFlight]

lemma Rotating.turns (h : Rotating due s) (hids : IdsInOrder s)
    (hturns : Turns config clock due s s') : Rotating [] s' := by
  induction hturns with
  | nil => exact h
  | cons hturn _ ih => exact ih (h.turn hids hturn) (hids.turn hturn)

/-! ## The end of a rotation -/

lemma mem_completeRotation {oldPath : OnionPath} {rotateAt : Int}
    (hnodup : ((s.paths pending.category ++ [pending.newPath]).map OnionPath.id).Nodup)
    (h : p ∈ (completeRotation pending oldPath rotateAt s).paths c) :
    (p ∈ s.paths c ∧ (c = pending.category → p.id ≠ oldPath.id)) ∨
      c = pending.category ∧ p = pending.newPath := by
  by_cases hc : c = pending.category
  · subst hc
    rw [completeRotation, retirePath_paths_self] at h
    dsimp only at h
    rw [update_self] at h
    obtain ⟨hmem, hne⟩ := (mem_erase hnodup).1 h
    rw [mem_append, mem_singleton] at hmem
    exact hmem.imp (fun hmem => ⟨hmem, fun _ => hne⟩) fun hmem => ⟨rfl, hmem⟩
  rw [completeRotation, retirePath_paths_of_ne _ _ _ hc] at h
  dsimp only at h
  rw [update_of_ne hc] at h
  exact .inl ⟨h, fun heq => absurd heq hc⟩

lemma IdsInOrder.ne_newPathId (h : IdsInOrder s) (hr : r ∈ s.pendingRotationPaths)
    (hp : p ∈ s.paths c) : p.id ≠ r.newPathId := by
  intro heq
  have hpath : IsPathId s p.id := ⟨c, .inl (mem_map_of_mem hp)⟩
  refine (hpath.notMem h.uses_le).2 ?_
  rw [heq]
  exact mem_map_of_mem hr

lemma IdsInOrder.nodup_append_newPath (h : IdsInOrder s) (hr : r ∈ s.pendingRotationPaths)
    (c : PathCategory) : ((s.paths c ++ [r.newPath]).map OnionPath.id).Nodup := by
  rw [map_append, map_singleton]
  refine (h.uniqueIds.nodup c).append (nodup_singleton _) ?_
  intro id hid hnew
  obtain ⟨p, hp, rfl⟩ := mem_map.1 hid
  exact h.ne_newPathId hr hp (mem_singleton.1 hnew)

lemma Rotating.verified_response (h : Rotating [] s) (hids : IdsInOrder s) (pathId : PathId)
    (success timeout : Bool) (rotateAt : Int) :
    Rotating [] (onRotationVerificationResponse clock pathId success timeout rotateAt s) := by
  rcases onRotationVerificationResponse_cases clock pathId success timeout rotateAt s with
    ⟨-, heq⟩ | ⟨pending, hpending, ⟨hgone, heq⟩ | ⟨oldPath, hold, heq | heq⟩⟩
  · rw [heq]
    exact h
  · -- the old path is gone, so no active path loses its rotation
    rw [heq]
    refine ⟨fun c p hp => ?_, ?_, ?_⟩
    · have hne : p.id ≠ pending.oldPathId := by
        intro hid
        obtain ⟨rfl, -⟩ := h.offTrack_of_taken hpending hp hid
        refine absurd (find_eq_none.1 hgone) (not_not.2 ?_)
        rw [← hid]
        exact mem_map_of_mem hp
      have hperm := perm_takeRotation hpending p.id
      rw [rotatingAs_cons_of_ne hne.symm] at hperm
      exact (h.paths c p hp).perm (.refl _) hperm.symm
    · exact fun r hr => h.unmarked r (erase_sublist.subset hr)
    · exact fun r hr => h.verified r (erase_sublist.subset hr)
  · rw [heq]
    obtain ⟨-, hoff⟩ := h.offTrack_of_taken hpending (find_mem hold) (find_key hold)
    exact hoff.postponeRotation hids.uniqueIds hold
  rw [heq]
  have hid : oldPath.id = pending.oldPathId := find_key hold
  obtain ⟨-, hoff⟩ := h.offTrack_of_taken hpending (find_mem hold) hid
  have hmem := find_mem hpending
  have hnodup := hids.nodup_append_newPath hmem pending.category
  refine ⟨fun c p hp => ?_, hoff.unmarked, hoff.verified⟩
  have hperm := scheduledAs_schedulePathRotation [] (s.takeRotation pathId) pending.newPathId
    pending.category rotateAt p.id
  rcases mem_completeRotation (s := s.takeRotation pathId) hnodup hp with
    ⟨hkept, hne⟩ | ⟨rfl, rfl⟩
  · have hne' : p.id ≠ pending.oldPathId := by
      intro heq'
      have hc := hids.uniqueIds.category_eq hkept (find_mem hold) (heq'.trans hid.symm)
      exact hne hc (heq'.trans hid.symm)
    rw [scheduledAs_cons_of_ne (hids.ne_newPathId hmem hkept).symm] at hperm
    exact (hoff.paths c p hkept hne').perm hperm (.refl _)
  have hplanned := (hids.rotations _ (mem_map_of_mem hmem)).1
  rw [planned, mem_append, not_or] at hplanned
  have hself := scheduledAs_cons_self ⟨rotateAt, pending.newPathId, pending.category⟩
    s.pathRotationSchedule
  rw [scheduledAs_eq_nil hplanned.1] at hself
  have hresting : rotatingAs (s.takeRotation pathId).pendingRotationPaths
      pending.newPathId = [] := by
    refine rotatingAs_eq_nil fun hin => hplanned.2 ?_
    exact (Rows.erase_sublist.map PendingRotation.oldPathId).subset hin
  rw [h.unmarked pending hmem]
  exact ⟨perm_singleton.1 (hperm.trans (.of_eq hself)), hresting⟩

/-! ## Runs -/

lemma Rotating.outcome {event : Event} (h : Rotating [] s) (hids : IdsInOrder s)
    (hout : Outcome config clock event s s') : Rotating [] s' := by
  cases hout with
  | used huse => exact h.useChanges hids huse
  | refilled | clearedCache => exact ⟨h.paths, h.unmarked, h.verified⟩
  | checkFailed _ _ _ hsame =>
    have hplans : SamePlans s s' := ⟨hsame.schedule, hsame.rotations, hsame.file, hsame.ids⟩
    refine h.of_same hplans (fun c p hp => ?_) fun r _ => ?_
    · rw [hsame.paths] at hp
      exact ⟨p, hp, .refl p⟩
    · rw [inFlight, hsame.sent]
      exact le_refl _
  | @activated path c key t hfind _ huse =>
    have hactive := (h.activatePath hids hfind c).useChanges (hids.activatePath hfind c) huse
    exact ⟨hactive.paths, hactive.unmarked, hactive.verified⟩
  | answered hfail => exact (h.failureChanges hfail).answered _ _
  | verified hfail _ _ success timeout =>
    exact ((h.failureChanges hfail).answered _ _).verified_response
      ((hids.failureChanges hfail).answered _ _ _) _ success timeout _
  | @disconnected key _ _ hfail =>
    have hdropped : Rotating [] (s.dropListeners key) := ⟨h.paths, h.unmarked, h.verified⟩
    exact hdropped.failureChanges hfail
  | @rotated due rest _ hschedule hturns =>
    have hdue : Rotating due { s with pathRotationSchedule := rest } := by
      refine ⟨fun c p hp => ?_, h.unmarked, h.verified⟩
      have htrack := h.paths c p hp
      rwa [hschedule] at htrack
    refine hdue.turns (hids.setSchedule ?_) hturns
    rw [hschedule]
    exact subset_append_right due rest
  | @retried index _ huse =>
    have hdropped : Rotating [] (s.dropTimer index) := ⟨h.paths, h.unmarked, h.verified⟩
    exact hdropped.useChanges (hids.dropTimer index) huse
  | closed | suspended =>
    exact ⟨fun _ _ hp => absurd hp not_mem_nil, fun _ hr => absurd hr not_mem_nil,
      fun _ hr => absurd hr not_mem_nil⟩

lemma Rotating.start (cachedEdgeNodes : List CachedEdgeNode) (mnodeCache : List MasterNode)
    (mnodeStrikes : Strikes) : Rotating [] (start cachedEdgeNodes mnodeCache mnodeStrikes) :=
  ⟨fun _ _ hp => absurd hp not_mem_nil, fun _ hr => absurd hr not_mem_nil,
    fun _ hr => absurd hr not_mem_nil⟩

/-! ## The number of paths -/

lemma FailureChanges.length_paths_le (h : FailureChanges config s s') (c : PathCategory) :
    (s'.paths c).length ≤ (s.paths c).length := by
  induction h with
  | refl => exact le_refl _
  | @tail t u _ h ih =>
    refine le_trans ?_ ih
    have hmodify : ∀ c' id f, ((t.modifyPath c' id f).paths c).length = (t.paths c).length := by
      intro c' id f
      by_cases hc : c = c'
      · subst hc
        rw [modifyPath_paths_self, Rows.length_modify]
      · rw [modifyPath_paths_of_ne t hc]
    cases h with
    | build hbuild => rw [hbuild.onlyPending.paths]
    | strike c' id count => exact le_of_eq (hmodify c' id _)
    | @repair c' path => exact le_of_eq (hmodify c' path.id _)
    | @retire c' path =>
      by_cases hc : c = c'
      · subst hc
        rw [retirePath_paths_self]
        exact erase_sublist.length_le
      · rw [retirePath_paths_of_ne _ _ _ hc]
        exact le_refl _

lemma length_decrementAndCleanupPath (pathId : PathId) (c c' : PathCategory) (s : Router) :
    ((s.decrementAndCleanupPath pathId c).paths c').length = (s.paths c').length := by
  rcases decrementAndCleanupPath_cases pathId c s with
    ⟨path, -, heq⟩ | ⟨-, -, heq⟩ | ⟨-, path, -, ⟨-, heq⟩ | ⟨-, heq⟩⟩
  · rw [heq]
    by_cases hc : c' = c
    · subst hc
      rw [modifyPath_paths_self, Rows.length_modify]
    · rw [modifyPath_paths_of_ne s hc]
  · rw [heq]
  · rw [heq]
    rfl
  · rw [heq]

lemma length_verified_le (clock : Clock) (pathId : PathId) (success timeout : Bool)
    (rotateAt : Int) (s : Router) (c : PathCategory) :
    ((onRotationVerificationResponse clock pathId success timeout rotateAt s).paths c).length ≤
      (s.paths c).length := by
  rcases onRotationVerificationResponse_cases clock pathId success timeout rotateAt s with
    ⟨-, heq⟩ | ⟨pending, -, ⟨-, heq⟩ | ⟨oldPath, hold, heq | heq⟩⟩
  · rw [heq]
  · rw [heq]
    exact le_refl _
  · rw [heq]
    by_cases hc : c = pending.category
    · subst hc
      exact le_of_eq (by
        rw [postponeRotation, schedulePathRotation]
        rw [modifyPath_paths_self, Rows.length_modify]
        rfl)
    · refine le_of_eq (congrArg length ?_)
      exact modifyPath_paths_of_ne (s.takeRotation pathId) hc _ _
  rw [heq, completeRotation]
  by_cases hc : c = pending.category
  · subst hc
    rw [retirePath_paths_self]
    dsimp only
    rw [update_self]
    have hfind : find OnionPath.id oldPath.id
        (s.paths pending.category ++ [pending.newPath]) = some oldPath := by
      rw [find_key hold]
      exact find_append hold
    have hlength := (perm_cons_erase hfind).length_eq
    rw [length_append, length_singleton, length_cons] at hlength
    exact le_of_eq (succ.inj hlength).symm
  rw [retirePath_paths_of_ne _ _ _ hc]
  dsimp only
  rw [update_of_ne hc]
  exact le_refl _

lemma length_answerRequest_le (hids : IdsInOrder s) (index : Nat) (answer : TransportResponse)
    (c : PathCategory) :
    ((answerRequest env config clock index answer s).paths c).length ≤ (s.paths c).length := by
  rw [answerRequest]
  cases s.sentRequests[index]? with
  | none => exact le_refl _
  | some sent =>
    dsimp only
    have hhandled : ((handleTransportResponse env config clock sent.pathId sent.request
        (decryptResponse env sent answer) s).paths c).length ≤ (s.paths c).length := by
      rw [handleTransportResponse, length_decrementAndCleanupPath]
      split
      · exact FailureChanges.length_paths_le (fails_handleError hids _ _ _ _) c
      · exact le_refl _
    cases sent.rotateAt with
    | none => exact hhandled
    | some rotateAt => exact (length_verified_le clock _ _ _ _ _ c).trans hhandled

/-- Every active path is scheduled for rotation once or is being rotated once; a pending rotation
has at most one verification on the way; and no response leaves more active paths than there were.
-/
structure RotationsInOrder (env : Environment) (config : RouterConfig) (s : Router) : Prop where
  paths : ∀ c, ∀ p ∈ s.paths c, OnTrack p.rotationInProgress
    (scheduledAs s.pathRotationSchedule p.id) (rotatingAs s.pendingRotationPaths p.id) c
  verifications : ∀ r ∈ s.pendingRotationPaths, s.inFlight r.newPathId ≤ 1
  count : ∀ clock index answer c, ((step env config clock s (.transportResponse index
    answer)).paths c).length ≤ (s.paths c).length

/-- No path escapes rotation, in any run with fewer than `2 ^ 32` ids: the source counts them in 32
bits. What the source does after it used a dangling
path (`usedDanglingPath`) is undefined; of such runs the statement is about the model only. -/
theorem no_path_escapes_rotation (env : Environment) (config : RouterConfig)
    (cachedEdgeNodes : List CachedEdgeNode) (mnodeCache : List MasterNode) (mnodeStrikes : Strikes)
    (events : List (Clock × Event)) : RotationsInOrder env config
      (run env config (start cachedEdgeNodes mnodeCache mnodeStrikes) events) := by
  obtain ⟨hids, hrot⟩ := run_invariant env config (Rotating [])
    (fun _ _ _ _ hids h hout => h.outcome hids hout) (.start _ _ _) (.start _ _ _) events
  exact ⟨hrot.paths, hrot.verified, fun _ index answer c =>
    length_answerRequest_le hids index answer c⟩

end Bchat.Network.Router
