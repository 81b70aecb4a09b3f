import Bchat.Properties.Rotation

/-!
# Since when an edge node is used

`edge_first_connected_at` of a path is to be the time at which its edge node started to be used. A
history of the run records that time, and whether a rotation replaced an edge node on the way: it
copies the time of the old path in any case.
-/

namespace Bchat.Network.Router

open Relation List Rows

variable {env : Environment} {config : RouterConfig} {clock : Clock} {s s' : Router}
variable {c : PathCategory} {p : OnionPath} {e : ScheduledRotation} {due : List ScheduledRotation}
  {event : Event} {entry : MasterNode × Int}

/-! ## Histories -/

/-- Since when the edge node of a path is used, and whether a rotation replaced an edge node before
or with it. -/
structure EdgeUse where
  since : Int
  replaced : Bool
  deriving DecidableEq, Repr

/-- The history after an event. A pending path starts to use its edge node when it becomes active,
unless that is a cached one; the new path of a rotation goes on with that of the old path, or starts
to use another one when it is created. -/
def edgeUseAfter (clock : Clock) (s : Router) (history : PathId → EdgeUse) (id : PathId) :
    EdgeUse :=
  match Rows.find PendingPath.id id s.pendingPaths with
  | some pending => ⟨pending.edgeNodeFirstConnectionAt.getD clock.system, false⟩
  | none =>
    match Rows.find PendingRotation.newPathId id s.pendingRotationPaths with
    | some rotation =>
      if rotation.newPath.edgeKey =
          (s.findPath rotation.category rotation.oldPathId).bind OnionPath.edgeKey then
        history rotation.oldPathId
      else ⟨rotation.newPath.createdAt, true⟩
    | none => history id

def trace (env : Environment) (config : RouterConfig) (s : Router)
    (events : List (Clock × Event)) : Router × (PathId → EdgeUse) :=
  events.foldl (fun t e => (step env config e.1 t.1 e.2, edgeUseAfter e.1 t.1 t.2))
    (s, fun _ => ⟨0, false⟩)

/-- The time of a path fits its history: it is the recorded one, or earlier if an edge node was
replaced. -/
def EdgeUse.Fits (use : EdgeUse) (time : Int) : Prop :=
  if use.replaced then time < use.since else time = use.since

/-! ## Where paths come from -/

inductive Origin (clock : Clock) (s : Router) (c : PathCategory) (p : OnionPath) : Prop
  | active {q : OnionPath} (hq : q ∈ s.paths c) (hid : p.id = q.id)
      (hfirst : p.edgeFirstConnectedAt = q.edgeFirstConnectedAt) (hkey : p.edgeKey = q.edgeKey)
  | pending {path : PendingPath}
      (hfind : Rows.find PendingPath.id path.id s.pendingPaths = some path) (hid : p.id = path.id)
      (hfirst : p.edgeFirstConnectedAt = path.edgeNodeFirstConnectionAt.getD clock.system)
  | rotation {r : PendingRotation} {old : OnionPath}
      (hfind : Rows.find PendingRotation.newPathId r.newPathId s.pendingRotationPaths = some r)
      (hp : p = r.newPath) (hold : old ∈ s.paths r.category) (hid : old.id = r.oldPathId)

lemma SamePath.origin {q : OnionPath} (h : SamePath q p) (hq : q ∈ s.paths c) :
    Origin clock s c p :=
  .active hq h.id h.edgeFirstConnectedAt h.edgeKey

lemma Turn.mem_paths (h : Turn config clock e s s') (hp : p ∈ s'.paths c) :
    ∃ q ∈ s.paths c, p.id = q.id ∧ p.edgeFirstConnectedAt = q.edgeFirstConnectedAt ∧
      p.edgeKey = q.edgeKey := by
  cases h with
  | skip => exact ⟨p, hp, rfl, rfl, rfl⟩
  | postpone _ _ hsame | start _ _ _ _ hsame =>
    rw [hsame.paths] at hp
    rcases mem_of_mem_modifyPath hp with hp | ⟨rfl, q, hq, rfl⟩
    · exact ⟨p, hp, rfl, rfl, rfl⟩
    · exact ⟨q, find_mem hq, rfl, rfl, rfl⟩

lemma Turns.mem_paths (h : Turns config clock due s s') (hp : p ∈ s'.paths c) :
    ∃ q ∈ s.paths c, p.id = q.id ∧ p.edgeFirstConnectedAt = q.edgeFirstConnectedAt ∧
      p.edgeKey = q.edgeKey := by
  induction h with
  | nil => exact ⟨p, hp, rfl, rfl, rfl⟩
  | cons hturn _ ih =>
    obtain ⟨q, hq, hid, hfirst, hkey⟩ := ih hp
    obtain ⟨r, hr, hid', hfirst', hkey'⟩ := hturn.mem_paths hq
    exact ⟨r, hr, hid.trans hid', hfirst.trans hfirst', hkey.trans hkey'⟩

lemma answered_kept {t : Router} (hfail : FailureChanges config s t) (sent : SentRequest)
    (index : Nat) : (t.answered sent index).pendingRotationPaths = s.pendingRotationPaths ∧
      ∀ c, ∀ p ∈ (t.answered sent index).paths c, ∃ q ∈ s.paths c, SamePath q p := by
  have hplans := decrementAndCleanupPath_samePlans sent.pathId
    (toPathCategory sent.request.category) t
  refine ⟨hplans.rotations.trans hfail.samePlans.rotations, fun c p hp => ?_⟩
  obtain ⟨q, hq, hqp⟩ := mem_decrementAndCleanupPath hp
  obtain ⟨r, hr, hrq, -⟩ := hfail.mem_paths hq
  exact ⟨r, hr, hrq.trans hqp⟩

lemma Outcome.origin (hids : IdsInOrder s) (hout : Outcome config clock event s s')
    (hp : p ∈ s'.paths c) : Origin clock s c p := by
  cases hout with
  | used huse | retried huse =>
    obtain ⟨q, hq, hsame⟩ := huse.mem_paths hp
    exact hsame.origin hq
  | refilled | clearedCache => exact .active hp rfl rfl rfl
  | checkFailed _ _ _ hsame =>
    rw [hsame.paths] at hp
    exact .active hp rfl rfl rfl
  | activated hfind _ huse =>
    obtain ⟨q, hq, hsame⟩ := huse.mem_paths hp
    rcases mem_activatePath hq with hq | ⟨rfl, rfl⟩
    · exact hsame.origin hq
    · exact .pending hfind hsame.id hsame.edgeFirstConnectedAt
  | @answered t sent index hfail =>
    obtain ⟨q, hq, hsame⟩ := (answered_kept hfail sent index).2 c p hp
    exact hsame.origin hq
  | @verified t sent index rotateAt hfail hget hsent success timeout =>
    obtain ⟨hrotations, hpaths⟩ := answered_kept hfail sent index
    have hids' := (hids.failureChanges hfail).answered sent.pathId
      (toPathCategory sent.request.category) index
    change IdsInOrder (t.answered sent index) at hids'
    generalize t.answered sent index = u at hrotations hpaths hids' hp
    have hkept : ∀ {c : PathCategory} {p : OnionPath}, p ∈ u.paths c → Origin clock s c p := by
      intro c p hp
      obtain ⟨q, hq, hsame⟩ := hpaths c p hp
      exact hsame.origin hq
    rcases onRotationVerificationResponse_cases clock sent.pathId success timeout rotateAt u with
      ⟨-, heq⟩ | ⟨pending, hpending, ⟨-, heq⟩ | ⟨oldPath, hold, heq | heq⟩⟩ <;> rw [heq] at hp
    · exact hkept hp
    · exact hkept hp
    · rcases mem_of_mem_modifyPath hp with hp | ⟨rfl, q, hq, rfl⟩
      · exact hkept hp
      · obtain ⟨r, hr, hsame⟩ := hpaths _ q (find_mem hq)
        exact .active hr hsame.id hsame.edgeFirstConnectedAt hsame.edgeKey
    have hmem := find_mem hpending
    have hnodup := hids'.nodup_append_newPath hmem pending.category
    rcases mem_completeRotation (s := u.takeRotation sent.pathId) hnodup hp with
      ⟨hp, -⟩ | ⟨rfl, rfl⟩
    · exact hkept hp
    obtain ⟨old, ho, hsame⟩ := hpaths _ oldPath (find_mem hold)
    rw [hrotations, ← find_key hpending] at hpending
    exact .rotation hpending rfl ho (hsame.id.symm.trans (find_key hold))
  | disconnected _ hfail =>
    obtain ⟨q, hq, hsame, -⟩ := hfail.mem_paths hp
    exact hsame.origin hq
  | rotated _ hturns =>
    obtain ⟨q, hq, hid, hfirst, hkey⟩ := hturns.mem_paths hp
    exact .active hq hid hfirst hkey
  | closed | suspended => exact absurd hp not_mem_nil

/-! ## Rotations -/

/-- A pending rotation has the time of its old path, and another edge node only if the old one was
used for the cache duration by that time. -/
def RotationTimes (config : RouterConfig) (s : Router) : Prop :=
  ∀ r ∈ s.pendingRotationPaths, ∀ old ∈ s.paths r.category, old.id = r.oldPathId →
    r.newPath.edgeFirstConnectedAt = old.edgeFirstConnectedAt ∧
    (r.newPath.edgeKey = old.edgeKey ∨
      old.edgeFirstConnectedAt + config.edgeNodeCacheDuration < r.newPath.createdAt)

lemma Replaces.edgeKey {path : OnionPath} {nodes : List MasterNode}
    (h : Replaces config clock s path nodes) (hlength : config.pathLength ≤ nodes.length) :
    nodes.head?.map (·.remotePubkey) = path.edgeKey ∨
      path.edgeFirstConnectedAt + config.edgeNodeCacheDuration < clock.system := by
  cases h with
  | newEdge hexpired => exact .inr hexpired
  | @sameEdge picked hpicked =>
    refine .inl ?_
    rw [OnionPath.edgeKey]
    cases hnodes : path.nodes with
    | cons edge rest => rfl
    | nil =>
      -- without an edge node the length asked for is zero, and nothing is picked
      rw [hnodes, take_nil, nil_append] at hlength
      have hle := hpicked.length_le
      have hnil : picked = [] := eq_nil_of_length_eq_zero (by omega)
      rw [hnil]
      rfl

lemma RotationTimes.turn (h : RotationTimes config s) (hids : IdsInOrder s)
    (hturn : Turn config clock e s s') : RotationTimes config s' := by
  have hkeep : ∀ r ∈ s.pendingRotationPaths, ∀ old ∈ s'.paths r.category,
      old.id = r.oldPathId → r.newPath.edgeFirstConnectedAt = old.edgeFirstConnectedAt ∧
      (r.newPath.edgeKey = old.edgeKey ∨
        old.edgeFirstConnectedAt + config.edgeNodeCacheDuration < r.newPath.createdAt) := by
    intro r hr old hold hid
    obtain ⟨q, hq, hqid, hfirst, hkey⟩ := hturn.mem_paths hold
    rw [hfirst, hkey]
    exact h r hr q hq (hqid.symm.trans hid)
  cases hturn with
  | skip => exact hkeep
  | postpone _ _ hsame =>
    intro r hr
    rw [hsame.rotations] at hr
    exact hkeep r hr
  | @start _ path nodes request hfind _ hnodes hlength hsame =>
    intro r hr old hold hid
    rw [hsame.rotations, recordVerification_rotations] at hr
    rcases mem_append.1 hr with hr | hr
    · exact hkeep r hr old hold hid
    -- the rotation that starts copies the time of its path
    obtain rfl := mem_singleton.1 hr
    rw [hsame.paths] at hold
    rcases (mem_modifyPath hids.uniqueIds hfind).1 hold with ⟨-, hne⟩ | ⟨-, rfl⟩
    · exact absurd hid hne
    · exact ⟨rfl, hnodes.edgeKey hlength⟩

lemma RotationTimes.turns (h : RotationTimes config s) (hids : IdsInOrder s)
    (hturns : Turns config clock due s s') : RotationTimes config s' := by
  induction hturns with
  | nil => exact h
  | cons hturn _ ih => exact ih (h.turn hids hturn) (hids.turn hturn)

lemma onRotationVerificationResponse_rotations (clock : Clock) (pathId : PathId)
    (success timeout : Bool) (rotateAt : Int) (s : Router) :
    (onRotationVerificationResponse clock pathId success timeout rotateAt s).pendingRotationPaths ⊆
      s.pendingRotationPaths := by
  rcases onRotationVerificationResponse_cases clock pathId success timeout rotateAt s with
    ⟨-, heq⟩ | ⟨pending, -, ⟨-, heq⟩ | ⟨oldPath, -, heq | heq⟩⟩
  · rw [heq]
    exact Subset.refl _
  all_goals
    rw [heq]
    exact erase_sublist.subset

lemma RotationTimes.outcome (h : RotationTimes config s) (hids : IdsInOrder s)
    (hout : Outcome config clock event s s') : RotationTimes config s' := by
  -- the old path of a rotation was active before
  have hkeep : s'.pendingRotationPaths ⊆ s.pendingRotationPaths → RotationTimes config s' := by
    intro hsub r hr old hold hid
    have hplanned : r.oldPathId ∈ s.planned := mem_append_right _ (mem_map_of_mem (hsub hr))
    cases hout.origin hids hold with
    | active hq hqid hfirst hkey =>
      rw [hfirst, hkey]
      exact h r (hsub hr) _ hq (hqid.symm.trans hid)
    | @pending path hfind hpid =>
      have hmem : path.id ∈ s.pendingPaths.map PendingPath.id ++
          s.retryTimers.map RetryTimer.pathId :=
        mem_append_left _ (mem_map_of_mem (find_mem hfind))
      exact absurd (by rwa [← hpid, hid]) (hids.pending _ hmem).2.1
    | @rotation r' _ hfind hp =>
      have hmem := mem_map_of_mem (f := PendingRotation.newPathId) (find_mem hfind)
      subst hp
      exact absurd (by rw [PendingRotation.newPathId, hid]; exact hplanned)
        (hids.rotations _ hmem).1
  cases hout with
  | used huse | retried huse => exact hkeep (huse.samePlans.rotations ▸ Subset.refl _)
  | refilled | clearedCache => exact h
  | checkFailed _ _ _ hsame => exact hkeep (hsame.rotations ▸ Subset.refl _)
  | activated _ _ huse =>
    refine hkeep ?_
    have hrotations := huse.samePlans.rotations
    rw [addFailureListener, hrotations]
    exact Subset.refl _
  | @answered t sent index hfail => exact hkeep ((answered_kept hfail sent index).1 ▸ Subset.refl _)
  | @verified t sent index rotateAt hfail _ _ success timeout =>
    refine hkeep (Subset.trans
      (onRotationVerificationResponse_rotations clock sent.pathId success timeout rotateAt _) ?_)
    rw [(answered_kept hfail sent index).1]
    exact Subset.refl _
  | disconnected _ hfail => exact hkeep (hfail.samePlans.rotations ▸ Subset.refl _)
  | @rotated due rest _ hschedule hturns =>
    refine RotationTimes.turns (s := { s with pathRotationSchedule := rest }) h
      (hids.setSchedule ?_) hturns
    rw [hschedule]
    exact subset_append_right due rest
  | closed | suspended => exact fun _ hr => absurd hr not_mem_nil

/-! ## Runs -/

structure Timed (config : RouterConfig) (s : Router) (history : PathId → EdgeUse) : Prop where
  paths : ∀ c, ∀ p ∈ s.paths c, (history p.id).Fits p.edgeFirstConnectedAt
  rotations : RotationTimes config s

lemma edgeUseAfter_of_active (hids : IdsInOrder s) (history : PathId → EdgeUse)
    (hp : p ∈ s.paths c) : edgeUseAfter clock s history p.id = history p.id := by
  have hpath : IsPathId s p.id := ⟨c, .inl (mem_map_of_mem hp)⟩
  obtain ⟨hpending, hrotation⟩ := hpath.notMem hids.uses_le
  rw [mem_append, not_or] at hpending
  rw [edgeUseAfter, find_eq_none.2 hpending.1]
  rw [find_eq_none.2 hrotation]

lemma Timed.outcome {history : PathId → EdgeUse} (h : Timed config s history)
    (hids : IdsInOrder s) (hout : Outcome config clock event s s') :
    Timed config s' (edgeUseAfter clock s history) := by
  refine ⟨fun c p hp => ?_, h.rotations.outcome hids hout⟩
  cases hout.origin hids hp with
  | active hq hid hfirst =>
    rw [hid, hfirst, edgeUseAfter_of_active hids history hq]
    exact h.paths c _ hq
  | pending hfind hid hfirst =>
    rw [hid, hfirst, edgeUseAfter, hfind]
    exact rfl
  | @rotation r old hfind hp hold hid =>
    subst hp
    have hmem := find_mem hfind
    -- the id of the new path is not that of a pending one
    have hpending : find PendingPath.id r.newPathId s.pendingPaths = none := by
      refine find_eq_none.2 fun hin => ?_
      have hlabel := (hids.pending _ (mem_append_left _ hin)).2.2
      exact hlabel (hids.rotations _ (mem_map_of_mem hmem)).2
    have hold' : s.findPath r.category r.oldPathId = some old :=
      (find_eq_some (hids.uniqueIds.nodup _)).2 ⟨hold, hid⟩
    obtain ⟨hfirst, hkey⟩ := h.rotations r hmem old hold hid
    have hfits := h.paths _ old hold
    change (edgeUseAfter clock s history r.newPathId).Fits r.newPath.edgeFirstConnectedAt
    rw [edgeUseAfter, hpending]
    rw [hfind]
    dsimp only
    rw [hold', Option.bind_some, hfirst]
    split
    · rw [← hid]
      exact hfits
    rename_i hne
    have hlt := hkey.resolve_left hne
    show old.edgeFirstConnectedAt < r.newPath.createdAt
    omega

lemma trace_router (env : Environment) (config : RouterConfig) (s : Router)
    (events : List (Clock × Event)) : (trace env config s events).1 = run env config s events :=
  (foldl_hom Prod.fst fun _ _ => rfl).symm

lemma timed_trace (env : Environment) (config : RouterConfig)
    (cachedEdgeNodes : List CachedEdgeNode) (mnodeCache : List MasterNode) (mnodeStrikes : Strikes)
    (events : List (Clock × Event)) :
    Timed config (trace env config (start cachedEdgeNodes mnodeCache mnodeStrikes) events).1
      (trace env config (start cachedEdgeNodes mnodeCache mnodeStrikes) events).2 := by
  refine (Loop.invariant (fun t : Router × (PathId → EdgeUse) =>
    IdsInOrder t.1 ∧ Timed config t.1 t.2) ?_ ⟨.start _ _ _, ?_⟩).2
  · rintro ⟨s, history⟩ ⟨clock, event⟩ _ ⟨hids, h⟩
    have hstep := outcome_step env config clock hids event
    exact ⟨hids.outcome hstep, h.outcome hids hstep⟩
  · exact ⟨fun _ _ hp => absurd hp not_mem_nil, fun _ hr => absurd hr not_mem_nil⟩

/-- The times of the active paths are those at which their edge nodes started to be used. So a
rotation replaces an edge node only after the cache duration, and `suspend` writes these times in
whole seconds. -/
structure EdgeTimesKept (env : Environment) (config : RouterConfig) (s : Router)
    (history : PathId → EdgeUse) : Prop where
  times : ∀ c, ∀ p ∈ s.paths c, p.edgeFirstConnectedAt = (history p.id).since
  replaced : ∀ r ∈ s.pendingRotationPaths, ∀ old ∈ s.paths r.category, old.id = r.oldPathId →
    r.newPath.edgeKey ≠ old.edgeKey →
      (history old.id).since + config.edgeNodeCacheDuration < r.newPath.createdAt
  file : ∀ clock entry, entry ∈ (step env config clock s .suspend).edgeNodeFile ↔
    ∃ c, ∃ p ∈ s.paths c, p.nodes.head? = some entry.1 ∧
      entry.2 = (history p.id).since.tdiv 1000000000

lemma mem_edgeNodeEntry : entry ∈ edgeNodeEntry p ↔
      p.nodes.head? = some entry.1 ∧ entry.2 = p.edgeFirstConnectedAt.tdiv 1000000000 := by
  obtain ⟨node, seconds⟩ := entry
  rw [edgeNodeEntry]
  cases p.nodes with
  | nil => simp
  | cons edge rest => simp [eq_comm]

lemma mem_suspend_file : entry ∈ (suspend env s).edgeNodeFile ↔
      ∃ c, ∃ p ∈ s.paths c, p.nodes.head? = some entry.1 ∧
        entry.2 = p.edgeFirstConnectedAt.tdiv 1000000000 := by
  have hmem : ∀ c, c ∈ env.categoryOrder s.shuffles := by
    intro c
    rw [(env.categoryOrder_perm s.shuffles).mem_iff]
    cases c <;> decide
  change entry ∈ (env.categoryOrder s.shuffles).flatMap (fun c =>
    (s.paths c).flatMap edgeNodeEntry) ↔ _
  simp only [mem_flatMap, mem_edgeNodeEntry, hmem, true_and]

/-- The times are right if and only if no rotation replaced an edge node on the way to an active
path. What the source does after it used a dangling
path (`usedDanglingPath`) is undefined; of such runs the statement is about the model only. -/
theorem edge_times_kept_iff (env : Environment) (config : RouterConfig)
    (cachedEdgeNodes : List CachedEdgeNode) (mnodeCache : List MasterNode) (mnodeStrikes : Strikes)
    (events : List (Clock × Event)) : EdgeTimesKept env config
        (run env config (start cachedEdgeNodes mnodeCache mnodeStrikes) events)
        (trace env config (start cachedEdgeNodes mnodeCache mnodeStrikes) events).2 ↔
      ∀ c, ∀ p ∈ (run env config (start cachedEdgeNodes mnodeCache mnodeStrikes) events).paths c,
        ((trace env config (start cachedEdgeNodes mnodeCache mnodeStrikes) events).2
          p.id).replaced = false := by
  have h := timed_trace env config cachedEdgeNodes mnodeCache mnodeStrikes events
  rw [trace_router] at h
  generalize run env config (start cachedEdgeNodes mnodeCache mnodeStrikes) events = s at h ⊢
  generalize (trace env config (start cachedEdgeNodes mnodeCache mnodeStrikes) events).2 = history
    at h ⊢
  constructor
  · intro hkept c p hp
    cases hreplaced : (history p.id).replaced with
    | false => rfl
    | true =>
      have hfits := h.paths c p hp
      rw [EdgeUse.Fits, if_pos hreplaced, hkept.times c p hp] at hfits
      exact absurd hfits (Int.lt_irrefl _)
  intro hnone
  have htimes : ∀ c, ∀ p ∈ s.paths c, p.edgeFirstConnectedAt = (history p.id).since := by
    intro c p hp
    have hfits := h.paths c p hp
    rwa [EdgeUse.Fits, if_neg (by rw [hnone c p hp]; decide)] at hfits
  refine ⟨htimes, fun r hr old hold hid hne => ?_, fun clock entry => ?_⟩
  · rw [← htimes _ old hold]
    exact (h.rotations r hr old hold hid).2.resolve_left hne
  refine Iff.trans mem_suspend_file ?_
  refine exists_congr fun c => exists_congr fun p => and_congr_right fun hp => ?_
  rw [htimes c p hp]

/-- The sample, with a rotation after the cache duration of the edge node. -/
def lateRotationRun : List (Clock × Event) :=
  rotationRun.take 4 ++
    [(⟨2000, 200⟩, .rotationTimer), (⟨2010, 210⟩, .transportResponse 0 sampleAnswer)]

/-- The new path has a new edge node and the time of the old one. -/
theorem edge_time_of_old_node : ¬ EdgeTimesKept .plain sampleRouterConfig
      (run .plain sampleRouterConfig sampleStart lateRotationRun)
      (trace .plain sampleRouterConfig sampleStart lateRotationRun).2 := by
  intro h
  have hwrong : ∃ p ∈ (run .plain sampleRouterConfig sampleStart lateRotationRun).paths .standard,
      p.edgeFirstConnectedAt = 10 ∧
      ((trace .plain sampleRouterConfig sampleStart lateRotationRun).2 p.id).since = 2000 := by
    decide +kernel
  obtain ⟨p, hp, hfirst, hsince⟩ := hwrong
  have htime := h.times .standard p hp
  rw [hfirst, hsince] at htime
  exact absurd htime (by decide)

end Bchat.Network.Router
