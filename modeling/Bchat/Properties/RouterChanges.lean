import Bchat.Network.OnionRouter
import Bchat.Properties.ErrorHandling

/-!
# What the router can do to its tables

Everything an event does to the paths is made of a few kinds of changes: a build adds a pending
path, a request is recorded on a path, a failure strikes, repairs or retires one, a turn of the
timer starts a rotation. `Outcome` says how the events are made of them.
-/

namespace Bchat.Network.Router

open Relation List Rows Function Nat

variable {env : Environment} {config : RouterConfig} {clock : Clock}

/-! ## Changes -/

/-- The tables are as they were; counters, queues, strikes and what the builds wait for may
differ. -/
structure SameTables (s s' : Router) : Prop where
  paths : s'.paths = s.paths
  dying : s'.pathsPendingDrop = s.pathsPendingDrop
  pending : s'.pendingPaths = s.pendingPaths
  schedule : s'.pathRotationSchedule = s.pathRotationSchedule
  rotations : s'.pendingRotationPaths = s.pendingRotationPaths
  listeners : s'.failureListeners = s.failureListeners
  sent : s'.sentRequests = s.sentRequests
  timers : s'.retryTimers = s.retryTimers
  file : s'.edgeNodeFile = s.edgeNodeFile
  edges : s'.cachedEdgeNodes = s.cachedEdgeNodes
  cache : s'.mnodeCache = s.mnodeCache
  ids : s.uniqueIds ≤ s'.uniqueIds

def uses (s : Router) (id : PathId) : Nat :=
  ((s.paths .standard).map OnionPath.id).count id + ((s.paths .file).map OnionPath.id).count id +
  ((s.pathsPendingDrop .standard).map OnionPath.id).count id +
  ((s.pathsPendingDrop .file).map OnionPath.id).count id +
  (s.pendingPaths.map PendingPath.id).count id +
  (s.pendingRotationPaths.map PendingRotation.newPathId).count id +
  (s.retryTimers.map RetryTimer.pathId).count id

def planned (s : Router) : List PathId :=
  s.pathRotationSchedule.map ScheduledRotation.pathId ++
    s.pendingRotationPaths.map PendingRotation.oldPathId

structure FreeId (s : Router) (id : PathId) : Prop where
  number : id.number < s.uniqueIds
  uses : s.uses id = 0
  sent : id ∉ s.sentRequests.map SentRequest.pathId
  planned : id ∉ s.planned
  label : id.label ≠ .rotation

structure Buildable (config : RouterConfig) (s : Router) (path : PendingPath) : Prop where
  free : FreeId s path.id
  built : ∃ (edge : Option CachedEdgeNode) (exclude picked : List MasterNode),
    (∀ e ∈ edge, e ∈ s.cachedEdgeNodes) ∧
    path.nodes = (edge.map (·.node)).toList ++ picked ∧
    path.edgeNodeFirstConnectionAt = edge.map (·.firstConnectedAt) ∧
    Unused config.pool s.mnodeCache s.mnodeStrikes
      (if edge.isSome then config.pathLength - 1 else config.pathLength)
      (s.extractNodes ++ exclude) picked
  length : config.pathLength ≤ path.nodes.length
  pos : config.pathLength ≠ 0

inductive BuildChange (config : RouterConfig) : Router → Router → Prop
  | quiet {s s' : Router} (h : SameTables s s') : BuildChange config s s'
  | addPending (s : Router) (c : PathCategory) {path : PendingPath}
      (h : Buildable config s path) : BuildChange config s (s.addPending c path)

inductive UseChange (config : RouterConfig) : Router → Router → Prop
  | build {s s' : Router} (h : BuildChange config s s') : UseChange config s s'
  | send (s : Router) {c : PathCategory} {index : Nat} {path : OnionPath} {request : Request}
      (h : (s.paths c)[index]? = some path)
      (hcategory : config.singlePathMode = false → toPathCategory request.category = c) :
    UseChange config s (s.recordSent c index path request)

/-- What happens when a path fails. -/
inductive FailureChange (config : RouterConfig) : Router → Router → Prop
  | build {s s' : Router} (h : BuildChange config s s') : FailureChange config s s'
  | strike (s : Router) (c : PathCategory) (id : PathId) (count : Nat) :
    FailureChange config s (s.modifyPath c id fun p => { p with strikeCount := count })
  | repair (s : Router) {c : PathCategory} {path : OnionPath} {index : Nat} {node : MasterNode}
      {picked : List MasterNode} (h : s.findPath c path.id = some path) (hindex : index ≠ 0)
      (hpicked : Unused config.pool s.mnodeCache s.mnodeStrikes 1 s.extractNodes picked)
      (hnode : node ∈ picked) :
    FailureChange config s
      (s.modifyPath c path.id fun p => { p with nodes := p.nodes.set index node })
  | retire (s : Router) {c : PathCategory} {path : OnionPath}
      (h : s.findPath c path.id = some path) :
    FailureChange config s ((s.removeFailureListeners path).retirePath c path)

abbrev BuildChanges (config : RouterConfig) : Router → Router → Prop :=
  ReflTransGen (BuildChange config)

abbrev UseChanges (config : RouterConfig) : Router → Router → Prop :=
  ReflTransGen (UseChange config)

abbrev FailureChanges (config : RouterConfig) : Router → Router → Prop :=
  ReflTransGen (FailureChange config)

/-! ## Rotations -/

inductive Replaces (config : RouterConfig) (clock : Clock) (s : Router) (path : OnionPath) :
    List MasterNode → Prop
  | newEdge {picked : List MasterNode}
      (hexpired : path.edgeFirstConnectedAt + config.edgeNodeCacheDuration < clock.system)
      (hpicked : Unused config.pool s.mnodeCache s.mnodeStrikes config.pathLength s.extractNodes
        picked) : Replaces config clock s path picked
  | sameEdge {picked : List MasterNode}
      (hpicked : Unused config.pool s.mnodeCache s.mnodeStrikes (config.pathLength - 1)
        s.extractNodes picked) : Replaces config clock s path (path.nodes.take 1 ++ picked)

def rotationOf (clock : Clock) (s : Router) (entry : ScheduledRotation) (path : OnionPath)
    (nodes : List MasterNode) : PendingRotation where
  oldPathId := entry.pathId
  category := entry.category
  newPath :=
    { id := ⟨.rotation, s.uniqueIds⟩
      nodes := nodes
      createdAt := clock.system
      edgeFirstConnectedAt := path.edgeFirstConnectedAt }

def verifying (r : PendingRotation) : PendingRotation :=
  { r with newPath := { r.newPath with activeRequests := r.newPath.activeRequests + 1 } }

/-- The flag that keeps a path from being rotated twice. -/
def markRotating (entry : ScheduledRotation) (s : Router) : Router :=
  s.modifyPath entry.category entry.pathId fun p => { p with rotationInProgress := true }

inductive Turn (config : RouterConfig) (clock : Clock) (entry : ScheduledRotation) :
    Router → Router → Prop
  | skip (s : Router)
      (h : ∀ path, s.findPath entry.category entry.pathId = some path → path.rotationInProgress) :
    Turn config clock entry s s
  | postpone {s s' : Router} {path : OnionPath}
      (h : s.findPath entry.category entry.pathId = some path)
      (hflag : path.rotationInProgress = false)
      (hsame : SameTables (postponeRotation clock entry.category entry.pathId s) s') :
    Turn config clock entry s s'
  | start {s s' : Router} {path : OnionPath} {nodes : List MasterNode} {request : Request}
      (h : s.findPath entry.category entry.pathId = some path)
      (hflag : path.rotationInProgress = false) (hnodes : Replaces config clock s path nodes)
      (hlength : config.pathLength ≤ nodes.length)
      (hsame : SameTables ((markRotating entry s).idMade.recordVerification
        (rotationOf clock s entry path nodes) request
          (clock.steady + config.pathRotationFrequency)) s') :
    Turn config clock entry s s'

inductive Turns (config : RouterConfig) (clock : Clock) :
    List ScheduledRotation → Router → Router → Prop
  | nil (s : Router) : Turns config clock [] s s
  | cons {entry : ScheduledRotation} {rest : List ScheduledRotation} {s t u : Router}
      (hturn : Turn config clock entry s t) (hrest : Turns config clock rest t u) :
    Turns config clock (entry :: rest) s u

/-! ## Outcomes -/

def failPending (s : Router) (pathId : PathId) (timer : Option RetryTimer) : Router :=
  { s with
    pendingPaths := Rows.erase PendingPath.id pathId s.pendingPaths
    retryTimers := s.retryTimers ++ timer.toList }

def dropTimer (s : Router) (index : Nat) : Router :=
  { s with retryTimers := s.retryTimers.eraseIdx index }

def dropListeners (s : Router) (key : Pubkey) : Router :=
  { s with failureListeners := s.failureListeners.filter (·.key ≠ key) }

def answered (s : Router) (sent : SentRequest) (index : Nat) : Router :=
  (s.decrementAndCleanupPath sent.pathId (toPathCategory sent.request.category)).forgetSent index

inductive Outcome (config : RouterConfig) (clock : Clock) (event : Event) (s : Router) :
    Router → Prop
  | used {s' : Router} (h : UseChanges config s s') : Outcome config clock event s s'
  | refilled {nodes : List MasterNode} {strikes : Strikes}
      (hevent : event = .poolChanged nodes strikes) :
    Outcome config clock event s { s with mnodeCache := nodes, mnodeStrikes := strikes }
  | clearedCache : Outcome config clock event s s.clearCache
  | checkFailed {path : PendingPath} (timer : Option RetryTimer) {s' : Router}
      (hfind : Rows.find PendingPath.id path.id s.pendingPaths = some path)
      (htimer : ∀ x ∈ timer, x.pathId = path.id)
      (h : SameTables (s.failPending path.id timer) s') : Outcome config clock event s s'
  | activated {path : PendingPath} {c : PathCategory} {key : Pubkey} {t : Router}
      (hfind : Rows.find PendingPath.id path.id s.pendingPaths = some path)
      (hkey : path.nodes.head?.map (·.remotePubkey) = some key)
      (h : UseChanges config (activatePath config clock c path (s.failPending path.id none)) t) :
    Outcome config clock event s (t.addFailureListener key path.id c)
  | answered {t : Router} {sent : SentRequest} {index : Nat} (h : FailureChanges config s t)
      (hget : s.sentRequests[index]? = some sent) (hsent : sent.rotateAt = none) :
    Outcome config clock event s (t.answered sent index)
  | verified {t : Router} {sent : SentRequest} {index : Nat} {rotateAt : Int}
      (h : FailureChanges config s t) (hget : s.sentRequests[index]? = some sent)
      (hsent : sent.rotateAt = some rotateAt) (success timeout : Bool) :
    Outcome config clock event s (onRotationVerificationResponse clock sent.pathId success timeout
      rotateAt (t.answered sent index))
  | disconnected {key : Pubkey} {s' : Router} (hevent : event = .connectionFailed key)
      (h : FailureChanges config (s.dropListeners key) s') :
    Outcome config clock event s s'
  | rotated {due rest : List ScheduledRotation} {s' : Router}
      (hschedule : s.pathRotationSchedule = due ++ rest)
      (h : Turns config clock due { s with pathRotationSchedule := rest } s') :
    Outcome config clock event s s'
  | retried {index : Nat} {s' : Router} (h : UseChanges config (s.dropTimer index) s') :
    Outcome config clock event s s'
  | closed (hevent : event = .closeConnections) : Outcome config clock event s s.closeConnections
  | suspended (hevent : event = .suspend) {order : List PathCategory}
      (horder : order.Perm [.standard, .file]) :
    Outcome config clock event s (closeConnections { s with
      suspended := true
      edgeNodeFile := order.flatMap fun c => (s.paths c).flatMap edgeNodeEntry })

/-! ## Reading the tables after a change -/

section

variable (s : Router) (c : PathCategory) {c' : PathCategory} (path : OnionPath)

@[simp] lemma retirePath_paths_self :
    (s.retirePath c path).paths c = Rows.erase OnionPath.id path.id (s.paths c) :=
  update_self _ _ _

lemma retirePath_paths_of_ne (h : c' ≠ c) : (s.retirePath c path).paths c' = s.paths c' :=
  update_of_ne h _ _

@[simp] lemma retirePath_dying_self : (s.retirePath c path).pathsPendingDrop c =
      if path.activeRequests = 0 then s.pathsPendingDrop c else s.pathsPendingDrop c ++ [path] :=
  update_self _ _ _

lemma retirePath_dying_of_ne (h : c' ≠ c) :
    (s.retirePath c path).pathsPendingDrop c' = s.pathsPendingDrop c' :=
  update_of_ne h _ _

@[simp] lemma recordSent_paths_self (index : Nat) (request : Request) :
    (s.recordSent c index path request).paths c =
      (s.paths c).modify index fun p => { p with activeRequests := p.activeRequests + 1 } :=
  update_self _ _ _

lemma recordSent_paths_of_ne (h : c' ≠ c) (index : Nat) (request : Request) :
    (s.recordSent c index path request).paths c' = s.paths c' :=
  update_of_ne h _ _

@[simp] lemma activatePath_paths_self (pending : PendingPath) :
    (activatePath config clock c pending s).paths c =
      s.paths c ++ [pending.activeAt clock.system] :=
  update_self _ _ _

lemma activatePath_paths_of_ne (h : c' ≠ c) (pending : PendingPath) :
    (activatePath config clock c pending s).paths c' = s.paths c' :=
  update_of_ne h _ _

lemma recordVerification_rotations (r : PendingRotation) (request : Request) (rotateAt : Int) :
    (s.recordVerification r request rotateAt).pendingRotationPaths =
      s.pendingRotationPaths ++ [verifying r] := rfl

end

/-! ## The two ways a request ends -/

lemma decrementAndCleanupPath_cases (pathId : PathId) (c : PathCategory) (s : Router) :
    (∃ path, s.findPath c pathId = some path ∧ s.decrementAndCleanupPath pathId c =
      s.modifyPath c pathId fun p => { p with activeRequests := p.activeRequests - 1 }) ∨
    (s.findPath c pathId = none ∧ Rows.find OnionPath.id pathId (s.pathsPendingDrop c) = none ∧
      s.decrementAndCleanupPath pathId c = s) ∨
    (s.findPath c pathId = none ∧ ∃ path,
      Rows.find OnionPath.id pathId (s.pathsPendingDrop c) = some path ∧
      ((path.activeRequests - 1 = 0 ∧ s.decrementAndCleanupPath pathId c =
        { s.removeFailureListeners path with
          pathsPendingDrop := Function.update s.pathsPendingDrop c
            (Rows.erase OnionPath.id pathId (s.pathsPendingDrop c)) }) ∨
      (path.activeRequests - 1 ≠ 0 ∧ s.decrementAndCleanupPath pathId c = { s with
          pathsPendingDrop := Function.update s.pathsPendingDrop c
            (Rows.modify OnionPath.id pathId
              (fun p => { p with activeRequests := p.activeRequests - 1 })
              (s.pathsPendingDrop c)) }))) := by
  rw [decrementAndCleanupPath]
  cases hactive : s.findPath c pathId with
  | some path => exact .inl ⟨path, rfl, rfl⟩
  | none =>
    dsimp only
    cases hdying : find OnionPath.id pathId (s.pathsPendingDrop c) with
    | none => exact .inr (.inl ⟨rfl, rfl, rfl⟩)
    | some path =>
      refine .inr (.inr ⟨rfl, path, rfl, ?_⟩)
      by_cases hlast : path.activeRequests - 1 = 0
      · exact .inl ⟨hlast, if_pos hlast⟩
      · exact .inr ⟨hlast, if_neg hlast⟩

lemma onRotationVerificationResponse_cases (clock : Clock) (newPathId : PathId)
    (success timeout : Bool) (rotateAt : Int) (s : Router) :
    (Rows.find PendingRotation.newPathId newPathId s.pendingRotationPaths = none ∧
      onRotationVerificationResponse clock newPathId success timeout rotateAt s = s) ∨ ∃ pending,
      Rows.find PendingRotation.newPathId newPathId s.pendingRotationPaths = some pending ∧
      ((s.findPath pending.category pending.oldPathId = none ∧
        onRotationVerificationResponse clock newPathId success timeout rotateAt s =
          s.takeRotation newPathId) ∨
      ∃ oldPath, s.findPath pending.category pending.oldPathId = some oldPath ∧
        (onRotationVerificationResponse clock newPathId success timeout rotateAt s =
          postponeRotation clock pending.category pending.oldPathId (s.takeRotation newPathId) ∨
        onRotationVerificationResponse clock newPathId success timeout rotateAt s =
          completeRotation pending oldPath rotateAt (s.takeRotation newPathId))) := by
  rw [onRotationVerificationResponse]
  cases hfind : find PendingRotation.newPathId newPathId s.pendingRotationPaths with
  | none => exact .inl ⟨rfl, rfl⟩
  | some pending =>
    refine .inr ⟨pending, rfl, ?_⟩
    dsimp only
    cases hold : s.findPath pending.category pending.oldPathId with
    | none => exact .inl ⟨rfl, rfl⟩
    | some oldPath => exact .inr ⟨oldPath, rfl, ite_eq_or_eq _ _ _⟩

/-! ## What becomes of the paths -/

/-- What stays the same for a path while it is active, apart from the counter of its requests. -/
structure SamePath (p p' : OnionPath) : Prop where
  id : p'.id = p.id
  createdAt : p'.createdAt = p.createdAt
  edgeFirstConnectedAt : p'.edgeFirstConnectedAt = p.edgeFirstConnectedAt
  edgeKey : p'.edgeKey = p.edgeKey
  length : p'.nodes.length = p.nodes.length
  rotationInProgress : p'.rotationInProgress = p.rotationInProgress

lemma SamePath.refl (p : OnionPath) : SamePath p p := ⟨rfl, rfl, rfl, rfl, rfl, rfl⟩

lemma SamePath.trans {p q r : OnionPath} (h : SamePath p q) (h' : SamePath q r) : SamePath p r :=
  ⟨h'.id.trans h.id, h'.createdAt.trans h.createdAt,
    h'.edgeFirstConnectedAt.trans h.edgeFirstConnectedAt, h'.edgeKey.trans h.edgeKey,
    h'.length.trans h.length, h'.rotationInProgress.trans h.rotationInProgress⟩

/-- Nothing is scheduled, started or ended, and nothing is written. -/
structure SamePlans (s s' : Router) : Prop where
  schedule : s'.pathRotationSchedule = s.pathRotationSchedule
  rotations : s'.pendingRotationPaths = s.pendingRotationPaths
  file : s'.edgeNodeFile = s.edgeNodeFile
  ids : s.uniqueIds ≤ s'.uniqueIds

structure OnlyPending (s s' : Router) : Prop extends SamePlans s s' where
  paths : s'.paths = s.paths
  dying : s'.pathsPendingDrop = s.pathsPendingDrop
  listeners : s'.failureListeners = s.failureListeners
  sent : s'.sentRequests = s.sentRequests

lemma SamePlans.trans {s t u : Router} (h : SamePlans s t) (h' : SamePlans t u) : SamePlans s u :=
  ⟨h'.schedule.trans h.schedule, h'.rotations.trans h.rotations, h'.file.trans h.file,
    h.ids.trans h'.ids⟩

lemma SameTables.onlyPending {s s' : Router} (h : SameTables s s') : OnlyPending s s' :=
  ⟨⟨h.schedule, h.rotations, h.file, h.ids⟩, h.paths, h.dying, h.listeners, h.sent⟩

lemma BuildChange.onlyPending {s s' : Router} (h : BuildChange config s s') : OnlyPending s s' := by
  cases h with
  | quiet h => exact h.onlyPending
  | addPending => exact ⟨⟨rfl, rfl, rfl, le_refl _⟩, rfl, rfl, rfl, rfl⟩

section

variable {s s' : Router} {c : PathCategory} {p : OnionPath}

lemma mem_of_mem_modifyPath {c' : PathCategory} {id : PathId} {f : OnionPath → OnionPath}
    (h : p ∈ (s.modifyPath c id f).paths c') :
    p ∈ s.paths c' ∨ c' = c ∧ ∃ q, s.findPath c id = some q ∧ p = f q := by
  by_cases hc : c' = c
  · subst hc
    rw [modifyPath_paths_self] at h
    exact (mem_of_mem_modify h).imp_right fun h => ⟨rfl, h⟩
  · rw [modifyPath_paths_of_ne s hc] at h
    exact .inl h

lemma UseChange.samePlans (h : UseChange config s s') : SamePlans s s' := by
  cases h with
  | build h => exact h.onlyPending.toSamePlans
  | send => exact ⟨rfl, rfl, rfl, le_refl _⟩

lemma UseChange.dying (h : UseChange config s s') : s'.pathsPendingDrop = s.pathsPendingDrop := by
  cases h with
  | build h => exact h.onlyPending.dying
  | send => rfl

lemma UseChange.listeners (h : UseChange config s s') :
    s'.failureListeners = s.failureListeners := by
  cases h with
  | build h => exact h.onlyPending.listeners
  | send => rfl

lemma mem_recordSent {c' : PathCategory} {index : Nat} {path : OnionPath} {request : Request}
    (hget : (s.paths c)[index]? = some path)
    (h : p ∈ (s.recordSent c index path request).paths c') :
    p ∈ s.paths c' ∨ c' = c ∧ p = { path with activeRequests := path.activeRequests + 1 } := by
  by_cases hc : c' = c
  · subst hc
    rw [recordSent_paths_self] at h
    obtain ⟨i, hi⟩ := mem_iff_getElem?.1 h
    rw [getElem?_modify] at hi
    by_cases heq : index = i
    · subst heq
      rw [hget] at hi
      refine .inr ⟨rfl, ?_⟩
      simpa using hi.symm
    · refine .inl (mem_iff_getElem?.2 ⟨i, ?_⟩)
      simpa [heq] using hi
  · rw [recordSent_paths_of_ne s c path hc] at h
    exact .inl h

lemma UseChange.mem_paths (h : UseChange config s s') (hp : p ∈ s'.paths c) :
    ∃ q ∈ s.paths c, SamePath q p := by
  cases h with
  | build h =>
    rw [h.onlyPending.paths] at hp
    exact ⟨p, hp, .refl p⟩
  | @send c' index path request hget _ =>
    rcases mem_recordSent hget hp with hp | ⟨rfl, rfl⟩
    · exact ⟨p, hp, .refl p⟩
    · exact ⟨path, mem_of_getElem? hget, ⟨rfl, rfl, rfl, rfl, rfl, rfl⟩⟩

section

variable (h : FailureChange config s s')

include h

lemma FailureChange.samePlans : SamePlans s s' := by
  cases h with
  | build h => exact h.onlyPending.toSamePlans
  | strike | repair | retire => exact ⟨rfl, rfl, rfl, le_refl _⟩

lemma FailureChange.sent : s'.sentRequests = s.sentRequests := by
  cases h with
  | build h => exact h.onlyPending.sent
  | strike | repair | retire => rfl

lemma FailureChange.mem_paths (hp : p ∈ s'.paths c) :
    ∃ q ∈ s.paths c, SamePath q p ∧ p.activeRequests = q.activeRequests := by
  cases h with
  | build h =>
    rw [h.onlyPending.paths] at hp
    exact ⟨p, hp, .refl p, rfl⟩
  | strike c' id count =>
    rcases mem_of_mem_modifyPath hp with hp | ⟨rfl, q, hq, rfl⟩
    · exact ⟨p, hp, .refl p, rfl⟩
    · exact ⟨q, find_mem hq, ⟨rfl, rfl, rfl, rfl, rfl, rfl⟩, rfl⟩
  | @repair c' path index node _ hfind hindex _ _ =>
    rcases mem_of_mem_modifyPath hp with hp | ⟨rfl, q, hq, rfl⟩
    · exact ⟨p, hp, .refl p, rfl⟩
    refine ⟨q, find_mem hq, ⟨rfl, rfl, rfl, ?_, length_set, rfl⟩, rfl⟩
    -- the edge node is not repaired
    obtain ⟨i, rfl⟩ := exists_eq_succ_of_ne_zero hindex
    rw [OnionPath.edgeKey, OnionPath.edgeKey]
    cases q.nodes <;> rfl
  | @retire c' path hfind =>
    refine ⟨p, ?_, .refl p, rfl⟩
    by_cases hc : c = c'
    · subst hc
      rw [retirePath_paths_self] at hp
      exact erase_sublist.subset hp
    · rw [retirePath_paths_of_ne _ _ _ hc] at hp
      exact hp

lemma FailureChange.mem_dying (hp : p ∈ s'.pathsPendingDrop c) :
    p ∈ s.pathsPendingDrop c ∨ p ∈ s.paths c ∧ p.activeRequests ≠ 0 := by
  cases h with
  | build h =>
    rw [h.onlyPending.dying] at hp
    exact .inl hp
  | strike | repair => exact .inl hp
  | @retire c' path hfind =>
    by_cases hc : c = c'
    · subst hc
      rw [retirePath_dying_self] at hp
      split at hp
      · exact .inl hp
      rename_i hused
      rcases mem_append.1 hp with hp | hp
      · exact .inl hp
      · rw [mem_singleton.1 hp]
        exact .inr ⟨find_mem hfind, hused⟩
    · rw [retirePath_dying_of_ne _ _ _ hc] at hp
      exact .inl hp

end

end

section

variable {s s' : Router} {c : PathCategory} {p : OnionPath}

section

variable (h : UseChanges config s s')

include h

lemma UseChanges.samePlans : SamePlans s s' := by
  induction h with
  | refl => exact ⟨rfl, rfl, rfl, le_refl _⟩
  | tail _ h ih => exact ih.trans h.samePlans

lemma UseChanges.dying : s'.pathsPendingDrop = s.pathsPendingDrop := by
  induction h with
  | refl => rfl
  | tail _ h ih => exact h.dying.trans ih

lemma UseChanges.listeners : s'.failureListeners = s.failureListeners := by
  induction h with
  | refl => rfl
  | tail _ h ih => exact h.listeners.trans ih

lemma UseChanges.mem_paths (hp : p ∈ s'.paths c) : ∃ q ∈ s.paths c, SamePath q p := by
  induction h generalizing p with
  | refl => exact ⟨p, hp, .refl p⟩
  | tail _ h ih =>
    obtain ⟨q, hq, hqp⟩ := h.mem_paths hp
    obtain ⟨r, hr, hrq⟩ := ih hq
    exact ⟨r, hr, hrq.trans hqp⟩

end

lemma FailureChanges.samePlans (h : FailureChanges config s s') : SamePlans s s' := by
  induction h with
  | refl => exact ⟨rfl, rfl, rfl, le_refl _⟩
  | tail _ h ih => exact ih.trans h.samePlans

lemma FailureChanges.sent (h : FailureChanges config s s') : s'.sentRequests = s.sentRequests := by
  induction h with
  | refl => rfl
  | tail _ h ih => exact h.sent.trans ih

lemma FailureChanges.mem_paths (h : FailureChanges config s s') (hp : p ∈ s'.paths c) :
    ∃ q ∈ s.paths c, SamePath q p ∧ p.activeRequests = q.activeRequests := by
  induction h generalizing p with
  | refl => exact ⟨p, hp, .refl p, rfl⟩
  | tail _ h ih =>
    obtain ⟨q, hq, hqp, hcount⟩ := h.mem_paths hp
    obtain ⟨r, hr, hrq, hcount'⟩ := ih hq
    exact ⟨r, hr, hrq.trans hqp, hcount.trans hcount'⟩

end

end Bchat.Network.Router
