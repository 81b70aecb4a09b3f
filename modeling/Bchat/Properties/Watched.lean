import Bchat.Properties.InFlight

/-!
# Which paths are watched

A path that becomes active after a connectivity check gets a failure listener for its edge node. The
listeners of a node are taken off for all paths at once, and a rotation registers none. So every
active path is watched as long as none came from a rotation and no two share an edge node.
-/

namespace Bchat.Network.Router

open Relation List Rows

variable {env : Environment} {config : RouterConfig} {clock : Clock} {s s' : Router}
  {except : Option Pubkey}

/-- No other path that is active or dying has the edge node of an active one. -/
def EdgesApart (s : Router) : Prop :=
  ∀ c c', ∀ p ∈ s.paths c, ∀ q ∈ s.held c', p.edgeKey = q.edgeKey → p.id = q.id

def Listening (except : Option Pubkey) (s : Router) : Prop :=
  ∀ c, ∀ p ∈ s.paths c, p.id.label ≠ .rotation → ∃ key, p.edgeKey = some key ∧
    (some key ≠ except → (⟨key, p.id, c⟩ : FailureListener) ∈ s.failureListeners)

/-! ## Changes -/

lemma Listening.of_same (h : Listening except s)
    (hpaths : ∀ c, ∀ p ∈ s'.paths c, p.id.label ≠ .rotation →
      ∃ q ∈ s.paths c, p.id = q.id ∧ p.edgeKey = q.edgeKey)
    (hlisteners : s.failureListeners ⊆ s'.failureListeners) : Listening except s' := by
  intro c p hp hlabel
  obtain ⟨q, hq, hid, hedge⟩ := hpaths c p hp hlabel
  obtain ⟨key, hkey, hwatched⟩ := h c q hq (hid ▸ hlabel)
  refine ⟨key, hedge.trans hkey, fun hne => hlisteners ?_⟩
  rw [hid]
  exact hwatched hne

lemma mem_removeFailureListeners {path : OnionPath} {l : FailureListener}
    (h : l ∈ s.failureListeners) (hne : path.edgeKey ≠ some l.key) :
    l ∈ (s.removeFailureListeners path).failureListeners := by
  refine mem_filter.2 ⟨h, ?_⟩
  simpa using hne

lemma EdgesApart.failureChange (h : EdgesApart s) (hchange : FailureChange config s s') :
    EdgesApart s' := by
  intro c c' p hp q hq hedge
  obtain ⟨p', hp', hpsame, -⟩ := hchange.mem_paths hp
  have hheld : ∃ q' ∈ s.held c', q.id = q'.id ∧ q.edgeKey = q'.edgeKey := by
    rcases mem_held.1 hq with hq | hq
    · obtain ⟨q', hq', hqsame, -⟩ := hchange.mem_paths hq
      exact ⟨q', mem_held.2 (.inl hq'), hqsame.id, hqsame.edgeKey⟩
    rcases hchange.mem_dying hq with hq | ⟨hq, -⟩
    · exact ⟨q, mem_held.2 (.inr hq), rfl, rfl⟩
    · exact ⟨q, mem_held.2 (.inl hq), rfl, rfl⟩
  obtain ⟨q', hq', hid, hkey⟩ := hheld
  rw [hpsame.id, hid]
  exact h c c' p' hp' q' hq' (hpsame.edgeKey.symm.trans (hedge.trans hkey))

lemma Listening.failureChange (h : Listening except s) (hids : IdsInOrder s)
    (hapart : EdgesApart s) (hchange : FailureChange config s s') : Listening except s' := by
  have hpaths : ∀ c, ∀ p ∈ s'.paths c, p.id.label ≠ .rotation →
      ∃ q ∈ s.paths c, p.id = q.id ∧ p.edgeKey = q.edgeKey := by
    intro c p hp _
    obtain ⟨q, hq, hsame, -⟩ := hchange.mem_paths hp
    exact ⟨q, hq, hsame.id, hsame.edgeKey⟩
  cases hchange with
  | build hbuild =>
    refine h.of_same hpaths ?_
    rw [hbuild.onlyPending.listeners]
    exact Subset.refl _
  | strike | repair => exact h.of_same hpaths (Subset.refl _)
  | @retire c' path hfind =>
    -- the other active paths have other edge nodes
    intro c p hp hlabel
    have hold : p ∈ s.paths c ∧ p.id ≠ path.id := by
      by_cases hc : c = c'
      · subst hc
        rw [retirePath_paths_self] at hp
        exact (mem_erase (hids.uniqueIds.nodup c)).1 hp
      · rw [retirePath_paths_of_ne _ _ _ hc] at hp
        exact ⟨hp, fun hid => hc (hids.uniqueIds.category_eq hp (find_mem hfind) hid)⟩
    obtain ⟨key, hkey, hwatched⟩ := h c p hold.1 hlabel
    refine ⟨key, hkey, fun hne => mem_removeFailureListeners (hwatched hne) fun hedge => ?_⟩
    exact hold.2 (hapart c c' p hold.1 path (mem_held.2 (.inl (find_mem hfind)))
      (hkey.trans hedge.symm))

lemma Listening.failureChanges (h : Listening except s) (hids : IdsInOrder s)
    (hapart : EdgesApart s) (hchanges : FailureChanges config s s') :
    Listening except s' ∧ EdgesApart s' := by
  have hall : IdsInOrder s' ∧ Listening except s' ∧ EdgesApart s' := by
    induction hchanges with
    | refl => exact ⟨hids, h, hapart⟩
    | tail _ hchange ih =>
      obtain ⟨hids, h, hapart⟩ := ih
      exact ⟨hids.failureChange hchange, h.failureChange hids hapart hchange,
        hapart.failureChange hchange⟩
  exact hall.2

lemma Listening.answered (h : Listening none s) (hids : IdsInOrder s) (hapart : EdgesApart s)
    (sent : SentRequest) (index : Nat) : Listening none (s.answered sent index) := by
  have hpaths : ∀ c, ∀ p ∈ (s.answered sent index).paths c, p.id.label ≠ .rotation →
      ∃ q ∈ s.paths c, p.id = q.id ∧ p.edgeKey = q.edgeKey := by
    intro c p hp _
    obtain ⟨q, hq, hsame⟩ := mem_decrementAndCleanupPath hp
    exact ⟨q, hq, hsame.id, hsame.edgeKey⟩
  rw [Router.answered] at hpaths ⊢
  generalize toPathCategory sent.request.category = c₀ at hpaths ⊢
  rcases decrementAndCleanupPath_cases sent.pathId c₀ s with
    ⟨path, -, heq⟩ | ⟨-, -, heq⟩ | ⟨-, path, hfind, ⟨-, heq⟩ | ⟨-, heq⟩⟩
  · rw [heq] at hpaths ⊢
    exact h.of_same hpaths (Subset.refl _)
  · rw [heq] at hpaths ⊢
    exact h.of_same hpaths (Subset.refl _)
  · rw [heq]
    intro c p hp hlabel
    obtain ⟨key, hkey, hwatched⟩ := h c p hp hlabel
    refine ⟨key, hkey, fun hne => mem_removeFailureListeners (hwatched hne) fun hedge => ?_⟩
    -- the dropped path has another edge node than an active one
    have hdying : path ∈ s.pathsPendingDrop c₀ := find_mem hfind
    have hid := hapart c c₀ p hp path (mem_held.2 (.inr hdying)) (hkey.trans hedge.symm)
    obtain rfl := hids.held_category_eq (mem_held.2 (.inl hp)) (mem_held.2 (.inr hdying)) hid
    have hnodup := hids.nodup_held c
    rw [held, map_append, nodup_append'] at hnodup
    exact hnodup.2.2 (mem_map_of_mem hp) (hid ▸ mem_map_of_mem hdying)
  · rw [heq] at hpaths ⊢
    exact h.of_same hpaths (Subset.refl _)

lemma Listening.modifyPath (h : Listening except s) (c : PathCategory) (id : PathId)
    {f : OnionPath → OnionPath} (hf : ∀ p, (f p).id = p.id ∧ (f p).edgeKey = p.edgeKey) :
    Listening except (s.modifyPath c id f) := by
  refine h.of_same (fun c' p hp _ => ?_) (Subset.refl _)
  rcases mem_of_mem_modifyPath hp with hp | ⟨rfl, q, hq, rfl⟩
  · exact ⟨p, hp, rfl, rfl⟩
  · exact ⟨q, find_mem hq, hf q⟩

lemma Listening.postponeRotation (h : Listening except s) (c : PathCategory) (id : PathId) :
    Listening except (postponeRotation clock c id s) := by
  have hmodified : Listening except
      (s.modifyPath c id fun p => { p with rotationInProgress := false }) :=
    h.modifyPath c id fun _ => ⟨rfl, rfl⟩
  exact hmodified

lemma Listening.verified (h : Listening none s) (hids : IdsInOrder s) (pathId : PathId)
    (success timeout : Bool) (rotateAt : Int) :
    Listening none (onRotationVerificationResponse clock pathId success timeout rotateAt s) := by
  rcases onRotationVerificationResponse_cases clock pathId success timeout rotateAt s with
    ⟨-, heq⟩ | ⟨pending, hpending, ⟨-, heq⟩ | ⟨oldPath, hold, heq | heq⟩⟩ <;> rw [heq]
  · exact h
  · exact h
  · exact Listening.postponeRotation (s := s.takeRotation pathId) h _ _
  have hmem := find_mem hpending
  have hnodup := hids.nodup_append_newPath hmem pending.category
  refine h.of_same (fun c p hp hlabel => ?_) (Subset.refl _)
  rcases mem_completeRotation (s := s.takeRotation pathId) hnodup hp with ⟨hp, -⟩ | ⟨-, rfl⟩
  · exact ⟨p, hp, rfl, rfl⟩
  · exact absurd (hids.rotations _ (mem_map_of_mem hmem)).2 hlabel

lemma Listening.onlyPending (h : Listening except s) (hsame : OnlyPending s s') :
    Listening except s' := by
  refine h.of_same (fun c p hp _ => ?_) ?_
  · rw [hsame.paths] at hp
    exact ⟨p, hp, rfl, rfl⟩
  · rw [hsame.listeners]
    exact Subset.refl _

lemma Listening.turn (h : Listening none s) {e : ScheduledRotation}
    (hturn : Turn config clock e s s') : Listening none s' := by
  cases hturn with
  | skip => exact h
  | postpone _ _ hsame =>
    exact (h.postponeRotation e.category e.pathId).onlyPending hsame.onlyPending
  | start _ _ _ _ hsame =>
    have hmarked : Listening none (markRotating e s) := h.modifyPath _ _ fun _ => ⟨rfl, rfl⟩
    refine Listening.onlyPending ?_ hsame.onlyPending
    exact hmarked

lemma Listening.turns (h : Listening none s) {due : List ScheduledRotation}
    (hturns : Turns config clock due s s') : Listening none s' := by
  induction hturns with
  | nil => exact h
  | cons hturn _ ih => exact ih (h.turn hturn)

lemma Listening.useChanges (h : Listening none s) (hchanges : UseChanges config s s') :
    Listening none s' := by
  refine h.of_same (fun c p hp _ => ?_) ?_
  · obtain ⟨q, hq, hsame⟩ := hchanges.mem_paths hp
    exact ⟨q, hq, hsame.id, hsame.edgeKey⟩
  · rw [hchanges.listeners]
    exact Subset.refl _

lemma Listening.activated (h : Listening none s) {path : PendingPath} {c : PathCategory}
    {key : Pubkey} {t : Router} (hkey : path.nodes.head?.map (·.remotePubkey) = some key)
    (huse : UseChanges config (activatePath config clock c path (s.failPending path.id none)) t) :
    Listening none (t.addFailureListener key path.id c) := by
  intro c' p hp hlabel
  obtain ⟨q, hq, hsame⟩ := huse.mem_paths hp
  rcases mem_activatePath hq with hq | ⟨rfl, rfl⟩
  · obtain ⟨key', hkey', hwatched⟩ := h c' q hq (hsame.id ▸ hlabel)
    refine ⟨key', hsame.edgeKey.trans hkey', fun hne => mem_append_left _ ?_⟩
    rw [huse.listeners, hsame.id]
    exact hwatched hne
  refine ⟨key, hsame.edgeKey.trans hkey, fun _ => mem_append_right _ ?_⟩
  rw [hsame.id]
  exact mem_cons_self

/-! ## The loss of a connection -/

lemma notMem_onConnectionFailure (hids : UniqueIds s) (l : FailureListener) :
    l.pathId ∉ ((onConnectionFailure env config clock l s).paths l.category).map OnionPath.id := by
  rw [onConnectionFailure]
  have hids' : UniqueIds (maxOutPath config l.category l.pathId s) := by
    refine hids.of_ids_eq fun c => modifyPath_ids s l.category l.pathId ?_ c
    exact fun _ _ => rfl
  rcases handlePathFailure_cases env config clock l.pathId l.category []
      (maxOutPath config l.category l.pathId s) with
    ⟨hnone, heq⟩ | ⟨path, hfind, ⟨hfew, -⟩ | ⟨-, hpaths, -⟩⟩
  · rw [heq]
    exact find_eq_none.1 hnone
  · -- the path has all its strikes
    have hmaxed : path.strikeCount = config.pathStrikeThreshold := by
      cases hq : s.findPath l.category l.pathId with
      | none =>
        rw [maxOutPath, findPath, modifyPath_paths_self, modify_of_find_eq_none hq] at hfind
        cases hq.symm.trans hfind
      | some q =>
        rw [maxOutPath, findPath_modifyPath hq rfl] at hfind
        cases hfind
        rfl
    omega
  rw [hpaths, Function.update_self]
  intro hmem
  obtain ⟨p, hp, hid⟩ := mem_map.1 hmem
  exact ((mem_erase (hids'.nodup l.category)).1 hp).2 hid

lemma notMem_failConnection (hids : IdsInOrder s) {key : Pubkey} {l : FailureListener}
    (hl : l ∈ s.failureListeners) (hkey : l.key = key) :
    l.pathId ∉ ((failConnection env config clock key s).paths l.category).map OnionPath.id := by
  have hmem : l ∈ s.failureListeners.filter (·.key = key) := mem_filter.2 ⟨hl, by simpa using hkey⟩
  refine Loop.establish (fun t => IdsInOrder t)
    (fun t => l.pathId ∉ (t.paths l.category).map OnionPath.id) ?_ ?_ hmem ?_
    (hids.dropListeners key)
  · intro t l' _ ht
    have hmaxed : FailureChanges config t (maxOutPath config l'.category l'.pathId t) :=
      fails_maxOutPath l'.category l'.pathId t
    exact (ht.failureChanges hmaxed).failureChanges
      (fails_handlePathFailure (ht.failureChanges hmaxed) _ _ _)
  · -- a path that is gone does not come back
    intro t l' _ ht hgone hback
    have hmaxed : FailureChanges config t (maxOutPath config l'.category l'.pathId t) :=
      fails_maxOutPath l'.category l'.pathId t
    have hfail : FailureChanges config t (onConnectionFailure env config clock l' t) :=
      hmaxed.trans (fails_handlePathFailure (ht.failureChanges hmaxed) _ _ _)
    obtain ⟨p, hp, hid⟩ := mem_map.1 hback
    obtain ⟨q, hq, hsame, -⟩ := hfail.mem_paths hp
    refine hgone ?_
    rw [← hid, hsame.id]
    exact mem_map_of_mem hq
  · exact fun t ht => notMem_onConnectionFailure ht.uniqueIds l

lemma Listening.failConnection (h : Listening none s) (hids : IdsInOrder s)
    (hapart : EdgesApart s) (key : Pubkey) :
    Listening none (failConnection env config clock key s) := by
  have hfail : FailureChanges config (s.dropListeners key)
      (Router.failConnection env config clock key s) := fails_failConnection hids key
  have hdropped : Listening (some key) (s.dropListeners key) := by
    intro c p hp hlabel
    obtain ⟨key', hkey', hwatched⟩ := h c p hp hlabel
    refine ⟨key', hkey', fun hne => mem_filter.2 ⟨hwatched (Option.some_ne_none _), ?_⟩⟩
    simpa using hne
  intro c p hp hlabel
  obtain ⟨key', hkey', hwatched⟩ :=
    (hdropped.failureChanges (hids.dropListeners key) hapart hfail).1 c p hp hlabel
  refine ⟨key', hkey', fun _ => hwatched fun heq => ?_⟩
  -- a path with the lost edge node had a listener, so it was retired
  obtain ⟨q, hq, hsame, -⟩ := hfail.mem_paths hp
  obtain ⟨key'', hkey'', hlistener⟩ := h c q hq (hsame.id ▸ hlabel)
  obtain rfl : key'' = key := by
    have hedges := hkey''.symm.trans (hsame.edgeKey.symm.trans hkey')
    exact Option.some.inj (hedges.trans heq)
  have hgone : q.id ∉ ((Router.failConnection env config clock key'' s).paths c).map OnionPath.id :=
    notMem_failConnection hids (hlistener (Option.some_ne_none _)) rfl
  refine hgone ?_
  rw [← hsame.id]
  exact mem_map_of_mem hp

/-! ## Runs -/

/-- Every active path has a listener for its edge node, which retires the path when the connection
to the node fails. -/
def AllWatched (env : Environment) (config : RouterConfig) (s : Router) : Prop :=
  ∀ c, ∀ p ∈ s.paths c, ∃ key, p.edgeKey = some key ∧
    (⟨key, p.id, c⟩ : FailureListener) ∈ s.failureListeners ∧
    ∀ clock, p.id ∉
      ((step env config clock s (.connectionFailed key)).paths c).map OnionPath.id

/-- No active path came from a rotation, and no two share an edge node. -/
structure PlainEdges (s : Router) : Prop where
  unrotated : ∀ c, ∀ p ∈ s.paths c, p.id.label ≠ .rotation
  apart : EdgesApart s

lemma Listening.outcome {event : Event} (h : Listening none s) (hids : IdsInOrder s)
    (hapart : EdgesApart s) (hout : Outcome config clock event s s')
    (hevent : ∀ key, event ≠ .connectionFailed key) : Listening none s' := by
  cases hout with
  | used huse => exact h.useChanges huse
  | refilled | clearedCache => exact h
  | @checkFailed path timer _ _ _ hsame =>
    exact Listening.onlyPending (s := s.failPending path.id timer) h hsame.onlyPending
  | activated _ hkey huse => exact h.activated hkey huse
  | answered hfail =>
    obtain ⟨hfailed, hapart⟩ := h.failureChanges hids hapart hfail
    exact hfailed.answered (hids.failureChanges hfail) hapart _ _
  | verified hfail _ _ success timeout =>
    obtain ⟨hfailed, hapart⟩ := h.failureChanges hids hapart hfail
    have hids := hids.failureChanges hfail
    exact (hfailed.answered hids hapart _ _).verified (hids.answered _ _ _) _ success timeout _
  | disconnected hkey => exact absurd hkey (hevent _)
  | @rotated due rest _ _ hturns =>
    exact Listening.turns (s := { s with pathRotationSchedule := rest }) h hturns
  | @retried index _ huse => exact Listening.useChanges (s := s.dropTimer index) h huse
  | closed | suspended => exact fun _ _ hp => absurd hp not_mem_nil

lemma Listening.step (h : Listening none s) (hids : IdsInOrder s) (hapart : EdgesApart s)
    (event : Event) : Listening none (step env config clock s event) := by
  by_cases hevent : ∃ key, event = .connectionFailed key
  · obtain ⟨key, rfl⟩ := hevent
    exact h.failConnection hids hapart key
  · exact h.outcome hids hapart (outcome_step env config clock hids event)
      fun key heq => hevent ⟨key, heq⟩

/-- Every active path is watched in a run in which no active path comes from a rotation and no two
paths share an edge node. What the source does after it used a dangling
path (`usedDanglingPath`) is undefined; of such runs the statement is about the model only. -/
theorem all_watched_of_plain_edges (env : Environment) (config : RouterConfig)
    (cachedEdgeNodes : List CachedEdgeNode) (mnodeCache : List MasterNode) (mnodeStrikes : Strikes)
    (events : List (Clock × Event))
    (hplain : ∀ n, PlainEdges (run env config (start cachedEdgeNodes mnodeCache mnodeStrikes)
      (events.take n))) : AllWatched env config
      (run env config (start cachedEdgeNodes mnodeCache mnodeStrikes) events) := by
  have hlistening := run_along env config (Listening none) PlainEdges
    (fun _ event _ hids h hplain => h.step hids hplain.apart event)
    (.start cachedEdgeNodes mnodeCache mnodeStrikes)
    (fun _ _ hp => absurd hp not_mem_nil) hplain
  have hids := (run_invariant env config (fun _ => True) (fun _ _ _ _ _ _ _ => trivial)
    (.start cachedEdgeNodes mnodeCache mnodeStrikes) trivial events).1
  have hlast := hplain events.length
  rw [take_length] at hlast
  intro c p hp
  obtain ⟨key, hkey, hwatched⟩ := hlistening c p hp (hlast.unrotated c p hp)
  have hlistener := hwatched (Option.some_ne_none key)
  exact ⟨key, hkey, hlistener, fun clock => notMem_failConnection hids hlistener rfl⟩

lemma plainEdges_unrotated (n : Nat) :
    PlainEdges (run .plain sampleRouterConfig sampleStart ((rotationRun.take 4).take n)) := by
  rw [take_take]
  have hle : min n 4 ≤ 4 := Nat.min_le_right n 4
  generalize min n 4 = m at hle
  have hone : ∀ m, m ≤ 4 →
      (run .plain sampleRouterConfig sampleStart (rotationRun.take m)).held .file = [] ∧
      ∀ p ∈ (run .plain sampleRouterConfig sampleStart (rotationRun.take m)).held .standard,
        p.id = ⟨.standard, 0⟩ := by
    decide +kernel
  obtain ⟨hfile, hstandard⟩ := hone m hle
  generalize run .plain sampleRouterConfig sampleStart (rotationRun.take m) = s at hfile hstandard ⊢
  have hid : ∀ c, ∀ p ∈ s.held c, p.id = ⟨.standard, 0⟩ := by
    intro c p hp
    cases c with
    | standard => exact hstandard p hp
    | file =>
      rw [hfile] at hp
      exact absurd hp not_mem_nil
  refine ⟨fun c p hp => ?_, fun c c' p hp q hq _ => ?_⟩
  · rw [hid c p (mem_held.2 (.inl hp))]
    decide
  · exact (hid c p (mem_held.2 (.inl hp))).trans (hid c' q hq).symm

/-- So it is watched. -/
theorem all_watched_unrotated :
    (∀ n, PlainEdges (run .plain sampleRouterConfig sampleStart ((rotationRun.take 4).take n))) ∧
    AllWatched .plain sampleRouterConfig
      (run .plain sampleRouterConfig sampleStart (rotationRun.take 4)) :=
  ⟨plainEdges_unrotated, all_watched_of_plain_edges _ _ _ _ _ _ plainEdges_unrotated⟩

/-- The path from a rotation has no listener. -/
theorem rotated_path_unwatched : ¬ AllWatched .plain sampleRouterConfig
      (run .plain sampleRouterConfig sampleStart rotationRun) := by
  intro h
  have hnone : ∃ p ∈ (run .plain sampleRouterConfig sampleStart rotationRun).paths .standard,
      ∀ l ∈ (run .plain sampleRouterConfig sampleStart rotationRun).failureListeners,
        l.pathId ≠ p.id := by
    decide +kernel
  obtain ⟨p, hp, hnone⟩ := hnone
  obtain ⟨key, -, hl, -⟩ := h .standard p hp
  exact hnone _ hl rfl

end Bchat.Network.Router
