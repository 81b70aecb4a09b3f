import Bchat.Properties.PathIds

/-!
# The events of the router as outcomes

Each operation is a sequence of changes, given that the ids are in order before it, and each event
is one of the outcomes. So what every outcome keeps holds in every run.
-/

namespace Bchat.Network.Router

open Relation List Rows Function Nat

variable {env : Environment} {config : RouterConfig} {clock : Clock} {event : Event}
variable {s s' : Router} {request : Request} {place : PathCategory × Nat} {c : PathCategory}
  {id : PathId} {f g : OnionPath → OnionPath} {events : List (Clock × Event)}

lemma BuildChanges.quiet (h : SameTables s s') : BuildChanges config s s' :=
  ReflTransGen.single (.quiet h)

lemma BuildChanges.use (h : BuildChanges config s s') : UseChanges config s s' :=
  ReflTransGen.mono (fun _ _ => UseChange.build) _ _ h

lemma BuildChanges.failure (h : BuildChanges config s s') : FailureChanges config s s' :=
  ReflTransGen.mono (fun _ _ => FailureChange.build) _ _ h

lemma UseChanges.quiet (h : SameTables s s') : UseChanges config s s' :=
  (BuildChanges.quiet h).use

lemma IdsInOrder.buildChanges (h : IdsInOrder s) (hchanges : BuildChanges config s s') :
    IdsInOrder s' :=
  h.useChanges hchanges.use

/-! ## Building -/

lemma builds_buildPath (hids : IdsInOrder s) (c : PathCategory) (exclude : List MasterNode)
    {original : Option PathId} (horiginal : ∀ id ∈ original, FreeId s id)
    {edge : Option CachedEdgeNode} (hedge : ∀ e ∈ edge, e ∈ s.cachedEdgeNodes) :
    BuildChanges config s (buildPath env config c exclude original edge s) := by
  rw [buildPath]
  by_cases hsusp : s.suspended = true
  · rw [if_pos hsusp]
  rw [if_neg hsusp]
  by_cases hzero : config.pathLength = 0
  · rw [if_pos hzero]
    exact .quiet ⟨rfl, rfl, rfl, rfl, rfl, rfl, rfl, rfl, rfl, rfl, rfl, le_succ _⟩
  rw [if_neg hzero]
  by_cases hfew : (pathNodes env config edge (s.idMade.extractNodes ++ exclude) s.idMade).length
      < config.pathLength
  · rw [if_pos hfew]
    exact .quiet ⟨rfl, rfl, rfl, rfl, rfl, rfl, rfl, rfl, rfl, rfl, rfl, le_succ _⟩
  rw [if_neg hfew]
  have hquiet : BuildChanges config s s.idMade.drawn :=
    .quiet ⟨rfl, rfl, rfl, rfl, rfl, rfl, rfl, rfl, rfl, rfl, rfl, le_succ _⟩
  refine hquiet.tail (.addPending _ c ⟨?_, ?_, not_lt.1 hfew, hzero⟩)
  · cases original with
    | none =>
      have hlabel : c.label ≠ .rotation := by cases c <;> decide
      have hfresh := hids.fresh hlabel
      exact ⟨hfresh.number, hfresh.uses, hfresh.sent, hfresh.planned, hfresh.label⟩
    | some id =>
      have hfree := horiginal id rfl
      exact ⟨hfree.number.trans (lt_succ_self _), hfree.uses, hfree.sent, hfree.planned,
        hfree.label⟩
  · exact ⟨edge, exclude, _, hedge, rfl, rfl, unused_unusedNodes env config s.idMade _ _⟩

lemma builds_buildPath_new (hids : IdsInOrder s) (c : PathCategory) (exclude : List MasterNode) :
    BuildChanges config s (buildPath env config c exclude none none s) :=
  builds_buildPath hids c exclude (by rintro _ ⟨⟩) (by rintro _ ⟨⟩)

lemma builds_preBuildPathsIfNeeded (hids : IdsInOrder s) :
    BuildChanges config s (preBuildPathsIfNeeded env config s) := by
  rw [preBuildPathsIfNeeded]
  split
  · exact .refl
  -- the edge nodes that are left are cached ones
  refine (Loop.invariant (fun r : Router × List CachedEdgeNode => BuildChanges config s r.1 ∧
    r.1.cachedEdgeNodes = s.cachedEdgeNodes ∧ ∀ e ∈ r.2, e ∈ s.cachedEdgeNodes) ?_
    ⟨.refl, rfl, fun _ => id⟩).1
  rintro ⟨t, edges⟩ c - ⟨ht, hsame, hedges⟩
  refine ⟨ht.trans (builds_buildPath (hids.buildChanges ht) c [] (by rintro _ ⟨⟩) ?_), ?_, ?_⟩
  · intro e he
    rw [hsame]
    exact hedges e (mem_of_getLast? he)
  · obtain ⟨_, _, _, _, _, _, _, h⟩ := buildPath_eq env config c [] none edges.getLast? t
    rw [preBuildPath, h]
    exact hsame
  · intro e he
    exact hedges e (dropLast_subset edges he)

/-! ## Sending -/

lemma findValidPath_category (hmulti : config.singlePathMode = false)
    (h : findValidPath env config request s = some place) :
    toPathCategory request.category = place.1 := by
  rw [findValidPath, if_neg (by rw [hmulti]; decide)] at h
  dsimp only at h
  split at h
  · cases h
  split at h
  · split at h <;> cases h
    rfl
  split at h
  · cases h
  split at h <;> cases h
  rfl

lemma uses_sendOnPath
    (hcategory : config.singlePathMode = false → toPathCategory request.category = place.1)
    (s : Router) : UseChanges config s (sendOnPath env place request s) := by
  rw [sendOnPath]
  cases hget : (s.paths place.1)[place.2]? with
  | none => exact .quiet (by constructor <;> rfl)
  | some path =>
    dsimp only
    split
    · exact ReflTransGen.single (.send s hget hcategory)
    · exact .refl

lemma uses_shuffled (s : Router) : UseChanges config s s.shuffled :=
  .quiet (by constructor <;> rfl)

lemma uses_enqueue (s : Router) (c : PathCategory) (request : Request) :
    UseChanges config s (s.enqueue c request) :=
  .quiet (by constructor <;> rfl)

lemma uses_setQueue (s : Router) (c : PathCategory) (queue : List Request) :
    UseChanges config s (s.setQueue c queue) :=
  .quiet (by constructor <;> rfl)

lemma uses_sendRequestInternal (hids : IdsInOrder s) (request : Request) :
    UseChanges config s (sendRequestInternal env config request s) := by
  rw [sendRequestInternal]
  split
  · exact .refl
  generalize (if config.singlePathMode = true then PathCategory.standard
    else toPathCategory request.category) = c
  split
  · exact uses_enqueue s c request
  cases hvalid : findValidPath env config request s with
  | some place =>
    exact (uses_shuffled s).trans
      (uses_sendOnPath (fun hmulti => findValidPath_category hmulti hvalid) _)
  | none =>
    dsimp only
    have hqueued : UseChanges config s (s.shuffled.enqueue c request) :=
      (uses_shuffled s).trans (uses_enqueue s.shuffled c request)
    generalize s.shuffled.enqueue c request = t at hqueued ⊢
    by_cases hbuild : if config.singlePathMode = true then
        (t.paths c).length + t.inProgressPathBuilds c = 0
      else (t.paths c).length + t.inProgressPathBuilds c < config.minPathCounts c
    · rw [if_pos hbuild]
      exact hqueued.trans ((builds_buildPath_new (hids.useChanges hqueued) c []).use)
    · rw [if_neg hbuild]
      exact hqueued

lemma uses_sendQueued (queue : List Request) (s : Router) :
    UseChanges config s (sendQueued env config queue s).1 := by
  induction queue generalizing s with
  | nil => exact .refl
  | cons request rest ih =>
    rw [sendQueued]
    cases hvalid : findValidPath env config request s with
    | some place =>
      have hsend : UseChanges config s.shuffled (sendOnPath env place request s.shuffled) :=
        uses_sendOnPath (fun hmulti => findValidPath_category hmulti hvalid) _
      exact (uses_shuffled s).trans (hsend.trans (ih _))
    | none => exact (uses_shuffled s).trans (ih _)

lemma uses_requeue (hids : IdsInOrder s) (c : PathCategory) (unsent : List Request) :
    UseChanges config s (requeue env config c unsent s) := by
  rw [requeue]
  split
  · exact .refl
  have hqueued : UseChanges config s (s.setQueue c (unsent ++ s.requestQueues c)) :=
    uses_setQueue s c _
  generalize s.setQueue c (unsent ++ s.requestQueues c) = t at hqueued ⊢
  by_cases hbuild : t.inProgressPathBuilds c = 0
  · rw [if_pos hbuild]
    exact hqueued.trans ((builds_buildPath_new (hids.useChanges hqueued) c []).use)
  · rw [if_neg hbuild]
    exact hqueued

/-! ## Activation -/

lemma sendOnPath_ids (place : PathCategory × Nat) (request : Request) (s : Router)
    (c : PathCategory) : ((sendOnPath env place request s).paths c).map OnionPath.id
      = (s.paths c).map OnionPath.id := by
  rw [sendOnPath]
  cases (s.paths place.1)[place.2]? with
  | none => rfl
  | some path =>
    dsimp only
    split
    · exact recordSent_ids s place.1 c place.2 path request
    · rfl

lemma exists_findValidPath (env : Environment) (hsingle : config.singlePathMode = true)
    (hc : s.paths c ≠ []) (request : Request) :
    ∃ place, findValidPath env config request s = some place := by
  rw [findValidPath, if_pos hsingle]
  have hmem : c ∈ env.categoryOrder s.shuffles := by
    rw [(env.categoryOrder_perm s.shuffles).mem_iff]
    cases c <;> decide
  have hsome : ((env.categoryOrder s.shuffles).find? fun c => !(s.paths c).isEmpty).isSome := by
    rw [find?_isSome]
    exact ⟨c, hmem, by simpa using hc⟩
  obtain ⟨c', hc'⟩ := Option.isSome_iff_exists.1 hsome
  exact ⟨(c', 0), by rw [hc', Option.map_some]⟩

lemma sendQueued_single (hsingle : config.singlePathMode = true) (queue : List Request)
    (hc : s.paths c ≠ []) : (sendQueued env config queue s).2 = [] := by
  induction queue generalizing s with
  | nil => rfl
  | cons request rest ih =>
    obtain ⟨place, hplace⟩ := exists_findValidPath env hsingle hc request
    rw [sendQueued, hplace]
    refine ih fun hnil => hc ?_
    have hids : ((sendOnPath env place request s.shuffled).paths c).map OnionPath.id
        = (s.paths c).map OnionPath.id := sendOnPath_ids place request s.shuffled c
    rw [hnil] at hids
    exact map_eq_nil_iff.1 hids.symm

lemma uses_startUsing (env : Environment) (hids : IdsInOrder s) (hc : s.paths c ≠ [])
    (pathId : PathId) (edgeNode : MasterNode) :
    ∃ t, UseChanges config s t ∧ startUsing env config c pathId edgeNode s =
      t.addFailureListener edgeNode.remotePubkey pathId c := by
  have hsent : UseChanges config s
      (sendQueued env config (s.requestQueues c) (s.setQueue c [])).1 :=
    (uses_setQueue s c []).trans (uses_sendQueued _ _)
  refine ⟨requeue env config c (sendQueued env config (s.requestQueues c) (s.setQueue c [])).2 _,
    hsent.trans (uses_requeue (hids.useChanges hsent) c _), ?_⟩
  refine if_neg ?_
  rintro ⟨hunsent, hsingle⟩
  exact hunsent (sendQueued_single hsingle _ hc)

lemma retryBuild_cases (config : RouterConfig) (c : PathCategory) (pending : PendingPath)
    (edgeNode : MasterNode) {t : Router} (h : SameTables (s.failPending pending.id none) t) :
    ∃ timer : Option RetryTimer, (∀ x ∈ timer, x.pathId = pending.id) ∧
      SameTables (s.failPending pending.id timer) (retryBuild config c pending edgeNode t) := by
  have htimers : t.retryTimers = s.retryTimers := h.timers.trans (append_nil _)
  rw [retryBuild]
  split
  · exact ⟨none, by rintro _ ⟨⟩, h.paths, h.dying, h.pending, h.schedule, h.rotations, h.listeners,
      h.sent, h.timers, h.file, h.edges, h.cache, h.ids⟩
  refine ⟨some ⟨c, edgeNode, pending.id⟩, by rintro _ ⟨⟩; rfl, h.paths, h.dying, h.pending,
    h.schedule, h.rotations, h.listeners, h.sent, ?_, h.file, h.edges, h.cache, h.ids⟩
  rw [failPending, ← htimers]
  rfl

lemma outcome_answerCheck (hids : IdsInOrder s) (index : Nat) (success : Bool)
    (errorCode : Option UInt64) :
    Outcome config clock event s (answerCheck env config clock index success errorCode s) := by
  rw [answerCheck]
  cases s.connectivityChecks[index]? with
  | none => exact .used .refl
  | some check =>
    obtain ⟨pathId, category⟩ := check
    dsimp only
    rw [onEdgeConnectivityResponse]
    cases hfind : find PendingPath.id pathId s.pendingPaths with
    | none =>
      exact .used (.quiet (by constructor <;> rfl))
    | some pending =>
      obtain rfl : pending.id = pathId := find_key hfind
      dsimp only
      cases hnodes : pending.nodes with
      | nil =>
        refine .checkFailed none hfind (by rintro _ ⟨⟩) ?_
        exact ⟨rfl, rfl, rfl, rfl, rfl, rfl, rfl, (append_nil _).symm, rfl, rfl, rfl, le_refl _⟩
      | cons edgeNode rest =>
        dsimp only
        set left : Router := { s with
          connectivityChecks := s.connectivityChecks.eraseIdx index
          pendingPaths := erase PendingPath.id pending.id s.pendingPaths
          inProgressPathBuilds := update s.inProgressPathBuilds category
            (s.inProgressPathBuilds category - 1) }
        split
        · -- the path becomes active
          have hkey : pending.nodes.head?.map (·.remotePubkey) = some edgeNode.remotePubkey := by
            rw [hnodes]
            rfl
          have hquiet : SameTables
              (activatePath config clock category pending (s.failPending pending.id none))
              (activatePath config clock category pending left) :=
            ⟨rfl, rfl, rfl, rfl, rfl, rfl, rfl, (append_nil _).symm, rfl, rfl, rfl, le_refl _⟩
          have hactive := (hids.activatePath hfind category).sameTables hquiet
          generalize activatePath config clock category pending left = u at hquiet hactive ⊢
          have hc : u.paths category ≠ [] := by
            rw [hquiet.paths, activatePath_paths_self]
            exact append_ne_nil_of_right_ne_nil _ (cons_ne_nil _ _)
          obtain ⟨t, ht, heq⟩ := uses_startUsing env hactive hc pending.id edgeNode
          rw [heq]
          exact .activated hfind hkey ((UseChanges.quiet hquiet).trans ht)
        -- the check failed
        have hstruck : SameTables (s.failPending pending.id none)
            (if errorCode.any (· ≠ env.handshakeTimeout) then
              strikeNode config clock left edgeNode.remotePubkey false
            else left) := by
          split <;> exact ⟨rfl, rfl, rfl, rfl, rfl, rfl, rfl, (append_nil _).symm, rfl, rfl,
            rfl, le_refl _⟩
        obtain ⟨timer, htimer, hsame⟩ := retryBuild_cases config category pending edgeNode hstruck
        exact .checkFailed timer hfind htimer hsame

/-! ## Failures -/

lemma modifyPath_congr (h : ∀ p, s.findPath c id = some p → f p = g p) :
    s.modifyPath c id f = s.modifyPath c id g := by
  rw [modifyPath, modifyPath, modify_congr h]

lemma findPath_modifyPath {path : OnionPath} (h : s.findPath c id = some path)
    (hf : (f path).id = path.id) : (s.modifyPath c id f).findPath c id = some (f path) := by
  rw [findPath, modifyPath_paths_self]
  exact find_modify h (hf.trans (find_key h))

lemma sameTables_penalize (keys : List Pubkey) (isPermanent : Bool) (s : Router) :
    SameTables s (penalize config clock keys isPermanent s) := by
  rw [penalize_eq]
  constructor <;> rfl

lemma fails_rebuildIfNeeded (hids : IdsInOrder s) (c : PathCategory) (exclude : List MasterNode) :
    FailureChanges config s (rebuildIfNeeded env config c exclude s) := by
  rcases rebuildIfNeeded_cases env config c exclude s with h | h
  · rw [h]
    exact (builds_buildPath_new hids c exclude).failure
  · rw [h]

lemma fails_handlePathFailure (hids : IdsInOrder s) (pathId : PathId) (c : PathCategory)
    (alreadyPenalized : List Pubkey) :
    FailureChanges config s (handlePathFailure env config clock pathId c alreadyPenalized s) := by
  rw [handlePathFailure]
  cases hfind : s.findPath c pathId with
  | none => exact .refl
  | some found =>
    obtain rfl : found.id = pathId := find_key hfind
    dsimp only
    generalize (if found.strikeCount < config.pathStrikeThreshold then found.strikeCount + 1
      else found.strikeCount) = count
    set struck : OnionPath := { found with strikeCount := count }
    -- first the failure is counted
    have hcount : FailureChanges config s (s.modifyPath c found.id fun _ => struck) := by
      rw [modifyPath_congr (g := fun p => { p with strikeCount := count })]
      · exact ReflTransGen.single (.strike s c found.id count)
      intro p hp
      cases hfind.symm.trans hp
      rfl
    have hfind1 : (s.modifyPath c found.id fun _ => struck).findPath c found.id = some struck :=
      findPath_modifyPath hfind rfl
    generalize (s.modifyPath c found.id fun _ => struck) = t at hcount hfind1 ⊢
    split
    · exact hcount
    -- then its nodes are struck, and it is retired
    have hsame : SameTables t (strikePath config clock struck alreadyPenalized t) := by
      exact sameTables_penalize _ _ t
    generalize strikePath config clock struck alreadyPenalized t = u at hsame ⊢
    have hfind2 : u.findPath c found.id = some struck := by
      rw [findPath, hsame.paths]
      exact hfind1
    have hretire : FailureChange config u ((u.removeFailureListeners struck).retirePath c struck) :=
      .retire u hfind2
    have hretired := (hcount.tail (.build (.quiet hsame))).tail hretire
    exact hretired.trans (fails_rebuildIfNeeded (hids.failureChanges hretired) c _)

lemma fails_maxOutPath (c : PathCategory) (pathId : PathId) (s : Router) :
    FailureChanges config s (maxOutPath config c pathId s) :=
  ReflTransGen.single (.strike s c pathId _)

lemma fails_tryRepairPath (pathId : PathId) (c : PathCategory) (key : Pubkey) (s : Router) :
    FailureChanges config s (tryRepairPath env config pathId c key s) := by
  rcases tryRepairPath_cases env config pathId c key s with ⟨h, -⟩ | ⟨path, f, t, hfind, ht, hf, h⟩
  · rw [h]
  have hquiet : SameTables s t := by
    rcases ht with rfl | rfl <;> constructor <;> rfl
  have hstrikes : t.mnodeStrikes = s.mnodeStrikes := by rcases ht with rfl | rfl <;> rfl
  have hfindt : t.findPath c pathId = some path := by
    rw [findPath, hquiet.paths]
    exact hfind
  have hid := find_key hfind
  rw [h]
  refine (BuildChanges.quiet hquiet).failure.tail ?_
  rcases hf with hf | ⟨i, r, hi, -, hr, hf⟩
  · rw [modifyPath_congr (g := fun p => { p with strikeCount := config.pathStrikeThreshold })]
    · exact .strike t c pathId _
    intro p hp
    cases hfindt.symm.trans hp
    exact hf
  rw [modifyPath_congr (g := fun p => { p with nodes := p.nodes.set i r }), ← hid]
  · rw [← hid] at hfindt
    have hun := unused_unusedNodes env config s 1 s.extractNodes
    refine .repair t hfindt hi ?_ hr
    have hext : t.extractNodes = s.extractNodes := by
      rw [extractNodes, hquiet.paths, hquiet.pending, extractNodes]
    rw [hquiet.cache, hstrikes, hext]
    exact hun
  intro p hp
  cases hfindt.symm.trans hp
  exact hf

lemma fails_repairPaths (pathId : PathId) (s : Router) :
    FailureChanges config s (repairPaths env config clock pathId s) := by
  refine Loop.rel (fun _ => .refl) (fun _ _ _ => ReflTransGen.trans) _ ?_ s
  intro t c _
  refine Loop.rel (fun _ => .refl) (fun _ _ _ => ReflTransGen.trans) _ ?_ t
  intro u index _
  rw [repairAt]
  split
  · exact .refl
  refine Loop.rel (fun _ => .refl) (fun _ _ _ => ReflTransGen.trans) _ ?_ u
  intro v key _
  exact fails_tryRepairPath pathId c key v

lemma fails_retirePaths (hids : IdsInOrder s) (failed : List (PathCategory × PathId))
    (alreadyPenalized : List Pubkey) :
    FailureChanges config s (retirePaths env config clock failed alreadyPenalized s) := by
  refine Loop.invariant (FailureChanges config s) ?_ .refl
  intro t p _ ht
  exact ht.trans (fails_handlePathFailure (hids.failureChanges ht) p.2 p.1 alreadyPenalized)

lemma fails_handleError (hids : IdsInOrder s) (pathId : PathId) (request : Request)
    (pattern : ErrorBehaviour) (extracted : Option Bytes) :
    FailureChanges config s (handleError env config clock pathId request pattern extracted s) := by
  rw [handleError]
  have hpenalized : FailureChanges config s (penalize config clock
      (s.penalizedNodes pathId request pattern extracted) pattern.forceRemoveNode s) :=
    (BuildChanges.quiet (sameTables_penalize _ _ s)).failure
  generalize penalize config clock (s.penalizedNodes pathId request pattern extracted)
    pattern.forceRemoveNode s = t at hpenalized ⊢
  have hrepaired : FailureChanges config s (repairPaths env config clock pathId t) :=
    hpenalized.trans (fails_repairPaths pathId t)
  exact hrepaired.trans (fails_retirePaths (hids.failureChanges hrepaired) _ _)

lemma fails_parsedError (hids : IdsInOrder s) (sent : SentRequest) (answer : TransportResponse) :
    FailureChanges config s
      (match parsedError env sent.request (decryptResponse env sent answer) with
      | some (pattern, extracted) =>
        handleError env config clock sent.pathId sent.request pattern extracted s
      | none => s) := by
  split
  · exact fails_handleError hids _ _ _ _
  · exact .refl

lemma outcome_answerRequest (hids : IdsInOrder s) (index : Nat) (answer : TransportResponse) :
    Outcome config clock event s (answerRequest env config clock index answer s) := by
  rw [answerRequest]
  cases hget : s.sentRequests[index]? with
  | none => exact .used .refl
  | some sent =>
    dsimp only
    have hfail := @fails_parsedError env config clock s hids sent answer
    cases hsent : sent.rotateAt with
    | none => exact .answered hfail hget hsent
    | some rotateAt => exact .verified hfail hget hsent _ _

lemma IdsInOrder.dropListeners (h : IdsInOrder s) (key : Pubkey) :
    IdsInOrder (s.dropListeners key) := ⟨h.1, h.2, h.3, h.4, h.5, h.6⟩

lemma fails_failConnection (hids : IdsInOrder s) (key : Pubkey) :
    FailureChanges config (s.dropListeners key) (failConnection env config clock key s) := by
  refine Loop.invariant (FailureChanges config (s.dropListeners key)) ?_ .refl
  intro t listener _ ht
  have hmaxed := ht.trans (fails_maxOutPath listener.category listener.pathId t)
  exact hmaxed.trans
    (fails_handlePathFailure ((hids.dropListeners key).failureChanges hmaxed) _ _ _)

/-! ## Rotation -/

lemma modifyPath_modifyPath (hf : ∀ p, (f p).id = p.id) :
    (s.modifyPath c id f).modifyPath c id g = s.modifyPath c id fun p => g (f p) := by
  rw [modifyPath, modifyPath_paths_self, modifyPath, modifyPath, modify_modify]
  · simp only [update_idem]
  · exact fun p hp => (hf p).trans (find_key hp)

lemma extractNodes_modifyPath (hf : ∀ p, (f p).nodes = p.nodes) :
    (s.modifyPath c id f).extractNodes = s.extractNodes := by
  have hnodes : ∀ c', ((s.modifyPath c id f).paths c').flatMap (·.nodes)
      = (s.paths c').flatMap (·.nodes) := by
    intro c'
    by_cases hc : c' = c
    · subst hc
      have hmap : (modify OnionPath.id id f (s.paths c')).map (·.nodes)
          = (s.paths c').map (·.nodes) := map_modify (·.nodes) fun p _ => hf p
      rw [modifyPath_paths_self, flatMap_def, hmap, flatMap_def]
    · rw [modifyPath_paths_of_ne s hc]
  rw [extractNodes, flatMap_append, hnodes, hnodes, ← flatMap_append]
  rfl

lemma replaces_rotatedNodes (env : Environment) (s : Router) (path : OnionPath) :
    Replaces config clock s path (rotatedNodes env config clock path s.extractNodes s) := by
  rw [rotatedNodes]
  split
  · rename_i hexpired
    exact .newEdge hexpired (unused_unusedNodes env config s _ _)
  · exact .sameEdge (unused_unusedNodes env config s _ _)

lemma onRotationVerificationResponse_undone (clock : Clock) {t : Router}
    {pending : PendingRotation} {oldPath : OnionPath}
    (hnew : pending.newPathId ∉ t.pendingRotationPaths.map PendingRotation.newPathId)
    (hold : t.findPath pending.category pending.oldPathId = some oldPath) (rotateAt : Int) :
    onRotationVerificationResponse clock pending.newPathId false false rotateAt
        { t with pendingRotationPaths := t.pendingRotationPaths ++ [pending] } =
      postponeRotation clock pending.category pending.oldPathId t := by
  have hfind : find PendingRotation.newPathId pending.newPathId
      (t.pendingRotationPaths ++ [pending]) = some pending := by
    have hnone := find_eq_none.2 hnew
    rw [find] at hnone
    rw [find, find?_append, hnone]
    simp
  have htake : takeRotation pending.newPathId
      { t with pendingRotationPaths := t.pendingRotationPaths ++ [pending] } = t := by
    rw [takeRotation]
    simp only [erase_append_singleton hnew rfl]
  rw [onRotationVerificationResponse]
  rw [hfind]
  dsimp only
  rw [htake]
  have hold' : findPath { t with pendingRotationPaths := t.pendingRotationPaths ++ [pending] }
      pending.category pending.oldPathId = some oldPath := hold
  rw [hold']
  rfl

lemma turn_rotatePath (hids : IdsInOrder s) (entry : ScheduledRotation) :
    Turn config clock entry s (rotatePath env config clock s entry) := by
  rw [rotatePath]
  cases hfind : s.findPath entry.category entry.pathId with
  | none =>
    refine .skip s fun path hpath => ?_
    rw [hfind] at hpath
    cases hpath
  | some path =>
    dsimp only
    split
    · rename_i hflag
      refine .skip s fun path' hpath => ?_
      rw [hfind] at hpath
      cases hpath
      exact hflag
    rename_i hflag
    rw [Bool.not_eq_true] at hflag
    have hmark : (s.modifyPath entry.category entry.pathId fun p =>
        { p with rotationInProgress := true }) = markRotating entry s := rfl
    rw [hmark]
    have hext : (markRotating entry s).idMade.extractNodes = s.extractNodes :=
      extractNodes_modifyPath fun _ => rfl
    have hnodes : Replaces config clock s path (rotatedNodes env config clock path
        (markRotating entry s).idMade.extractNodes (markRotating entry s).idMade) := by
      rw [hext]
      exact replaces_rotatedNodes env s path
    generalize rotatedNodes env config clock path
      (markRotating entry s).idMade.extractNodes (markRotating entry s).idMade = nodes at hnodes ⊢
    have hundone : ∀ t : Router, t.paths = (markRotating entry s).paths →
        (postponeRotation clock entry.category entry.pathId t).paths =
          (postponeRotation clock entry.category entry.pathId s).paths := by
      intro t ht
      have htwice : ((markRotating entry s).modifyPath entry.category entry.pathId fun p =>
          { p with rotationInProgress := false }) = s.modifyPath entry.category entry.pathId
            fun p => { p with rotationInProgress := false } :=
        modifyPath_modifyPath fun _ => rfl
      have hpaths := congrArg Router.paths htwice
      rw [modifyPath, ← ht] at hpaths
      exact hpaths
    split
    · exact .postpone hfind hflag
        ⟨hundone _ rfl, rfl, rfl, rfl, rfl, rfl, rfl, rfl, rfl, rfl, rfl, le_succ _⟩
    rename_i hlength
    rw [not_lt] at hlength
    split
    · exact .postpone hfind hflag
        ⟨hundone _ rfl, rfl, rfl, rfl, rfl, rfl, rfl, rfl, rfl, rfl, rfl, le_succ _⟩
    rw [verifyRotation]
    split
    · exact .start hfind hflag hnodes hlength (by constructor <;> rfl)
    have hmarked : (markRotating entry s).idMade.drawn.drawn.findPath entry.category
        entry.pathId = some { path with rotationInProgress := true } :=
      findPath_modifyPath hfind rfl
    have hnew : (rotationOf clock s entry path nodes).newPathId ∉
        (markRotating entry s).idMade.drawn.drawn.pendingRotationPaths.map
          PendingRotation.newPathId :=
      fun hmem => absurd (hids.newPathId_lt _ hmem) (lt_irrefl _)
    have hundo := onRotationVerificationResponse_undone clock hnew hmarked
      (clock.steady + config.pathRotationFrequency)
    have hsame : SameTables (postponeRotation clock entry.category entry.pathId s)
        (postponeRotation clock entry.category entry.pathId
          (markRotating entry s).idMade.drawn.drawn) :=
      ⟨hundone _ rfl, rfl, rfl, rfl, rfl, rfl, rfl, rfl, rfl, rfl, rfl, le_succ _⟩
    exact .postpone hfind hflag (Eq.subst (motive := SameTables _) hundo.symm hsame)

lemma turns_foldl (hids : IdsInOrder s) (due : List ScheduledRotation) :
    Turns config clock due s (due.foldl (rotatePath env config clock) s) := by
  induction due generalizing s with
  | nil => exact .nil s
  | cons entry rest ih =>
    have hturn : Turn config clock entry s (rotatePath env config clock s entry) :=
      turn_rotatePath hids entry
    exact .cons hturn (ih (hids.turn hturn))

/-! ## Events -/

lemma IdsInOrder.freeId_dropTimer (h : IdsInOrder s) {index : Nat} {timer : RetryTimer}
    (hget : s.retryTimers[index]? = some timer) : FreeId (s.dropTimer index) timer.pathId := by
  obtain ⟨hlt, heq⟩ := List.getElem?_eq_some_iff.1 hget
  have hperm := ((List.getElem_cons_eraseIdx_perm hlt).map RetryTimer.pathId).count_eq timer.pathId
  rw [heq, List.map_cons, List.count_cons_self] at hperm
  have hle := h.uses_le timer.pathId
  have hmem : timer.pathId ∈ s.pendingPaths.map PendingPath.id ++
      s.retryTimers.map RetryTimer.pathId :=
    List.mem_append_right _ (List.mem_map_of_mem (List.mem_of_getElem? hget))
  obtain ⟨hsent, hplanned, hlabel⟩ := h.pending _ hmem
  rw [uses] at hle
  refine ⟨h.used _ ?_, ?_, hsent, hplanned, hlabel⟩
  · rw [uses]
    omega
  rw [uses, Router.dropTimer]
  dsimp only
  omega

lemma outcome_fireRetryTimer (hids : IdsInOrder s) (index : Nat) :
    Outcome config clock event s (fireRetryTimer env config index s) := by
  rw [fireRetryTimer]
  cases hget : s.retryTimers[index]? with
  | none => exact .used .refl
  | some timer =>
    have hbuild : BuildChanges config (s.dropTimer index) (buildPath env config timer.category
        [timer.failedEdge] (some timer.pathId) none (s.dropTimer index)) := by
      refine builds_buildPath (hids.dropTimer index) timer.category _ ?_ (by rintro _ ⟨⟩)
      rintro _ ⟨⟩
      exact hids.freeId_dropTimer hget
    exact .retried hbuild.use

lemma uses_resumeBuild (hids : IdsInOrder s) (index : Nat) :
    UseChanges config s (resumeBuild env config index s) := by
  rw [resumeBuild]
  cases s.waitingBuilds[index]? with
  | none => exact .refl
  | some build =>
    have hquiet : BuildChanges config s
        { s with waitingBuilds := s.waitingBuilds.eraseIdx index } :=
      .quiet (by constructor <;> rfl)
    exact BuildChanges.use
      (hquiet.trans (builds_buildPath_new (hids.buildChanges hquiet) build.category _))

lemma uses_resume (hids : IdsInOrder s) (automaticallyReconnect : Bool) :
    UseChanges config s (resume env config automaticallyReconnect s) := by
  rw [resume]
  split
  · exact .refl
  have hquiet : BuildChanges config s { s with suspended := false } :=
    .quiet (by constructor <;> rfl)
  split
  · exact BuildChanges.use (hquiet.trans (builds_preBuildPathsIfNeeded (hids.buildChanges hquiet)))
  · exact hquiet.use

lemma uses_finishSetup (hids : IdsInOrder s) : UseChanges config s (finishSetup env config s) := by
  have hquiet : BuildChanges config s { s with ready := true } :=
    .quiet (by constructor <;> rfl)
  have hbuilt : BuildChanges config s (preBuildPathsIfNeeded env config { s with ready := true }) :=
    hquiet.trans (builds_preBuildPathsIfNeeded (hids.buildChanges hquiet))
  refine Loop.invariant (UseChanges config s) ?_ hbuilt.use
  intro t c _ ht
  refine Loop.invariant (UseChanges config s) ?_ (ht.trans (uses_setQueue t c []))
  intro u request _ hu
  exact hu.trans (uses_sendRequestInternal (hids.useChanges hu) request)

lemma outcome_step (env : Environment) (config : RouterConfig) (clock : Clock)
    (hids : IdsInOrder s) (event : Event) :
    Outcome config clock event s (step env config clock s event) := by
  cases event with
  | sendRequest request => exact .used (uses_sendRequestInternal hids request)
  | connectivityResponse index success errorCode =>
    exact outcome_answerCheck hids index success errorCode
  | transportResponse index answer => exact outcome_answerRequest hids index answer
  | connectionFailed key => exact .disconnected rfl (fails_failConnection hids key)
  | rotationTimer =>
    have hrest := hids.setSchedule
      (dropWhile_suffix fun e : ScheduledRotation => decide (e.rotateAt ≤ clock.steady)).subset
    exact .rotated takeWhile_append_dropWhile.symm (turns_foldl hrest _)
  | retryTimer index => exact outcome_fireRetryTimer hids index
  | poolRefreshed index => exact .used (uses_resumeBuild hids index)
  | poolChanged mnodeCache mnodeStrikes => exact .refilled rfl
  | requestTimedOut c requestId => exact .used (uses_setQueue s c _)
  | finishSetup => exact .used (uses_finishSetup hids)
  | suspend => exact .suspended rfl (env.categoryOrder_perm s.shuffles)
  | resume automaticallyReconnect => exact .used (uses_resume hids automaticallyReconnect)
  | closeConnections => exact .closed rfl
  | clearCache => exact .clearedCache

/-! ## Runs -/

lemma run_invariant (env : Environment) (config : RouterConfig) (Inv : Router → Prop)
    (hout : ∀ clock event s s', IdsInOrder s → Inv s → Outcome config clock event s s' → Inv s')
    (hids : IdsInOrder s) (hs : Inv s) (events : List (Clock × Event)) :
    IdsInOrder (run env config s events) ∧ Inv (run env config s events) := by
  refine Loop.invariant (fun s => IdsInOrder s ∧ Inv s) ?_ ⟨hids, hs⟩
  rintro t ⟨clock, event⟩ _ ⟨hids, ht⟩
  have hstep := outcome_step env config clock hids event
  exact ⟨hids.outcome hstep, hout clock event t _ hids ht hstep⟩

lemma run_along (env : Environment) (config : RouterConfig) (Inv P : Router → Prop)
    (hstep : ∀ clock event s, IdsInOrder s → Inv s → P s → Inv (step env config clock s event))
    (hids : IdsInOrder s) (hs : Inv s) (hP : ∀ n, P (run env config s (events.take n))) :
    Inv (run env config s events) := by
  induction events generalizing s with
  | nil => exact hs
  | cons e rest ih =>
    exact ih (hids.outcome (outcome_step env config e.1 hids e.2))
      (hstep e.1 e.2 s hids hs (hP 0)) fun n => hP (n + 1)

lemma run_invariant_along (env : Environment) (config : RouterConfig) (Inv P : Router → Prop)
    (hout : ∀ clock event s s', IdsInOrder s → Inv s → P s → Outcome config clock event s s' →
      Inv s') (hids : IdsInOrder s) (hs : Inv s) (hP : ∀ n, P (run env config s (events.take n))) :
    Inv (run env config s events) :=
  run_along env config Inv P (fun clock event s hids hs hP =>
    hout clock event s _ hids hs hP (outcome_step env config clock hids event)) hids hs hP

/-- **In every run the paths have ids of their own**: none is used twice among the paths in use, to
be dropped, being built, rotated or retried, and no request goes over a path that is being built.
Ids are counted without a bound; the numbers are those of the source while no more than `2 ^ 32`
were made. -/
theorem path_ids_unique (env : Environment) (config : RouterConfig)
    (cachedEdgeNodes : List CachedEdgeNode) (mnodeCache : List MasterNode) (mnodeStrikes : Strikes)
    (events : List (Clock × Event)) :
    let s := run env config (start cachedEdgeNodes mnodeCache mnodeStrikes) events
    (∀ id, s.uses id ≤ 1 ∧ (s.uses id ≠ 0 → id.number < s.uniqueIds)) ∧
      (s.uniqueIds ≤ 2 ^ 32 → ∀ id, s.uses id ≠ 0 → id.number < 2 ^ 32) ∧
      ∀ id ∈ s.pendingPaths.map PendingPath.id, id ∉ s.sentRequests.map SentRequest.pathId := by
  have h := (run_invariant env config (fun _ => True) (fun _ _ _ _ _ _ _ => trivial)
    (.start cachedEdgeNodes mnodeCache mnodeStrikes) trivial events).1
  exact ⟨fun id => ⟨h.uses_le id, h.used id⟩, fun hfew id hid => (h.used id hid).trans_le hfew,
    fun id hid => (h.pending id (List.mem_append_left _ hid)).1⟩

end Bchat.Network.Router
