import Bchat.Properties.ErrorHandling

/-!
# Struck-out nodes

After an error no active path should hold a node with too many strikes: such a node is replaced, or
its path is retired. The loop that looks for these nodes goes over all paths, but repairs the path
of the request every time, so a struck-out node stays on any other path.
-/

namespace Bchat.Network.Router

variable {env : Environment} {config : RouterConfig} {clock : Clock} {pattern : ErrorBehaviour}

/-- No active path holds a node whose strikes reach the threshold. -/
def NoStruckOutNode (config : RouterConfig) (clock : Clock) (s : Router) : Prop :=
  ∀ c, ∀ p ∈ s.paths c, ∀ k ∈ p.keys, ¬ IsStruckOut config clock s.mnodeStrikes k

def DisjointPaths (s : Router) : Prop :=
  ∀ c, ∀ p ∈ s.paths c, ∀ c', ∀ q ∈ s.paths c', p.id ≠ q.id → ∀ k ∈ p.keys, k ∉ q.keys

def OtherPathsSound (config : RouterConfig) (clock : Clock) (pathId : PathId) (request : Request)
    (pattern : ErrorBehaviour) (extracted : Option Bytes) (s : Router) : Prop :=
  ∀ c, ∀ p ∈ s.paths c, p.id ≠ pathId → config.pathStrikeThreshold ≤ p.strikeCount ∨
    ∀ k ∈ p.keys, ¬ IsStruckOut config clock (penalize config clock
      (s.penalizedNodes pathId request pattern extracted) pattern.forceRemoveNode s).mnodeStrikes k

/-! ## Each phase -/

lemma Repairs.disjointPaths {bad : Pubkey → Prop} {pathId : PathId} {s s' : Router}
    (h : Repairs bad pathId s s') (hdisj : DisjointPaths s) : DisjointPaths s' := by
  -- it is enough to compare the repaired path with an untouched one
  have hmixed : ∀ c, ∀ p' ∈ s'.paths c, p'.id = pathId → ∀ c', ∀ q ∈ s.paths c', q.id ≠ pathId →
      ∀ k ∈ p'.keys, k ∉ q.keys := by
    intro c p' hp' hid c' q hq hqid k hk
    have hmem : p'.id ∈ (s.paths c).map OnionPath.id := by
      rw [← h.ids c]
      exact List.mem_map_of_mem hp'
    obtain ⟨p, hp, hpid⟩ := List.mem_map.1 hmem
    rcases h.gained c p hp p' hp' (hpid.trans hid) hid k hk with hk | hk
    · exact hdisj c p hp c' q hq (by rw [hpid, hid]; exact Ne.symm hqid) k hk
    · exact hk c' q hq hqid
  intro c p hp c' q hq hne k hkp hkq
  by_cases hpid : p.id = pathId
  · have hqid : q.id ≠ pathId := fun hqid => hne (hpid.trans hqid.symm)
    exact hmixed c p hp hpid c' q ((h.others c' q hqid).1 hq) hqid k hkp hkq
  by_cases hqid : q.id = pathId
  · exact hmixed c' q hq hqid c p ((h.others c p hpid).1 hp) hpid k hkq hkp
  · exact hdisj c p ((h.others c p hpid).1 hp) c' q ((h.others c' q hqid).1 hq) hne k hkp hkq

lemma Failures.strikes_eq {failed : List (PathCategory × PathId)} {penalized : List Pubkey}
    {s s' : Router} (h : Failures clock failed penalized s s') (hids : UniqueIds s)
    (hdisj : DisjointPaths s) {c : PathCategory} {q : OnionPath} (hq : q ∈ s.paths c)
    (hleft : q.id ∈ (s'.paths c).map OnionPath.id) {k : Pubkey} (hk : k ∈ q.keys) :
    s'.mnodeStrikes k = s.mnodeStrikes k := by
  obtain ⟨n, hn, hn'⟩ := h.struck k
  by_cases hn0 : n = 0
  · rw [hn, hn0, List.replicate_zero, List.append_nil]
  obtain ⟨c', q', hq', -, hk', -, hgone⟩ := hn' hn0
  by_cases hid : q.id = q'.id
  · have hc := hids.category_eq hq hq' hid
    subst hc
    exact absurd (hid ▸ hleft) hgone
  · exact absurd hk' (hdisj c q hq c' q' hq' hid k hk)

lemma noStruckOutNode_decrement {pathId : PathId} {c : PathCategory} {s : Router} :
    NoStruckOutNode config clock (s.decrementAndCleanupPath pathId c) ↔
      NoStruckOutNode config clock s := by
  -- only the lists of nodes and the strikes matter
  have hnodes : ∀ t : Router, NoStruckOutNode config clock t ↔
      ∀ c', ∀ nodes ∈ (t.paths c').map (·.nodes), ∀ k ∈ nodes.map (·.remotePubkey),
        ¬ IsStruckOut config clock t.mnodeStrikes k := by
    intro t
    refine forall_congr' fun c' => ?_
    rw [List.forall_mem_map]
    rfl
  rw [hnodes, hnodes, decrementAndCleanupPath_strikes]
  refine forall_congr' fun c' => ?_
  rw [decrementAndCleanupPath_map _ fun _ _ => rfl]

/-! ## All phases -/

lemma noStruckOutNode_retirePaths {pathId : PathId} {request : Request}
    {pattern : ErrorBehaviour} {penalized : List Pubkey} {s : Router} (hids : UniqueIds s)
    (hdisj : DisjointPaths s)
    (hfixed : ∀ c, ∀ p ∈ s.paths c, p.id = pathId → IsFixed config clock s.mnodeStrikes p) :
    NoStruckOutNode config clock (retirePaths env config clock
        (pathsToRetire env config pathId request pattern s) penalized s) ↔
      ∀ c, ∀ p ∈ s.paths c, p.id ≠ pathId → IsFixed config clock s.mnodeStrikes p := by
  have hfail := failures_retirePaths env config clock hids
    (pathsToRetire env config pathId request pattern s) penalized
  constructor
  · intro h c p hp hne
    by_contra hnot
    obtain ⟨hlt, hbad⟩ := not_or.1 hnot
    -- the path is not retired, and its strikes stay
    have hleft := hfail.untouched c p hp
      fun hmem => hlt ((mem_pathsToRetire_of_ne hids hp hne).1 hmem)
    refine hbad fun k hk hstruck => h c p hleft k hk ?_
    rw [IsStruckOut, nodeStrikeCount, hfail.strikes_eq hids hdisj hp (List.mem_map_of_mem hleft) hk]
    exact hstruck
  intro h c p hp k hk hstruck
  obtain ⟨q, hq, hid, hnodes, -⟩ := hfail.kept c p hp
  have hleft : q.id ∈ ((retirePaths env config clock
      (pathsToRetire env config pathId request pattern s) penalized s).paths c).map
          OnionPath.id := by
    rw [hid]
    exact List.mem_map_of_mem hp
  have hkq : k ∈ q.keys := by
    rw [OnionPath.keys, hnodes]
    exact hk
  have hq' : IsFixed config clock s.mnodeStrikes q := by
    by_cases hqid : q.id = pathId
    · exact hfixed c q hq hqid
    · exact h c q hq hqid
  rcases hq' with hthr | hgood
  · exact notMem_retirePaths hids hq (mem_pathsToRetire.2 ⟨q, hq, rfl, .inr hthr⟩) hthr hleft
  refine hgood k hkq ?_
  rw [IsStruckOut, nodeStrikeCount, hfail.strikes_eq hids hdisj hq hleft hkq] at hstruck
  exact hstruck

/-- After a response that matches an error pattern no active path holds a struck-out node, exactly
if the paths that the request did not take were sound. -/
theorem struck_out_iff (env : Environment) (config : RouterConfig) (clock : Clock) (pathId : PathId)
    (request : Request) (response : Response) (s : Router) (hids : UniqueIds s)
    (hdisj : DisjointPaths s)
    (hthr : config.nodeStrikeThreshold = config.pool.cacheNodeStrikeThreshold.toNat)
    {pattern : ErrorBehaviour} {extracted : Option Bytes}
    (hparsed : parsedError env request response = some (pattern, extracted)) :
    NoStruckOutNode config clock
        (handleTransportResponse env config clock pathId request response s) ↔
      OtherPathsSound config clock pathId request pattern extracted s := by
  rw [handleTransportResponse, hparsed, noStruckOutNode_decrement]
  show NoStruckOutNode config clock
    (handleError env config clock pathId request pattern extracted s) ↔ _
  rw [handleError]
  generalize hs1 : penalize config clock (s.penalizedNodes pathId request pattern extracted)
    pattern.forceRemoveNode s = s1
  have hpaths1 : s1.paths = s.paths := by rw [← hs1, penalize_eq]
  have hids1 : UniqueIds s1 := by rw [UniqueIds, hpaths1]; exact hids
  have hdisj1 : DisjointPaths s1 := by rw [DisjointPaths, hpaths1]; exact hdisj
  have hrep := repairs_repairPaths env config clock hids1 pathId
  rw [noStruckOutNode_retirePaths (hrep.uniqueIds hids1) (hrep.disjointPaths hdisj1)
    (leftToRepair_nil.1 <| isFixed_repairPaths hthr hids1 ·)]
  rw [hrep.strikes, OtherPathsSound, hs1]
  refine forall_congr' fun c => ⟨?_, ?_⟩ <;> intro h p hp hne
  · exact h p ((hrep.others c p hne).2 (by rw [hpaths1]; exact hp)) hne
  have hp1 := (hrep.others c p hne).1 hp
  rw [hpaths1] at hp1
  exact h p hp1 hne

/-! ## Two paths and an error -/

def twoPathRouter : Router where
  cachedEdgeNodes := []
  paths
    | .standard => [{ id := ⟨.standard, 0⟩, nodes := [nodeOfNat 1, nodeOfNat 2], createdAt := 0
                      edgeFirstConnectedAt := 0, activeRequests := 1 }]
    | .file => [{ id := ⟨.file, 1⟩, nodes := [nodeOfNat 3, nodeOfNat 4], createdAt := 0
                  edgeFirstConnectedAt := 0 }]
  mnodeCache := [1, 2, 3, 4, 5, 6].map nodeOfNat
  mnodeStrikes _ := []
  uniqueIds := 2

/-- The error of a node that does not know the node with a number below ten. -/
def nodeNotFound (digit : Char) : Response where
  success := false
  timeout := false
  statusCode := 502
  body := some (bytes "Next node not found: " ++ List.replicate 63 (ascii '0') ++ [ascii digit])

def requestToServer : Request :=
  { requestId := 7, destination := .serverDestination, category := .standard
    desiredPathIndex := none }

lemma twoPathRouter_uniqueIds : UniqueIds twoPathRouter := by
  rw [UniqueIds]
  decide

lemma twoPathRouter_disjointPaths : DisjointPaths twoPathRouter := by
  intro c p hp c' q hq hne k hkp hkq
  cases c <;> cases c' <;> rw [twoPathRouter, List.mem_singleton] at hp hq <;> subst hp <;> subst hq
  · exact hne rfl
  · revert k
    decide +kernel
  · revert k
    decide +kernel
  · exact hne rfl

/-- The second node of the request's path is reported as unknown and is replaced. -/
theorem struck_out_replaced : NoStruckOutNode sampleRouterConfig ⟨0, 0⟩
        (handleTransportResponse .plain sampleRouterConfig ⟨0, 0⟩ ⟨.standard, 0⟩ requestToServer
          (nodeNotFound '2') twoPathRouter) ∧
      ((handleTransportResponse .plain sampleRouterConfig ⟨0, 0⟩ ⟨.standard, 0⟩ requestToServer
          (nodeNotFound '2') twoPathRouter).paths .standard).map (·.nodes)
        = [[nodeOfNat 1, nodeOfNat 5]] := by
  have hparsed : parsedError .plain requestToServer (nodeNotFound '2') =
      some ({ code := 502, bodyPattern := "Next node not found: "
              errorType := .intermediateNodeUnreachable, penalizeExtractedNode := true
              penalizePath := true, forceRemoveNode := true, extractPubkey := true },
        some (List.replicate 63 (ascii '0') ++ [ascii '2'])) := by decide +kernel
  refine ⟨(struck_out_iff .plain sampleRouterConfig ⟨0, 0⟩ _ _ _ _ twoPathRouter_uniqueIds
    twoPathRouter_disjointPaths rfl hparsed).2 ?_, by decide +kernel⟩
  intro c p hp hne
  cases c <;> rw [twoPathRouter, List.mem_singleton] at hp <;> subst hp
  · exact absurd rfl hne
  refine .inr ?_
  simp only [IsStruckOut]
  decide +kernel

/-- The node 4 is the destination of a request on the other path. It is unreachable and gets all its
strikes at once, but stays on its own path. -/
theorem struck_out_elsewhere : ¬ NoStruckOutNode sampleRouterConfig ⟨0, 0⟩
      (handleTransportResponse .plain sampleRouterConfig ⟨0, 0⟩ ⟨.standard, 0⟩
        { requestToServer with destination := .masterNode (nodeOfNat 4) } (nodeNotFound '4')
        twoPathRouter) := by
  intro h
  have hpath : ({ id := ⟨.file, 1⟩, nodes := [nodeOfNat 3, nodeOfNat 4], createdAt := 0
                  edgeFirstConnectedAt := 0 } : OnionPath) ∈
      (handleTransportResponse .plain sampleRouterConfig ⟨0, 0⟩ ⟨.standard, 0⟩
        { requestToServer with destination := .masterNode (nodeOfNat 4) } (nodeNotFound '4')
        twoPathRouter).paths .file := by decide +kernel
  refine h .file _ hpath (nodeOfNat 4).remotePubkey (by decide +kernel) ?_
  rw [IsStruckOut]
  decide +kernel

/-! ## Who is punished for an error

An error response should cost strikes only to those who took part in the request: the nodes of its
path, its destination, and the paths retired with them. The text of a response can name any key, and
the node with that key is struck without a look at the path.
-/

section

open List Option

variable {pathId : PathId} {sentNodes : List MasterNode} {request : Request} {response : Response}
  {s : Router}
variable {extracted : Option Bytes} {k : Pubkey} {bad : Pubkey → Prop}

def Participant (pathId : PathId) (sentNodes : List MasterNode) (request : Request) (s : Router)
    (k : Pubkey) : Prop :=
  k ∈ sentNodes.map (·.remotePubkey) ∨
    (∃ c, ∃ p ∈ s.paths c ++ s.pathsPendingDrop c, p.id = pathId ∧ k ∈ p.keys) ∨
    request.destination.node?.map (·.remotePubkey) = some k

def RetiredFor (config : RouterConfig) (clock : Clock) (pathId : PathId)
    (sentNodes : List MasterNode) (request : Request) (s struck final : Router) (k : Pubkey) :
    Prop :=
  ∃ c, ∃ q ∈ s.paths c, q.id ∉ (final.paths c).map OnionPath.id ∧ k ∈ q.keys ∧
    ∃ m ∈ q.keys, Participant pathId sentNodes request s m ∧
      IsStruckOut config clock struck.mnodeStrikes m

/-- The strikes for the error itself hit participants; those for the paths it brings down hit nodes
that are on the path by then, or on a path that is retired because of a participant. Without an
error there are no strikes. -/
def OnlyParticipantsStruck (env : Environment) (config : RouterConfig) (clock : Clock)
    (pathId : PathId) (sentNodes : List MasterNode) (request : Request) (response : Response)
    (s : Router) : Prop :=
  let final := handleTransportResponse env config clock pathId request response s
  match parsedError env request response with
  | none => final.mnodeStrikes = s.mnodeStrikes
  | some (pattern, extracted) =>
    let struck := penalize config clock (s.penalizedNodes pathId request pattern extracted)
      pattern.forceRemoveNode s
    (∀ k, struck.mnodeStrikes k ≠ s.mnodeStrikes k → Participant pathId sentNodes request s k) ∧
    ∀ k, final.mnodeStrikes k ≠ struck.mnodeStrikes k →
      Participant pathId sentNodes request (repairPaths env config clock pathId struck) k ∨
        RetiredFor config clock pathId sentNodes request s struck final k

/-- A key that the error is to be blamed on is that of a participant; and no path the request did
not take is to be retired anyway, unless because of a participant. -/
def BlamesParticipants (env : Environment) (config : RouterConfig) (clock : Clock)
    (pathId : PathId) (sentNodes : List MasterNode) (request : Request) (response : Response)
    (s : Router) : Prop :=
  match parsedError env request response with
  | none => True
  | some (pattern, extracted) =>
    let keys := s.penalizedNodes pathId request pattern extracted
    let struck := penalize config clock keys pattern.forceRemoveNode s
    (pattern.penalizeExtractedNode = true → 0 < strikesPerFailure config pattern.forceRemoveNode →
      ∀ k, extracted.bind pubkeyFromHex = some k → Participant pathId sentNodes request s k) ∧
    ∀ c, ∀ q ∈ s.paths c, q.id ≠ pathId → config.pathStrikeThreshold ≤ q.strikeCount →
      ∀ k ∈ q.keys, k ∉ keys → Participant pathId sentNodes request s k ∨
        ∃ c', ∃ q' ∈ s.paths c', q'.id ≠ pathId ∧ config.pathStrikeThreshold ≤ q'.strikeCount ∧
          k ∈ q'.keys ∧ ∃ m ∈ q'.keys, Participant pathId sentNodes request s m ∧
            IsStruckOut config clock struck.mnodeStrikes m

/-! ## The strikes for the error -/

lemma participant_of_mem_penalizedNodes
    (hk : k ∈ s.penalizedNodes pathId request pattern extracted) :
    (pattern.penalizeExtractedNode = true ∧ extracted.bind pubkeyFromHex = some k) ∨
      Participant pathId sentNodes request s k := by
  rw [penalizedNodes, mem_append, mem_append] at hk
  rcases hk with (hk | hk) | hk
  · split at hk
    · rename_i hpen
      exact .inl ⟨hpen, mem_toList.1 hk⟩
    · exact absurd hk not_mem_nil
  · split at hk
    · exact .inr (.inr (.inr (mem_toList.1 hk)))
    · exact absurd hk not_mem_nil
  split at hk
  · obtain ⟨path, hfind, hedge⟩ := bind_eq_some_iff.1 (mem_toList.1 hk)
    obtain ⟨node, hnode, rfl⟩ := map_eq_some_iff.1 hedge
    refine .inr (.inr (.inl ⟨_, path, mem_append_left _ (Rows.find_mem hfind),
      Rows.find_key hfind, mem_map_of_mem (mem_of_head? hnode)⟩))
  · exact absurd hk not_mem_nil

lemma mem_penalizedNodes_of_extracted (hpen : pattern.penalizeExtractedNode = true)
    (hk : extracted.bind pubkeyFromHex = some k) :
    k ∈ s.penalizedNodes pathId request pattern extracted := by
  rw [penalizedNodes, if_pos hpen, hk]
  simp

lemma penalties_iff :
    (∀ k, (penalize config clock (s.penalizedNodes pathId request pattern extracted)
          pattern.forceRemoveNode s).mnodeStrikes k ≠ s.mnodeStrikes k →
        Participant pathId sentNodes request s k) ↔ (pattern.penalizeExtractedNode = true →
        0 < strikesPerFailure config pattern.forceRemoveNode →
        ∀ k, extracted.bind pubkeyFromHex = some k → Participant pathId sentNodes request s k) := by
  constructor
  · intro h hpen hpos k hk
    exact h k (penalize_strikes_ne.2 ⟨mem_penalizedNodes_of_extracted hpen hk, hpos⟩)
  intro h k hk
  obtain ⟨hmem, hpos⟩ := penalize_strikes_ne.1 hk
  rcases participant_of_mem_penalizedNodes hmem with ⟨hpen, hkey⟩ | hpart
  · exact h hpen hpos k hkey
  · exact hpart

/-! ## The strikes for retired paths -/

lemma Repairs.participant {s' : Router} (h : Repairs bad pathId s s')
    (hk : Participant pathId sentNodes request s k) :
    Participant pathId sentNodes request s' k ∨ bad k := by
  rcases hk with hk | ⟨c, p, hp, hid, hk⟩ | hk
  · exact .inl (.inl hk)
  · rcases mem_append.1 hp with hp | hp
    · obtain ⟨p', hp', hid'⟩ := h.exists_between hp
      refine (h.lost c p hp p' hp' hid (hid'.trans hid) k hk).imp ?_ id
      exact fun hk => .inr (.inl ⟨c, p', mem_append_left _ hp', hid'.trans hid, hk⟩)
    refine .inl (.inr (.inl ⟨c, p, mem_append_right _ ?_, hid, hk⟩))
    rw [h.dying]
    exact hp
  · exact .inl (.inr (.inr hk))

lemma Repairs.participant_before {s' : Router} (h : Repairs bad pathId s s')
    (hk : Participant pathId sentNodes request s' k) {c : PathCategory} {q : OnionPath}
    (hq : q ∈ s.paths c) (hne : q.id ≠ pathId) (hkq : k ∈ q.keys) :
    Participant pathId sentNodes request s k := by
  rcases hk with hk | ⟨c', p', hp', hid', hk⟩ | hk
  · exact .inl hk
  · rcases mem_append.1 hp' with hp' | hp'
    · have hmem : p'.id ∈ (s.paths c').map OnionPath.id := by
        rw [← h.ids c']
        exact mem_map_of_mem hp'
      obtain ⟨p, hp, hid⟩ := mem_map.1 hmem
      rcases h.gained c' p hp p' hp' (hid.trans hid') hid' k hk with hk | hk
      · exact .inr (.inl ⟨c', p, mem_append_left _ hp, hid.trans hid', hk⟩)
      · exact absurd hkq (hk c q hq hne)
    refine .inr (.inl ⟨c', p', mem_append_right _ ?_, hid', hk⟩)
    rw [← h.dying]
    exact hp'
  · exact .inr (.inr hk)

section

variable {penalized : List Pubkey} {struck repaired final : Router}

lemma retirements_iff (hids : UniqueIds s) (hpaths : struck.paths = s.paths)
    (hdying : struck.pathsPendingDrop = s.pathsPendingDrop)
    (hrep : Repairs (IsStruckOut config clock struck.mnodeStrikes) pathId struck repaired)
    (hfail : Failures clock (pathsToRetire env config pathId request pattern repaired) penalized
      repaired final) (hgone : ∀ c, ∀ q ∈ repaired.paths c, q.id ≠ pathId →
      config.pathStrikeThreshold ≤ q.strikeCount → q.id ∉ (final.paths c).map OnionPath.id) :
    (∀ k, final.mnodeStrikes k ≠ struck.mnodeStrikes k →
      Participant pathId sentNodes request repaired k ∨
        RetiredFor config clock pathId sentNodes request s struck final k) ↔
    ∀ c, ∀ q ∈ s.paths c, q.id ≠ pathId → config.pathStrikeThreshold ≤ q.strikeCount →
      ∀ k ∈ q.keys, k ∉ penalized → Participant pathId sentNodes request s k ∨
        ∃ c', ∃ q' ∈ s.paths c', q'.id ≠ pathId ∧ config.pathStrikeThreshold ≤ q'.strikeCount ∧
          k ∈ q'.keys ∧ ∃ m ∈ q'.keys, Participant pathId sentNodes request s m ∧
            IsStruckOut config clock struck.mnodeStrikes m := by
  have hids1 : UniqueIds struck := by rw [UniqueIds, hpaths]; exact hids
  have hids2 : UniqueIds repaired := hrep.uniqueIds hids1
  have hpart : ∀ k, Participant pathId sentNodes request struck k ↔
      Participant pathId sentNodes request s k := by
    intro k
    rw [Participant, Participant, hpaths, hdying]
  -- the other paths are the same before and after the repairs
  have hother : ∀ c q, q.id ≠ pathId → (q ∈ repaired.paths c ↔ q ∈ s.paths c) := by
    intro c q hne
    rw [hrep.others c q hne, hpaths]
  constructor
  · intro h c q hq hne hthr k hk hpen
    have hq2 := (hother c q hne).2 hq
    have hstrikes := hfail.gone c q hq2 (hgone c q hq2 hne hthr) k hk hpen
    rw [hrep.strikes] at hstrikes
    rcases h k hstrikes with hp | ⟨c', q', hq', hout, hk', m, hm, hmpart, hmstruck⟩
    · exact .inl ((hpart k).1 (hrep.participant_before hp (by rw [hpaths]; exact hq) hne hk))
    by_cases hne' : q'.id = pathId
    · exact .inl (.inr (.inl ⟨c', q', mem_append_left _ hq', hne', hk'⟩))
    refine .inr ⟨c', q', hq', hne', ?_, hk', m, hm, hmpart, hmstruck⟩
    have hq2' := (hother c' q' hne').2 hq'
    have hlisted : (c', q'.id) ∈ pathsToRetire env config pathId request pattern repaired := by
      by_contra hnot
      exact hout (mem_map_of_mem (hfail.untouched c' q' hq2' hnot))
    exact (mem_pathsToRetire_of_ne hids2 hq2' hne').1 hlisted
  intro h k hk
  rw [← hrep.strikes] at hk
  obtain ⟨n, hn, hn'⟩ := hfail.struck k
  have hn0 : n ≠ 0 := by
    rintro rfl
    exact hk (by rw [hn, replicate_zero, append_nil])
  obtain ⟨c, q, hq, hqf, hkq, hpen, hout⟩ := hn' hn0
  by_cases hne : q.id = pathId
  · exact .inl (.inr (.inl ⟨c, q, mem_append_left _ hq, hne, hkq⟩))
  have hq0 := (hother c q hne).1 hq
  have hthr := (mem_pathsToRetire_of_ne hids2 hq hne).1 hqf
  rcases h c q hq0 hne hthr k hkq hpen with hp | ⟨c', q', hq', hne', hthr', hk', hm⟩
  · -- a participant that was replaced was struck out, and this path is retired with it
    rcases hrep.participant ((hpart k).2 hp) with hp2 | hbad
    · exact .inl hp2
    · exact .inr ⟨c, q, hq0, hout, hkq, k, hkq, hp, hbad⟩
  · exact .inr ⟨c', q', hq', hgone c' q' ((hother c' q' hne').2 hq') hne' hthr', hk', hm⟩

lemma retiredFor_decrement {c : PathCategory} :
    RetiredFor config clock pathId sentNodes request s struck
        (final.decrementAndCleanupPath pathId c) k ↔
      RetiredFor config clock pathId sentNodes request s struck final k := by
  rw [RetiredFor, RetiredFor]
  simp only [decrementAndCleanupPath_map (·.id) fun _ _ => rfl]

end

/-! ## The response -/

/-- Handling a response strikes participants only, exactly if the error it reports can be blamed on
them. -/
theorem only_participants_iff (env : Environment) (config : RouterConfig) (clock : Clock)
    (pathId : PathId) (sentNodes : List MasterNode) (request : Request) (response : Response)
    (s : Router) (hids : UniqueIds s) :
    OnlyParticipantsStruck env config clock pathId sentNodes request response s ↔
      BlamesParticipants env config clock pathId sentNodes request response s := by
  rw [OnlyParticipantsStruck, BlamesParticipants]
  cases hparsed : parsedError env request response with
  | none => simp only [handleTransportResponse, hparsed, decrementAndCleanupPath_strikes]
  | some error =>
    obtain ⟨pattern, extracted⟩ := error
    dsimp only
    rw [penalties_iff]
    refine and_congr Iff.rfl ?_
    generalize hkeys : s.penalizedNodes pathId request pattern extracted = keys
    generalize hstruck : penalize config clock keys pattern.forceRemoveNode s = struck
    have hpaths : struck.paths = s.paths := by rw [← hstruck, penalize_eq]
    have hdying : struck.pathsPendingDrop = s.pathsPendingDrop := by rw [← hstruck, penalize_eq]
    have hids1 : UniqueIds struck := by rw [UniqueIds, hpaths]; exact hids
    have hrep := repairs_repairPaths env config clock hids1 pathId
    have hids2 := hrep.uniqueIds hids1
    have hfinal : handleTransportResponse env config clock pathId request response s =
        (retirePaths env config clock (pathsToRetire env config pathId request pattern
          (repairPaths env config clock pathId struck)) keys
          (repairPaths env config clock pathId struck)).decrementAndCleanupPath pathId
            (toPathCategory request.category) := by
      rw [handleTransportResponse, hparsed]
      simp only [handleError, hkeys, hstruck]
    rw [hfinal, decrementAndCleanupPath_strikes]
    simp only [retiredFor_decrement]
    refine retirements_iff hids hpaths hdying hrep
      (failures_retirePaths env config clock hids2 _ keys) ?_
    intro c q hq hne hthr
    exact notMem_retirePaths hids2 hq ((mem_pathsToRetire_of_ne hids2 hq hne).2 hthr) hthr

/-! ## Two responses -/

/-- A server answers with an error that names a node which has nothing to do with the request. -/
def serverBlames (digit : Char) : Response :=
  { nodeNotFound digit with success := true }

/-- The error of the first node of the path about the second one costs only nodes of the path. -/
theorem only_participants_path : UniqueIds twoPathRouter ∧
      OnlyParticipantsStruck .plain sampleRouterConfig ⟨0, 0⟩ ⟨.standard, 0⟩
        [nodeOfNat 1, nodeOfNat 2] requestToServer (nodeNotFound '2') twoPathRouter := by
  refine ⟨twoPathRouter_uniqueIds, (only_participants_iff _ _ _ _ _ _ _ _
    twoPathRouter_uniqueIds).2 ?_⟩
  have hparsed : parsedError .plain requestToServer (nodeNotFound '2') =
      some ({ code := 502, bodyPattern := "Next node not found: "
              errorType := .intermediateNodeUnreachable, penalizeExtractedNode := true
              penalizePath := true, forceRemoveNode := true, extractPubkey := true },
        some (replicate 63 (ascii '0') ++ [ascii '2'])) := by decide +kernel
  rw [BlamesParticipants, hparsed]
  refine ⟨?_, ?_⟩
  · intro _ _ k hk
    have hkey : (nodeOfNat 2).remotePubkey = k := by
      refine some.inj (Eq.trans ?_ hk)
      decide +kernel
    rw [← hkey]
    exact .inl (by decide +kernel)
  intro c q hq hne hthr
  cases c <;> rw [twoPathRouter, mem_singleton] at hq <;> subst hq
  · exact absurd rfl hne
  · exact absurd hthr (by decide)

/-- A server, asked over the nodes 1 and 2, answers with the text that a node is not found. The node
6 is on no path, and gets three strikes. -/
theorem bystander_struck : ¬ OnlyParticipantsStruck .plain sampleRouterConfig ⟨0, 0⟩ ⟨.standard, 0⟩
        [nodeOfNat 1, nodeOfNat 2] requestToServer (serverBlames '6') twoPathRouter ∧
      (handleTransportResponse .plain sampleRouterConfig ⟨0, 0⟩ ⟨.standard, 0⟩ requestToServer
        (serverBlames '6') twoPathRouter).mnodeStrikes (nodeOfNat 6).remotePubkey = [0, 0, 0] := by
  refine ⟨?_, by decide +kernel⟩
  have hparsed : parsedError .plain requestToServer (serverBlames '6') =
      some ({ code := 502, bodyPattern := "Next node not found: "
              errorType := .intermediateNodeUnreachable, penalizeExtractedNode := true
              penalizePath := true, forceRemoveNode := true, extractPubkey := true },
        some (replicate 63 (ascii '0') ++ [ascii '6'])) := by decide +kernel
  rw [OnlyParticipantsStruck, hparsed]
  rintro ⟨h, -⟩
  rcases h (nodeOfNat 6).remotePubkey (by decide +kernel) with hk | ⟨c, p, hp, -, hk⟩ | hk
  · revert hk
    decide +kernel
  · cases c <;> rw [twoPathRouter, append_nil, mem_singleton] at hp <;> subst hp <;>
      revert hk <;> decide +kernel
  · cases hk

end

end Bchat.Network.Router
