import Bchat.Network.Misdirected
import Bchat.Properties.Swarm

/-!
# Retries of misdirected requests

The swarm of the next node is looked up with the key of the node that failed, as if an account had
that key.
-/

namespace Bchat.Network

open Journey List

/-! ## How often a request is sent -/

section

variable {limit : UInt8} {j : Journey} {request : NetworkRequest} {now : Situation} {w : Waiting}

/-- The number of times a request was handed to the router, seen from a continuation. -/
def Waiting.Counted (limit : UInt8) (n : Nat) : Waiting → Prop
  | .routed request => n = request.retryCount + 1 ∧ request.retryCount ≤ limit.toNat
  | .refresh request _ | .swarm request _ =>
    n = request.retryCount + 1 ∧ request.retryCount < limit.toNat
  | .resync _ => True

namespace Journey

structure Bounded (limit : UInt8) (j : Journey) : Prop where
  once : j.waiting.length + j.replies.length ≤ 1
  handed : j.handed.length ≤ 1 + limit.toNat
  counted : ∀ w ∈ j.waiting, w.Counted limit j.handed.length

/-- The callback is held by the code that runs. -/
structure Idle (limit : UInt8) (j : Journey) : Prop where
  waiting : j.waiting = []
  replies : j.replies = []
  handed : j.handed.length ≤ 1 + limit.toNat

lemma Idle.reply (h : j.Idle limit) (r : Reply) : (j.reply r).Bounded limit where
  once := by simp [Journey.reply, h.waiting, h.replies]
  handed := h.handed
  counted w hw := by
    rw [Journey.reply, h.waiting] at hw
    cases hw

lemma Idle.wait (h : j.Idle limit) (hw : w.Counted limit j.handed.length) :
    (j.wait w).Bounded limit where
  once := by simp [Journey.wait, h.waiting, h.replies]
  handed := h.handed
  counted w' hw' := by
    rw [Journey.wait, h.waiting, nil_append, mem_singleton] at hw'
    rw [hw']
    exact hw

lemma Idle.sendRequest (h : j.Idle limit) (hn : j.handed.length = request.retryCount)
    (hle : request.retryCount ≤ limit.toNat) : (j.sendRequest now request).Bounded limit := by
  have hlen : (j.handed ++ [request]).length = request.retryCount + 1 := by simp [hn]
  have hidle : ({ j with handed := j.handed ++ [request] } : Journey).Idle limit :=
    ⟨h.waiting, h.replies, by rw [hlen]; omega⟩
  unfold Journey.sendRequest
  split_ifs
  · exact h.reply _
  · exact h.reply _
  · exact h.reply _
  · exact h.reply _
  · refine ⟨?_, hidle.handed, fun w hw => ?_⟩
    · simp [h.waiting, h.replies]
    · rw [h.waiting] at hw
      cases hw
  · exact hidle.wait ⟨hlen, hle⟩

lemma Idle.onResponse (h : j.Idle limit)
    (hw : (Waiting.routed request).Counted limit j.handed.length) (r : Response) :
    (j.onResponse limit now request r).Bounded limit := by
  unfold Journey.onResponse resyncClock handle421Retry
  dsimp only
  split_ifs with _ _ _ hlimit
  · exact h.reply _
  · exact h.wait trivial
  · exact h.reply _
  · split
    · exact h.wait ⟨hw.1, not_le.mp hlimit⟩
    · exact h.reply _
  · exact h.reply _

lemma Idle.onSwarm (h : j.Idle limit) {failed : MasterNode}
    (hw : (Waiting.swarm request failed).Counted limit j.handed.length) (nodes : List MasterNode)
    (draw : Nat) : (j.onSwarm now request failed nodes draw).Bounded limit := by
  unfold Journey.onSwarm
  dsimp only
  split
  · exact h.reply _
  · exact h.sendRequest hw.1 hw.2

lemma Idle.resume (h : j.Idle limit) (hw : w.Counted limit j.handed.length) (e : Event) :
    (resume limit now e w j).Bounded limit := by
  unfold Journey.resume
  split
  · exact h.onResponse hw _
  · exact h.wait hw
  · exact h.onSwarm hw _ _
  · exact h.reply _
  · exact ⟨by simp [h.waiting, h.replies], h.handed, by simp [h.waiting]⟩
  · exact h.wait hw

lemma Bounded.step (h : j.Bounded limit) (e : Nat × Situation × Event) :
    (j.step limit e).Bounded limit := by
  obtain ⟨i, now, e⟩ := e
  unfold Journey.step
  cases hget : j.waiting[i]? with
  | none => simpa only [hget] using h
  | some w =>
    simp only [hget]
    obtain ⟨hlt, -⟩ := List.getElem?_eq_some_iff.mp hget
    have honce := h.once
    have hidle : ({ j with waiting := j.waiting.eraseIdx i } : Journey).Idle limit := by
      refine ⟨?_, ?_, h.handed⟩
      · rw [← length_eq_zero_iff, length_eraseIdx_of_lt hlt]
        omega
      rw [← length_eq_zero_iff]
      show j.replies.length = 0
      omega
    exact hidle.resume (h.counted w (mem_of_getElem? hget)) e

lemma Bounded.run (h : j.Bounded limit) (events : List (Nat × Situation × Event)) :
    (j.run limit events).Bounded limit := by
  induction events generalizing j with
  | nil => exact h
  | cons e events ih => exact ih (h.step e)

end Journey

/-- **A misdirected request is sent a bounded number of times**, whatever happens; its callback is
called once at most, and not while it is still to be sent again or answered. -/
theorem misdirected_bounded (limit : UInt8) (now : Situation) (destination : Destination)
    (isUpload hasBody : Bool) (events : List (Nat × Situation × Event)) :
    let j := (start.sendRequest now ⟨destination, isUpload, hasBody, 0⟩).run limit events
    j.handed.length ≤ 1 + limit.toNat ∧ j.replies.length ≤ 1 ∧
        (j.replies ≠ [] → j.waiting = []) := by
  intro j
  have hidle : start.Idle limit := ⟨rfl, rfl, Nat.zero_le _⟩
  have hbounded : j.Bounded limit := (hidle.sendRequest rfl (Nat.zero_le _)).run events
  have honce := hbounded.once
  refine ⟨hbounded.handed, by omega, fun hne => ?_⟩
  have hpos := length_pos_iff.mpr hne
  rw [← length_eq_zero_iff]
  omega

end

/-! ## Where it is sent -/

section

variable {x25519 : Pubkey → Pubkey} {cache : List MasterNode} {failed n : MasterNode}
  {config : PoolConfig} {shuffle : List MasterNode → List MasterNode} {p : MnodePool}
      {swarm : Swarm}

def Sibling (cache : List MasterNode) (failed n : MasterNode) : Prop :=
  n ∈ cache ∧ n.swarmId = failed.swarmId ∧ n.remotePubkey ≠ failed.remotePubkey

/-- The lookup of `_handle_421_retry`, with `compute_x25519_pubkey` of the key of the node. -/
def siblingLookup (x25519 : Pubkey → Pubkey) (failed : MasterNode) : Lookup :=
  ⟨x25519 failed.remotePubkey, false⟩

/-- Every retry after `failed` answered 421 goes to a sibling of the cache, and the client gets the
error if there is none. -/
def RetriedOnSibling (x25519 : Pubkey → Pubkey) (cache : List MasterNode) (failed : MasterNode) :
    Prop :=
  ∀ (config : PoolConfig) (shuffle : List MasterNode → List MasterNode),
    (∀ l, (shuffle l).Perm l) → ∀ p : MnodePool, p.Valid → p.mnodeCache = cache →
    ∀ a ∈ (p.getSwarm config shuffle (siblingLookup x25519 failed)).2,
    ∀ (now : Situation) (request : NetworkRequest) (draw : Nat) (j : Journey),
      (∀ r ∈ (j.onSwarm now request failed a.swarm draw).handed,
        r ∈ j.handed ∨ ∃ n, Sibling cache failed n ∧ r.destination = .masterNode n) ∧
      ((∀ n, ¬Sibling cache failed n) → j.onSwarm now request failed a.swarm draw =
        j.reply (.error errorMisdirectedRequest))

/-- An account with the key of the node would belong to the swarm of the node, and the cache has no
other record of the node. -/
def InOwnSwarm (x25519 : Pubkey → Pubkey) (cache : List MasterNode) (failed : MasterNode) : Prop :=
  (∀ swarm, getSwarm (x25519 failed.remotePubkey) (generateSwarms cache) = some swarm →
    swarm.1 = failed.swarmId) ∧
  ∀ n ∈ cache, n.swarmId = failed.swarmId → n.remotePubkey = failed.remotePubkey → n = failed

lemma mem_filterByStrikes {nodes : List MasterNode} (h : n ∈ p.filterByStrikes config nodes) :
    n ∈ nodes := by
  unfold MnodePool.filterByStrikes at h
  dsimp only at h
  split_ifs at h
  · exact h
  · exact mem_of_mem_filter h
  rcases mem_append.mp (mem_of_mem_take h) with h | h
  · exact mem_of_mem_filter h
  · exact mem_of_mem_filter ((perm_insertionSort _ _).mem_iff.mp h)

lemma mem_handed_sendRequest {now : Situation} {request r : NetworkRequest} {j : Journey}
    (h : r ∈ (j.sendRequest now request).handed) : r ∈ j.handed ∨ r = request := by
  unfold sendRequest at h
  split_ifs at h
  all_goals first
    | exact Or.inl h
    | exact (mem_append.mp h).imp_right mem_singleton.mp

lemma getSwarm_eq_some {pk : Pubkey} (h : getSwarm pk (generateSwarms cache) = some swarm) :
    Nearest cache (pubkeyToSwarmSpace pk) swarm := by
  have hne : cache ≠ [] := by
    rintro rfl
    cases h
  obtain ⟨swarm', h', hnear⟩ := getSwarm_nearest pk hne
  cases h.symm.trans h'
  exact hnear

lemma mem_swarm {position : SwarmId} (h : Nearest cache position swarm) :
    n ∈ swarm.2 ↔ n ∈ cache ∧ n.swarmId = swarm.1 := by
  rw [h.nodes_eq, mem_filter, decide_eq_true_iff]

lemma swarm_of_answer (hperm : ∀ l, (shuffle l).Perm l) (hv : p.Valid) {l : Lookup} {a : Answer}
    (hl : l.ignoreStrikeCount = false) (ha : a ∈ (p.getSwarm config shuffle l).2) :
    ∃ swarm, getSwarm l.swarmPubkey (generateSwarms p.mnodeCache) = some swarm ∧
      ∀ n ∈ a.swarm, n ∈ p.mnodeCache ∧ n.swarmId = swarm.1 := by
  have hreply : ∃ swarm, Network.getSwarm l.swarmPubkey p.allSwarms = some swarm ∧
      a = p.reply config shuffle l swarm := by
    unfold MnodePool.getSwarm at ha
    split at ha
    · next swarm hc => exact ⟨swarm, hv.cached _ _ hc, (Option.mem_some_iff.mp ha).symm⟩
    split_ifs at ha
    · cases ha
    split at ha
    · next swarm hs => exact ⟨swarm, hs, (Option.mem_some_iff.mp ha).symm⟩
    · cases ha
  obtain ⟨swarm, hs, rfl⟩ := hreply
  rw [hv.swarms] at hs
  refine ⟨swarm, hs, fun n hn => ?_⟩
  have hmem : n ∈ shuffle swarm.2 := by
    simp only [MnodePool.reply, hl] at hn
    exact mem_filterByStrikes hn
  exact (mem_swarm (getSwarm_eq_some hs)).mp ((hperm _).mem_iff.mp hmem)

lemma answer_load (hget : getSwarm (x25519 failed.remotePubkey) (generateSwarms cache) =
    some swarm) : ∃ config, ⟨siblingLookup x25519 failed, swarm.1, swarm.2⟩ ∈
      ((MnodePool.load cache []).getSwarm config id (siblingLookup x25519 failed)).2 := by
  have hne : cache ≠ [] := by
    rintro rfl
    cases hget
  have hswarms : generateSwarms cache ≠ [] := fun h => hne (generateSwarms_eq_nil_iff.mp h)
  refine ⟨⟨0, 0, 1⟩, ?_⟩
  simp [MnodePool.getSwarm, MnodePool.load, siblingLookup, hne, hswarms, hget, MnodePool.reply,
    MnodePool.filterByStrikes, MnodePool.strikeCount]

/-- **A misdirected request is retried on a sibling exactly if the node is where its own key
belongs**, and the cache knows it as it was. -/
theorem retried_on_sibling_iff (x25519 : Pubkey → Pubkey) (cache : List MasterNode)
    (failed : MasterNode) :
    RetriedOnSibling x25519 cache failed ↔ InOwnSwarm x25519 cache failed := by
  constructor
  · intro h
    -- a node that is offered is a sibling, unless it is the one that failed
    have hoffered : ∀ swarm, getSwarm (x25519 failed.remotePubkey) (generateSwarms cache) =
        some swarm → ∀ n ∈ swarm.2, n ≠ failed → Sibling cache failed n := by
      intro swarm hget n hn hne
      obtain ⟨config, ha⟩ := answer_load hget
      have htarget : n ∈ retryTargets failed swarm.2 := mem_filter.mpr ⟨hn, decide_eq_true hne⟩
      obtain ⟨draw, hdraw⟩ := mem_iff_getElem?.mp htarget
      have hlt := (List.getElem?_eq_some_iff.mp hdraw).1
      have hsent := (h config id (fun _ => .rfl) _ (MnodePool.valid_load cache []) rfl _ ha
        ⟨false, true, true, false⟩ ⟨.masterNode failed, false, false, 0⟩ draw start).1
        ⟨.masterNode n, false, false, 1⟩ (by
          simp [onSwarm, Nat.mod_eq_of_lt hlt, hdraw, sendRequest, wait])
      obtain hnil | ⟨n', hn', heq⟩ := hsent
      · cases hnil
      · cases heq
        exact hn'
    have hown : ∀ swarm, getSwarm (x25519 failed.remotePubkey) (generateSwarms cache) =
        some swarm → swarm.1 = failed.swarmId := by
      intro swarm hget
      obtain ⟨n, hn⟩ := exists_mem_of_ne_nil _ (getSwarm_eq_some hget).nonempty
      have hid := (mem_swarm (getSwarm_eq_some hget)).mp hn
      by_cases hne : n = failed
      · rw [← hid.2, hne]
      · rw [← hid.2, (hoffered swarm hget n hn hne).2.1]
    refine ⟨hown, fun n hn hid hkey => ?_⟩
    obtain ⟨swarm, hget, hnear⟩ := getSwarm_nearest (x25519 failed.remotePubkey)
      (ne_nil_of_mem hn)
    have hmem := (mem_swarm hnear).mpr ⟨hn, hid.trans (hown swarm hget).symm⟩
    by_contra hne
    exact (hoffered swarm hget n hmem hne).2.2 hkey
  rintro ⟨hown, hknown⟩ config shuffle hperm p hv rfl a ha now request draw j
  obtain ⟨swarm, hget, hnodes⟩ := swarm_of_answer hperm hv rfl ha
  have hsibling : ∀ n ∈ retryTargets failed a.swarm, Sibling p.mnodeCache failed n := by
    intro n hn
    obtain ⟨hn, hne⟩ := mem_filter.mp hn
    obtain ⟨hmem, hid⟩ := hnodes n hn
    have hid : n.swarmId = failed.swarmId := hid.trans (hown swarm hget)
    exact ⟨hmem, hid, fun hkey => of_decide_eq_true hne (hknown n hmem hid hkey)⟩
  unfold onSwarm
  dsimp only
  split
  · next hnone => exact ⟨fun r hr => Or.inl hr, fun _ => rfl⟩
  rename_i target htarget
  have hs := hsibling target (mem_of_getElem? htarget)
  refine ⟨fun r hr => ?_, fun hno => absurd hs (hno target)⟩
  rcases mem_handed_sendRequest hr with hr | rfl
  · exact Or.inl hr
  · exact Or.inr ⟨target, hs, rfl⟩

/-- A node with an Ed25519 key, alone in its swarm. -/
def lonelyNode : MasterNode :=
  sampleNode 0xd75a980182b10ab7d54bfed3c964073a0ee172f3daa62325af021a68f707511a 0x100

def lonelyNodes : List MasterNode := [lonelyNode, sampleNode 2 0xffffffffffffff00]

/-- `compute_x25519_pubkey` at the key of the node. -/
def lonelyX25519 (key : Pubkey) : Pubkey :=
  if key = lonelyNode.remotePubkey then
    pubkeyOfNat 0xd85e07ec22b0ad881537c2f44d662d1a143cf830c57aca4305d85c7a90f6b62e
  else key

/-- A node that is alone in its swarm answers 421, and the request goes to another swarm, the one
nearest to the X25519 key of the node. -/
theorem retried_in_other_swarm : (∀ n, ¬Sibling lonelyNodes lonelyNode n) ∧
      ¬RetriedOnSibling lonelyX25519 lonelyNodes lonelyNode := by
  have hno : ∀ n, ¬Sibling lonelyNodes lonelyNode n := by
    rintro n ⟨hn, hid, hkey⟩
    have hnone : ∀ n ∈ lonelyNodes, n.swarmId = lonelyNode.swarmId →
        n.remotePubkey = lonelyNode.remotePubkey := by decide +kernel
    exact hkey (hnone n hn hid)
  refine ⟨hno, fun h => ?_⟩
  have ha : (⟨siblingLookup lonelyX25519 lonelyNode, 0xffffffffffffff00,
      [sampleNode 2 0xffffffffffffff00]⟩ : Answer) ∈
        ((MnodePool.load lonelyNodes []).getSwarm sampleConfig id
          (siblingLookup lonelyX25519 lonelyNode)).2 := by decide +kernel
  have hreply := (h sampleConfig id (fun _ => .rfl) _ (MnodePool.valid_load lonelyNodes []) rfl _ ha
    ⟨false, true, true, false⟩ ⟨.serverDestination, false, false, 0⟩ 0 start).2 hno
  have hsent := congrArg (fun j => j.handed.length) hreply
  revert hsent
  decide +kernel

end

end Bchat.Network
