import Bchat.Network.MasterNode

/-!
# Strikes and unused nodes

The part of `src/network/mnode_pool.cpp` that the router of onion requests relies on:
`record_node_failure`, `node_strike_count` and `get_unused_nodes`.

A strike is the second at which it was recorded. The random start of a search is a parameter.
-/

namespace Bchat.Network

open List

/-- `config::MnodePool`, as far as the choice of nodes uses it. -/
structure SelectionConfig where
  enforceSubnetDiversity : Bool
  cacheNodeStrikeThreshold : UInt16
  deriving Repr

/-- `STRIKE_EXPIRY`, 48 hours in seconds. -/
def strikeExpiry : Int := 172800

/-- `_mnode_strikes`; a node without an entry has no strikes. -/
abbrev Strikes := Pubkey → List Int

/-- `record_node_failure`. -/
def recordNodeFailure (config : SelectionConfig) (now : Int) (strikes : Strikes) (key : Pubkey)
    (isPermanent : Bool) : Strikes :=
  let times := if isPermanent then config.cacheNodeStrikeThreshold.toNat else 1
  Function.update strikes key (strikes key ++ List.replicate times now)

def nodeStrikeCount (now : Int) (strikes : Strikes) (key : Pubkey) : Nat :=
  ((strikes key).filter (fun t => now - strikeExpiry < t)).length % 2 ^ 16

def MasterNode.subnet (n : MasterNode) : UInt32 := n.ip &&& 0xffffff00

section

variable (config : SelectionConfig) (strikes : Strikes) (exclusionKeys : List Pubkey) (count : Nat)

/-- The loop of `get_unused_nodes`, over the nodes in the order in which it visits them. -/
def takeUnused : List MasterNode → List UInt32 → List MasterNode → List MasterNode
  | result, _, [] => result
  | result, usedSubnets, node :: rest =>
    if count ≤ result.length then result
    else if node.remotePubkey ∈ exclusionKeys then takeUnused result usedSubnets rest
    else if config.cacheNodeStrikeThreshold.toNat ≤ (strikes node.remotePubkey).length then
      takeUnused result usedSubnets rest
    else if config.enforceSubnetDiversity ∧ node.subnet ∈ usedSubnets then
      takeUnused result usedSubnets rest
    else
      takeUnused (result ++ [node])
        (if config.enforceSubnetDiversity then node.subnet :: usedSubnets else usedSubnets) rest

end

/-- `get_unused_nodes`. -/
def getUnusedNodes (config : SelectionConfig) (mnodeCache : List MasterNode) (strikes : Strikes)
    (startIndex : Nat) (count : Nat) (excludeNodes : List MasterNode) : List MasterNode :=
  takeUnused config strikes (excludeNodes.map (·.remotePubkey)) count []
    (if config.enforceSubnetDiversity then excludeNodes.map (·.subnet) else [])
    (mnodeCache.rotate startIndex)

/-! ## What is returned -/

/-- What a search guarantees of the nodes it returns. -/
structure Unused (config : SelectionConfig) (mnodeCache : List MasterNode) (strikes : Strikes)
    (count : Nat) (excludeNodes result : List MasterNode) : Prop where
  length_le : result.length ≤ count
  /-- The nodes come from different positions of the cache. -/
  subperm : result.Subperm mnodeCache
  notExcluded : ∀ n ∈ result, ∀ e ∈ excludeNodes, n.remotePubkey ≠ e.remotePubkey
  belowThreshold : ∀ n ∈ result,
    (strikes n.remotePubkey).length < config.cacheNodeStrikeThreshold.toNat
  newSubnets : config.enforceSubnetDiversity → ∀ n ∈ result, ∀ e ∈ excludeNodes,
    n.subnet ≠ e.subnet
  subnets_nodup : config.enforceSubnetDiversity → (result.map (·.subnet)).Nodup

section

variable (config : SelectionConfig) (strikes : Strikes) (exclusionKeys : List Pubkey) (count : Nat)

/-- What the loop appends: nodes that passed its three checks. -/
def Takes (usedSubnets : List UInt32) (result added : List MasterNode) : Prop :=
  (result.length ≤ count → result.length + added.length ≤ count) ∧
  (∀ n ∈ added, n.remotePubkey ∉ exclusionKeys ∧
    (strikes n.remotePubkey).length < config.cacheNodeStrikeThreshold.toNat) ∧
  (config.enforceSubnetDiversity →
    (added.map (·.subnet)).Nodup ∧ ∀ n ∈ added, n.subnet ∉ usedSubnets)

lemma exists_takeUnused_eq (nodes result : List MasterNode) (usedSubnets : List UInt32) :
    ∃ added, takeUnused config strikes exclusionKeys count result usedSubnets nodes
        = result ++ added ∧ added.Sublist nodes ∧
      Takes config strikes exclusionKeys count usedSubnets result added := by
  induction nodes generalizing result usedSubnets with
  | nil => exact ⟨[], by simp [takeUnused, Takes]⟩
  | cons node rest ih =>
    have skip : takeUnused config strikes exclusionKeys count result usedSubnets (node :: rest)
          = takeUnused config strikes exclusionKeys count result usedSubnets rest →
        ∃ added, takeUnused config strikes exclusionKeys count result usedSubnets (node :: rest)
            = result ++ added ∧ added.Sublist (node :: rest) ∧
          Takes config strikes exclusionKeys count usedSubnets result added := by
      intro heq
      obtain ⟨added, h, hsub, hrest⟩ := ih result usedSubnets
      exact ⟨added, heq.trans h, hsub.cons node, hrest⟩
    by_cases hfull : count ≤ result.length
    · exact ⟨[], by simp [takeUnused, Takes, hfull]⟩
    by_cases hkey : node.remotePubkey ∈ exclusionKeys
    · exact skip (by simp [takeUnused, hfull, hkey])
    by_cases hstruck : config.cacheNodeStrikeThreshold.toNat ≤ (strikes node.remotePubkey).length
    · exact skip (by simp [takeUnused, hfull, hkey, hstruck])
    by_cases hnet : config.enforceSubnetDiversity ∧ node.subnet ∈ usedSubnets
    · exact skip (by simp [takeUnused, hfull, hkey, hstruck, hnet])
    -- the node is taken
    obtain ⟨added, h, hsub, hlen, hok, hdiv⟩ := ih (result ++ [node])
      (if config.enforceSubnetDiversity then node.subnet :: usedSubnets else usedSubnets)
    refine ⟨node :: added, ?_, hsub.cons_cons node, ?_, ?_, ?_⟩
    · rw [takeUnused, if_neg hfull, if_neg hkey, if_neg hstruck, if_neg hnet, h]
      simp
    · have := hlen (by simp; omega)
      simp at this ⊢
      omega
    · intro n hn
      rcases mem_cons.1 hn with rfl | hn
      · exact ⟨hkey, not_le.1 hstruck⟩
      · exact hok n hn
    intro hd
    obtain ⟨hnodup, hnew⟩ := hdiv hd
    simp only [hd, if_true, mem_cons, not_or] at hnew
    refine ⟨?_, ?_⟩
    · rw [map_cons, nodup_cons]
      refine ⟨?_, hnodup⟩
      intro hmem
      obtain ⟨n, hn, heq⟩ := mem_map.1 hmem
      exact (hnew n hn).1 heq
    intro n hn
    rcases mem_cons.1 hn with rfl | hn
    · exact fun hmem => hnet ⟨hd, hmem⟩
    · exact (hnew n hn).2

end

lemma unused_getUnusedNodes (config : SelectionConfig) (mnodeCache : List MasterNode)
    (strikes : Strikes) (startIndex count : Nat) (excludeNodes : List MasterNode) :
    Unused config mnodeCache strikes count excludeNodes
      (getUnusedNodes config mnodeCache strikes startIndex count excludeNodes) := by
  obtain ⟨added, h, hsub, hlen, hok, hdiv⟩ := exists_takeUnused_eq config strikes
    (excludeNodes.map (·.remotePubkey)) count (mnodeCache.rotate startIndex) []
    (if config.enforceSubnetDiversity then excludeNodes.map (·.subnet) else [])
  rw [getUnusedNodes, h, nil_append]
  refine ⟨by simpa using hlen (Nat.zero_le _), ?_, ?_, fun n hn => (hok n hn).2, ?_,
    fun hd => (hdiv hd).1⟩
  · exact hsub.subperm.trans (rotate_perm mnodeCache startIndex).subperm
  · intro n hn e he heq
    exact (hok n hn).1 (mem_map.2 ⟨e, he, heq.symm⟩)
  intro hd n hn e he heq
  have := (hdiv hd).2 n hn
  rw [if_pos hd] at this
  exact this (mem_map.2 ⟨e, he, heq.symm⟩)

/-! ## Strikes -/

lemma nodeStrikeCount_le (now : Int) (strikes : Strikes) (key : Pubkey) :
    nodeStrikeCount now strikes key ≤ (strikes key).length :=
  (Nat.mod_le _ _).trans (length_filter_le _ _)

lemma Unused.nodeStrikeCount_lt {config : SelectionConfig} {mnodeCache : List MasterNode}
    {strikes : Strikes} {count : Nat} {excludeNodes result : List MasterNode}
    (h : Unused config mnodeCache strikes count excludeNodes result) (now : Int) {n : MasterNode}
    (hn : n ∈ result) :
    nodeStrikeCount now strikes n.remotePubkey < config.cacheNodeStrikeThreshold.toNat :=
  (nodeStrikeCount_le now strikes _).trans_lt (h.belowThreshold n hn)

end Bchat.Network
