import Bchat.Network.MnodePool

/-!
# Which swarm an account belongs to
-/

namespace Bchat.Network

open List UInt64

variable {node : MasterNode} {swarms : List Swarm} {ns nodes : List MasterNode} {position : SwarmId}
  {ids : List SwarmId}

/-! ## Grouping -/

structure Groups (nodes : List MasterNode) (swarms : List Swarm) : Prop where
  nodup : (swarms.map Prod.fst).Nodup
  mem_iff : ∀ id ns, (id, ns) ∈ swarms ↔
    ns = nodes.filter (fun n => n.swarmId = id) ∧ ns ≠ []

lemma map_fst_pushNode (node : MasterNode) (swarms : List Swarm) :
    (pushNode node swarms).map Prod.fst =
      if node.swarmId ∈ swarms.map Prod.fst then swarms.map Prod.fst
      else swarms.map Prod.fst ++ [node.swarmId] := by
  induction swarms with
  | nil => simp [pushNode]
  | cons s swarms ih =>
    rw [pushNode]
    split_ifs with hid hmem hmem
    · rfl
    · simp [hid] at hmem
    · rw [map_cons, ih, if_pos (by simpa [Ne.symm hid] using hmem)]
      rfl
    · rw [map_cons, ih, if_neg (by simpa [Ne.symm hid] using hmem)]
      rfl

lemma mem_pushNode_ne {id : SwarmId} (hid : id ≠ node.swarmId) :
    (id, ns) ∈ pushNode node swarms ↔ (id, ns) ∈ swarms := by
  induction swarms with
  | nil => simp [pushNode, hid]
  | cons s swarms ih =>
    obtain ⟨id', ns'⟩ := s
    rw [pushNode]
    split_ifs with h
    · subst h
      simp [hid]
    · simp [ih]

lemma mem_pushNode_self (hnodup : (swarms.map Prod.fst).Nodup) :
    (node.swarmId, ns) ∈ pushNode node swarms ↔
      (∃ ns', (node.swarmId, ns') ∈ swarms ∧ ns = ns' ++ [node]) ∨
        (node.swarmId ∉ swarms.map Prod.fst ∧ ns = [node]) := by
  induction swarms with
  | nil => simp [pushNode]
  | cons s swarms ih =>
    obtain ⟨id', ns'⟩ := s
    rw [map_cons, nodup_cons] at hnodup
    rw [pushNode]
    split_ifs with h
    · subst h
      have hnot : ∀ ns, (node.swarmId, ns) ∉ swarms := fun ns hmem =>
        hnodup.1 (mem_map.mpr ⟨_, hmem, rfl⟩)
      simp [hnot]
    · have hne : node.swarmId ≠ id' := Ne.symm h
      simp [hne, ih hnodup.2]

lemma Groups.pushNode (h : Groups nodes swarms) (node : MasterNode) :
    Groups (nodes ++ [node]) (pushNode node swarms) where
  nodup := by
    rw [map_fst_pushNode]
    split_ifs with hmem
    · exact h.nodup
    rw [nodup_append]
    refine ⟨h.nodup, nodup_singleton _, ?_⟩
    rintro a ha b hb rfl
    exact hmem (mem_singleton.mp hb ▸ ha)
  mem_iff id ns := by
    by_cases hid : id = node.swarmId
    · subst hid
      rw [mem_pushNode_self h.nodup, filter_append]
      have hkeys : node.swarmId ∈ swarms.map Prod.fst ↔
          nodes.filter (fun n => n.swarmId = node.swarmId) ≠ [] := by
        constructor
        · intro hmem
          obtain ⟨⟨id, ns⟩, hs, rfl⟩ := mem_map.mp hmem
          obtain ⟨rfl, hne⟩ := (h.mem_iff _ _).mp hs
          exact hne
        · intro hne
          exact mem_map_of_mem (f := Prod.fst) ((h.mem_iff _ _).mpr ⟨rfl, hne⟩)
      have hnode : [node].filter (fun n => n.swarmId = node.swarmId) = [node] := by simp
      rw [hnode, hkeys]
      simp only [h.mem_iff]
      constructor
      · rintro (⟨_, ⟨rfl, _⟩, rfl⟩ | ⟨hnil, rfl⟩)
        · exact ⟨rfl, by simp⟩
        · rw [not_not.mp hnil]
          exact ⟨rfl, by simp⟩
      rintro ⟨rfl, _⟩
      by_cases hnil : nodes.filter (fun n => n.swarmId = node.swarmId) = []
      · exact .inr ⟨not_not.mpr hnil, by rw [hnil]; rfl⟩
      · exact .inl ⟨_, ⟨rfl, hnil⟩, rfl⟩
    · rw [mem_pushNode_ne hid, h.mem_iff, filter_append]
      simp [Ne.symm hid]

lemma groups_groupNodes (nodes : List MasterNode) : Groups nodes (groupNodes nodes) := by
  induction nodes using reverseRecOn with
  | nil => exact ⟨by simp [groupNodes], by simp [groupNodes]⟩
  | append_singleton nodes node ih =>
    have hstep : groupNodes (nodes ++ [node]) = pushNode node (groupNodes nodes) := by
      simp [groupNodes]
    rw [hstep]
    exact ih.pushNode node

/-! ## Sorting -/

instance : Std.Total (fun a b : Swarm => a.1 ≤ b.1) := ⟨fun a b => UInt64.le_total a.1 b.1⟩

instance : IsTrans Swarm (fun a b => a.1 ≤ b.1) := ⟨fun _ _ _ => UInt64.le_trans⟩

lemma sortSwarms_perm (swarms : List Swarm) : (sortSwarms swarms).Perm swarms :=
  perm_insertionSort _ swarms

lemma sortSwarms_ascending (h : (swarms.map Prod.fst).Nodup) :
    (sortSwarms swarms).Pairwise (fun a b => a.1 < b.1) := by
  have hnodup : (sortSwarms swarms).Pairwise (fun a b => a.1 ≠ b.1) := by
    rw [← pairwise_map (f := Prod.fst) (R := (· ≠ ·))]
    exact ((sortSwarms_perm swarms).map Prod.fst).nodup_iff.mpr h
  have hsorted := pairwise_insertionSort (fun a b : Swarm => a.1 ≤ b.1) swarms
  refine hsorted.imp₂ (fun a b hle hne => ?_) hnodup
  exact UInt64.lt_of_le_of_ne hle hne

lemma sortSwarms_congr {swarms' : List Swarm} (h : (swarms.map Prod.fst).Nodup)
    (hperm : swarms'.Perm swarms) : sortSwarms swarms' = sortSwarms swarms := by
  have h' : (swarms'.map Prod.fst).Nodup := (hperm.map Prod.fst).nodup_iff.mpr h
  refine Perm.eq_of_pairwise (fun a b _ _ hab hba => ?_) (sortSwarms_ascending h')
    (sortSwarms_ascending h)
    ((sortSwarms_perm swarms').trans (hperm.trans (sortSwarms_perm swarms).symm))
  exact absurd (UInt64.lt_trans hab hba) (UInt64.lt_irrefl _)

lemma generateSwarms_spec (nodes : List MasterNode) : Groups nodes (generateSwarms nodes) ∧
      (generateSwarms nodes).Pairwise (fun a b => a.1 < b.1) := by
  have h := groups_groupNodes nodes
  have hperm := sortSwarms_perm (groupNodes nodes)
  refine ⟨⟨?_, fun id ns => ?_⟩, sortSwarms_ascending h.nodup⟩
  · exact (hperm.map Prod.fst).nodup_iff.mpr h.nodup
  · exact hperm.mem_iff.trans (h.mem_iff id ns)

lemma generateSwarms_eq_nil_iff : generateSwarms nodes = [] ↔ nodes = [] := by
  constructor
  · intro h
    cases nodes with
    | nil => rfl
    | cons n nodes =>
      have hmem := ((generateSwarms_spec (n :: nodes)).1.mem_iff n.swarmId _).mpr
        ⟨rfl, ne_nil_of_mem (mem_filter.mpr ⟨mem_cons_self, by simp⟩)⟩
      rw [h] at hmem
      cases hmem
  · rintro rfl
    rfl

/-! ## The ring -/

/-- The distance on the ring of 64-bit numbers, the shorter way round. -/
def ringDist (a b : SwarmId) : Nat := min (a - b).toNat (b - a).toNat

lemma eq_of_clockwise_eq {a b : SwarmId} (h : (a - position).toNat = (b - position).toNat) :
    a = b := by
  rw [UInt64.toNat_sub, UInt64.toNat_sub] at h
  have ha := a.toNat_lt
  have hb := b.toNat_lt
  exact UInt64.toNat_inj.mp (by omega)

lemma eq_of_counter_eq {a b : SwarmId} (h : (position - a).toNat = (position - b).toNat) :
    a = b := by
  rw [UInt64.toNat_sub, UInt64.toNat_sub] at h
  have ha := a.toNat_lt
  have hb := b.toNat_lt
  exact UInt64.toNat_inj.mp (by omega)

/-- The swarm of a position: the nearest one, and the one that comes before the position where two
are equally near. -/
structure Nearest (nodes : List MasterNode) (position : SwarmId) (swarm : Swarm) : Prop where
  nodes_eq : swarm.2 = nodes.filter (fun n => n.swarmId = swarm.1)
  nonempty : swarm.2 ≠ []
  least : ∀ n ∈ nodes, ringDist swarm.1 position ≤ ringDist n.swarmId position
  tie : ∀ n ∈ nodes, n.swarmId ≠ swarm.1 →
    ringDist n.swarmId position = ringDist swarm.1 position →
    (position - swarm.1).toNat = ringDist swarm.1 position

lemma Nearest.unique {s s' : Swarm} (h : Nearest nodes position s)
    (h' : Nearest nodes position s') : s = s' := by
  have hnode : ∀ {s}, Nearest nodes position s → ∃ n ∈ nodes, n.swarmId = s.1 := by
    intro s hs
    obtain ⟨n, hn⟩ := exists_mem_of_ne_nil _ hs.nonempty
    rw [hs.nodes_eq] at hn
    exact ⟨n, (mem_filter.mp hn).1, of_decide_eq_true (mem_filter.mp hn).2⟩
  have hid : s.1 = s'.1 := by
    obtain ⟨n, hn, hns⟩ := hnode h
    obtain ⟨n', hn', hns'⟩ := hnode h'
    have hle := hns' ▸ h.least n' hn'
    have hle' := hns ▸ h'.least n hn
    have heq := Nat.le_antisymm hle hle'
    by_contra hne
    have ht := h.tie n' hn' (hns' ▸ Ne.symm hne) (hns' ▸ heq.symm)
    have ht' := h'.tie n hn (hns ▸ hne) (hns ▸ heq)
    exact hne (eq_of_counter_eq (by rw [ht, ht', heq]))
  have hns : s.2 = s'.2 := by rw [h.nodes_eq, h'.nodes_eq, hid]
  exact Prod.ext hid hns

/-- The neighbours of a position among ids: going round clockwise `right` is met first, the other
way `left`. -/
structure Neighbours (ids : List SwarmId) (position left right : SwarmId) : Prop where
  left_mem : left ∈ ids
  right_mem : right ∈ ids
  clockwise : ∀ id ∈ ids, (right - position).toNat ≤ (id - position).toNat
  counter : ∀ id ∈ ids, id ≠ position → (position - left).toNat ≤ (position - id).toNat
  at_position : position ∈ ids → right = position
  left_ne : left ≠ position

lemma Neighbours.nearest {left right : SwarmId} (h : Neighbours ids position left right)
    (id : SwarmId) (hid : id ∈ ids) :
    let choice := if right - position < position - left then right else left
    ringDist choice position ≤ ringDist id position ∧
      (id ≠ choice → ringDist id position = ringDist choice position →
        (position - choice).toNat = ringDist choice position) := by
  have hcw := h.clockwise id hid
  have hccw : (position - left).toNat ≤ (position - id).toNat ∨
      id = right ∧ (right - position).toNat = 0 := by
    by_cases hp : id = position
    · subst hp
      have hr := h.at_position hid
      exact .inr ⟨hr.symm, by rw [hr]; simp⟩
    · exact .inl (h.counter id hid hp)
  simp only [lt_iff_toNat_lt]
  split_ifs with hlt
  · -- the right one is strictly nearer than everything else
    unfold ringDist
    refine ⟨?_, fun hne heq => ?_⟩
    · rcases hccw with hccw | ⟨rfl, hr⟩ <;> omega
    have hne' : (id - position).toNat ≠ (right - position).toNat := fun he =>
      hne (eq_of_clockwise_eq he)
    rcases hccw with hccw | ⟨rfl, hr⟩
    · omega
    · exact absurd rfl hne
  unfold ringDist
  refine ⟨?_, fun hne heq => ?_⟩
  · rcases hccw with hccw | ⟨rfl, hr⟩ <;> omega
  · omega

lemma Neighbours.of_order {left right : SwarmId} (hl : left ∈ ids) (hr : right ∈ ids)
    (h : (∀ id ∈ ids, id.toNat < position.toNat ∧ right.toNat ≤ id.toNat ∧ id.toNat ≤ left.toNat) ∨
      (right.toNat < left.toNat ∧ ∀ id ∈ ids, position.toNat ≤ id.toNat ∧
        right.toNat ≤ id.toNat ∧ id.toNat ≤ left.toNat) ∨
      (left.toNat < position.toNat ∧ position.toNat ≤ right.toNat ∧
        ∀ id ∈ ids, id.toNat ≤ left.toNat ∨ right.toNat ≤ id.toNat)) :
    Neighbours ids position left right := by
  have hrt := toNat_lt right
  have hpt := toNat_lt position
  refine ⟨hl, hr, fun id hid => ?_, fun id hid hne => ?_, fun hp => ?_, fun heq => ?_⟩
  · have hit := toNat_lt id
    rw [UInt64.toNat_sub, UInt64.toNat_sub]
    rcases h with h | ⟨_, h⟩ | ⟨_, _, h⟩
    all_goals
      have h1 := h id hid
      have h2 := h right hr
      omega
  · have hne' : id.toNat ≠ position.toNat := fun he => hne (UInt64.toNat_inj.mp he)
    rw [UInt64.toNat_sub, UInt64.toNat_sub]
    rcases h with h | ⟨_, h⟩ | ⟨_, _, h⟩
    all_goals
      have h1 := h id hid
      have h2 := h left hl
      omega
  · refine UInt64.toNat_inj.mp ?_
    rcases h with h | ⟨_, h⟩ | ⟨_, _, h⟩
    all_goals
      have h1 := h position hp
      have h2 := h right hr
      omega
  subst heq
  rcases h with h | ⟨_, h⟩ | ⟨_, _, h⟩
  all_goals
    have h1 := h left hl
    have h2 := h right hr
    omega

lemma getSwarm_eq (pk : Pubkey) (hlen : 2 ≤ swarms.length) {l r : Nat} (hl : l < swarms.length)
    (hr : r < swarms.length)
    (hright : (if swarms.findIdx (fun s => !decide (s.1 < pubkeyToSwarmSpace pk)) = swarms.length
      then 0 else swarms.findIdx (fun s => !decide (s.1 < pubkeyToSwarmSpace pk))) = r)
    (hleft : (if r = 0 then swarms.length else r) - 1 = l) :
    getSwarm pk swarms = some (if swarms[r].1 - pubkeyToSwarmSpace pk <
      pubkeyToSwarmSpace pk - swarms[l].1 then swarms[r] else swarms[l]) := by
  rcases swarms with _ | ⟨a, _ | ⟨b, rest⟩⟩
  · exact absurd hl (Nat.not_lt_zero _)
  · exact absurd hlen (by simp)
  · unfold getSwarm
    dsimp only
    rw [hright, hleft, getElem?_eq_getElem hr, getElem?_eq_getElem hl]

lemma getSwarm_neighbours (pk : Pubkey) (hlen : 2 ≤ swarms.length)
    (h : swarms.Pairwise (fun a b => a.1 < b.1)) : ∃ l ∈ swarms, ∃ r ∈ swarms,
      Neighbours (swarms.map Prod.fst) (pubkeyToSwarmSpace pk) l.1 r.1 ∧
      getSwarm pk swarms = some (if r.1 - pubkeyToSwarmSpace pk < pubkeyToSwarmSpace pk - l.1
        then r else l) := by
  set position := pubkeyToSwarmSpace pk with hposition
  set lower := swarms.findIdx (fun s => !decide (s.1 < position)) with hlower
  have hbefore : ∀ i (hi : i < swarms.length), i < lower → swarms[i].1.toNat < position.toNat := by
    intro i hi hil
    have := not_of_lt_findIdx hil
    simpa [lt_iff_toNat_lt] using this
  have hafter : ∀ hl : lower < swarms.length, position.toNat ≤ swarms[lower].1.toNat := by
    intro hl
    have hp : (!decide (swarms[lower].1 < position)) = true := findIdx_getElem (w := hl)
    rw [Bool.not_eq_true', decide_eq_false_iff_not, lt_iff_toNat_lt] at hp
    exact not_lt.mp hp
  have hmono : ∀ i j (hi : i < swarms.length) (hj : j < swarms.length), i ≤ j →
      swarms[i].1.toNat ≤ swarms[j].1.toNat := by
    intro i j hi hj hij
    rcases Nat.lt_or_eq_of_le hij with hij | rfl
    · have := pairwise_iff_getElem.mp h i j hi hj hij
      exact (lt_iff_toNat_lt.mp this).le
    · exact le_rfl
  -- the two swarms that the source compares, by their indices
  have key : ∀ l r (hl : l < swarms.length) (hr : r < swarms.length),
      (if lower = swarms.length then 0 else lower) = r →
      (if r = 0 then swarms.length else r) - 1 = l →
      Neighbours (swarms.map Prod.fst) position swarms[l].1 swarms[r].1 →
      ∃ l ∈ swarms, ∃ r ∈ swarms, Neighbours (swarms.map Prod.fst) position l.1 r.1 ∧
        getSwarm pk swarms = some (if r.1 - position < position - l.1 then r else l) := by
    intro l r hl hr hright hleft hn
    exact ⟨swarms[l], getElem_mem hl, swarms[r], getElem_mem hr, hn,
      getSwarm_eq pk hlen hl hr hright hleft⟩
  have hids : ∀ P : SwarmId → Prop, (∀ i (hi : i < swarms.length), P swarms[i].1) →
      ∀ id ∈ swarms.map Prod.fst, P id := by
    intro P hP id hid
    obtain ⟨s, hs, rfl⟩ := mem_map.mp hid
    obtain ⟨i, hi, rfl⟩ := mem_iff_getElem.mp hs
    exact hP i hi
  have hmem : ∀ i (hi : i < swarms.length), swarms[i].1 ∈ swarms.map Prod.fst := fun i hi =>
    mem_map_of_mem (getElem_mem hi)
  by_cases hend : lower = swarms.length
  · refine key (swarms.length - 1) 0 (by omega) (by omega) (if_pos hend) (by simp) ?_
    refine Neighbours.of_order (hmem _ _) (hmem _ _) (.inl (hids _ fun i hi => ?_))
    exact ⟨hbefore i hi (by omega), hmono _ _ _ _ (by omega), hmono _ _ _ _ (by omega)⟩
  have hle : lower ≤ swarms.length := findIdx_le_length
  have hlt : lower < swarms.length := by omega
  by_cases hzero : lower = 0
  · refine key (swarms.length - 1) 0 (by omega) (by omega) (by rw [if_neg hend, hzero]) (by simp) ?_
    refine Neighbours.of_order (hmem _ _) (hmem _ _) (.inr (.inl ⟨?_, hids _ fun i hi => ?_⟩))
    · exact lt_iff_toNat_lt.mp
        (pairwise_iff_getElem.mp h 0 (swarms.length - 1) (by omega) (by omega) (by omega))
    have h0 := hafter hlt
    exact ⟨h0.trans (hmono _ _ _ _ (by omega)), hmono _ _ _ _ (by omega), hmono _ _ _ _ (by omega)⟩
  refine key (lower - 1) lower (by omega) hlt (if_neg hend) (by rw [if_neg hzero]) ?_
  refine Neighbours.of_order (hmem _ _) (hmem _ _)
    (.inr (.inr ⟨hbefore _ _ (by omega), hafter hlt, hids _ fun i hi => ?_⟩))
  by_cases hi' : i < lower
  · exact .inl (hmono _ _ _ _ (by omega))
  · exact .inr (hmono _ _ _ _ (by omega))

lemma getSwarm_nearest (pk : Pubkey) (hne : nodes ≠ []) :
    ∃ swarm, getSwarm pk (generateSwarms nodes) = some swarm ∧
      Nearest nodes (pubkeyToSwarmSpace pk) swarm := by
  obtain ⟨hgroups, hsorted⟩ := generateSwarms_spec nodes
  have hids : ∀ n ∈ nodes, n.swarmId ∈ (generateSwarms nodes).map Prod.fst := by
    intro n hn
    have hmem := (hgroups.mem_iff n.swarmId _).mpr
      ⟨rfl, ne_nil_of_mem (mem_filter.mpr ⟨hn, by simp⟩)⟩
    exact mem_map.mpr ⟨_, hmem, rfl⟩
  rcases Nat.lt_or_ge (generateSwarms nodes).length 2 with hlen | hlen
  · -- a single swarm
    match hs : generateSwarms nodes, hlen with
    | [], _ => exact absurd (generateSwarms_eq_nil_iff.mp hs) hne
    | [swarm], _ =>
      rw [hs] at hids hgroups
      have hall : ∀ n ∈ nodes, n.swarmId = swarm.1 := by simpa using hids
      obtain ⟨heq, hnil⟩ := (hgroups.mem_iff swarm.1 swarm.2).mp (by simp)
      refine ⟨swarm, rfl, heq, hnil, fun n hn => by rw [hall n hn], fun n hn hd => ?_⟩
      exact absurd (hall n hn) hd
  obtain ⟨l, hl, r, hr, hn, hget⟩ := getSwarm_neighbours pk hlen hsorted
  have hchoice : ∃ swarm ∈ generateSwarms nodes, swarm =
      (if r.1 - pubkeyToSwarmSpace pk < pubkeyToSwarmSpace pk - l.1 then r else l) ∧ swarm.1 =
      (if r.1 - pubkeyToSwarmSpace pk < pubkeyToSwarmSpace pk - l.1 then r.1 else l.1) := by
    split_ifs
    · exact ⟨r, hr, rfl, rfl⟩
    · exact ⟨l, hl, rfl, rfl⟩
  obtain ⟨swarm, hmem, heq, hid⟩ := hchoice
  obtain ⟨hns, hnil⟩ := (hgroups.mem_iff swarm.1 swarm.2).mp hmem
  refine ⟨swarm, heq ▸ hget, hns, hnil, fun n hn' => ?_, fun n hn' => ?_⟩
  · rw [hid]
    exact (hn.nearest n.swarmId (hids n hn')).1
  · rw [hid]
    exact (hn.nearest n.swarmId (hids n hn')).2

/-! ## The pool -/

namespace MnodePool

structure Valid (p : MnodePool) : Prop where
  swarms : p.allSwarms = generateSwarms p.mnodeCache
  cached : ∀ pk swarm, SortedMap.find? pk p.swarmCache = some swarm →
    Network.getSwarm pk p.allSwarms = some swarm

def Right (nodes : List MasterNode) (a : Answer) : Prop :=
  ∃ swarm, Network.getSwarm a.lookup.swarmPubkey (generateSwarms nodes) = some swarm ∧
    a.swarmId = swarm.1 ∧ (a.lookup.ignoreStrikeCount = true → a.swarm = swarm.2)

section

variable {config : PoolConfig} {shuffle : List MasterNode → List MasterNode} {p : MnodePool}

lemma valid_load (nodes : List MasterNode) (strikes : List (Pubkey × Nat)) :
    (load nodes strikes).Valid :=
  ⟨rfl, by simp [load]⟩

lemma right_reply (h : p.Valid) {l : Lookup} {swarm : Swarm}
    (hs : Network.getSwarm l.swarmPubkey p.allSwarms = some swarm) :
    Right p.mnodeCache (p.reply config shuffle l swarm) := by
  refine ⟨swarm, h.swarms ▸ hs, rfl, fun hi => ?_⟩
  exact if_pos hi

lemma getSwarm_step (h : p.Valid) (l : Lookup) : (p.getSwarm config shuffle l).1.Valid ∧
      ∀ a ∈ (p.getSwarm config shuffle l).2, Right p.mnodeCache a := by
  unfold getSwarm
  cases hc : SortedMap.find? l.swarmPubkey p.swarmCache with
  | some swarm =>
    refine ⟨h, fun a ha => ?_⟩
    cases ha
    exact right_reply h (h.cached _ _ hc)
  | none =>
    split_ifs with hempty
    · exact ⟨⟨h.swarms, h.cached⟩, by simp⟩
    cases hs : Network.getSwarm l.swarmPubkey p.allSwarms with
    | none => exact ⟨h, by simp⟩
    | some swarm =>
      refine ⟨⟨h.swarms, fun pk s hpk => ?_⟩, fun a ha => ?_⟩
      · rw [SortedMap.find?_insert] at hpk
        split_ifs at hpk with heq
        · cases hpk
          exact heq ▸ hs
        · exact h.cached pk s hpk
      · cases ha
        exact right_reply h hs

lemma step_valid (h : p.Valid) (e : Event) :
    (p.step config shuffle e).1.Valid ∧ ∀ a ∈ (p.step config shuffle e).2,
        Right p.mnodeCache a := by
  cases e with
  | updateCache nodes => exact ⟨⟨rfl, by simp [step, updateCache]⟩, by simp [step]⟩
  | clearCache => exact ⟨⟨rfl, by simp [step, clearCache]⟩, by simp [step]⟩
  | load nodes strikes => exact ⟨valid_load nodes strikes, by simp [step]⟩
  | strikes strikes => exact ⟨⟨h.swarms, h.cached⟩, by simp [step]⟩
  | getSwarm l => exact getSwarm_step h l
  | runCallback =>
    unfold step runCallback
    cases hr : p.running with
    | nil => exact ⟨h, by simp⟩
    | cons l rest =>
      have hp : ({ p with running := rest } : MnodePool).Valid := ⟨h.swarms, h.cached⟩
      obtain ⟨hv, ha⟩ := @getSwarm_step config shuffle _ hp l
      simp only
      split_ifs
      · exact ⟨⟨hv.swarms, hv.cached⟩, ha⟩
      · exact ⟨hv, ha⟩

lemma run_valid (h : p.Valid) (events : List Event) : (p.run config shuffle events).Valid := by
  induction events generalizing p with
  | nil => exact h
  | cons e events ih => exact ih (step_valid h e).1

end

end MnodePool

/-- **Swarm assignment is nearest on the ring.** The nodes are grouped by swarm id in strictly
increasing order, whatever the order of the map; the swarm found is the nearest one; and the answers
of a pool are always those for its node cache. -/
theorem swarm_assignment : (∀ nodes : List MasterNode, Groups nodes (generateSwarms nodes) ∧
      (generateSwarms nodes).Pairwise (fun a b => a.1 < b.1) ∧
      ∀ grouped : List Swarm, grouped.Perm (groupNodes nodes) →
        sortSwarms grouped = generateSwarms nodes) ∧
    (∀ (nodes : List MasterNode) (pk : Pubkey), nodes ≠ [] →
      ∃ swarm, getSwarm pk (generateSwarms nodes) = some swarm ∧
        Nearest nodes (pubkeyToSwarmSpace pk) swarm ∧
        ∀ swarm', Nearest nodes (pubkeyToSwarmSpace pk) swarm' → swarm' = swarm) ∧
    (∀ (config : PoolConfig) (shuffle : List MasterNode → List MasterNode)
      (nodes : List MasterNode) (strikes : List (Pubkey × Nat)) (events : List MnodePool.Event)
      (e : MnodePool.Event) (a : Answer),
      let p := (MnodePool.load nodes strikes).run config shuffle events
      a ∈ (p.step config shuffle e).2 → a.lookup.ignoreStrikeCount = true →
        getSwarm a.lookup.swarmPubkey (generateSwarms p.mnodeCache) = some (a.swarmId, a.swarm) ∧
        Nearest p.mnodeCache (pubkeyToSwarmSpace a.lookup.swarmPubkey) (a.swarmId, a.swarm)) := by
  refine ⟨fun nodes => ?_, fun nodes pk hne => ?_, ?_⟩
  · obtain ⟨hgroups, hsorted⟩ := generateSwarms_spec nodes
    exact ⟨hgroups, hsorted, fun grouped hp => sortSwarms_congr (groups_groupNodes nodes).nodup hp⟩
  · obtain ⟨swarm, hget, hn⟩ := getSwarm_nearest pk hne
    exact ⟨swarm, hget, hn, fun swarm' hn' => hn'.unique hn⟩
  intro config shuffle nodes strikes events e a p ha hignore
  have hv : p.Valid := MnodePool.run_valid (MnodePool.valid_load nodes strikes) events
  obtain ⟨swarm, hget, hid, hns⟩ := (MnodePool.step_valid hv e).2 a ha
  have heq : swarm = (a.swarmId, a.swarm) := by rw [hid, hns hignore]
  subst heq
  have hne : p.mnodeCache ≠ [] := by
    intro hnil
    rw [hnil] at hget
    cases hget
  obtain ⟨swarm', hget', hn⟩ := getSwarm_nearest a.lookup.swarmPubkey hne
  rw [hget] at hget'
  cases hget'
  exact ⟨hget, hn⟩

def sampleNode (key : Nat) (swarmId : SwarmId) : MasterNode :=
  { remotePubkey := pubkeyOfNat key, ip := 0x01020304, httpsPort := 443, omqPort := 22000
    storageServerVersion := (2, 8, 0), swarmId := swarmId, requestedUnlockHeight := 0 }

def sampleNodes : List MasterNode := [sampleNode 1 0xffffffffffffff00, sampleNode 2 0x100]

def sampleConfig : PoolConfig :=
  { cacheMinSwarmSize := 3, cacheMinNumRefreshPresenceToIncludeNode := 2
    cacheNodeStrikeThreshold := 3 }

/-- A key at position 0 is equally far from both; the swarm before it is the one. -/
theorem swarm_assignment_tie :
    (∃ swarm, getSwarm (pubkeyOfNat 0) (generateSwarms sampleNodes) = some swarm ∧
      Nearest sampleNodes (pubkeyToSwarmSpace (pubkeyOfNat 0)) swarm) ∧
    ∃ a, a ∈ (((MnodePool.load [] []).run sampleConfig id
        [.getSwarm ⟨pubkeyOfNat 0, true⟩, .updateCache sampleNodes]).step sampleConfig id
          .runCallback).2 ∧ a.lookup.ignoreStrikeCount = true ∧ a.swarmId = 0xffffffffffffff00 ∧
      Nearest sampleNodes (pubkeyToSwarmSpace (pubkeyOfNat 0)) (a.swarmId, a.swarm) := by
  constructor
  · obtain ⟨swarm, hget, hn, -⟩ := swarm_assignment.2.1 sampleNodes (pubkeyOfNat 0) (by decide)
    exact ⟨swarm, hget, hn⟩
  have ha : (⟨⟨pubkeyOfNat 0, true⟩, 0xffffffffffffff00, [sampleNode 1 0xffffffffffffff00]⟩ :
      Answer) ∈
      (((MnodePool.load [] []).run sampleConfig id
        [.getSwarm ⟨pubkeyOfNat 0, true⟩, .updateCache sampleNodes]).step sampleConfig id
          .runCallback).2 := by decide +kernel
  exact ⟨_, ha, rfl, rfl, (swarm_assignment.2.2 sampleConfig id [] [] _ _ _ ha rfl).2⟩

/-! ## What a refresh puts into the node cache

`_on_refresh_complete` merges the sorted responses with a heap of cursors. A response that repeats a
record brings it to the front in more than one round, and each can keep it.
-/

section

open QuorumMerge

section

variable {fromBase64 : Bytes → Option Bytes} {direct : Bool}

def Decodes (fromBase64 : Bytes → Option Bytes) (direct : Bool) (raw : Bytes)
    (nodes : List MasterNode) : Prop :=
  processResponse fromBase64 direct raw = .ok nodes

lemma processResponses_of_decodes {raw : List Bytes} {responses : List (List MasterNode)}
    (h : List.Forall₂ (Decodes fromBase64 direct) raw responses) :
    processResponses fromBase64 direct raw =
      .ok (responses.map (fun nodes => nodes.insertionSort (· ≤ ·))) := by
  induction h with
  | nil => rfl
  | cons hd _ ih =>
    rw [processResponses, hd, ih]
    rfl

lemma onRefreshComplete_eq (config : PoolConfig) {raw : List Bytes}
    {responses : List (List MasterNode)}
    (h : List.Forall₂ (Decodes fromBase64 direct) raw responses) (hlen : 2 ≤ raw.length) :
    onRefreshComplete fromBase64 config direct raw =
      .ok (quorumMerge config.cacheMinNumRefreshPresenceToIncludeNode.toNat
        (responses.map (fun nodes => nodes.insertionSort (· ≤ ·)))) := by
  rw [onRefreshComplete, processResponses_of_decodes h]
  have hlen' := h.length_eq
  match responses, hlen' ▸ hlen with
  | a :: b :: rest, _ => rfl

lemma sorted_responses (responses : List (List MasterNode)) :
    ∀ l ∈ responses.map (fun nodes => nodes.insertionSort (· ≤ ·)), l.Pairwise (· ≤ ·) := by
  intro l hl
  obtain ⟨nodes, -, rfl⟩ := mem_map.mp hl
  exact pairwise_insertionSort _ nodes

lemma countP_sorted (responses : List (List MasterNode)) (q : MasterNode → List MasterNode → Bool)
    (hq : ∀ n l l', l.Perm l' → q n l = q n l') (n : MasterNode) :
    (responses.map (fun nodes => nodes.insertionSort (· ≤ ·))).countP (q n) =
      responses.countP (q n) := by
  rw [countP_map]
  refine countP_congr fun nodes _ => ?_
  rw [Function.comp_apply, hq n _ _ (perm_insertionSort _ nodes)]

end

/-- What a refresh makes of its responses if it keeps the quorum: every record once, exactly the
records of enough responses, whatever the order of the responses is. -/
structure QuorumKept (fromBase64 : Bytes → Option Bytes) (config : PoolConfig) (direct : Bool)
    (raw : List Bytes) (responses : List (List MasterNode)) (nodes : List MasterNode) : Prop where
  once : nodes.Nodup
  present : ∀ n, n ∈ nodes ↔ max 1 config.cacheMinNumRefreshPresenceToIncludeNode.toNat ≤
    responses.countP (fun response => n ∈ response)
  any_order : ∀ raw' : List Bytes, raw'.Perm raw →
    onRefreshComplete fromBase64 config direct raw' = .ok nodes

/-- **A refresh keeps its promises iff no record is repeated in as many responses as it has to be
present in.** -/
theorem refresh_quorum_iff (fromBase64 : Bytes → Option Bytes) (config : PoolConfig) (direct : Bool)
    (raw : List Bytes) (responses : List (List MasterNode)) (hlen : 2 ≤ raw.length)
    (h : List.Forall₂ (Decodes fromBase64 direct) raw responses) :
    ∃ nodes, onRefreshComplete fromBase64 config direct raw = .ok nodes ∧
      (QuorumKept fromBase64 config direct raw responses nodes ↔
        ∀ n, responses.countP (fun response => 2 ≤ response.count n) <
          max 1 config.cacheMinNumRefreshPresenceToIncludeNode.toNat) := by
  have hsorted := sorted_responses responses
  refine ⟨_, onRefreshComplete_eq config h hlen, fun hk n => ?_, fun hdup => ⟨?_, fun n => ?_, ?_⟩⟩
  · have hlt := (nodup_quorumMerge _ hsorted).mp hk.once n
    rwa [countP_sorted responses (fun n l => decide (2 ≤ l.count n))
      (fun n l l' hp => by rw [hp.count_eq])] at hlt
  · refine (nodup_quorumMerge _ hsorted).mpr fun n => ?_
    rw [countP_sorted responses (fun n l => decide (2 ≤ l.count n))
      (fun n l l' hp => by rw [hp.count_eq])]
    exact hdup n
  · rw [mem_quorumMerge _ hsorted, countP_sorted responses (fun n l => decide (n ∈ l))
      (fun n l l' hp => by rw [decide_eq_decide]; exact hp.mem_iff)]
  intro raw' hperm
  obtain ⟨responses', h', hperm'⟩ : ∃ responses',
      Forall₂ (Decodes fromBase64 direct) raw' responses' ∧ responses'.Perm responses :=
    perm_comp_forall₂ hperm h
  rw [onRefreshComplete_eq config h' (hperm.length_eq ▸ hlen)]
  refine congrArg Except.ok (quorumMerge_congr _ (sorted_responses responses') hsorted ?_)
  intro n k
  exact (hperm'.map _).countP_eq _

def sampleRecord (key : Nat) : Bytes :=
  natBytes 32 key ++ natBytes 8 256 ++ [1, 2, 3, 4] ++ natBytes 2 443 ++ natBytes 2 22000 ++
      [2, 8, 0]

def decode (b : Bytes) : List MasterNode :=
  ((processResponse (fun _ => none) true b).toOption).getD []

lemma decodes_decode {raw : List Bytes}
    (h : ∀ b ∈ raw, (processResponse (fun _ => none) true b).toOption.isSome) :
    List.Forall₂ (Decodes (fun _ => none) true) raw (raw.map decode) := by
  induction raw with
  | nil => exact .nil
  | cons b raw ih =>
    obtain ⟨hb, hraw⟩ := forall_mem_cons.mp h
    refine .cons ?_ (ih hraw)
    unfold Decodes decode
    cases hd : processResponse (fun _ => none) true b with
    | error e => rw [hd] at hb; cases hb
    | ok nodes => rfl

/-- A record that is repeated in one response only is kept once. -/
theorem refresh_quorum_repeated_once : ∃ nodes, onRefreshComplete (fun _ => none) sampleConfig true
        [sampleRecord 1 ++ sampleRecord 2 ++ sampleRecord 1, sampleRecord 1] = .ok nodes ∧
      QuorumKept (fun _ => none) sampleConfig true
        [sampleRecord 1 ++ sampleRecord 2 ++ sampleRecord 1, sampleRecord 1]
        [decode (sampleRecord 1 ++ sampleRecord 2 ++ sampleRecord 1), decode (sampleRecord 1)]
        nodes := by
  obtain ⟨nodes, hn, hiff⟩ := refresh_quorum_iff (fun _ => none) sampleConfig true
    [sampleRecord 1 ++ sampleRecord 2 ++ sampleRecord 1, sampleRecord 1] _ (by decide)
    (decodes_decode (by decide +kernel))
  refine ⟨nodes, hn, hiff.mpr fun n => ?_⟩
  -- the second response has a single record
  have hlen : (decode (sampleRecord 1)).length = 1 := by decide +kernel
  have hcount := count_le_length (a := n) (l := decode (sampleRecord 1))
  have hone : ¬2 ≤ (decode (sampleRecord 1)).count n := by omega
  show countP _ (_ :: [decode (sampleRecord 1)]) < 2
  rw [countP_cons, countP_cons_of_neg (by simpa using hone), countP_nil]
  split_ifs <;> omega

/-- A record that two responses repeat is put into the cache twice. -/
theorem refresh_keeps_record_twice : ∃ nodes, onRefreshComplete (fun _ => none) sampleConfig true
        [sampleRecord 1 ++ sampleRecord 1, sampleRecord 1 ++ sampleRecord 1] = .ok nodes ∧
      ¬nodes.Nodup := by
  have hcheck : ((onRefreshComplete (fun _ => none) sampleConfig true
      [sampleRecord 1 ++ sampleRecord 1, sampleRecord 1 ++ sampleRecord 1]).toOption.any
        (fun nodes => !decide nodes.Nodup)) = true := by decide +kernel
  cases hr : onRefreshComplete (fun _ => none) sampleConfig true
      [sampleRecord 1 ++ sampleRecord 1, sampleRecord 1 ++ sampleRecord 1] with
  | error e => rw [hr] at hcheck; cases hcheck
  | ok nodes =>
    rw [hr] at hcheck
    exact ⟨nodes, rfl, by simpa [Except.toOption] using hcheck⟩

end

end Bchat.Network
