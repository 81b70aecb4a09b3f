import Bchat.Lib.Fold
import Bchat.Network.OnionRouter

/-!
# How errors are handled

The phases of `_handle_transport_response` for a response that matches an error pattern: nodes are
struck, paths are repaired, paths are retired. Each phase is described by what it does to the active
paths and to the strikes.
-/

namespace Bchat.Network

open List OnionPath Rows Function Nat

variable {s s' t : Router} {c c' : PathCategory} {p q p' path : OnionPath}
  {f : OnionPath → OnionPath} {bad k : Pubkey} {pathId : PathId} {unused : List MasterNode}
  {request : Request} {pattern : ErrorBehaviour}

def OnionPath.keys (p : OnionPath) : List Pubkey := p.nodes.map (·.remotePubkey)

namespace Router

variable {env : Environment} {config : RouterConfig} {clock : Clock}

/-! ## Paths with ids of their own -/

/-- The ids of active paths, whatever their category, are different. -/
def UniqueIds (s : Router) : Prop := ((s.paths .standard ++ s.paths .file).map OnionPath.id).Nodup

lemma UniqueIds.nodup (h : UniqueIds s) (category : PathCategory) :
    ((s.paths category).map OnionPath.id).Nodup := by
  rw [UniqueIds, map_append, nodup_append'] at h
  cases category with
  | standard => exact h.1
  | file => exact h.2.1

lemma UniqueIds.category_eq (h : UniqueIds s) (hp : p ∈ s.paths c) (hq : q ∈ s.paths c')
    (hid : p.id = q.id) : c = c' := by
  rw [UniqueIds, map_append, nodup_append'] at h
  cases c <;> cases c'
  · rfl
  · exact (h.2.2 (mem_map_of_mem hp) (hid ▸ mem_map_of_mem hq)).elim
  · exact (h.2.2 (mem_map_of_mem hq) (hid ▸ mem_map_of_mem hp)).elim
  · rfl

lemma UniqueIds.eq_of_id (h : UniqueIds s) (hp : p ∈ s.paths c) (hq : q ∈ s.paths c)
    (hid : p.id = q.id) : p = q :=
  eq_of_key_eq (h.nodup c) hp hq hid

lemma UniqueIds.of_ids_eq (h : UniqueIds s)
    (hids : ∀ c, (s'.paths c).map OnionPath.id = (s.paths c).map OnionPath.id) : UniqueIds s' := by
  rw [UniqueIds, map_append, hids, hids, ← map_append]
  exact h

lemma UniqueIds.of_sublist (h : UniqueIds s)
    (hids : ∀ c, ((s'.paths c).map OnionPath.id).Sublist ((s.paths c).map OnionPath.id)) :
    UniqueIds s' := by
  rw [UniqueIds, map_append] at h ⊢
  exact h.sublist ((hids _).append (hids _))

/-! ## What is changed by id -/

@[simp] lemma modifyPath_paths_self (s : Router) (c : PathCategory) (id : PathId)
    (f : OnionPath → OnionPath) :
    (s.modifyPath c id f).paths c = modify OnionPath.id id f (s.paths c) :=
  update_self _ _ _

lemma modifyPath_paths_of_ne (s : Router) (h : c' ≠ c) (id : PathId) (f : OnionPath → OnionPath) :
    (s.modifyPath c id f).paths c' = s.paths c' :=
  update_of_ne h _ _

lemma modifyPath_ids (s : Router) (c : PathCategory) (id : PathId)
    (hf : ∀ p, s.findPath c id = some p → (f p).id = p.id) (c' : PathCategory) :
    ((s.modifyPath c id f).paths c').map OnionPath.id = (s.paths c').map OnionPath.id := by
  by_cases hc : c' = c
  · subst hc
    rw [modifyPath_paths_self]
    exact map_modify _ hf
  · rw [modifyPath_paths_of_ne s hc]

lemma mem_modifyPath (hids : UniqueIds s) {id : PathId} {found : OnionPath}
    (hfound : s.findPath c id = some found) : p ∈ (s.modifyPath c id f).paths c' ↔
      (p ∈ s.paths c' ∧ p.id ≠ id) ∨ (c' = c ∧ p = f found) := by
  by_cases hc : c' = c
  · subst hc
    rw [modifyPath_paths_self, mem_modify (hids.nodup c')]
    refine or_congr Iff.rfl ⟨?_, ?_⟩
    · rintro ⟨a, ha, rfl, rfl⟩
      have hfinda : s.findPath c' a.id = some a := (find_eq_some (hids.nodup c')).2 ⟨ha, rfl⟩
      cases hfound.symm.trans hfinda
      exact ⟨rfl, rfl⟩
    · rintro ⟨-, rfl⟩
      exact ⟨found, find_mem hfound, find_key hfound, rfl⟩
  rw [modifyPath_paths_of_ne s hc]
  constructor
  · intro hp
    refine .inl ⟨hp, fun hid => hc ?_⟩
    exact hids.category_eq hp (find_mem hfound) (hid.trans (find_key hfound).symm)
  rintro (⟨hp, -⟩ | ⟨h, -⟩)
  · exact hp
  · exact absurd h hc

/-! ## Repairing -/

/-- What a repair makes of a path: it has all its strikes, or the bad node behind the edge is
replaced by an unused one. -/
def MendedBy (config : RouterConfig) (bad : Pubkey) (unused : List MasterNode)
    (p p' : OnionPath) : Prop :=
  p' = { p with strikeCount := config.pathStrikeThreshold } ∨
    ∃ i r, i ≠ 0 ∧ p.keys[i]? = some bad ∧ r ∈ unused ∧ p' = { p with nodes := p.nodes.set i r }

lemma tryRepairPath_cases (env : Environment) (config : RouterConfig) (pathId : PathId)
    (c : PathCategory) (bad : Pubkey) (s : Router) : (tryRepairPath env config pathId c bad s = s ∧
      ∀ path, s.findPath c pathId = some path → bad ∉ path.keys) ∨
    ∃ path f t, s.findPath c pathId = some path ∧ (t = s ∨ t = s.drawn) ∧
      MendedBy config bad (s.unusedNodes env config 1 s.extractNodes) path (f path) ∧
      tryRepairPath env config pathId c bad s = t.modifyPath c pathId f := by
  rw [tryRepairPath]
  cases hfind : s.findPath c pathId with
  | none => exact .inl ⟨rfl, by rintro _ ⟨⟩⟩
  | some path =>
    dsimp only
    cases hidx : path.nodes.findIdx? (·.remotePubkey = bad) with
    | none =>
      refine .inl ⟨rfl, ?_⟩
      intro p hp hmem
      cases hp
      obtain ⟨n, hn, rfl⟩ := mem_map.1 hmem
      have := findIdx?_eq_none_iff.1 hidx n hn
      simp at this
    | some i =>
      have hbad : path.keys[i]? = some bad := by
        obtain ⟨hi, hkey, -⟩ := findIdx?_eq_some_iff_getElem.1 hidx
        rw [OnionPath.keys, getElem?_map, getElem?_eq_getElem hi]
        simpa using hkey
      cases i with
      | zero => exact .inr ⟨path, _, s, rfl, .inl rfl, .inl rfl, rfl⟩
      | succ i =>
        cases hun : s.unusedNodes env config 1 s.extractNodes with
        | nil => exact .inr ⟨path, _, s.drawn, rfl, .inr rfl, .inl rfl, rfl⟩
        | cons r rest =>
          exact .inr ⟨path, _, s.drawn, rfl, .inr rfl,
            .inr ⟨i + 1, r, succ_ne_zero i, hbad, mem_cons_self, rfl⟩, rfl⟩

/-- What the repairs of a path do: the other paths and the strikes stay, the path gets nodes that
are on no other path, and loses bad ones only. -/
structure Repairs (bad : Pubkey → Prop) (pathId : PathId) (s s' : Router) : Prop where
  strikes : s'.mnodeStrikes = s.mnodeStrikes
  shuffles : s'.shuffles = s.shuffles
  dying : s'.pathsPendingDrop = s.pathsPendingDrop
  ids : ∀ c, (s'.paths c).map OnionPath.id = (s.paths c).map OnionPath.id
  others : ∀ c p, p.id ≠ pathId → (p ∈ s'.paths c ↔ p ∈ s.paths c)
  gained : ∀ c, ∀ p ∈ s.paths c, ∀ p' ∈ s'.paths c, p.id = pathId → p'.id = pathId →
    ∀ k ∈ p'.keys, k ∈ p.keys ∨ ∀ c', ∀ q ∈ s.paths c', q.id ≠ pathId → k ∉ q.keys
  lost : ∀ c, ∀ p ∈ s.paths c, ∀ p' ∈ s'.paths c, p.id = pathId → p'.id = pathId →
    ∀ k ∈ p.keys, k ∈ p'.keys ∨ bad k

lemma Repairs.refl {bad : Pubkey → Prop} (hids : UniqueIds s) : Repairs bad pathId s s where
  strikes := rfl
  shuffles := rfl
  dying := rfl
  ids _ := rfl
  others _ _ _ := Iff.rfl
  gained c p hp p' hp' hid hid' k hk := by
    rw [hids.eq_of_id hp hp' (hid.trans hid'.symm)]
    exact .inl hk
  lost c p hp p' hp' hid hid' k hk := by
    rw [← hids.eq_of_id hp hp' (hid.trans hid'.symm)]
    exact .inl hk

lemma Repairs.uniqueIds {bad : Pubkey → Prop} (h : Repairs bad pathId s s') (hids : UniqueIds s) :
    UniqueIds s' :=
  hids.of_ids_eq h.ids

lemma Repairs.exists_between {bad : Pubkey → Prop} (h : Repairs bad pathId s s')
    (hp : p ∈ s.paths c) : ∃ p' ∈ s'.paths c, p'.id = p.id := by
  have hmem : p.id ∈ (s'.paths c).map OnionPath.id := by
    rw [h.ids]
    exact mem_map_of_mem hp
  obtain ⟨p', hp', hid⟩ := mem_map.1 hmem
  exact ⟨p', hp', hid⟩

lemma Repairs.trans {bad : Pubkey → Prop} {u : Router} (h : Repairs bad pathId s t)
    (h' : Repairs bad pathId t u) : Repairs bad pathId s u where
  strikes := h'.strikes.trans h.strikes
  shuffles := h'.shuffles.trans h.shuffles
  dying := h'.dying.trans h.dying
  ids c := (h'.ids c).trans (h.ids c)
  others c p hp := (h'.others c p hp).trans (h.others c p hp)
  gained c p hp p'' hp'' hid hid'' k hk := by
    obtain ⟨p', hp', hid'⟩ := h.exists_between hp
    rcases h'.gained c p' hp' p'' hp'' (hid'.trans hid) hid'' k hk with hk | hk
    · exact h.gained c p hp p' hp' hid (hid'.trans hid) k hk
    · exact .inr fun c' q hq hne => hk c' q ((h.others c' q hne).2 hq) hne
  lost c p hp p'' hp'' hid hid'' k hk := by
    obtain ⟨p', hp', hid'⟩ := h.exists_between hp
    rcases h.lost c p hp p' hp' hid (hid'.trans hid) k hk with hk | hk
    · exact h'.lost c p' hp' p'' hp'' (hid'.trans hid) hid'' k hk
    · exact .inr hk

lemma mem_extractNodes (hp : p ∈ s.paths c) {n : MasterNode} (hn : n ∈ p.nodes) :
    n ∈ s.extractNodes := by
  refine mem_append_left _ (mem_flatMap.2 ⟨p, mem_append.2 ?_, hn⟩)
  cases c with
  | standard => exact .inl hp
  | file => exact .inr hp

lemma unused_unusedNodes (env : Environment) (config : RouterConfig) (s : Router) (count : Nat)
    (exclude : List MasterNode) : Unused config.pool s.mnodeCache s.mnodeStrikes count exclude
      (s.unusedNodes env config count exclude) :=
  unused_getUnusedNodes _ _ _ _ _ _

lemma MendedBy.gained (h : MendedBy config bad (s.unusedNodes env config 1 s.extractNodes) p p')
    (hk : k ∈ p'.keys) : k ∈ p.keys ∨ ∀ c, ∀ q ∈ s.paths c, k ∉ q.keys := by
  rcases h with rfl | ⟨i, r, -, -, hr, rfl⟩
  · exact .inl hk
  rw [OnionPath.keys, map_set] at hk
  rcases mem_or_eq_of_mem_set hk with hk | rfl
  · exact .inl hk
  refine .inr fun c q hq hmem => ?_
  obtain ⟨n, hn, heq⟩ := mem_map.1 hmem
  exact (unused_unusedNodes env config s 1 s.extractNodes).notExcluded r hr n
    (mem_extractNodes hq hn) heq.symm

lemma MendedBy.lost (h : MendedBy config bad unused p p') (hk : k ∈ p.keys) :
    k ∈ p'.keys ∨ k = bad := by
  rcases h with rfl | ⟨i, r, -, hi, -, rfl⟩
  · exact .inl hk
  obtain ⟨j, hj⟩ := mem_iff_getElem?.1 hk
  by_cases hij : i = j
  · subst hij
    exact .inr (Option.some.inj (hj.symm.trans hi))
  refine .inl (mem_iff_getElem?.2 ⟨j, ?_⟩)
  rw [OnionPath.keys, map_set, getElem?_set_ne hij]
  exact hj

lemma MendedBy.id_eq (h : MendedBy config bad unused p p') : p'.id = p.id := by
  rcases h with rfl | ⟨i, r, -, -, -, rfl⟩ <;> rfl

lemma repairs_tryRepairPath {bad : Pubkey → Prop} (hids : UniqueIds s) (pathId : PathId)
    (c : PathCategory) {key : Pubkey} (hkey : bad key) :
    Repairs bad pathId s (tryRepairPath env config pathId c key s) := by
  rcases tryRepairPath_cases env config pathId c key s with ⟨h, -⟩ | ⟨path, f, t, hfind, ht, hf, h⟩
  · rw [h]
    exact Repairs.refl hids
  have htp : t.paths = s.paths := by rcases ht with rfl | rfl <;> rfl
  have hidst : UniqueIds t := by rw [UniqueIds, htp]; exact hids
  have hfindt : t.findPath c pathId = some path := by rw [findPath, htp]; exact hfind
  have hmem : ∀ c' p, p ∈ (t.modifyPath c pathId f).paths c' ↔
      (p ∈ s.paths c' ∧ p.id ≠ pathId) ∨ (c' = c ∧ p = f path) := by
    intro c' p
    rw [mem_modifyPath hidst hfindt, htp]
  have hpath := find_mem hfind
  have hid := find_key hfind
  -- the path with the id is the one found, before and after
  have hbefore : ∀ c', ∀ p ∈ s.paths c', p.id = pathId → p = path := by
    intro c' p hp hpid
    have hc := hids.category_eq hp hpath (hpid.trans hid.symm)
    subst hc
    exact hids.eq_of_id hp hpath (hpid.trans hid.symm)
  have hafter : ∀ c', ∀ p ∈ (t.modifyPath c pathId f).paths c', p.id = pathId → p = f path := by
    intro c' p hp hpid
    rcases (hmem c' p).1 hp with ⟨-, hne⟩ | ⟨-, rfl⟩
    · exact absurd hpid hne
    · rfl
  rw [h]
  refine ⟨?_, ?_, ?_, ?_, ?_, ?_, ?_⟩
  · rcases ht with rfl | rfl <;> rfl
  · rcases ht with rfl | rfl <;> rfl
  · rcases ht with rfl | rfl <;> rfl
  · intro c'
    rw [modifyPath_ids t c pathId, htp]
    intro p hp
    cases hfindt.symm.trans hp
    exact hf.id_eq
  · intro c' p hne
    rw [hmem]
    constructor
    · rintro (⟨hp, -⟩ | ⟨-, rfl⟩)
      · exact hp
      · exact absurd (hf.id_eq.trans hid) hne
    · exact fun hp => .inl ⟨hp, hne⟩
  · intro c' p hp p' hp' hpid hpid' k hk
    rw [hafter c' p' hp' hpid'] at hk
    rw [hbefore c' p hp hpid]
    rcases hf.gained hk with hk | hk
    · exact .inl hk
    · exact .inr fun c'' q hq _ => hk c'' q hq
  intro c' p hp p' hp' hpid hpid' k hk
  rw [hbefore c' p hp hpid] at hk
  rw [hafter c' p' hp' hpid']
  rcases hf.lost hk with hk | rfl
  · exact .inl hk
  · exact .inr hkey

lemma uniqueIds_tryRepairPath (hids : UniqueIds s) (pathId : PathId) (c : PathCategory)
    (key : Pubkey) : UniqueIds (tryRepairPath env config pathId c key s) :=
  have h : Repairs (fun _ => True) pathId s (tryRepairPath env config pathId c key s) :=
    repairs_tryRepairPath hids pathId c trivial
  h.uniqueIds hids

/-- The nodes that are to be repaired are the bad ones. -/
def IsStruckOut (config : RouterConfig) (clock : Clock) (strikes : Strikes) (key : Pubkey) : Prop :=
  config.nodeStrikeThreshold ≤ nodeStrikeCount clock.seconds strikes key

lemma isStruckOut_of_mem_nodesToRepair {key : Pubkey}
    (h : key ∈ nodesToRepair config clock path s) :
    IsStruckOut config clock s.mnodeStrikes key := by
  simpa [IsStruckOut] using (mem_filter.1 h).2

lemma repairs_repairAt {strikes : Strikes} (hids : UniqueIds s) (hs : s.mnodeStrikes = strikes)
    (pathId : PathId) (c : PathCategory) (index : Nat) :
    Repairs (IsStruckOut config clock strikes) pathId s
      (repairAt env config clock pathId c s index) := by
  rw [repairAt]
  split
  · exact Repairs.refl hids
  refine Loop.invariant (Repairs (IsStruckOut config clock strikes) pathId s) ?_
    (Repairs.refl hids)
  intro t key hkey ht
  have hbad : IsStruckOut config clock strikes key := hs ▸ isStruckOut_of_mem_nodesToRepair hkey
  exact ht.trans (repairs_tryRepairPath (ht.uniqueIds hids) pathId c hbad)

lemma repairs_repairPaths (env : Environment) (config : RouterConfig) (clock : Clock)
    (hids : UniqueIds s) (pathId : PathId) :
    Repairs (IsStruckOut config clock s.mnodeStrikes) pathId s
      (repairPaths env config clock pathId s) := by
  refine Loop.invariant (Repairs (IsStruckOut config clock s.mnodeStrikes) pathId s) ?_
    (Repairs.refl hids)
  intro t c _ ht
  refine Loop.invariant (Repairs (IsStruckOut config clock s.mnodeStrikes) pathId s) ?_ ht
  intro u index _ hu
  exact hu.trans (repairs_repairAt (hu.uniqueIds hids) hu.strikes pathId c index)

/-! ## The repaired path -/

/-- The path will be retired, or none of its nodes has too many strikes. -/
def IsFixed (config : RouterConfig) (clock : Clock) (strikes : Strikes) (p : OnionPath) : Prop :=
  config.pathStrikeThreshold ≤ p.strikeCount ∨
    ∀ k ∈ p.keys, ¬ IsStruckOut config clock strikes k

def LeftToRepair (config : RouterConfig) (clock : Clock) (pathId : PathId) (c : PathCategory)
    (keys : List Pubkey) (s : Router) : Prop :=
  ∀ p ∈ s.paths c, p.id = pathId → config.pathStrikeThreshold ≤ p.strikeCount ∨
    ∀ k, IsStruckOut config clock s.mnodeStrikes k → p.keys.count k ≤ keys.count k

lemma leftToRepair_nil : LeftToRepair config clock pathId c [] s ↔
      ∀ p ∈ s.paths c, p.id = pathId → IsFixed config clock s.mnodeStrikes p := by
  refine forall_congr' fun p => forall_congr' fun _ => forall_congr' fun _ => or_congr Iff.rfl ?_
  simp only [count_nil, le_zero, count_eq_zero]
  exact forall_congr' fun k => ⟨fun h hk hbad => h hbad hk, fun h hbad hk => h hk hbad⟩

lemma LeftToRepair.cons {keys : List Pubkey} (h : LeftToRepair config clock pathId c keys s)
    (bad : Pubkey) :
    LeftToRepair config clock pathId c (bad :: keys) s := fun p hp hid =>
  (h p hp hid).imp id fun hle k hk =>
    (hle k hk).trans (by rw [count_cons]; exact le_add_right _ _)

lemma tryRepairPath_strikes (pathId : PathId) (c : PathCategory) (bad : Pubkey) (s : Router) :
    (tryRepairPath env config pathId c bad s).mnodeStrikes = s.mnodeStrikes := by
  rcases tryRepairPath_cases env config pathId c bad s with ⟨h, -⟩ | ⟨path, f, t, -, ht, -, h⟩
  · rw [h]
  · rw [h]
    rcases ht with rfl | rfl <;> rfl

lemma tryRepairPath_paths_of_ne (pathId : PathId) (hc : c ≠ c') (bad : Pubkey) (s : Router) :
    (tryRepairPath env config pathId c' bad s).paths c = s.paths c := by
  rcases tryRepairPath_cases env config pathId c' bad s with ⟨h, -⟩ | ⟨path, f, t, -, ht, -, h⟩
  · rw [h]
  · rw [h, modifyPath_paths_of_ne t hc]
    rcases ht with rfl | rfl <;> rfl

lemma repairs_category (hids : UniqueIds s) (pathId : PathId) (c : PathCategory)
    (indices : List Nat) : Repairs (IsStruckOut config clock s.mnodeStrikes) pathId s
      (indices.foldl (repairAt env config clock pathId c) s) := by
  refine Loop.invariant (Repairs (IsStruckOut config clock s.mnodeStrikes) pathId s) ?_
    (Repairs.refl hids)
  intro t index _ ht
  exact ht.trans (repairs_repairAt (ht.uniqueIds hids) ht.strikes pathId c index)

section

variable (hthr : config.nodeStrikeThreshold = config.pool.cacheNodeStrikeThreshold.toNat)

include hthr

lemma not_isStruckOut_of_unused {count : Nat} {exclude : List MasterNode} {r : MasterNode}
    (hr : r ∈ s.unusedNodes env config count exclude) :
    ¬ IsStruckOut config clock s.mnodeStrikes r.remotePubkey := by
  rw [IsStruckOut, hthr, not_le]
  exact (unused_unusedNodes env config s count exclude).nodeStrikeCount_lt clock.seconds hr

lemma MendedBy.count_le {keys : List Pubkey}
    (h : MendedBy config bad (s.unusedNodes env config 1 s.extractNodes) p p')
    (hleft : config.pathStrikeThreshold ≤ p.strikeCount ∨
      ∀ k, IsStruckOut config clock s.mnodeStrikes k → p.keys.count k ≤ (bad :: keys).count k) :
    config.pathStrikeThreshold ≤ p'.strikeCount ∨
      ∀ k, IsStruckOut config clock s.mnodeStrikes k → p'.keys.count k ≤ keys.count k := by
  rcases h with rfl | ⟨i, r, -, hi, hr, rfl⟩
  · exact .inl (le_refl _)
  refine hleft.imp id fun hleft k hk => ?_
  obtain ⟨hlt, hget⟩ := List.getElem?_eq_some_iff.1 hi
  have hne : r.remotePubkey ≠ k := by
    rintro rfl
    exact not_isStruckOut_of_unused hthr hr hk
  have hcount := hleft k hk
  have hkeys : ({ p with nodes := p.nodes.set i r } : OnionPath).keys
      = p.keys.set i r.remotePubkey := map_set
  have hnew : (if (r.remotePubkey == k) = true then 1 else 0) = 0 :=
    if_neg fun h => hne (eq_of_beq h)
  rw [hkeys, count_set hlt, hget, hnew]
  rw [count_cons] at hcount
  omega

variable (hids : UniqueIds s)

include hids

lemma leftToRepair_tryRepairPath {keys : List Pubkey}
    (h : LeftToRepair config clock pathId c (bad :: keys) s) :
    LeftToRepair config clock pathId c keys (tryRepairPath env config pathId c bad s) := by
  intro p' hp' hid'
  rcases tryRepairPath_cases env config pathId c bad s
      with ⟨heq, hno⟩ | ⟨path, f, t, hfind, ht, hf, heq⟩
  · rw [heq] at hp' ⊢
    refine (h p' hp' hid').imp id fun hle k hk => ?_
    have hnot := hno p' ((find_eq_some (hids.nodup c)).2 ⟨hp', hid'⟩)
    by_cases hkb : k = bad
    · rw [hkb, count_eq_zero_of_not_mem hnot]
      exact zero_le _
    · simpa [count_cons, Ne.symm hkb] using hle k hk
  have htp : t.paths = s.paths := by rcases ht with rfl | rfl <;> rfl
  have hts : t.mnodeStrikes = s.mnodeStrikes := by rcases ht with rfl | rfl <;> rfl
  have hidst : UniqueIds t := by rw [UniqueIds, htp]; exact hids
  have hfindt : t.findPath c pathId = some path := by rw [findPath, htp]; exact hfind
  rw [heq] at hp' ⊢
  have hstrikes : (t.modifyPath c pathId f).mnodeStrikes = s.mnodeStrikes := hts
  rw [hstrikes]
  rcases (mem_modifyPath hidst hfindt).1 hp' with ⟨-, hne⟩ | ⟨-, rfl⟩
  · exact absurd hid' hne
  · exact hf.count_le hthr (h path (find_mem hfind) (find_key hfind))

lemma isFixed_tryRepairPath (h : LeftToRepair config clock pathId c [] s) :
    LeftToRepair config clock pathId c [] (tryRepairPath env config pathId c' bad s) := by
  by_cases hc : c = c'
  · subst hc
    exact leftToRepair_tryRepairPath hthr hids (h.cons bad)
  intro p hp hid
  rw [tryRepairPath_paths_of_ne pathId hc] at hp
  rw [tryRepairPath_strikes]
  exact h p hp hid

lemma isFixed_repairAt {index : Nat} (hget : (s.paths c)[index]? = some path)
    (hpath : path.id = pathId) :
    LeftToRepair config clock pathId c [] (repairAt env config clock pathId c s index) := by
  -- at first all bad nodes of the path are still to be repaired
  have hstart : LeftToRepair config clock pathId c (nodesToRepair config clock path s) s := by
    intro p hp hid
    have hsame := hids.eq_of_id hp (mem_of_getElem? hget) (hid.trans hpath.symm)
    subst hsame
    refine .inr fun k hk => ?_
    rw [nodesToRepair, count_filter (by simpa [IsStruckOut] using hk)]
    exact le_refl _
  rw [repairAt, hget]
  dsimp only
  generalize nodesToRepair config clock path s = keys at hstart
  clear hget
  induction keys generalizing s with
  | nil => exact hstart
  | cons bad keys ih =>
    refine ih ?_ (leftToRepair_tryRepairPath hthr hids hstart)
    exact uniqueIds_tryRepairPath hids pathId c bad

lemma isFixed_repairAt_of_isFixed {index : Nat} (h : LeftToRepair config clock pathId c [] s) :
    LeftToRepair config clock pathId c [] (repairAt env config clock pathId c' s index) := by
  rw [repairAt]
  split
  · exact h
  refine (Loop.invariant (fun t => UniqueIds t ∧ LeftToRepair config clock pathId c [] t) ?_
    ⟨hids, h⟩).2
  intro t bad _ ht
  exact ⟨uniqueIds_tryRepairPath ht.1 pathId c' bad, isFixed_tryRepairPath hthr ht.1 ht.2⟩

lemma isFixed_category (c : PathCategory) : LeftToRepair config clock pathId c []
      ((range (s.paths c).length).foldl (repairAt env config clock pathId c) s) := by
  by_cases hex : pathId ∈ (s.paths c).map OnionPath.id
  · obtain ⟨index, hindex⟩ := mem_iff_getElem?.1 hex
    have hrange : index ∈ range (s.paths c).length := by
      have hlt := (List.getElem?_eq_some_iff.1 hindex).1
      rw [length_map] at hlt
      exact mem_range.2 hlt
    refine Loop.establish
      (fun t => UniqueIds t ∧ (t.paths c).map OnionPath.id = (s.paths c).map OnionPath.id)
      (LeftToRepair config clock pathId c []) ?_ ?_ hrange ?_ ⟨hids, rfl⟩
    · rintro t i - ⟨ht, hsame⟩
      have hrep : Repairs (IsStruckOut config clock t.mnodeStrikes) pathId t
          (repairAt env config clock pathId c t i) := repairs_repairAt ht rfl pathId c i
      exact ⟨hrep.uniqueIds ht, (hrep.ids c).trans hsame⟩
    · rintro t i - ⟨ht, -⟩ hfixed
      exact isFixed_repairAt_of_isFixed hthr ht hfixed
    rintro t ⟨ht, hsame⟩
    rw [← hsame, getElem?_map, Option.map_eq_some_iff] at hindex
    obtain ⟨path, hget, hid⟩ := hindex
    exact isFixed_repairAt hthr ht hget hid
  intro p hp hid
  have hrep : Repairs (IsStruckOut config clock s.mnodeStrikes) pathId s
      ((range (s.paths c).length).foldl (repairAt env config clock pathId c) s) :=
    repairs_category hids pathId c _
  have hmem := mem_map_of_mem (f := OnionPath.id) hp
  rw [hrep.ids c, hid] at hmem
  exact absurd hmem hex

lemma isFixed_repairPaths (c : PathCategory) :
    LeftToRepair config clock pathId c [] (repairPaths env config clock pathId s) := by
  have hmem : c ∈ env.categoryOrder s.shuffles := by
    rw [(env.categoryOrder_perm s.shuffles).mem_iff]
    cases c <;> decide
  refine Loop.establish UniqueIds (LeftToRepair config clock pathId c []) ?_ ?_ hmem ?_ hids
  · intro t c' _ ht
    exact (repairs_category ht pathId c' _).uniqueIds ht
  · intro t c' _ ht hfixed
    refine (Loop.invariant (fun u => UniqueIds u ∧ LeftToRepair config clock pathId c [] u) ?_
      ⟨ht, hfixed⟩).2
    intro u index _ hu
    exact ⟨(repairs_repairAt hu.1 rfl pathId c' index).uniqueIds hu.1,
      isFixed_repairAt_of_isFixed hthr hu.1 hu.2⟩
  · intro t ht
    exact isFixed_category hthr ht c

end

/-! ## Strikes -/

def strikesPerFailure (config : RouterConfig) (isPermanent : Bool) : Nat :=
  if isPermanent then config.pool.cacheNodeStrikeThreshold.toNat else 1

lemma penalize_eq (keys : List Pubkey) (isPermanent : Bool) (s : Router) :
    penalize config clock keys isPermanent s = { s with
        mnodeStrikes := fun k => s.mnodeStrikes k ++
          replicate (keys.count k * strikesPerFailure config isPermanent) clock.seconds } := by
  induction keys generalizing s with
  | nil => simp [penalize]
  | cons key keys ih =>
    have hcons : penalize config clock (key :: keys) isPermanent s
        = penalize config clock keys isPermanent (s.strikeNode config clock key isPermanent) := rfl
    rw [hcons, ih]
    have hstrikes : (fun k => (s.strikeNode config clock key isPermanent).mnodeStrikes k ++
          replicate (keys.count k * strikesPerFailure config isPermanent) clock.seconds)
        = fun k => s.mnodeStrikes k ++ replicate
          ((key :: keys).count k * strikesPerFailure config isPermanent) clock.seconds := by
      funext k
      by_cases hk : k = key
      · subst hk
        simp only [strikeNode, recordNodeFailure, update_self, append_assoc,
          replicate_append_replicate, count_cons_self, add_mul, one_mul,
          strikesPerFailure]
        rw [add_comm]
      · simp [strikeNode, recordNodeFailure, update_of_ne hk, count_cons_of_ne (Ne.symm hk)]
    rw [hstrikes]
    rfl

lemma penalize_strikes_ne {keys : List Pubkey} {isPermanent : Bool} :
    (penalize config clock keys isPermanent s).mnodeStrikes k ≠ s.mnodeStrikes k ↔
      k ∈ keys ∧ 0 < strikesPerFailure config isPermanent := by
  rw [penalize_eq, Ne, append_right_eq_self, replicate_eq_nil_iff, mul_eq_zero,
    count_eq_zero, not_or, not_not, pos_iff_ne_zero]

/-! ## Retiring -/

lemma buildPath_eq (env : Environment) (config : RouterConfig) (category : PathCategory)
    (exclude : List MasterNode) (originalPathId : Option PathId)
    (specificEdgeNode : Option CachedEdgeNode) (s : Router) :
    ∃ uniqueIds draws requestQueues inProgressPathBuilds pendingPaths connectivityChecks
        waitingBuilds,
      buildPath env config category exclude originalPathId specificEdgeNode s = { s with
          uniqueIds := uniqueIds
          draws := draws
          requestQueues := requestQueues
          inProgressPathBuilds := inProgressPathBuilds
          pendingPaths := pendingPaths
          connectivityChecks := connectivityChecks
          waitingBuilds := waitingBuilds } := by
  rw [buildPath]
  split
  · exact ⟨_, _, _, _, _, _, _, rfl⟩
  split
  · exact ⟨_, _, _, _, _, _, _, rfl⟩
  dsimp only
  split <;> exact ⟨_, _, _, _, _, _, _, rfl⟩

lemma rebuildIfNeeded_cases (env : Environment) (config : RouterConfig) (c : PathCategory)
    (exclude : List MasterNode) (s : Router) :
    rebuildIfNeeded env config c exclude s = buildPath env config c exclude none none s ∨
      rebuildIfNeeded env config c exclude s = s :=
  ite_eq_or_eq _ _ _

lemma rebuildIfNeeded_paths (c : PathCategory) (exclude : List MasterNode) (s : Router) :
    (rebuildIfNeeded env config c exclude s).paths = s.paths ∧
      (rebuildIfNeeded env config c exclude s).mnodeStrikes = s.mnodeStrikes := by
  rcases rebuildIfNeeded_cases env config c exclude s with h | h
  · obtain ⟨_, _, _, _, _, _, _, heq⟩ := buildPath_eq env config c exclude none none s
    rw [h, heq]
    exact ⟨rfl, rfl⟩
  · rw [h]
    exact ⟨rfl, rfl⟩

lemma strikePath_eq (path : OnionPath) (alreadyPenalized : List Pubkey) (s : Router) :
    strikePath config clock path alreadyPenalized s =
      penalize config clock (path.keys.filter (· ∉ alreadyPenalized)) false s := rfl

lemma handlePathFailure_cases (env : Environment) (config : RouterConfig) (clock : Clock)
    (pathId : PathId) (c : PathCategory) (alreadyPenalized : List Pubkey) (s : Router) :
    (s.findPath c pathId = none ∧
      handlePathFailure env config clock pathId c alreadyPenalized s = s) ∨
    ∃ path, s.findPath c pathId = some path ∧ ((path.strikeCount + 1 < config.pathStrikeThreshold ∧
        handlePathFailure env config clock pathId c alreadyPenalized s =
          s.modifyPath c pathId fun _ => { path with strikeCount := path.strikeCount + 1 }) ∨
      (config.pathStrikeThreshold ≤ path.strikeCount + 1 ∧
        (handlePathFailure env config clock pathId c alreadyPenalized s).paths =
          update s.paths c (erase OnionPath.id pathId (s.paths c)) ∧
        (handlePathFailure env config clock pathId c alreadyPenalized s).mnodeStrikes =
          (penalize config clock (path.keys.filter (· ∉ alreadyPenalized)) false
            s).mnodeStrikes)) := by
  rw [handlePathFailure]
  cases hfind : s.findPath c pathId with
  | none => exact .inl ⟨rfl, rfl⟩
  | some path =>
    refine .inr ⟨path, rfl, ?_⟩
    dsimp only
    by_cases hlt : path.strikeCount + 1 < config.pathStrikeThreshold
    · have hbelow : path.strikeCount < config.pathStrikeThreshold := by omega
      rw [if_pos hbelow, if_pos hlt]
      exact .inl ⟨hlt, rfl⟩
    -- the path is struck out, whether this failure is counted or not
    refine .inr ⟨not_lt.1 hlt, ?_⟩
    have hid : path.id = pathId := find_key hfind
    rw [if_neg (by split <;> omega)]
    rw [(rebuildIfNeeded_paths c _ _).1, (rebuildIfNeeded_paths c _ _).2]
    simp only [strikePath_eq, penalize_eq, retirePath, removeFailureListeners, modifyPath,
      update_self, update_idem, hid]
    refine ⟨?_, rfl⟩
    rw [erase_modify]
    exact fun _ _ => rfl

/-- What failures of listed paths do: the paths left are old ones, among them all not listed, and
exactly the nodes of the paths that are gone were struck. -/
structure Failures (clock : Clock) (failed : List (PathCategory × PathId))
    (alreadyPenalized : List Pubkey) (s s' : Router) : Prop where
  ids : ∀ c, ((s'.paths c).map OnionPath.id).Sublist ((s.paths c).map OnionPath.id)
  kept : ∀ c, ∀ p ∈ s'.paths c, ∃ q ∈ s.paths c,
    q.id = p.id ∧ q.nodes = p.nodes ∧ q.strikeCount ≤ p.strikeCount
  untouched : ∀ c, ∀ q ∈ s.paths c, (c, q.id) ∉ failed → q ∈ s'.paths c
  struck : ∀ k, ∃ n, s'.mnodeStrikes k = s.mnodeStrikes k ++ List.replicate n clock.seconds ∧
    (n ≠ 0 → ∃ c, ∃ q ∈ s.paths c, (c, q.id) ∈ failed ∧ k ∈ q.keys ∧ k ∉ alreadyPenalized ∧
      q.id ∉ (s'.paths c).map OnionPath.id)
  gone : ∀ c, ∀ q ∈ s.paths c, q.id ∉ (s'.paths c).map OnionPath.id →
    ∀ k ∈ q.keys, k ∉ alreadyPenalized → s'.mnodeStrikes k ≠ s.mnodeStrikes k

variable {failed : List (PathCategory × PathId)} {alreadyPenalized : List Pubkey}

lemma Failures.refl (s : Router) : Failures clock failed alreadyPenalized s s where
  ids _ := Sublist.refl _
  kept _ p hp := ⟨p, hp, rfl, rfl, le_refl _⟩
  untouched _ _ hq _ := hq
  struck k := ⟨0, by simp, fun h => absurd rfl h⟩
  gone _ _ hq hnot := absurd (mem_map_of_mem hq) hnot

lemma Failures.uniqueIds (h : Failures clock failed alreadyPenalized s t) (hids : UniqueIds s) :
    UniqueIds t :=
  hids.of_sublist h.ids

lemma Failures.count (hids : UniqueIds s) (h : Failures clock failed alreadyPenalized s t)
    (hfailed : (c, pathId) ∈ failed) (hfind : t.findPath c pathId = some path) :
    Failures clock failed alreadyPenalized s
      (t.modifyPath c pathId fun _ => { path with strikeCount := path.strikeCount + 1 }) := by
  have hidst := h.uniqueIds hids
  have hsame : ∀ c', ((t.modifyPath c pathId fun _ =>
        { path with strikeCount := path.strikeCount + 1 }).paths c').map OnionPath.id
      = (t.paths c').map OnionPath.id := by
    intro c'
    refine modifyPath_ids t c pathId ?_ c'
    intro p hp
    cases hfind.symm.trans hp
    rfl
  refine ⟨?_, ?_, ?_, ?_, ?_⟩
  · intro c'
    rw [hsame]
    exact h.ids c'
  · intro c' p hp
    rcases (mem_modifyPath hidst hfind).1 hp with ⟨hp, -⟩ | ⟨rfl, rfl⟩
    · exact h.kept c' p hp
    · obtain ⟨q, hq, hid, hnodes, hle⟩ := h.kept c' path (find_mem hfind)
      exact ⟨q, hq, hid, hnodes, hle.trans (le_succ _)⟩
  · intro c' q hq hnot
    refine (mem_modifyPath hidst hfind).2 (.inl ⟨h.untouched c' q hq hnot, ?_⟩)
    intro hid
    have hc := hidst.category_eq (h.untouched c' q hq hnot) (find_mem hfind)
      (hid.trans (find_key hfind).symm)
    exact hnot (hc ▸ hid ▸ hfailed)
  · intro k
    obtain ⟨n, hn, hn'⟩ := h.struck k
    refine ⟨n, hn, fun hne => ?_⟩
    obtain ⟨c', q, hq, hqf, hk, hpen, hgone⟩ := hn' hne
    exact ⟨c', q, hq, hqf, hk, hpen, by rw [hsame]; exact hgone⟩
  intro c' q hq hgone
  rw [hsame] at hgone
  exact h.gone c' q hq hgone

lemma Failures.retire {t' : Router} (hids : UniqueIds s)
    (h : Failures clock failed alreadyPenalized s t) (hfailed : (c, pathId) ∈ failed)
    (hfind : t.findPath c pathId = some path)
    (hpaths : t'.paths = update t.paths c (erase OnionPath.id pathId (t.paths c)))
    (hstrikes : t'.mnodeStrikes =
      (penalize config clock (path.keys.filter (· ∉ alreadyPenalized)) false t).mnodeStrikes) :
    Failures clock failed alreadyPenalized s t' := by
  have hidst := h.uniqueIds hids
  have hsub : ∀ c', (t'.paths c').Sublist (t.paths c') := by
    intro c'
    rw [hpaths]
    by_cases hc : c' = c
    · subst hc
      rw [update_self]
      exact erase_sublist
    · rw [update_of_ne hc]
  -- the path is gone, and every other path is still there
  have herased : pathId ∉ (t'.paths c).map OnionPath.id := by
    rw [hpaths, update_self]
    intro hmem
    obtain ⟨p, hp, hid⟩ := mem_map.1 hmem
    exact ((mem_erase (hidst.nodup c)).1 hp).2 hid
  have hstay : ∀ c', ∀ p ∈ t.paths c', (c', p.id) ≠ (c, pathId) → p ∈ t'.paths c' := by
    intro c' p hp hne
    rw [hpaths]
    by_cases hc : c' = c
    · subst hc
      rw [update_self, mem_erase (hidst.nodup c')]
      exact ⟨hp, fun hid => hne (by rw [hid])⟩
    · rw [update_of_ne hc]
      exact hp
  have hnew : ∀ k, t'.mnodeStrikes k = t.mnodeStrikes k ++
      replicate ((path.keys.filter (· ∉ alreadyPenalized)).count k) clock.seconds := by
    intro k
    rw [hstrikes, penalize_eq]
    simp [strikesPerFailure]
  obtain ⟨origin, horigin, hoid, honodes, -⟩ := h.kept c path (find_mem hfind)
  have hid : path.id = pathId := find_key hfind
  have hkeys : origin.keys = path.keys := by simp only [OnionPath.keys, honodes]
  refine ⟨fun c' => ((hsub c').map _).trans (h.ids c'), ?_, ?_, ?_, ?_⟩
  · intro c' p hp
    exact h.kept c' p ((hsub c').subset hp)
  · intro c' q hq hnot
    exact hstay c' q (h.untouched c' q hq hnot) fun heq => hnot (heq ▸ hfailed)
  · intro k
    obtain ⟨n, hn, hn'⟩ := h.struck k
    refine ⟨n + (path.keys.filter (· ∉ alreadyPenalized)).count k, ?_, fun hne => ?_⟩
    · rw [hnew, hn, append_assoc, replicate_append_replicate]
    by_cases hn0 : n = 0
    · rw [hn0, zero_add, Ne, count_eq_zero, not_not] at hne
      obtain ⟨hk, hpen⟩ := mem_filter.1 hne
      refine ⟨c, origin, horigin, ?_, hkeys ▸ hk, by simpa using hpen, ?_⟩ <;> rw [hoid, hid]
      · exact hfailed
      · exact herased
    · obtain ⟨c', q, hq, hqf, hk, hpen, hgone⟩ := hn' hn0
      exact ⟨c', q, hq, hqf, hk, hpen, fun hmem => hgone (((hsub c').map _).subset hmem)⟩
  intro c' q hq hgone k hk hpen
  obtain ⟨n, hn, -⟩ := h.struck k
  rw [hnew, hn, append_assoc, List.replicate_append_replicate, Ne, List.append_right_eq_self,
    List.replicate_eq_nil_iff]
  by_cases hbefore : q.id ∈ (t.paths c').map OnionPath.id
  · -- it was the path of this failure
    obtain ⟨p, hp, hpid⟩ := List.mem_map.1 hbefore
    have hhere : (c', p.id) = (c, pathId) := by
      by_contra hne
      exact hgone (hpid ▸ List.mem_map_of_mem (hstay c' p hp hne))
    obtain ⟨rfl, hpid'⟩ := Prod.mk.inj hhere
    have hq' : q = origin := hids.eq_of_id hq horigin (by rw [hoid, hid, ← hpid', hpid])
    have hcount : 0 < (path.keys.filter (· ∉ alreadyPenalized)).count k :=
      List.count_pos_iff.2 (List.mem_filter.2 ⟨hkeys ▸ hq' ▸ hk, by simpa using hpen⟩)
    omega
  have hne := h.gone c' q hq hbefore k hk hpen
  rw [hn, Ne, List.append_right_eq_self, List.replicate_eq_nil_iff] at hne
  omega

lemma failures_handlePathFailure (hids : UniqueIds s)
    (h : Failures clock failed alreadyPenalized s t) (hfailed : (c, pathId) ∈ failed) :
    Failures clock failed alreadyPenalized s
      (handlePathFailure env config clock pathId c alreadyPenalized t) := by
  rcases handlePathFailure_cases env config clock pathId c alreadyPenalized t with
    ⟨-, heq⟩ | ⟨path, hfind, ⟨-, heq⟩ | ⟨-, hpaths, hstrikes⟩⟩
  · rw [heq]
    exact h
  · rw [heq]
    exact h.count hids hfailed hfind
  · exact h.retire hids hfailed hfind hpaths hstrikes

lemma failures_retirePaths (env : Environment) (config : RouterConfig) (clock : Clock)
    (hids : UniqueIds s) (failed : List (PathCategory × PathId)) (alreadyPenalized : List Pubkey) :
    Failures clock failed alreadyPenalized s
      (retirePaths env config clock failed alreadyPenalized s) :=
  Loop.invariant (Failures clock failed alreadyPenalized s)
    (fun _ _ hp ht => failures_handlePathFailure hids ht hp) (Failures.refl s)

lemma handlePathFailure_ids (pathId : PathId) (c c' : PathCategory)
    (alreadyPenalized : List Pubkey) (s : Router) :
    (((handlePathFailure env config clock pathId c alreadyPenalized s).paths c').map
        OnionPath.id).Sublist
      ((s.paths c').map OnionPath.id) := by
  rcases handlePathFailure_cases env config clock pathId c alreadyPenalized s with
    ⟨-, heq⟩ | ⟨path, hfind, ⟨-, heq⟩ | ⟨-, hpaths, -⟩⟩
  · rw [heq]
  · rw [heq, modifyPath_ids]
    intro p hp
    cases hfind.symm.trans hp
    rfl
  rw [hpaths]
  by_cases hc : c' = c
  · subst hc
    rw [update_self]
    exact erase_sublist.map _
  · rw [update_of_ne hc]

lemma notMem_retirePaths (hids : UniqueIds s) {failed : List (PathCategory × PathId)}
    {alreadyPenalized : List Pubkey} (hq : q ∈ s.paths c) (hfailed : (c, q.id) ∈ failed)
    (hstruck : config.pathStrikeThreshold ≤ q.strikeCount) :
    q.id ∉ ((retirePaths env config clock failed alreadyPenalized s).paths c).map OnionPath.id := by
  refine Loop.establish (Failures clock failed alreadyPenalized s)
    (fun t => q.id ∉ (t.paths c).map OnionPath.id) ?_ ?_ hfailed ?_ (Failures.refl s)
  · intro t p hp ht
    exact failures_handlePathFailure hids ht hp
  · intro t p _ _ hgone hmem
    exact hgone ((handlePathFailure_ids p.2 p.1 c alreadyPenalized t).subset hmem)
  intro t ht
  rcases handlePathFailure_cases env config clock q.id c alreadyPenalized t with
    ⟨hnone, heq⟩ | ⟨path, hfind, ⟨hlt, -⟩ | ⟨-, hpaths, -⟩⟩
  · rw [heq]
    exact find_eq_none.1 hnone
  · -- the failure is not only counted, as the path had its strikes before
    obtain ⟨origin, horigin, hoid, -, hle⟩ := ht.kept c path (find_mem hfind)
    have horigin' : origin = q := hids.eq_of_id horigin hq (hoid.trans (find_key hfind))
    rw [horigin'] at hle
    omega
  rw [hpaths, update_self]
  intro hmem
  obtain ⟨p, hp, hid⟩ := mem_map.1 hmem
  exact ((mem_erase ((ht.uniqueIds hids).nodup c)).1 hp).2 hid

lemma mem_pathsToRetire {id : PathId} :
    (c, id) ∈ pathsToRetire env config pathId request pattern s ↔ ∃ p ∈ s.paths c, p.id = id ∧
        ((c = toPathCategory request.category ∧ id = pathId ∧ pattern.penalizePath = true) ∨
          config.pathStrikeThreshold ≤ p.strikeCount) := by
  rw [pathsToRetire, mem_flatMap]
  constructor
  · rintro ⟨c', -, hmem⟩
    obtain ⟨p, hp, heq⟩ := mem_map.1 hmem
    obtain ⟨rfl, rfl⟩ := Prod.mk.inj heq
    obtain ⟨hp, hfail⟩ := mem_filter.1 hp
    exact ⟨p, hp, rfl, by simpa using hfail⟩
  rintro ⟨p, hp, rfl, hfail⟩
  refine ⟨c, ?_, mem_map.2 ⟨p, mem_filter.2 ⟨hp, by simpa using hfail⟩, rfl⟩⟩
  rw [(env.categoryOrder_perm s.shuffles).mem_iff]
  cases c <;> decide

lemma mem_pathsToRetire_of_ne (hids : UniqueIds s) (hq : q ∈ s.paths c) (hne : q.id ≠ pathId) :
    (c, q.id) ∈ pathsToRetire env config pathId request pattern s ↔
      config.pathStrikeThreshold ≤ q.strikeCount := by
  rw [mem_pathsToRetire]
  constructor
  · rintro ⟨p, hp, hid, ⟨-, hpath, -⟩ | hstruck⟩
    · exact absurd hpath hne
    · rw [← hids.eq_of_id hp hq hid]
      exact hstruck
  · exact fun hstruck => ⟨q, hq, rfl, .inr hstruck⟩

/-! ## The end of a request -/

lemma decrementAndCleanupPath_map {β : Type} (g : OnionPath → β)
    (hg : ∀ p n, g { p with activeRequests := n } = g p) (pathId : PathId) (c c' : PathCategory)
    (s : Router) :
    ((s.decrementAndCleanupPath pathId c).paths c').map g = (s.paths c').map g := by
  rw [decrementAndCleanupPath]
  split
  · by_cases hc : c' = c
    · subst hc
      rw [modifyPath_paths_self]
      exact map_modify _ fun p _ => hg p _
    · rw [modifyPath_paths_of_ne s hc]
  dsimp only
  split
  · rfl
  · split <;> rfl

lemma decrementAndCleanupPath_strikes (pathId : PathId) (c : PathCategory) (s : Router) :
    (s.decrementAndCleanupPath pathId c).mnodeStrikes = s.mnodeStrikes := by
  rw [decrementAndCleanupPath]
  split
  · rfl
  dsimp only
  split
  · rfl
  · split <;> rfl

end Router

end Bchat.Network
