import Bchat.Network.OnionRouter

/-!
# Which path a request takes

`_find_valid_path` outside `single_path_mode`. A path is fit for a request if it has not failed and
does not run through the node the request is for. The search compares nodes as whole records, so it
also takes paths that have that node with another address, version or swarm; and an index asked for
may be the first one behind the end.
-/

namespace Bchat.Network.Router

open List Nat

variable (config : RouterConfig) (request : Request)

def IsFit (path : OnionPath) : Prop :=
  path.strikeCount < config.pathStrikeThreshold ∧
    ∀ target, request.destination.node? = some target →
      target.remotePubkey ∉ path.nodes.map (·.remotePubkey)

/-- What the choice of a path should give: the path asked for, or nothing but a fit path with the
fewest requests. -/
def RightChoice (s : Router) (choice : Option (PathCategory × Nat)) : Prop :=
  let category := toPathCategory request.category
  match request.desiredPathIndex with
  | some i =>
    choice = if i.toNat < (s.paths category).length then some (category, i.toNat) else none
  | none => ∀ place, choice = some place → place.1 = category ∧
      ∃ path, (s.paths category)[place.2]? = some path ∧ IsFit config request path ∧
        ∀ q ∈ s.paths category, IsFit config request q → path.activeRequests ≤ q.activeRequests

/-- The index asked for is not the number of paths; or no path that could be chosen runs through
another record of the destination: there is one with fewer requests, or too few paths to choose one
that is in use. -/
def ChoiceIsSafe (s : Router) : Prop :=
  let category := toPathCategory request.category
  match request.desiredPathIndex with
  | some i => s.paths category = [] ∨ i.toNat ≠ (s.paths category).length
  | none => ∀ q ∈ s.paths category, isSuitable config request q → ¬ IsFit config request q →
      (∃ p ∈ s.paths category, isSuitable config request p ∧
        p.activeRequests < q.activeRequests) ∨
      (q.activeRequests ≠ 0 ∧ (s.paths category).length < config.minPathCounts category)

variable {config request} {env : Environment} {s : Router}

lemma IsFit.isSuitable {path : OnionPath} (h : IsFit config request path) :
    isSuitable config request path = true := by
  rw [Router.isSuitable, Bool.and_eq_true]
  refine ⟨by simpa using h.1, ?_⟩
  cases hd : request.destination.node? with
  | none => rfl
  | some target => simpa using fun hmem => h.2 target hd (mem_map_of_mem hmem)

/-! ## The search without an index -/

/-- The order in which the search tries the suitable paths. -/
def byRequests (a b : OnionPath × Nat) : Prop := a.1.activeRequests ≤ b.1.activeRequests

instance : Std.Total byRequests := ⟨fun a b => Nat.le_total a.1.activeRequests b.1.activeRequests⟩

instance : IsTrans (OnionPath × Nat) byRequests := ⟨fun _ _ _ => Nat.le_trans⟩

instance : DecidableRel byRequests := fun a b =>
  inferInstanceAs (Decidable (a.1.activeRequests ≤ b.1.activeRequests))

def suitable (config : RouterConfig) (request : Request) (s : Router) : List (OnionPath × Nat) :=
  (s.paths (toPathCategory request.category)).zipIdx.filter fun p => isSuitable config request p.1

lemma mem_suitable {p : OnionPath × Nat} : p ∈ suitable config request s ↔
      (s.paths (toPathCategory request.category))[p.2]? = some p.1 ∧
        isSuitable config request p.1 = true := by
  rw [suitable, mem_filter, mem_zipIdx_iff_getElem?]

lemma exists_mem_suitable {q : OnionPath} (hq : q ∈ s.paths (toPathCategory request.category))
    (hs : isSuitable config request q = true) : ∃ i, (q, i) ∈ suitable config request s := by
  obtain ⟨i, hi⟩ := mem_iff_getElem?.1 hq
  exact ⟨i, mem_suitable.2 ⟨hi, hs⟩⟩

lemma findValidPath_eq (hmode : config.singlePathMode = false)
    (hindex : request.desiredPathIndex = none) : findValidPath env config request s =
      ((env.shuffle s.shuffles (suitable config request s)).insertionSort byRequests).head?.bind
        fun best =>
          if best.1.activeRequests = 0 ∨ config.minPathCounts (toPathCategory request.category)
              ≤ (s.paths (toPathCategory request.category)).length then
            some (toPathCategory request.category, best.2) else none := by
  rw [findValidPath, hmode, if_neg Bool.false_ne_true]
  simp only [hindex]
  split
  · rename_i hempty
    rw [List.isEmpty_iff] at hempty
    have hnil : suitable config request s = [] := by rw [suitable, hempty]; rfl
    have hshuffle := env.shuffle_perm s.shuffles (suitable config request s)
    rw [hnil] at hshuffle ⊢
    rw [List.perm_nil.1 hshuffle]
    rfl
  split
  · next hsort =>
    replace hsort : (env.shuffle s.shuffles (suitable config request s)).insertionSort byRequests =
      [] := hsort
    rw [hsort]
    rfl
  · next best rest hsort =>
    replace hsort : (env.shuffle s.shuffles (suitable config request s)).insertionSort byRequests =
      best :: rest := hsort
    rw [hsort]
    rfl

lemma head_shuffled {best : OnionPath × Nat}
    (h : ((env.shuffle s.shuffles (suitable config request s)).insertionSort byRequests).head?
      = some best) : best ∈ suitable config request s ∧
      ∀ p ∈ suitable config request s, best.1.activeRequests ≤ p.1.activeRequests := by
  have hperm := (perm_insertionSort byRequests
    (env.shuffle s.shuffles (suitable config request s))).trans (env.shuffle_perm s.shuffles _)
  have hsorted := pairwise_insertionSort byRequests
    (env.shuffle s.shuffles (suitable config request s))
  obtain ⟨rest, hrest⟩ := head?_eq_some_iff.1 h
  rw [hrest] at hperm hsorted
  refine ⟨hperm.subset mem_cons_self, ?_⟩
  intro p hp
  rcases mem_cons.1 (hperm.symm.subset hp) with rfl | hmem
  · exact le_refl _
  · exact (pairwise_cons.1 hsorted).1 p hmem

def Environment.preferring (env : Environment) (p : OnionPath × Nat) : Environment :=
  { env with
    shuffle := fun _ l => if p ∈ l then p :: l.erase p else l
    shuffle_perm := by
      intro _ l
      split
      · rename_i h
        exact (List.perm_cons_erase h).symm
      · exact List.Perm.refl l }

lemma head_preferring (env : Environment) {p : OnionPath × Nat} (hp : p ∈ suitable config request s)
    (hmin : ∀ q ∈ suitable config request s, p.1.activeRequests ≤ q.1.activeRequests) :
    (((Environment.preferring env p).shuffle s.shuffles (suitable config request s)).insertionSort
      byRequests).head? = some p := by
  have hshuffle : (Environment.preferring env p).shuffle s.shuffles (suitable config request s)
      = p :: (suitable config request s).erase p := if_pos hp
  rw [hshuffle, insertionSort_cons_of_forall_rel]
  · rfl
  · intro q hq
    exact hmin q (mem_of_mem_erase hq)

lemma rightChoice_of_safe (hmode : config.singlePathMode = false)
    (hindex : request.desiredPathIndex = none) (hsafe : ChoiceIsSafe config request s) :
    RightChoice config request s (findValidPath env config request s) := by
  simp only [ChoiceIsSafe, hindex] at hsafe
  simp only [RightChoice, hindex]
  intro place hplace
  rw [findValidPath_eq hmode hindex] at hplace
  obtain ⟨best, hbest, hplace⟩ := Option.bind_eq_some_iff.1 hplace
  obtain ⟨hmem, hmin⟩ := head_shuffled hbest
  obtain ⟨hget, hsuit⟩ := mem_suitable.1 hmem
  split at hplace
  · rename_i hused
    cases hplace
    refine ⟨rfl, best.1, hget, ?_, ?_⟩
    · -- were the best path not fit, a better one or a lack of paths would have prevented it
      by_contra hfit
      rcases hsafe best.1 (mem_of_getElem? hget) hsuit hfit with ⟨p, hp, hps, hlt⟩ | ⟨hne, hlt⟩
      · obtain ⟨i, hi⟩ := exists_mem_suitable hp hps
        exact absurd (hmin _ hi) (not_le.2 hlt)
      rcases hused with h0 | hcount
      · exact hne h0
      · exact absurd hcount (not_le.2 hlt)
    intro q hq hfit
    obtain ⟨i, hi⟩ := exists_mem_suitable hq hfit.isSuitable
    exact hmin _ hi
  · cases hplace

lemma safe_of_rightChoice (env : Environment) (hmode : config.singlePathMode = false)
    (hindex : request.desiredPathIndex = none)
    (h : ∀ env, RightChoice config request s (findValidPath env config request s)) :
    ChoiceIsSafe config request s := by
  simp only [ChoiceIsSafe, hindex]
  intro q hq hsuit hfit
  by_contra hcon
  obtain ⟨hmin, hused⟩ := not_or.1 hcon
  obtain ⟨i, hi⟩ := exists_mem_suitable hq hsuit
  have hhead := head_preferring env hi (by
    intro p hp
    by_contra hlt
    obtain ⟨hget, hps⟩ := mem_suitable.1 hp
    exact hmin ⟨p.1, mem_of_getElem? hget, hps, not_le.1 hlt⟩)
  have hchoice : findValidPath (Environment.preferring env (q, i)) config request s
      = some (toPathCategory request.category, i) := by
    rw [findValidPath_eq hmode hindex, hhead, Option.bind_some, if_pos]
    by_contra hnot
    obtain ⟨h0, hcount⟩ := not_or.1 hnot
    exact hused ⟨h0, not_le.1 hcount⟩
  have hright := h (Environment.preferring env (q, i))
  rw [hchoice] at hright
  simp only [RightChoice, hindex] at hright
  obtain ⟨-, path, hget, hpath, -⟩ := hright _ rfl
  rw [(mem_suitable.1 hi).1] at hget
  cases hget
  exact hfit hpath

/-! ## The search with an index -/

section

variable (hmode : config.singlePathMode = false) {i : UInt8}
  (hindex : request.desiredPathIndex = some i)

include hmode hindex

lemma findValidPath_index : findValidPath env config request s =
      if s.paths (toPathCategory request.category) = [] ∨
          (s.paths (toPathCategory request.category)).length < i.toNat then none
      else some (toPathCategory request.category, i.toNat) := by
  rw [findValidPath, hmode, if_neg Bool.false_ne_true]
  simp only [hindex, List.isEmpty_iff]
  by_cases hnil : s.paths (toPathCategory request.category) = []
  · rw [if_pos hnil, if_pos (.inl hnil)]
  by_cases hlt : (s.paths (toPathCategory request.category)).length < i.toNat
  · rw [if_neg hnil, if_pos hlt, if_pos (.inr hlt)]
  · rw [if_neg hnil, if_neg hlt, if_neg (not_or.2 ⟨hnil, hlt⟩)]

lemma rightChoice_index_iff : RightChoice config request s (findValidPath env config request s) ↔
      ChoiceIsSafe config request s := by
  rw [findValidPath_index hmode hindex]
  simp only [RightChoice, ChoiceIsSafe, hindex]
  by_cases hnil : s.paths (toPathCategory request.category) = []
  · simp [hnil]
  rcases lt_trichotomy i.toNat (s.paths (toPathCategory request.category)).length
    with hlt | heq | hgt
  · simp [hnil, hlt, not_lt.2 hlt.le, hlt.ne]
  · simp [hnil, heq]
  · simp [hnil, hgt, not_lt.2 hgt.le, hgt.ne']

end

/-! ## The choice -/

/-- Whatever the random choices are, the search returns what it should exactly for these states and
requests. -/
theorem path_choice_iff (config : RouterConfig) (hmode : config.singlePathMode = false)
    (s : Router) (request : Request) : (∀ env : Environment,
        RightChoice config request s (findValidPath env config request s)) ↔
      ChoiceIsSafe config request s := by
  cases hindex : request.desiredPathIndex with
  | none =>
    exact ⟨safe_of_rightChoice .plain hmode hindex, fun h _ => rightChoice_of_safe hmode hindex h⟩
  | some i =>
    constructor
    · intro h
      exact (rightChoice_index_iff hmode hindex).1 (h .plain)
    · intro h env
      exact (rightChoice_index_iff hmode hindex).2 h

/-! ## A path and a request -/

def onePathRouter : Router where
  cachedEdgeNodes := []
  paths := Function.update (fun _ => []) .standard
    [{ id := ⟨.standard, 0⟩, nodes := [nodeOfNat 1, nodeOfNat 2], createdAt := 0
       edgeFirstConnectedAt := 0 }]
  mnodeCache := []
  mnodeStrikes := fun _ => []

def requestTo (target : MasterNode) (index : Option UInt8) : Request :=
  { requestId := 7, destination := .masterNode target, category := .standard
    desiredPathIndex := index }

/-- A request to a node that is on no path takes the one there is. -/
theorem path_choice_elsewhere :
    (∀ env : Environment, RightChoice sampleRouterConfig (requestTo (nodeOfNat 3) none)
      onePathRouter (findValidPath env sampleRouterConfig (requestTo (nodeOfNat 3) none)
        onePathRouter)) ∧
      findValidPath .plain sampleRouterConfig (requestTo (nodeOfNat 3) none) onePathRouter
        = some (.standard, 0) := by
  refine ⟨(path_choice_iff sampleRouterConfig rfl onePathRouter _).2 ?_, by decide +kernel⟩
  intro q hq _ hfit
  refine absurd ?_ hfit
  simp only [onePathRouter, requestTo, toPathCategory, Function.update_self, mem_singleton] at hq
  subst hq
  refine ⟨by decide, ?_⟩
  intro target htarget
  cases htarget
  decide +kernel

/-- With one path the index one gives a pointer behind the end; and a node of the path whose storage
server was updated in the meantime is sent a request through itself. -/
theorem path_choice_astray :
    ¬ RightChoice sampleRouterConfig (requestTo (nodeOfNat 3) (some 1)) onePathRouter
        (findValidPath .plain sampleRouterConfig (requestTo (nodeOfNat 3) (some 1)) onePathRouter) ∧
      (onePathRouter.paths .standard).length = 1 ∧
      findValidPath .plain sampleRouterConfig (requestTo (nodeOfNat 3) (some 1)) onePathRouter
        = some (.standard, 1) ∧
      ¬ RightChoice sampleRouterConfig
          (requestTo { nodeOfNat 2 with storageServerVersion := (2, 11, 1) } none) onePathRouter
          (findValidPath .plain sampleRouterConfig
            (requestTo { nodeOfNat 2 with storageServerVersion := (2, 11, 1) } none)
            onePathRouter) := by
  have hbehind : findValidPath .plain sampleRouterConfig (requestTo (nodeOfNat 3) (some 1))
      onePathRouter = some (.standard, 1) := by decide +kernel
  have hself : findValidPath .plain sampleRouterConfig
      (requestTo { nodeOfNat 2 with storageServerVersion := (2, 11, 1) } none) onePathRouter
        = some (.standard, 0) := by decide +kernel
  refine ⟨?_, rfl, hbehind, ?_⟩
  · rw [hbehind]
    intro h
    cases h
  rw [hself]
  intro h
  obtain ⟨-, path, hget, hfit, -⟩ := h _ rfl
  cases hget
  exact hfit.2 _ rfl (by decide +kernel)

end Bchat.Network.Router
