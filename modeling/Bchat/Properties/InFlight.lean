import Bchat.Properties.Rotation

/-!
# The counters of requests

`active_requests` of a path is to be the number of requests on it that are not answered. It is, but
for paths that became active through rotation: the verification counts the new path up while it is
in none of the tables that the response looks at. And in `single_path_mode` the tables of another
category may be looked at.
-/

namespace Bchat.Network.Router

open Relation List OnionPath Rows Function

variable {c : PathCategory} {p : OnionPath} {index : Nat} {sent : SentRequest} {env : Environment}
  {config : RouterConfig} {clock : Clock} {s s' : Router}
variable {c' : PathCategory} {oldPath : OnionPath} {pending : PendingRotation}
  {due : List ScheduledRotation}

def held (s : Router) (c : PathCategory) : List OnionPath := s.paths c ++ s.pathsPendingDrop c

def Matched (s : Router) : Prop :=
  ∀ c, ∀ p ∈ s.held c, ∀ x ∈ s.sentRequests, x.pathId = p.id →
    toPathCategory x.request.category = c

def extraRequest (id : PathId) : Nat := if id.label = .rotation then 1 else 0

structure Counted (s : Router) : Prop where
  counts : ∀ c, ∀ p ∈ s.held c, p.activeRequests = s.inFlight p.id + extraRequest p.id
  dying : ∀ c, ∀ p ∈ s.pathsPendingDrop c, p.activeRequests ≠ 0
  rotations : ∀ r ∈ s.pendingRotationPaths, r.newPath.activeRequests = 1

/-! ## Ids of held paths -/

lemma mem_held : p ∈ s.held c ↔ p ∈ s.paths c ∨ p ∈ s.pathsPendingDrop c := mem_append

lemma IdsInOrder.held_le (h : IdsInOrder s) (id : PathId) :
    ((s.held .standard).map OnionPath.id).count id + ((s.held .file).map OnionPath.id).count id
      ≤ 1 := by
  have hle := h.uses_le id
  rw [uses] at hle
  rw [held, held, map_append, List.count_append, map_append, List.count_append]
  omega

lemma IdsInOrder.nodup_held (h : IdsInOrder s) (c : PathCategory) :
    ((s.held c).map OnionPath.id).Nodup := by
  refine nodup_iff_count_le_one.2 fun id => ?_
  have hle := h.held_le id
  cases c <;> omega

lemma IdsInOrder.held_category_eq (h : IdsInOrder s) {q : OnionPath} (hp : p ∈ s.held c)
    (hq : q ∈ s.held c') (hid : p.id = q.id) : c = c' := by
  have hle := h.held_le p.id
  have hcp := List.count_pos_iff.2 (List.mem_map_of_mem (f := OnionPath.id) hp)
  have hcq := count_pos_iff.2 (mem_map_of_mem (f := OnionPath.id) hq)
  rw [← hid] at hcq
  cases c <;> cases c' <;> first | rfl | omega

lemma IdsInOrder.held_eq (h : IdsInOrder s) {q : OnionPath} (hp : p ∈ s.held c)
    (hq : q ∈ s.held c') (hid : p.id = q.id) : p = q := by
  obtain rfl := h.held_category_eq hp hq hid
  exact eq_of_key_eq (h.nodup_held c) hp hq hid

lemma IdsInOrder.held_lt (h : IdsInOrder s) (hp : p ∈ s.held c) : p.id.number < s.uniqueIds := by
  have hcount := count_pos_iff.2 (mem_map_of_mem (f := OnionPath.id) hp)
  rw [held, map_append, List.count_append] at hcount
  refine h.used p.id ?_
  rw [uses]
  cases c <;> omega

/-! ## Changes

Both the counters and the categories follow from where the held paths come from. -/

def Balanced (multi : Prop) (s : Router) : Prop := Counted s ∧ (multi → Matched s)

/-- A held path after a change: it was held before, its counter follows the requests on the way and
it got none of another category, or it has no requests. -/
def Carried (multi : Prop) (s s' : Router) (c : PathCategory) (p : OnionPath) : Prop :=
  (∃ q ∈ s.held c, p.id = q.id ∧
      p.activeRequests + s.inFlight p.id = q.activeRequests + s'.inFlight p.id ∧
      ∀ x ∈ s'.sentRequests, x.pathId = p.id →
        x ∈ s.sentRequests ∨ (multi → toPathCategory x.request.category = c)) ∨
    s'.inFlight p.id = 0 ∧ p.activeRequests = extraRequest p.id

variable {multi : Prop} {q : OnionPath}

lemma carried_of_same (hq : q ∈ s.held c) (hid : p.id = q.id)
    (hcount : p.activeRequests = q.activeRequests) (hsent : s'.sentRequests = s.sentRequests) :
    Carried multi s s' c p := by
  refine .inl ⟨q, hq, hid, ?_, fun x hx _ => .inl (hsent ▸ hx)⟩
  rw [hcount, inFlight, inFlight, hsent]

lemma Balanced.of_carried (h : Balanced multi s)
    (hheld : ∀ c, ∀ p ∈ s'.held c, Carried multi s s' c p)
    (hdying : ∀ c, ∀ p ∈ s'.pathsPendingDrop c, p.activeRequests ≠ 0)
    (hrot : ∀ r ∈ s'.pendingRotationPaths, r.newPath.activeRequests = 1) : Balanced multi s' := by
  refine ⟨⟨fun c p hp => ?_, hdying, hrot⟩, fun hmulti c p hp x hx hid => ?_⟩
  · rcases hheld c p hp with ⟨q, hq, hid, hcount, -⟩ | ⟨hnone, hcount⟩
    · have hold := h.1.counts c q hq
      rw [← hid] at hold
      omega
    · omega
  rcases hheld c p hp with ⟨q, hq, hpq, -, hnew⟩ | ⟨hnone, -⟩
  · rcases hnew x hx hid with hx | hcategory
    · exact h.2 hmulti c q hq x hx (hid.trans hpq)
    · exact hcategory hmulti
  refine absurd (mem_map_of_mem (f := SentRequest.pathId) hx) ?_
  rw [hid]
  exact count_eq_zero.1 hnone

lemma Balanced.of_same (h : Balanced multi s) (hsent : s'.sentRequests = s.sentRequests)
    (hrot : s'.pendingRotationPaths = s.pendingRotationPaths)
    (hheld : ∀ c, ∀ p ∈ s'.held c, ∃ q ∈ s.held c, p.id = q.id ∧
      p.activeRequests = q.activeRequests)
    (hdying : ∀ c, ∀ p ∈ s'.pathsPendingDrop c, p.activeRequests ≠ 0) : Balanced multi s' := by
  refine h.of_carried (fun c p hp => ?_) hdying (hrot ▸ h.1.rotations)
  obtain ⟨q, hq, hid, hcount⟩ := hheld c p hp
  exact carried_of_same hq hid hcount hsent

lemma Balanced.frame (h : Balanced multi s) (hpaths : s'.paths = s.paths)
    (hdying : s'.pathsPendingDrop = s.pathsPendingDrop) (hsent : s'.sentRequests = s.sentRequests)
    (hrot : s'.pendingRotationPaths = s.pendingRotationPaths) : Balanced multi s' := by
  refine h.of_same hsent hrot (fun c p hp => ?_) (hdying ▸ h.1.dying)
  rw [held, hpaths, hdying] at hp
  exact ⟨p, hp, rfl, rfl⟩

lemma FailureChange.mem_held (h : FailureChange config s s') (hp : p ∈ s'.held c) :
    ∃ q ∈ s.held c, p.id = q.id ∧ p.activeRequests = q.activeRequests := by
  rcases Router.mem_held.1 hp with hp | hp
  · obtain ⟨q, hq, hsame, hcount⟩ := h.mem_paths hp
    exact ⟨q, Router.mem_held.2 (.inl hq), hsame.id, hcount⟩
  rcases h.mem_dying hp with hp | ⟨hp, -⟩
  · exact ⟨p, Router.mem_held.2 (.inr hp), rfl, rfl⟩
  · exact ⟨p, Router.mem_held.2 (.inl hp), rfl, rfl⟩

lemma Balanced.failureChanges (h : Balanced multi s) (hchanges : FailureChanges config s s') :
    Balanced multi s' := by
  induction hchanges with
  | refl => exact h
  | tail _ hchange ih =>
    refine ih.of_same hchange.sent hchange.samePlans.rotations
      (fun c p hp => hchange.mem_held hp) fun c p hp => ?_
    rcases hchange.mem_dying hp with hp | ⟨-, hused⟩
    · exact ih.1.dying c p hp
    · exact hused

lemma Balanced.onlyPending (h : Balanced multi s) (hsame : OnlyPending s s') : Balanced multi s' :=
  h.frame hsame.paths hsame.dying hsame.sent hsame.rotations

lemma inFlight_recordSent (s : Router) (c : PathCategory) (index : Nat) (path : OnionPath)
    (request : Request) (id : PathId) : (s.recordSent c index path request).inFlight id =
      s.inFlight id + if path.id = id then 1 else 0 :=
  count_append SentRequest.pathId s.sentRequests _ id

lemma Balanced.useChange (h : Balanced (config.singlePathMode = false) s) (hids : IdsInOrder s)
    (hchange : UseChange config s s') : Balanced (config.singlePathMode = false) s' := by
  have hids' := hids.useChange hchange
  cases hchange with
  | build hbuild => exact h.onlyPending hbuild.onlyPending
  | @send c index path request hget hcategory =>
    have hpath : path ∈ s.held c := mem_held.2 (.inl (mem_of_getElem? hget))
    have hused : { path with activeRequests := path.activeRequests + 1 } ∈
        (s.recordSent c index path request).held c := by
      refine mem_held.2 (.inl ?_)
      rw [recordSent_paths_self]
      refine mem_iff_getElem?.2 ⟨index, ?_⟩
      rw [getElem?_modify, hget]
      simp
    refine h.of_carried (fun c' p hp => .inl ?_) h.1.dying h.1.rotations
    rw [inFlight_recordSent]
    by_cases hid : path.id = p.id
    · obtain rfl := hids'.held_category_eq hused hp hid
      obtain rfl := hids'.held_eq hused hp hid
      refine ⟨path, hpath, rfl, ?_, fun x hx _ => (mem_append.1 hx).imp_right fun hx => ?_⟩
      · rw [if_pos rfl]
        show path.activeRequests + 1 + s.inFlight path.id = _ + (s.inFlight path.id + 1)
        omega
      · rw [mem_singleton.1 hx]
        exact hcategory
    rw [if_neg hid, Nat.add_zero]
    refine ⟨p, mem_held.2 ?_, rfl, rfl, fun x hx hpx => ?_⟩
    · rcases mem_held.1 hp with hp | hp
      · rcases mem_recordSent hget hp with hp | ⟨-, rfl⟩
        · exact .inl hp
        · exact absurd rfl hid
      · exact .inr hp
    rcases mem_append.1 hx with hx | hx
    · exact .inl hx
    · rw [mem_singleton.1 hx] at hpx
      exact absurd hpx hid

lemma Balanced.useChanges (h : Balanced (config.singlePathMode = false) s) (hids : IdsInOrder s)
    (hchanges : UseChanges config s s') : Balanced (config.singlePathMode = false) s' := by
  have hboth : IdsInOrder s' ∧ Balanced (config.singlePathMode = false) s' := by
    induction hchanges with
    | refl => exact ⟨hids, h⟩
    | tail _ hchange ih => exact ⟨ih.1.useChange hchange, ih.2.useChange ih.1 hchange⟩
  exact hboth.2

/-! ## Responses -/

lemma inFlight_answered (hget : s.sentRequests[index]? = some sent) (id : PathId) :
    s.inFlight id = (s.answered sent index).inFlight id + if sent.pathId = id then 1 else 0 := by
  obtain ⟨hlt, heq⟩ := List.getElem?_eq_some_iff.1 hget
  have hperm := ((getElem_cons_eraseIdx_perm hlt).map SentRequest.pathId).count_eq id
  rw [heq, map_cons, count_cons] at hperm
  rw [inFlight, ← hperm, inFlight, answered_sent]
  simp

lemma mem_update {f : PathCategory → List OnionPath} {l : List OnionPath} {c₀ : PathCategory}
    (h : p ∈ update f c₀ l c) : c = c₀ ∧ p ∈ l ∨ c ≠ c₀ ∧ p ∈ f c := by
  by_cases hc : c = c₀
  · subst hc
    rw [update_self] at h
    exact .inl ⟨rfl, h⟩
  · rw [update_of_ne hc] at h
    exact .inr ⟨hc, h⟩

lemma mem_held_answered (hids : IdsInOrder s) (hmatch : Matched s)
    (hget : s.sentRequests[index]? = some sent) (hp : p ∈ (s.answered sent index).held c) :
    (p ∈ s.held c ∧ p.id ≠ sent.pathId) ∨ ∃ q ∈ s.held c, q.id = sent.pathId ∧
        p = { q with activeRequests := q.activeRequests - 1 } := by
  have hsent : sent ∈ s.sentRequests := mem_of_getElem? hget
  -- a held path with the id is in the tables of the category of the request
  have hmatch : ∀ c', ∀ q ∈ s.held c', q.id = sent.pathId →
      toPathCategory sent.request.category = c' :=
    fun c' q hq hid => hmatch c' q hq sent hsent hid.symm
  generalize hcat : toPathCategory sent.request.category = c₀ at hmatch
  rw [answered, hcat] at hp
  have hother : ∀ c', ∀ q ∈ s.held c', c' ≠ c₀ → q.id ≠ sent.pathId :=
    fun c' q hq hne hid => hne (hmatch c' q hq hid).symm
  have hnoactive : s.findPath c₀ sent.pathId = none → ∀ c', ∀ q ∈ s.paths c',
      q.id ≠ sent.pathId := by
    intro hnone c' q hq hid
    obtain rfl := hmatch c' q (mem_held.2 (.inl hq)) hid
    exact find_eq_none.1 hnone (hid ▸ mem_map_of_mem hq)
  have hnodup := hids.nodup_held c₀
  rw [held, map_append, nodup_append'] at hnodup
  rcases decrementAndCleanupPath_cases sent.pathId c₀ s with
    ⟨path, hfind, heq⟩ | ⟨hactive, hdying, heq⟩ | ⟨hactive, path, hfind, ⟨-, heq⟩ | ⟨-, heq⟩⟩
  · -- the path is active
    have hpath : path ∈ s.held c₀ := mem_held.2 (.inl (find_mem hfind))
    have hid : path.id = sent.pathId := find_key hfind
    rw [heq] at hp
    rcases mem_held.1 hp with hp | hp
    · rcases (mem_modifyPath hids.uniqueIds hfind).1 hp with ⟨hold, hne⟩ | ⟨rfl, rfl⟩
      · exact .inl ⟨mem_held.2 (.inl hold), hne⟩
      · exact .inr ⟨path, hpath, hid, rfl⟩
    refine .inl ⟨mem_held.2 (.inr hp), fun hpid => ?_⟩
    obtain rfl := hmatch c p (mem_held.2 (.inr hp)) hpid
    -- an active path and a dying one have different ids
    refine hnodup.2.2 (mem_map_of_mem (find_mem hfind)) ?_
    rw [hid, ← hpid]
    exact mem_map_of_mem hp
  · -- no path has the id
    rw [heq] at hp
    refine .inl ⟨hp, fun hpid => ?_⟩
    rcases mem_held.1 hp with hp | hp
    · exact hnoactive hactive c p hp hpid
    · obtain rfl := hmatch c p (mem_held.2 (.inr hp)) hpid
      exact find_eq_none.1 hdying (hpid ▸ mem_map_of_mem hp)
  · -- the path was dying and is dropped
    rw [heq] at hp
    rcases mem_held.1 hp with hp | hp
    · exact .inl ⟨mem_held.2 (.inl hp), hnoactive hactive c p hp⟩
    rcases mem_update hp with ⟨rfl, hp⟩ | ⟨hc, hp⟩
    · obtain ⟨hp, hne⟩ := (mem_erase hnodup.2.1).1 hp
      exact .inl ⟨mem_held.2 (.inr hp), hne⟩
    · exact .inl ⟨mem_held.2 (.inr hp), hother c p (mem_held.2 (.inr hp)) hc⟩
  -- the path is dying and stays
  rw [heq] at hp
  rcases mem_held.1 hp with hp | hp
  · exact .inl ⟨mem_held.2 (.inl hp), hnoactive hactive c p hp⟩
  rcases mem_update hp with ⟨rfl, hp⟩ | ⟨hc, hp⟩
  · rcases (mem_modify hnodup.2.1).1 hp with ⟨hp, hne⟩ | ⟨q, hq, hid, rfl⟩
    · exact .inl ⟨mem_held.2 (.inr hp), hne⟩
    · exact .inr ⟨q, mem_held.2 (.inr hq), hid, rfl⟩
  · exact .inl ⟨mem_held.2 (.inr hp), hother c p (mem_held.2 (.inr hp)) hc⟩

lemma dying_answered (h : ∀ c, ∀ p ∈ s.pathsPendingDrop c, p.activeRequests ≠ 0)
    (sent : SentRequest) (index : Nat) (hp : p ∈ (s.answered sent index).pathsPendingDrop c) :
    p.activeRequests ≠ 0 := by
  rw [answered] at hp
  generalize toPathCategory sent.request.category = c₀ at hp
  rcases decrementAndCleanupPath_cases sent.pathId c₀ s with
    ⟨path, -, heq⟩ | ⟨-, -, heq⟩ | ⟨-, path, hfind, ⟨-, heq⟩ | ⟨hmore, heq⟩⟩ <;> rw [heq] at hp
  · exact h c p hp
  · exact h c p hp
  · rcases mem_update hp with ⟨rfl, hp⟩ | ⟨-, hp⟩
    · exact h c p (erase_sublist.subset hp)
    · exact h c p hp
  rcases mem_update hp with ⟨rfl, hp⟩ | ⟨-, hp⟩
  · rcases mem_of_mem_modify hp with hp | ⟨q, hq, rfl⟩
    · exact h c p hp
    · cases hfind.symm.trans hq
      exact hmore
  · exact h c p hp

lemma Balanced.answered (h : Balanced True s) (hids : IdsInOrder s)
    (hget : s.sentRequests[index]? = some sent) : Balanced multi (s.answered sent index) := by
  have hall : Balanced multi s := ⟨h.1, fun _ => h.2 trivial⟩
  have hplans := decrementAndCleanupPath_samePlans sent.pathId
    (toPathCategory sent.request.category) s
  refine hall.of_carried (fun c p hp => .inl ?_)
      (fun c p hp => dying_answered h.1.dying sent index hp)
    fun r hr => h.1.rotations r (hplans.rotations ▸ hr)
  have hsub : (s.answered sent index).sentRequests ⊆ s.sentRequests := by
    rw [answered_sent]
    exact (eraseIdx_sublist _ _).subset
  have hsent := inFlight_answered hget p.id
  rcases mem_held_answered hids (h.2 trivial) hget hp with ⟨hold, hne⟩ | ⟨q, hq, hid, rfl⟩
  · rw [if_neg hne.symm, Nat.add_zero] at hsent
    exact ⟨p, hold, rfl, by rw [hsent], fun x hx _ => .inl (hsub hx)⟩
  refine ⟨q, hq, rfl, ?_, fun x hx _ => .inl (hsub hx)⟩
  have hcount := h.1.counts c q hq
  change s.inFlight q.id = (s.answered sent index).inFlight q.id + _ at hsent
  change q.activeRequests - 1 + s.inFlight q.id =
    q.activeRequests + (s.answered sent index).inFlight q.id
  rw [if_pos hid.symm] at hsent
  omega

/-! ## Rotation -/

lemma mem_held_modifyPath {id : PathId} {f : OnionPath → OnionPath}
    (hf : ∀ p, (f p).id = p.id ∧ (f p).activeRequests = p.activeRequests)
    (hp : p ∈ (s.modifyPath c id f).held c') :
    ∃ q ∈ s.held c', p.id = q.id ∧ p.activeRequests = q.activeRequests := by
  rcases mem_held.1 hp with hp | hp
  · rcases mem_of_mem_modifyPath hp with hp | ⟨rfl, q, hq, rfl⟩
    · exact ⟨p, mem_held.2 (.inl hp), rfl, rfl⟩
    · exact ⟨q, mem_held.2 (.inl (find_mem hq)), hf q⟩
  · exact ⟨p, mem_held.2 (.inr hp), rfl, rfl⟩

lemma Balanced.postponeRotation (h : Balanced multi s) (c : PathCategory) (id : PathId) :
    Balanced multi (postponeRotation clock c id s) :=
  h.of_same rfl rfl (fun _ _ hp => mem_held_modifyPath
    (f := fun p => { p with rotationInProgress := false }) (fun _ => ⟨rfl, rfl⟩) hp) h.1.dying

lemma Balanced.takeRotation (h : Balanced multi s) (newPathId : PathId) :
    Balanced multi (s.takeRotation newPathId) :=
  ⟨⟨h.1.counts, h.1.dying, fun r hr => h.1.rotations r (erase_sublist.subset hr)⟩, h.2⟩

lemma mem_dying_completeRotation {rotateAt : Int}
    (h : p ∈ (completeRotation pending oldPath rotateAt s).pathsPendingDrop c) :
    p ∈ s.pathsPendingDrop c ∨ c = pending.category ∧ p = oldPath ∧ oldPath.activeRequests ≠ 0 := by
  by_cases hc : c = pending.category
  · subst hc
    rw [completeRotation, retirePath_dying_self] at h
    split at h
    · exact .inl h
    rename_i hused
    rcases mem_append.1 h with h | h
    · exact .inl h
    · exact .inr ⟨rfl, mem_singleton.1 h, hused⟩
  · rw [completeRotation, retirePath_dying_of_ne _ _ _ hc] at h
    exact .inl h

section

variable (h : Balanced multi s) (hids : IdsInOrder s)

include h hids

lemma Balanced.completeRotation
    (hmem : pending ∈ s.pendingRotationPaths) (hnone : s.inFlight pending.newPathId = 0)
    (hold : oldPath ∈ s.paths pending.category) (rotateAt : Int) (newPathId : PathId) :
    Balanced multi (completeRotation pending oldPath rotateAt (s.takeRotation newPathId)) := by
  have hnodup := hids.nodup_append_newPath hmem pending.category
  refine h.of_carried (fun c p hp => ?_) (fun c p hp => ?_) (h.takeRotation newPathId).1.rotations
  · rcases mem_held.1 hp with hp | hp
    · rcases mem_completeRotation (s := s.takeRotation newPathId) hnodup hp with
        ⟨hp, -⟩ | ⟨-, rfl⟩
      · exact carried_of_same (mem_held.2 (.inl hp)) rfl rfl rfl
      have hlabel := (hids.rotations _ (mem_map_of_mem hmem)).2
      refine .inr ⟨hnone, ?_⟩
      rw [PendingRotation.newPathId] at hlabel
      rw [h.1.rotations pending hmem, extraRequest, if_pos hlabel]
    rcases mem_dying_completeRotation hp with hp | ⟨rfl, rfl, -⟩
    · exact carried_of_same (mem_held.2 (.inr hp)) rfl rfl rfl
    · exact carried_of_same (mem_held.2 (.inl hold)) rfl rfl rfl
  rcases mem_dying_completeRotation hp with hp | ⟨-, rfl, hused⟩
  · exact h.1.dying c p hp
  · exact hused

lemma Balanced.verified {pathId : PathId}
    (hnone : ∀ r ∈ s.pendingRotationPaths, r.newPathId = pathId → s.inFlight pathId = 0)
    (success timeout : Bool) (rotateAt : Int) :
    Balanced multi (onRotationVerificationResponse clock pathId success timeout rotateAt s) := by
  rcases onRotationVerificationResponse_cases clock pathId success timeout rotateAt s with
    ⟨-, heq⟩ | ⟨pending, hpending, ⟨-, heq⟩ | ⟨oldPath, hold, heq | heq⟩⟩ <;> rw [heq]
  · exact h
  · exact h.takeRotation pathId
  · exact (h.takeRotation pathId).postponeRotation _ _
  have hmem := find_mem hpending
  have hid : pending.newPathId = pathId := find_key hpending
  exact h.completeRotation hids hmem (hid ▸ hnone pending hmem hid) (find_mem hold) rotateAt _

lemma Balanced.turn {e : ScheduledRotation}
    (hturn : Turn config clock e s s') : Balanced multi s' := by
  cases hturn with
  | skip => exact h
  | postpone _ _ hsame => exact (h.postponeRotation _ _).onlyPending hsame.onlyPending
  | @start _ path nodes request hfind _ _ _ hsame =>
    refine Balanced.onlyPending ?_ hsame.onlyPending
    refine h.of_carried (fun c p hp => .inl ?_) h.1.dying fun r hr => ?_
    · have hmarked : p ∈ (markRotating e s).held c := hp
      obtain ⟨q, hq, hpq, hcount⟩ := mem_held_modifyPath
        (f := fun p => { p with rotationInProgress := true }) (fun _ => ⟨rfl, rfl⟩) hmarked
      -- the verification is sent under an id that no held path has
      have hlt := hids.held_lt hq
      rw [← hpq] at hlt
      have hne : (rotationOf clock s e path nodes).newPathId ≠ p.id := by
        intro heq
        rw [← heq] at hlt
        exact absurd hlt (Nat.lt_irrefl _)
      have hsent := count_append SentRequest.pathId s.sentRequests
        ⟨(rotationOf clock s e path nodes).newPathId, nodes, request,
          some (clock.steady + config.pathRotationFrequency)⟩ p.id
      rw [if_neg hne, Nat.add_zero] at hsent
      refine ⟨q, hq, hpq, congrArg₂ (· + ·) hcount hsent.symm, fun x hx hid => ?_⟩
      rcases mem_append.1 hx with hx | hx
      · exact .inl hx
      · rw [mem_singleton.1 hx] at hid
        exact absurd hid hne
    rcases mem_append.1 hr with hr | hr
    · exact h.1.rotations r hr
    · rw [mem_singleton.1 hr]
      rfl

lemma Balanced.turns (hturns : Turns config clock due s s') : Balanced multi s' := by
  induction hturns with
  | nil => exact h
  | cons hturn _ ih => exact ih (h.turn hids hturn) (hids.turn hturn)

end

lemma Rotating.inFlight_verified (h : Rotating due s) (hget : s.sentRequests[index]? = some sent) :
    ∀ r ∈ (s.answered sent index).pendingRotationPaths, r.newPathId = sent.pathId →
      (s.answered sent index).inFlight sent.pathId = 0 := by
  intro r hr hid
  have hsent := inFlight_answered hget sent.pathId
  rw [if_pos rfl] at hsent
  have hplans := decrementAndCleanupPath_samePlans sent.pathId
    (toPathCategory sent.request.category) s
  have hle := h.verified r (by rw [← hplans.rotations]; exact hr)
  rw [hid] at hle
  omega

/-! ## Outcomes -/

lemma Balanced.activatePath (h : Balanced multi s) (hids : IdsInOrder s) {path : PendingPath}
    (hfind : find PendingPath.id path.id s.pendingPaths = some path) (c : PathCategory) :
    Balanced multi (activatePath config clock c path (s.failPending path.id none)) := by
  refine h.of_carried (fun c' p hp => ?_) h.1.dying h.1.rotations
  rcases mem_held.1 hp with hp | hp
  · rcases mem_activatePath hp with hp | ⟨-, rfl⟩
    · exact carried_of_same (mem_held.2 (.inl hp)) rfl rfl rfl
    -- nothing was sent on a path that was pending
    have hmem : path.id ∈ s.pendingPaths.map PendingPath.id ++
        s.retryTimers.map RetryTimer.pathId :=
      mem_append_left _ (mem_map_of_mem (find_mem hfind))
    obtain ⟨hsent, -, hlabel⟩ := hids.pending _ hmem
    exact .inr ⟨count_eq_zero_of_not_mem hsent, (if_neg hlabel).symm⟩
  · exact carried_of_same (mem_held.2 (.inr hp)) rfl rfl rfl

lemma Balanced.nil (hpaths : ∀ c, s.held c = []) (hrot : s.pendingRotationPaths = []) :
    Balanced multi s := by
  refine ⟨⟨fun c p hp => ?_, fun c p hp => ?_, fun r hr => ?_⟩, fun _ c p hp => ?_⟩
  · exact absurd (hpaths c ▸ hp) not_mem_nil
  · exact absurd (hpaths c ▸ mem_held.2 (.inr hp)) not_mem_nil
  · exact absurd (hrot ▸ hr) not_mem_nil
  · exact absurd (hpaths c ▸ hp) not_mem_nil

lemma Balanced.outcome {event : Event} (h : Balanced True s) (hids : IdsInOrder s)
    (hrot : Rotating [] s) (hout : Outcome config clock event s s') :
    Balanced (config.singlePathMode = false) s' := by
  have hall : Balanced (config.singlePathMode = false) s := ⟨h.1, fun _ => h.2 trivial⟩
  cases hout with
  | used huse => exact hall.useChanges hids huse
  | refilled | clearedCache => exact hall.frame rfl rfl rfl rfl
  | @checkFailed path timer _ _ _ hpending =>
    exact Balanced.onlyPending (s := s.failPending path.id timer) (hall.frame rfl rfl rfl rfl)
      hpending.onlyPending
  | @activated path c key t hfind _ huse =>
    have hactive := (hall.activatePath hids hfind c).useChanges (hids.activatePath hfind c) huse
    exact hactive.frame rfl rfl rfl rfl
  | @answered t sent index hfail hget _ =>
    rw [← hfail.sent] at hget
    exact (h.failureChanges hfail).answered (hids.failureChanges hfail) hget
  | @verified t sent index rotateAt hfail hget _ success timeout =>
    rw [← hfail.sent] at hget
    have hids' := hids.failureChanges hfail
    exact ((h.failureChanges hfail).answered hids' hget).verified (hids'.answered _ _ _)
      ((hrot.failureChanges hfail).inFlight_verified hget) success timeout rotateAt
  | @disconnected key _ _ hfail =>
    exact Balanced.failureChanges (s := s.dropListeners key) (hall.frame rfl rfl rfl rfl) hfail
  | @rotated due rest _ hschedule hturns =>
    refine Balanced.turns (s := { s with pathRotationSchedule := rest })
      (hall.frame rfl rfl rfl rfl) (hids.setSchedule ?_) hturns
    rw [hschedule]
    exact subset_append_right due rest
  | @retried index _ huse =>
    exact Balanced.useChanges (s := s.dropTimer index) (hall.frame rfl rfl rfl rfl)
      (hids.dropTimer index) huse
  | closed | suspended => exact .nil (fun _ => rfl) rfl

/-! ## When a dying path disappears -/

lemma FailureChanges.dying_subset (h : FailureChanges config s s') (c : PathCategory) :
    s.pathsPendingDrop c ⊆ s'.pathsPendingDrop c := by
  induction h with
  | refl => exact Subset.refl _
  | tail _ h ih =>
    refine Subset.trans ih ?_
    cases h with
    | build hbuild =>
      rw [hbuild.onlyPending.dying]
      exact Subset.refl _
    | strike | repair => exact Subset.refl _
    | @retire c' path =>
      by_cases hc : c = c'
      · subst hc
        rw [retirePath_dying_self]
        split
        · exact Subset.refl _
        · exact subset_append_left _ _
      · rw [retirePath_dying_of_ne _ _ _ hc]
        exact Subset.refl _

lemma dying_or_done (h : Counted s) (hids : IdsInOrder s)
    (hget : s.sentRequests[index]? = some sent) (hp : p ∈ s.pathsPendingDrop c) :
    p.id ∈ ((s.answered sent index).pathsPendingDrop c).map OnionPath.id ∨
      (s.answered sent index).inFlight p.id = 0 := by
  have hsent := inFlight_answered hget p.id
  rw [answered] at hsent ⊢
  generalize toPathCategory sent.request.category = c₀ at hsent ⊢
  have hnodup := hids.nodup_held c₀
  rw [held, map_append, nodup_append'] at hnodup
  rcases decrementAndCleanupPath_cases sent.pathId c₀ s with
    ⟨path, -, heq⟩ | ⟨-, -, heq⟩ | ⟨-, path, hfind, ⟨hlast, heq⟩ | ⟨-, heq⟩⟩
  · rw [heq]
    exact .inl (mem_map_of_mem hp)
  · rw [heq]
    exact .inl (mem_map_of_mem hp)
  · by_cases hid : p.id = sent.pathId
    · -- the last request of the path was answered
      have hpath := hids.held_eq (mem_held.2 (.inr hp))
        (mem_held.2 (.inr (find_mem hfind))) (hid.trans (find_key hfind).symm)
      have hcount := h.counts c p (mem_held.2 (.inr hp))
      rw [← hpath] at hlast
      rw [if_pos hid.symm] at hsent
      omega
    refine .inl ?_
    rw [heq]
    change p.id ∈ (update s.pathsPendingDrop c₀ _ c).map OnionPath.id
    by_cases hc : c = c₀
    · subst hc
      rw [update_self]
      exact mem_map_of_mem ((mem_erase hnodup.2.1).2 ⟨hp, hid⟩)
    · rw [update_of_ne hc]
      exact mem_map_of_mem hp
  refine .inl ?_
  rw [heq]
  change p.id ∈ (update s.pathsPendingDrop c₀ _ c).map OnionPath.id
  by_cases hc : c = c₀
  · subst hc
    have hsame : (modify OnionPath.id sent.pathId
        (fun p => { p with activeRequests := p.activeRequests - 1 })
        (s.pathsPendingDrop c)).map OnionPath.id = (s.pathsPendingDrop c).map OnionPath.id :=
      map_modify _ fun _ _ => rfl
    rw [update_self, hsame]
    exact mem_map_of_mem hp
  · rw [update_of_ne hc]
    exact List.mem_map_of_mem hp

lemma verified_dying (clock : Clock) (pathId : PathId) (success timeout : Bool) (rotateAt : Int)
    (s : Router) (c : PathCategory) :
    s.pathsPendingDrop c ⊆ (onRotationVerificationResponse clock pathId success timeout rotateAt
      s).pathsPendingDrop c ∧ (onRotationVerificationResponse clock pathId success timeout rotateAt
      s).sentRequests = s.sentRequests := by
  rcases onRotationVerificationResponse_cases clock pathId success timeout rotateAt s with
    ⟨-, heq⟩ | ⟨pending, hpending, ⟨-, heq⟩ | ⟨oldPath, hold, heq | heq⟩⟩
  · rw [heq]
    exact ⟨Subset.refl _, rfl⟩
  · rw [heq]
    exact ⟨Subset.refl _, rfl⟩
  · rw [heq]
    exact ⟨Subset.refl _, rfl⟩
  rw [heq, completeRotation]
  refine ⟨?_, rfl⟩
  by_cases hc : c = pending.category
  · subst hc
    rw [retirePath_dying_self]
    split
    · exact Subset.refl _
    · exact subset_append_left _ _
  · rw [retirePath_dying_of_ne _ _ _ hc]
    exact Subset.refl _

lemma Turns.dying (h : Turns config clock due s s') : s'.pathsPendingDrop = s.pathsPendingDrop := by
  induction h with
  | nil => rfl
  | cons hturn _ ih =>
    refine ih.trans ?_
    cases hturn with
    | skip => rfl
    | postpone _ _ hsame | start _ _ _ _ hsame => exact hsame.dying

lemma dying_outcome {event : Event} (h : Counted s) (hids : IdsInOrder s)
    (hout : Outcome config clock event s s') (hsuspend : event ≠ .suspend)
    (hclose : event ≠ .closeConnections) (hp : p ∈ s.pathsPendingDrop c) :
    p.id ∈ (s'.pathsPendingDrop c).map OnionPath.id ∨ s'.inFlight p.id = 0 := by
  have failed : ∀ {t}, FailureChanges config s t → Counted t := fun hfail =>
    (Balanced.failureChanges ⟨h, False.elim⟩ hfail).1
  cases hout with
  | used huse | retried huse =>
    rw [huse.dying]
    exact .inl (mem_map_of_mem hp)
  | refilled | clearedCache => exact .inl (mem_map_of_mem hp)
  | checkFailed _ _ _ hsame =>
    rw [hsame.dying]
    exact .inl (mem_map_of_mem hp)
  | @activated _ _ _ t _ _ huse =>
    have hdying : t.pathsPendingDrop = s.pathsPendingDrop := huse.dying
    refine .inl (mem_map_of_mem ?_)
    rw [addFailureListener, hdying]
    exact hp
  | @answered t sent index hfail hget _ =>
    rw [← hfail.sent] at hget
    exact dying_or_done (failed hfail) (hids.failureChanges hfail) hget (hfail.dying_subset c hp)
  | @verified t sent index rotateAt hfail hget _ success timeout =>
    rw [← hfail.sent] at hget
    obtain ⟨hsub, hsent⟩ := verified_dying clock sent.pathId success timeout rotateAt
      (t.answered sent index) c
    rw [inFlight, hsent]
    exact (dying_or_done (failed hfail) (hids.failureChanges hfail) hget
      (hfail.dying_subset c hp)).imp_left fun hid => map_subset _ hsub hid
  | disconnected _ hfail => exact .inl (mem_map_of_mem (hfail.dying_subset c hp))
  | rotated _ hturns =>
    rw [hturns.dying]
    exact .inl (mem_map_of_mem hp)
  | closed hevent => exact absurd hevent hclose
  | suspended hevent => exact absurd hevent hsuspend

/-! ## Runs -/

/-- The counters are right, and so a dying path is there exactly as long as a request of it is on
the way. -/
structure InFlightCounted (env : Environment) (config : RouterConfig) (s : Router) : Prop where
  counts : ∀ c, ∀ p ∈ s.held c, p.activeRequests = s.inFlight p.id
  drops : ∀ c, ∀ p ∈ s.pathsPendingDrop c, ∀ clock event, event ≠ .suspend →
    event ≠ .closeConnections →
      (p.id ∈ ((step env config clock s event).pathsPendingDrop c).map OnionPath.id ↔
        (step env config clock s event).inFlight p.id ≠ 0)

/-- What is known along a run about the counters. -/
structure Accounts (config : RouterConfig) (s : Router) : Prop where
  rotating : Rotating [] s
  counted : Counted s
  matched : config.singlePathMode = false → Matched s

lemma accounts_run (env : Environment) (config : RouterConfig)
    (cachedEdgeNodes : List CachedEdgeNode) (mnodeCache : List MasterNode) (mnodeStrikes : Strikes)
    (events : List (Clock × Event)) (hmatch : config.singlePathMode = true →
      ∀ n, Matched (run env config (start cachedEdgeNodes mnodeCache mnodeStrikes)
        (events.take n))) :
    Accounts config (run env config (start cachedEdgeNodes mnodeCache mnodeStrikes) events) := by
  refine run_invariant_along env config (Accounts config)
    (fun s => config.singlePathMode = true → Matched s) ?_ (.start _ _ _) ?_
    fun n hsingle => hmatch hsingle n
  · intro clock event s s' hids h hsingle hout
    have hmatched : Matched s := by
      cases hmode : config.singlePathMode with
      | true => exact hsingle hmode
      | false => exact h.matched hmode
    have hnext := Balanced.outcome ⟨h.counted, fun _ => hmatched⟩ hids h.rotating hout
    exact ⟨h.rotating.outcome hids hout, hnext.1, hnext.2⟩
  have hstart : Balanced (config.singlePathMode = false)
      (start cachedEdgeNodes mnodeCache mnodeStrikes) := .nil (fun _ => rfl) rfl
  exact ⟨.start _ _ _, hstart.1, hstart.2⟩

/-- The counters are right if and only if no path that came from a rotation is held. In
`single_path_mode` the requests on the way have to be of the category of the path. What the source
does after it used a dangling path (`usedDanglingPath`) is undefined; of such runs the statement is
about the model only. -/
theorem in_flight_counted_iff (env : Environment) (config : RouterConfig)
    (cachedEdgeNodes : List CachedEdgeNode) (mnodeCache : List MasterNode) (mnodeStrikes : Strikes)
    (events : List (Clock × Event)) (hmatch : config.singlePathMode = true →
      ∀ n, Matched (run env config (start cachedEdgeNodes mnodeCache mnodeStrikes)
        (events.take n))) : InFlightCounted env config
        (run env config (start cachedEdgeNodes mnodeCache mnodeStrikes) events) ↔
      ∀ c, ∀ p ∈ (run env config (start cachedEdgeNodes mnodeCache mnodeStrikes) events).held c,
        p.id.label ≠ .rotation := by
  have haccounts := accounts_run env config cachedEdgeNodes mnodeCache mnodeStrikes events hmatch
  have hids := (run_invariant env config (fun _ => True) (fun _ _ _ _ _ _ _ => trivial)
    (.start cachedEdgeNodes mnodeCache mnodeStrikes) trivial events).1
  have hmatched : Matched
      (run env config (start cachedEdgeNodes mnodeCache mnodeStrikes) events) := by
    cases hmode : config.singlePathMode with
    | true =>
      have hall := hmatch hmode events.length
      rwa [take_length] at hall
    | false => exact haccounts.matched hmode
  generalize run env config (start cachedEdgeNodes mnodeCache mnodeStrikes) events = s
    at haccounts hids hmatched ⊢
  constructor
  · intro h c p hp hlabel
    have hcount := haccounts.counted.counts c p hp
    rw [h.counts c p hp, extraRequest, if_pos hlabel] at hcount
    omega
  intro hlabel
  refine ⟨fun c p hp => ?_, fun c p hp clock event hsuspend hclose => ?_⟩
  · have hcount := haccounts.counted.counts c p hp
    rw [extraRequest, if_neg (hlabel c p hp)] at hcount
    exact hcount
  have hout := outcome_step env config clock hids event
  have hcounted := (Balanced.outcome ⟨haccounts.counted, fun _ => hmatched⟩ hids
    haccounts.rotating hout).1
  have hplain := hlabel c p (mem_held.2 (.inr hp))
  constructor
  · intro hmem
    obtain ⟨q, hq, hid⟩ := mem_map.1 hmem
    have hcount := hcounted.counts c q (mem_held.2 (.inr hq))
    have hused := hcounted.dying c q hq
    rw [hid, extraRequest, if_neg hplain] at hcount
    omega
  · intro hne
    exact (dying_outcome haccounts.counted hids hout hsuspend hclose hp).resolve_right hne

/-- Before the rotation of the sample the counters are right. -/
theorem in_flight_counted_unrotated :
    (sampleRouterConfig.singlePathMode = true → ∀ n, Matched (run .plain sampleRouterConfig
      sampleStart ((rotationRun.take 4).take n))) ∧ InFlightCounted .plain sampleRouterConfig
      (run .plain sampleRouterConfig sampleStart (rotationRun.take 4)) := by
  have hmatch : sampleRouterConfig.singlePathMode = true → ∀ n, Matched (run .plain
      sampleRouterConfig sampleStart ((rotationRun.take 4).take n)) := by
    intro hsingle
    cases hsingle
  refine ⟨hmatch, (in_flight_counted_iff _ _ _ _ _ _ hmatch).2 ?_⟩
  intro c
  cases c <;> decide +kernel

/-- After it, the new path counts a request that was answered. -/
theorem in_flight_miscounted : ¬ InFlightCounted .plain sampleRouterConfig
      (run .plain sampleRouterConfig sampleStart rotationRun) := by
  intro h
  have hwrong : ∃ p ∈ (run .plain sampleRouterConfig sampleStart rotationRun).held .standard,
      p.activeRequests ≠ (run .plain sampleRouterConfig sampleStart rotationRun).inFlight p.id := by
    decide +kernel
  obtain ⟨p, hp, hne⟩ := hwrong
  exact hne (h.counts .standard p hp)

end Bchat.Network.Router
