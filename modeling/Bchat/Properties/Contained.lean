import Bchat.Properties.Validated
import Bchat.Properties.LoadDiff

/-!
# Bad messages among good ones

The merging constructor catches `config_error` around each message that it parses.
-/

namespace Bchat.Config

open Bencode List ConfigMessage

section

variable {env : Env} {P : BtDict → Prop}

lemma exists_of_rowsReach {currSeqno lag : Int} : ∀ {rows : List Bt} {prev : Option SeqnoHash},
    RowsReach env P currSeqno lag prev rows → ∃ d, P d
  | [], _, h => h.elim
  | row :: rows, prev, h => by
    rw [RowsReach] at h
    split at h
    · exact h.elim
    · exact exists_of_rowsReach h
    rcases h with h | ⟨-, -, h⟩
    · exact ⟨_, h⟩
    · exact exists_of_rowsReach h

lemma exists_of_messageReach {serialized : Bytes} {lag : Int}
    (h : MessageReach env P serialized lag) : ∃ d, P d := by
  obtain ⟨_, closed, _, seqno, _, _, _, _, _, _, _, _, unknown, rest, _, h⟩ := h
  have hdiff : ∀ {rest}, DiffReach env P closed unknown rest → ∃ d, P d := by
    rintro rest ⟨_, d, _, _, hd⟩
    exact ⟨d, hd⟩
  unfold LaggedReach at h
  split at h
  · exact h.elim
  split_ifs at h
  · split at h
    · rcases h with h | ⟨-, h⟩
      · exact exists_of_rowsReach h
      · exact hdiff h
    · exact h.elim
  · exact hdiff h

lemma parse_eq_overflow_iff {serialized : Bytes} (hread : (env.read serialized).isSome)
    (verifier : Option Verifier) (signer : Option Signer) (lag : Int) (trustSignature : Bool) :
    ConfigMessage.parse env serialized verifier signer lag trustSignature = .error .overflow ↔
      MessageReach env (Overflows env none) serialized lag := by
  have hdiff : (fun d => loadDiff env none d = .error .overflow) = Overflows env none := by
    funext d
    simp [loadDiff_eq_error_iff env escapes_overflow]
  rw [parse_eq_error_iff env escapes_overflow (.inl hread), hdiff]

/-- **What the parser throws at a dict is a `config_error`, unless it hangs or `get_int` throws.**
-/
lemma parse_error_escapes {serialized : Bytes} (hread : (env.read serialized).isSome)
    {verifier : Option Verifier} {signer : Option Signer} {lag : Int} {trustSignature : Bool}
    {e : Err} (h : ConfigMessage.parse env serialized verifier signer lag trustSignature = .error e)
    (he : e.isConfigError = false) : e = .hang ∨ e = .overflow := by
  have hescapes : e.Escapes := by
    unfold parse at h
    obtain ⟨⟨pairs, closed⟩, hr⟩ := Option.isSome_iff_exists.mp hread
    rw [hr] at h
    cases hp : parsePairs env serialized pairs closed verifier signer lag trustSignature with
    | ok m => simp [hp, Except.mapError] at h
    | error e' =>
      have heq : rethrow e' = e := by simpa [hp, Except.mapError] using h
      subst heq
      cases e' <;> exact he
  obtain ⟨d, hd⟩ := exists_of_messageReach
    ((parse_eq_error_iff env hescapes (.inl hread) verifier signer lag trustSignature).mp h)
  rcases (loadDiff_eq_error_iff env hescapes d none).mp hd with ⟨h, -⟩ | ⟨h, -⟩
  · exact .inl h
  · exact .inr h

lemma parse_ne_assertion (serialized : Bytes) (verifier : Option Verifier)
    (signer : Option Signer) (lag : Int) (trustSignature : Bool) :
    ConfigMessage.parse env serialized verifier signer lag trustSignature ≠ .error .assertion := by
  intro h
  by_cases hread : (env.read serialized).isSome
  · rcases parse_error_escapes hread h rfl with he | he <;> cases he
  unfold parse at h
  rw [Option.not_isSome_iff_eq_none.mp hread] at h
  cases h

end

section

variable (env : Env) (verifier : Option Verifier) (signer : Option Signer) (lag : Int)

def parsed (b : Bytes) : Option ConfigMessage :=
  (ConfigMessage.parse env b verifier signer lag false).toOption

def isAccepted (b : Bytes) : Bool := (parsed env verifier signer lag b).isSome

/-- The indices of the messages that the parser does not accept, counted from `i` on. -/
def rejectedFrom (i : Nat) (L : List Bytes) : List Nat :=
  ((L.zipIdx i).filter fun p => !isAccepted env verifier signer lag p.1).map Prod.snd

/-- The bad messages of a list are contained: each is reported as a `config_error`, the others are
merged as if the bad ones were not there, and the merge fails only if there are no others. -/
structure Contained (handler : Nat → Err → Except Err Unit) (L : List Bytes) : Prop where
  reported : ∀ b ∈ L, ∀ e, ConfigMessage.parse env b verifier signer lag false = .error e →
    e.isConfigError
  merged : mergeConfigs env L verifier signer lag handler =
    (mergeConfigs env (L.filter (isAccepted env verifier signer lag)) verifier signer lag
      handler).map fun r => (r.1, rejectedFrom env verifier signer lag 0 L)
  throws : ∀ e, mergeConfigs env L verifier signer lag handler = .error e →
    L.filter (isAccepted env verifier signer lag) = []

variable {env verifier signer lag} {L : List Bytes} {handler : Nat → Err → Except Err Unit}

lemma accepts_filter (L : List Bytes) : List.Forall₂ (Accepts env verifier signer lag)
      (L.filter (isAccepted env verifier signer lag))
      (L.filterMap (parsed env verifier signer lag)) := by
  induction L with
  | nil => exact .nil
  | cons b rest ih =>
    cases hb : parse env b verifier signer lag false with
    | ok m =>
      have hp : parsed env verifier signer lag b = some m := by rw [parsed, hb]; rfl
      rw [filter_cons_of_pos (by rw [isAccepted, hp]; rfl), filterMap_cons_some hp]
      exact .cons hb ih
    | error e =>
      have hp : parsed env verifier signer lag b = none := by rw [parsed, hb]; rfl
      rw [filter_cons_of_neg (by rw [isAccepted, hp]; simp), filterMap_cons_none hp]
      exact ih

lemma parseAll_inv {i : Nat} {r : List ConfigMessage × List Nat}
    (h : parseAll env verifier signer lag handler i L = .ok r) :
    r = (L.filterMap (parsed env verifier signer lag),
        rejectedFrom env verifier signer lag i L) := by
  induction L generalizing i r with
  | nil =>
    cases h
    rfl
  | cons b rest ih =>
    rw [parseAll] at h
    rw [rejectedFrom, zipIdx_cons]
    cases hb : parse env b verifier signer lag false with
    | ok m =>
      have hp : parsed env verifier signer lag b = some m := by rw [parsed, hb]; rfl
      rw [hb] at h
      obtain ⟨r', hr', h⟩ := bind_eq_ok.mp h
      cases h
      cases ih hr'
      rw [filterMap_cons_some hp, filter_cons_of_neg (by simp [isAccepted, hp])]
      rfl
    | error e =>
      have hp : parsed env verifier signer lag b = none := by rw [parsed, hb]; rfl
      rw [hb] at h
      dsimp only at h
      split_ifs at h
      obtain ⟨_, _, h⟩ := bind_eq_ok.mp h
      obtain ⟨r', hr', h⟩ := bind_eq_ok.mp h
      cases h
      cases ih hr'
      rw [filterMap_cons_none hp, filter_cons_of_pos (by simp [isAccepted, hp])]
      rfl

lemma parseAll_eq (hhandler : ∀ i e, handler i e = .ok ())
    (h : ∀ b ∈ L, ∀ e, ConfigMessage.parse env b verifier signer lag false = .error e →
      e.isConfigError) (i : Nat) : parseAll env verifier signer lag handler i L =
      .ok (L.filterMap (parsed env verifier signer lag),
          rejectedFrom env verifier signer lag i L) := by
  suffices ∃ r, parseAll env verifier signer lag handler i L = .ok r by
    obtain ⟨r, hr⟩ := this
    rw [hr, parseAll_inv hr]
  induction L generalizing i with
  | nil => exact ⟨_, rfl⟩
  | cons b rest ih =>
    obtain ⟨r, hr⟩ := ih (fun b' hb' => h b' (mem_cons_of_mem _ hb')) (i + 1)
    rw [parseAll]
    cases hb : parse env b verifier signer lag false with
    | ok m => exact ⟨_, by rw [hr]; rfl⟩
    | error e =>
      simp only [if_pos (h b mem_cons_self e hb), hhandler, hr]
      exact ⟨_, rfl⟩

lemma mem_rejectedFrom_zero {i : Nat} : i ∈ rejectedFrom env verifier signer lag 0 L ↔
    ∃ b, L[i]? = some b ∧ isAccepted env verifier signer lag b = false := by
  simp [rejectedFrom, mem_zipIdx_iff_getElem?]

lemma mergeConfigs_eq (hhandler : ∀ i e, handler i e = .ok ())
    (h : ∀ b ∈ L, ∀ e, ConfigMessage.parse env b verifier signer lag false = .error e →
      e.isConfigError) : mergeConfigs env L verifier signer lag handler =
      (mergeConfigs env (L.filter (isAccepted env verifier signer lag)) verifier signer lag
        handler).map fun r => (r.1, rejectedFrom env verifier signer lag 0 L) := by
  have hacc : Forall₂ (Accepts env verifier signer lag)
      (L.filter (isAccepted env verifier signer lag))
      (L.filterMap (parsed env verifier signer lag)) := accepts_filter L
  unfold mergeConfigs
  rw [parseAll_eq hhandler h, parseAll_of_accepts hacc, ok_bind, ok_bind]
  dsimp only
  split_ifs
  · rfl
  · cases mergeAccepted env verifier signer lag (L.filterMap (parsed env verifier signer lag)) <;>
      rfl

end

/-- The conflict resolution is not called, or some message survives and every diff applies with the
data of the message that brings it. -/
def Resolvable (verifier : Option Verifier) (signer : Option Signer) (lag : Int)
    (ms : List ConfigMessage) : Prop :=
  (survivors lag ms).length = 1 ∨ (verifier.isSome ∧ signer = none) ∨
    (survivors lag ms ≠ [] ∧ ∀ p ∈ replayed lag ms, AppliesDict p.2.2 p.2.1)

def cutOff : Bytes := bytes "d1:#i1e"

/-- A message whose diff adds the integer 2^63 to a set. -/
def largeElement : Bytes :=
  messageBytes 1 [] [] [(bytes "s", .list [.list [.int 1, .int (2 ^ 63)], .list []])]

lemma read_bencode_isSome (blake2b : Bytes → Hash) (b : Bytes) (h : b.head? = some (ascii 'd')) :
    ((Env.bencode blake2b).read b).isSome := by
  cases b with
  | nil => cases h
  | cons c rest =>
    cases h
    rfl

def parsesOrReports (env : Env) (b : Bytes) : Bool :=
  match ConfigMessage.parse env b none none 5 false with
  | .ok _ => true
  | .error e => e.isConfigError

end Bchat.Config
