import Bchat.Roundtrip.Sections

/-!
# When parsing ends

`load_diff` has no branch for an integer under a key: its loop goes on without having read
anything, and never ends.
-/

namespace Bchat.Config

open Bencode ConfigMessage Option

variable (env : Env) (what : String) (currSeqno lag : Int) (P : BtDict → Prop) (serialized : Bytes)
  (prev : Option SeqnoHash) (row : Bt)

/-! ## The loop -/

/-- What the body of the loop reads under a key: a string, a list or a dict, which it loads with
`load`. It reads nothing if an integer is there. -/
def loadDiffBody (load : BtDict → Option (Except Err BtDict)) (key : Bytes) :
    Bt → Option (Except Err (Option Bt))
  | .int _ => some (.ok none)
  | .dict d => (load d).map (fun r => r.map (fun d' => some (.dict d')))
  | .str mode => some ((loadDiffValue env key (.str mode)).map some)
  | .list l => some ((loadDiffValue env key (.list l)).map some)

/-- The loop of `load_diff`, which gives up when it runs out of fuel. When nothing was read it comes
back to the same pair. -/
def loadDiffLoop (env : Env) : Nat → Option Bytes → BtDict → Option (Except Err BtDict)
  | 0, _, _ => none
  | _ + 1, _, [] => some (.ok [])
  | fuel + 1, prev, (key, v) :: rest =>
    if prev.any (key ≤ ·) then some (.error (.bt "Diff keys are not correctly ordered"))
    else
      match loadDiffBody env (loadDiffLoop env fuel none) key v with
      | none => none
      | some (.error e) => some (.error e)
      | some (.ok none) => loadDiffLoop env fuel prev ((key, v) :: rest)
      | some (.ok (some v')) =>
        (loadDiffLoop env fuel (some key) rest).map (fun r => r.map ((key, v') :: ·))

lemma loadDiffLoop_int {prev : Option Bytes} {key : Bytes} (hkey : ¬(prev.any (key ≤ ·)) = true)
    (i : Int) (rest : BtDict) (fuel : Nat) :
    loadDiffLoop env fuel prev ((key, .int i) :: rest) = none := by
  induction fuel with
  | zero => rfl
  | succ fuel ih => rw [loadDiffLoop, if_neg hkey, loadDiffBody, ih]

lemma bind_eq_error {ε α β : Type} {x : Except ε α} {f : α → Except ε β} {e : ε} :
    (x >>= f) = .error e ↔ x = .error e ∨ ∃ a, x = .ok a ∧ f a = .error e := by
  cases x with
  | error e' | ok a => simp [bind, Except.bind]

/-! ## Errors that are not caught -/

/-- Neither the parsing constructor nor the merging one catches the error. -/
def Err.Escapes (e : Err) : Prop := (ConfigMessage.rethrow e).isConfigError = false

@[simp] lemma escapes_hang : Err.Escapes .hang := rfl

@[simp] lemma escapes_overflow : Err.Escapes .overflow := rfl

@[simp] lemma not_escapes_oxenc : ¬Err.Escapes .oxenc := Bool.noConfusion

@[simp] lemma not_escapes_bt : ¬Err.Escapes (.bt what) := Bool.noConfusion

@[simp] lemma not_escapes_parse (args : List Bytes) :
    ¬Err.Escapes (.parse what args) := Bool.noConfusion

@[simp] lemma not_escapes_signature : ¬Err.Escapes (.signature what) := Bool.noConfusion

@[simp] lemma not_escapes_missingSignature :
    ¬Err.Escapes (.missingSignature what) := Bool.noConfusion

def Caught {α : Type} (x : Except Err α) : Prop := ∀ e, x = .error e → ¬e.Escapes

section

variable {α β : Type}

@[simp] lemma caught_ok (a : α) : Caught (.ok a) := by
  intro e h
  cases h

@[simp] lemma caught_error {e : Err} : Caught (.error e : Except Err α) ↔ ¬e.Escapes := by
  constructor
  · exact fun h => h e rfl
  intro h e' he
  cases he
  exact h

lemma Caught.bind {x : Except Err α} {f : α → Except Err β} (hx : Caught x)
    (hf : ∀ a, x = .ok a → Caught (f a)) : Caught (x >>= f) := by
  intro e h
  rcases bind_eq_error.mp h with h | ⟨a, ha, h⟩
  · exact hx e h
  · exact hf a ha e h

lemma Caught.ne {x : Except Err α} (h : Caught x) {e : Err} (he : e.Escapes) : x ≠ .error e :=
  fun hx => h e hx he

end

def OutOfRange (v : Bt) : Prop := ∃ i, v = .int i ∧ ¬InInt64 i

lemma getBtInt_eq_error_iff {v : Bt} {e : Err} :
    getBtInt v = .error e ↔ e = .overflow ∧ OutOfRange v := by
  unfold OutOfRange
  cases v with
  | int i =>
    rw [getBtInt]
    split_ifs with hi
    · simp [hi]
    · simp [hi, eq_comm]
  | _ => simp [getBtInt]

lemma checkScalarOrder_eq_error_iff {a b : Bt} {e : Err} (he : e.Escapes) :
    checkScalarOrder a b = .error e ↔ e = .overflow ∧ (OutOfRange a ∨ OutOfRange b) := by
  have hok : Caught (.ok () : Except Err Unit) := caught_ok ()
  have herr : ∀ what, Caught (.error (.parse what []) : Except Err Unit) := fun what =>
    caught_error.mpr (not_escapes_parse what [])
  have hif : ∀ (p : Prop) [Decidable p] what,
      Caught (if p then .error (.parse what []) else .ok () : Except Err Unit) := by
    intro p _ what
    split
    · exact herr what
    · exact hok
  unfold checkScalarOrder
  rw [bind_eq_error, getBtInt_eq_error_iff]
  constructor
  · rintro (⟨rfl, ha⟩ | ⟨aInt, _, h⟩)
    · exact ⟨rfl, .inl ha⟩
    rcases bind_eq_error.mp h with h | ⟨bInt, _, h⟩
    · obtain ⟨rfl, hb⟩ := getBtInt_eq_error_iff.mp h
      exact ⟨rfl, .inr hb⟩
    -- with the values known, each branch is an outcome that is caught
    refine absurd h (Caught.ne ?_ he)
    rcases aInt with _ | i <;> rcases bInt with _ | j <;> rcases getBtStr a with _ | s <;>
      rcases getBtStr b with _ | t
    all_goals first | exact hok | exact herr _ | exact hif _ _
  rintro ⟨rfl, h⟩
  by_cases ha : OutOfRange a
  · exact .inl ⟨rfl, ha⟩
  have hb : OutOfRange b := h.resolve_left ha
  cases hget : getBtInt a with
  | error e' => exact absurd (getBtInt_eq_error_iff.mp hget).2 ha
  | ok aInt =>
    exact .inr ⟨aInt, rfl, bind_eq_error.mpr (.inl (getBtInt_eq_error_iff.mpr ⟨rfl, hb⟩))⟩

/-- Checking the elements of a set diff comes to an integer that is too large: an element before it
or after it is compared with it, and the elements before it are in order. -/
def ElemsOverflow : List Bt → Prop
  | a :: b :: rest =>
    (OutOfRange a ∨ OutOfRange b) ∨ ScalarBefore a b ∧ ElemsOverflow (b :: rest)
  | _ => False

lemma checkElems_eq_error_iff {e : Err} (he : e.Escapes) : ∀ l : List Bt,
    checkElems l = .error e ↔ e = .overflow ∧ ElemsOverflow l
  | [] | [_] => by simp [checkElems, ElemsOverflow]
  | a :: b :: rest => by
    rw [checkElems, ElemsOverflow, bind_eq_error, checkScalarOrder_eq_error_iff he,
      checkElems_eq_error_iff he (b :: rest), ← checkScalarOrder_eq_ok]
    constructor
    · rintro (⟨rfl, h⟩ | ⟨_, hab, rfl, h⟩)
      · exact ⟨rfl, Or.inl h⟩
      · exact ⟨rfl, Or.inr ⟨hab, h⟩⟩
    rintro ⟨rfl, h | ⟨hab, h⟩⟩
    · exact Or.inl ⟨rfl, h⟩
    · exact Or.inr ⟨(), hab, rfl, h⟩

/-- Checking the two lists of a set diff comes to an integer that is too large. -/
def SetOverflows : List Bt → Prop
  | [.list added, b] =>
    ElemsOverflow added ∨
      added.IsChain ScalarBefore ∧ ∃ removed, b = .list removed ∧ ElemsOverflow removed
  | _ => False

lemma checkSetDiff_eq_error_iff {e : Err} (he : e.Escapes) (key : Bytes) (l : List Bt) :
    checkSetDiff key l = .error e ↔ e = .overflow ∧ SetOverflows l := by
  have hsub : ∀ v, checkSetDiff.checkSublist key v = .error e ↔
      e = .overflow ∧ ∃ elems, v = .list elems ∧ ElemsOverflow elems := by
    intro v
    cases v with
    | list elems => simp [checkSetDiff.checkSublist, checkElems_eq_error_iff he]
    | _ =>
      simp only [checkSetDiff.checkSublist, reduceCtorEq, false_and, exists_false, and_false,
        iff_false]
      exact (caught_error.mpr (not_escapes_parse _ _)).ne he
  have hcount : (.error (.parse "config diff contains invalid set: expected 2 elements" [key]) :
      Except Err Unit) ≠ .error e := (caught_error.mpr (not_escapes_parse _ _)).ne he
  rcases l with _ | ⟨a, _ | ⟨b, _ | ⟨c, rest⟩⟩⟩
  · simp [checkSetDiff, SetOverflows, hcount]
  · cases a <;> simp [checkSetDiff, SetOverflows, hcount]
  · rw [checkSetDiff, bind_eq_error, hsub, hsub]
    cases a with
    | list added =>
      rw [SetOverflows, ← checkElems_eq_ok]
      constructor
      · rintro (⟨rfl, elems, heq, h⟩ | ⟨_, hadded, rfl, h⟩)
        · cases heq
          exact ⟨rfl, .inl h⟩
        · exact ⟨rfl, .inr ⟨hadded, h⟩⟩
      rintro ⟨rfl, h | ⟨hadded, h⟩⟩
      · exact .inl ⟨rfl, added, rfl, h⟩
      · exact .inr ⟨(), hadded, rfl, h⟩
    | _ => simp [checkSetDiff.checkSublist, SetOverflows]
  · cases a <;> simp [checkSetDiff, SetOverflows, hcount]

lemma loadDiffValue_ne_hang (key : Bytes) {v : Bt} (hint : ∀ i, v ≠ .int i)
    (hdict : ∀ d, v ≠ .dict d) : loadDiffValue env key v ≠ .error .hang := by
  cases v with
  | int i => exact absurd rfl (hint i)
  | dict d => exact absurd rfl (hdict d)
  | str mode =>
    rw [loadDiffValue]
    split_ifs <;> simp
  | list l =>
    rw [loadDiffValue]
    split
    · simp
    rw [Ne, bind_eq_error]
    rintro (h | ⟨_, _, h⟩)
    · cases ((checkSetDiff_eq_error_iff escapes_hang key _).mp h).1
    · cases h

lemma loadDiffBody_sound {load : BtDict → Option (Except Err BtDict)}
    (hload : ∀ d r, load d = some r → loadDiff env none d = r ∧ r ≠ .error .hang) {key : Bytes}
    {v : Bt} {r : Except Err (Option Bt)} (h : loadDiffBody env load key v = some r) :
    (∃ i, v = .int i) ∨
      r = (loadDiffValue env key v).map some ∧ loadDiffValue env key v ≠ .error .hang := by
  cases v with
  | int i => exact .inl ⟨i, rfl⟩
  | str mode | list l =>
    cases h
    exact .inr ⟨rfl, loadDiffValue_ne_hang env key (by simp) (by simp)⟩
  | dict d =>
    obtain ⟨rd, hd, rfl⟩ := map_eq_some_iff.mp h
    obtain ⟨rfl, hne⟩ := hload d rd hd
    right
    rw [loadDiffValue]
    cases hl : loadDiff env none d with
    | ok d' => exact ⟨rfl, by simp⟩
    | error e =>
      refine ⟨rfl, fun he => hne ?_⟩
      cases he
      exact hl

lemma loadDiffLoop_sound (env : Env) : ∀ (fuel : Nat) (prev : Option Bytes) (d : BtDict)
    (r : Except Err BtDict), loadDiffLoop env fuel prev d = some r →
    loadDiff env prev d = r ∧ r ≠ .error .hang
  | 0, _, _, _, h => by simp [loadDiffLoop] at h
  | fuel + 1, prev, [], r, h => by
    cases h
    exact ⟨by rw [loadDiff], by simp⟩
  | fuel + 1, prev, (key, v) :: rest, r, h => by
    rw [loadDiff]
    by_cases hkey : (prev.any (key ≤ ·)) = true
    · rw [loadDiffLoop, if_pos hkey] at h
      cases h
      exact ⟨if_pos hkey, by simp⟩
    have hval := @loadDiffBody_sound env _ (loadDiffLoop_sound env fuel none) key v
    have hcopy := h
    rw [loadDiffLoop, if_neg hkey] at h
    rw [if_neg hkey]
    cases hbody : loadDiffBody env (loadDiffLoop env fuel none) key v with
    | none => simp [hbody] at h
    | some rv =>
      rcases hval hbody with ⟨i, rfl⟩ | ⟨rfl, hne⟩
      · -- the loop comes back to the integer
        rw [loadDiffLoop_int env hkey] at hcopy
        cases hcopy
      rw [hbody] at h
      cases hv : loadDiffValue env key v with
      | error e =>
        rw [hv] at h hne
        cases h
        exact ⟨rfl, fun he => hne (by cases he; rfl)⟩
      | ok v' =>
        rw [hv] at h
        obtain ⟨rr, hrr, rfl⟩ := map_eq_some_iff.mp h
        obtain ⟨rfl, hne'⟩ := loadDiffLoop_sound env fuel (some key) rest rr hrr
        cases hl : loadDiff env (some key) rest with
        | ok d' => exact ⟨rfl, by simp [Except.map]⟩
        | error e =>
          refine ⟨rfl, fun he => hne' ?_⟩
          cases he
          exact hl

def Eventually {α : Type} (f : Nat → Option α) (r : α) : Prop :=
  ∃ n, ∀ fuel, n ≤ fuel → f fuel = some r

lemma Eventually.succ {α : Type} {f : Nat → Option α} {r : α}
    (h : Eventually (fun fuel => f (fuel + 1)) r) : Eventually f r := by
  obtain ⟨n, hn⟩ := h
  refine ⟨n + 1, fun fuel hle => ?_⟩
  obtain ⟨m, rfl⟩ := Nat.exists_eq_add_of_le hle
  have := hn (n + m) (Nat.le_add_right n m)
  rwa [show n + 1 + m = n + m + 1 by omega]

mutual
lemma loadDiffLoop_complete (env : Env) : ∀ (d : BtDict) (prev : Option Bytes),
    loadDiff env prev d ≠ .error .hang →
    Eventually (fun fuel => loadDiffLoop env fuel prev d) (loadDiff env prev d)
  | [], prev, _ => by
    refine Eventually.succ ⟨0, fun fuel _ => ?_⟩
    simp [loadDiffLoop, loadDiff]
  | (key, v) :: rest, prev, h => by
    apply Eventually.succ
    rw [loadDiff] at h ⊢
    by_cases hkey : (prev.any (key ≤ ·)) = true
    · exact ⟨0, fun fuel _ => by simp only [loadDiffLoop, if_pos hkey]⟩
    simp only [if_neg hkey, Ne, bind_eq_error, not_or] at h ⊢
    obtain ⟨n, hn⟩ := loadDiffBody_complete env v key h.1
    cases hv : loadDiffValue env key v with
    | error e =>
      refine ⟨n, fun fuel hle => ?_⟩
      have hb := hn fuel hle
      rw [hv] at hb
      simp only [loadDiffLoop, if_neg hkey, hb, Except.map]
      rfl
    | ok v' =>
      have hne : loadDiff env (some key) rest ≠ .error .hang := fun he =>
        h.2 ⟨v', hv, .inl he⟩
      obtain ⟨n', hn'⟩ := loadDiffLoop_complete env rest (some key) hne
      refine ⟨max n n', fun fuel hle => ?_⟩
      have hb := hn fuel (le_of_max_le_left hle)
      rw [hv] at hb
      simp only [loadDiffLoop, if_neg hkey, hb, Except.map]
      rw [show loadDiffLoop env fuel (some key) rest = _ from hn' fuel (le_of_max_le_right hle)]
      cases loadDiff env (some key) rest <;> rfl

lemma loadDiffBody_complete (env : Env) : ∀ (v : Bt) (key : Bytes),
    loadDiffValue env key v ≠ .error .hang →
    Eventually (fun fuel => loadDiffBody env (loadDiffLoop env fuel none) key v)
      ((loadDiffValue env key v).map some)
  | .int i, key, h => absurd (by rw [loadDiffValue]) h
  | .str mode, key, _ => ⟨0, fun _ _ => rfl⟩
  | .list l, key, _ => ⟨0, fun _ _ => rfl⟩
  | .dict d, key, h => by
    rw [loadDiffValue] at h ⊢
    rw [Ne, bind_eq_error, not_or] at h
    obtain ⟨n, hn⟩ := loadDiffLoop_complete env d none h.1
    refine ⟨n, fun fuel hle => ?_⟩
    simp only [loadDiffBody]
    rw [show loadDiffLoop env fuel none d = _ from hn fuel hle]
    cases loadDiff env none d <;> rfl
end

lemma loadDiffLoop_eq_none_iff (env : Env) (prev : Option Bytes) (d : BtDict) :
    (∀ fuel, loadDiffLoop env fuel prev d = none) ↔ loadDiff env prev d = .error .hang := by
  constructor
  · intro h
    by_contra hne
    obtain ⟨n, hn⟩ := loadDiffLoop_complete env d prev hne
    have := (h n).symm.trans (hn n le_rfl)
    cases this
  intro h fuel
  cases hr : loadDiffLoop env fuel prev d with
  | none => rfl
  | some r =>
    obtain ⟨rfl, hne⟩ := loadDiffLoop_sound env fuel prev d r hr
    exact absurd h hne

/-! ## Integers in a diff -/

mutual
def AcceptedValue (env : Env) : Bt → Prop
  | .str mode => mode = bytes "" ∨ mode = bytes "-"
  | .list l => ∃ changed, env.consumeItems l = some changed ∧ SetDiffWF changed
  | .dict d => Accepted env none d
  | .int _ => False

/-- A diff passes the checks: its keys ascend from `prev`, and every value passes them. -/
def Accepted (env : Env) : Option Bytes → BtDict → Prop
  | _, [] => True
  | prev, (key, v) :: rest =>
    (∀ q ∈ prev, q < key) ∧ AcceptedValue env v ∧ Accepted env (some key) rest
end

mutual
def StopsAtIntValue (env : Env) : Bt → Prop
  | .int _ => True
  | .dict d => StopsAtInt env none d
  | _ => False

/-- Reading a diff comes to an integer under a key, here or below: all before it passes the
checks. -/
def StopsAtInt (env : Env) : Option Bytes → BtDict → Prop
  | _, [] => False
  | prev, (key, v) :: rest =>
    (∀ q ∈ prev, q < key) ∧
      (StopsAtIntValue env v ∨ AcceptedValue env v ∧ StopsAtInt env (some key) rest)
end

lemma any_le_iff {prev : Option Bytes} {key : Bytes} :
    ¬(prev.any (key ≤ ·)) = true ↔ ∀ q ∈ prev, q < key := by
  cases prev <;> simp

mutual
lemma exists_loadDiffValue_iff (env : Env) : ∀ (v : Bt) (key : Bytes),
    (∃ v', loadDiffValue env key v = .ok v') ↔ AcceptedValue env v
  | .int i, key => by simp [loadDiffValue, AcceptedValue]
  | .str mode, key => by
    rw [loadDiffValue, AcceptedValue]
    split_ifs with h <;> simp [h]
  | .list l, key => by
    rw [loadDiffValue, AcceptedValue]
    cases env.consumeItems l with
    | none => simp
    | some changed =>
      simp only [bind_eq_ok, some.injEq, exists_eq_left']
      constructor
      · rintro ⟨_, _, hc, _⟩
        exact checkSetDiff_eq_ok.mp hc
      · exact fun hc => ⟨_, (), checkSetDiff_eq_ok.mpr hc, rfl⟩
  | .dict d, key => by
    rw [loadDiffValue, AcceptedValue, ← exists_loadDiff_iff env d none]
    simp only [bind_eq_ok]
    constructor
    · rintro ⟨_, d', hd, _⟩
      exact ⟨d', hd⟩
    · exact fun ⟨d', hd⟩ => ⟨_, d', hd, rfl⟩

lemma exists_loadDiff_iff (env : Env) : ∀ (d : BtDict) (prev : Option Bytes),
    (∃ d', loadDiff env prev d = .ok d') ↔ Accepted env prev d
  | [], prev => by simp [loadDiff, Accepted]
  | (key, v) :: rest, prev => by
    rw [loadDiff, Accepted, ← exists_loadDiffValue_iff env v key,
      ← exists_loadDiff_iff env rest (some key), ← any_le_iff]
    split_ifs with hkey
    · simp [hkey]
    simp only [bind_eq_ok]
    constructor
    · rintro ⟨_, v', hv, rest', hrest, _⟩
      exact ⟨hkey, ⟨v', hv⟩, ⟨rest', hrest⟩⟩
    · rintro ⟨_, ⟨v', hv⟩, ⟨rest', hrest⟩⟩
      exact ⟨_, v', hv, rest', hrest, rfl⟩
end

mutual
/-- Reading the value under a key comes to an integer in a set diff that is too large. -/
def OverflowsValue (env : Env) : Bt → Prop
  | .list l => ∃ changed, env.consumeItems l = some changed ∧ SetOverflows changed
  | .dict d => Overflows env none d
  | _ => False

/-- Reading a diff comes to an integer in a set diff that is too large, here or below: all before it
passes the checks. -/
def Overflows (env : Env) : Option Bytes → BtDict → Prop
  | _, [] => False
  | prev, (key, v) :: rest =>
    (∀ q ∈ prev, q < key) ∧
      (OverflowsValue env v ∨ AcceptedValue env v ∧ Overflows env (some key) rest)
end

mutual
lemma loadDiffValue_eq_error_iff (env : Env) {e : Err} (he : e.Escapes) : ∀ (v : Bt) (key : Bytes),
    loadDiffValue env key v = .error e ↔
      e = .hang ∧ StopsAtIntValue env v ∨ e = .overflow ∧ OverflowsValue env v
  | .int i, key => by simp [loadDiffValue, StopsAtIntValue, OverflowsValue, eq_comm]
  | .str mode, key => by
    have hcaught : Caught (loadDiffValue env key (.str mode)) := by
      rw [loadDiffValue]
      split_ifs <;> simp
    simp [hcaught.ne he, StopsAtIntValue, OverflowsValue]
  | .list l, key => by
    rw [loadDiffValue, OverflowsValue]
    cases env.consumeItems l with
    | none =>
      have hcaught : Caught (.error .oxenc : Except Err Bt) := by simp
      simp [hcaught.ne he, StopsAtIntValue]
    | some changed => simp [bind_eq_error, checkSetDiff_eq_error_iff he, StopsAtIntValue]
  | .dict d, key => by
    rw [loadDiffValue, StopsAtIntValue, OverflowsValue, ← loadDiff_eq_error_iff env he d none,
      bind_eq_error]
    simp

lemma loadDiff_eq_error_iff (env : Env) {e : Err} (he : e.Escapes) :
    ∀ (d : BtDict) (prev : Option Bytes), loadDiff env prev d = .error e ↔
      e = .hang ∧ StopsAtInt env prev d ∨ e = .overflow ∧ Overflows env prev d
  | [], prev => by simp [loadDiff, StopsAtInt, Overflows]
  | (key, v) :: rest, prev => by
    rw [loadDiff, StopsAtInt, Overflows, ← any_le_iff]
    split_ifs with hkey
    · have hcaught : Caught (.error (.bt "Diff keys are not correctly ordered") :
          Except Err BtDict) := by simp
      simp [hcaught.ne he, hkey]
    have hvalue := loadDiffValue_eq_error_iff env he v key
    have hrest := loadDiff_eq_error_iff env he rest (some key)
    rw [← exists_loadDiffValue_iff env v key, bind_eq_error, hvalue]
    constructor
    · rintro ((⟨rfl, h⟩ | ⟨rfl, h⟩) | ⟨v', hv, h⟩)
      · exact .inl ⟨rfl, hkey, .inl h⟩
      · exact .inr ⟨rfl, hkey, .inl h⟩
      rcases bind_eq_error.mp h with h | ⟨_, _, h⟩
      · rcases hrest.mp h with ⟨rfl, hstop⟩ | ⟨rfl, hover⟩
        · exact .inl ⟨rfl, hkey, .inr ⟨⟨v', hv⟩, hstop⟩⟩
        · exact .inr ⟨rfl, hkey, .inr ⟨⟨v', hv⟩, hover⟩⟩
      · cases h
    rintro (⟨rfl, -, h | ⟨⟨v', hv⟩, h⟩⟩ | ⟨rfl, -, h | ⟨⟨v', hv⟩, h⟩⟩)
    · exact .inl (.inl ⟨rfl, h⟩)
    · exact .inr ⟨v', hv, bind_eq_error.mpr (.inl (hrest.mpr (.inl ⟨rfl, h⟩)))⟩
    · exact .inl (.inr ⟨rfl, h⟩)
    · exact .inr ⟨v', hv, bind_eq_error.mpr (.inl (hrest.mpr (.inr ⟨rfl, h⟩)))⟩
end

lemma loadDiff_eq_hang_iff (env : Env) (d : BtDict) (prev : Option Bytes) :
    loadDiff env prev d = .error .hang ↔ StopsAtInt env prev d := by
  simp [loadDiff_eq_error_iff env escapes_hang]

/-! ## The diffs of a message -/

/-- A row of the lagged diffs up to its diff: nothing for a row that is too old, otherwise its key,
its diff and what comes after it. -/
def laggedRowHead :
    Bt → Except Err (Option (SeqnoHash × BtDict × List Bt))
  | .list (.int seqno :: row) =>
    if ¬InInt64 seqno then .error .oxenc
    else if currSeqno ≤ seqno then .error (.parse "Data contains lagged seqno >= current seqno" [])
    else if seqno ≤ currSeqno - lag then .ok none
    else
      match row with
      | .str hash :: row =>
        if h : hash.length = 32 then
          if prev.any (⟨seqno, ⟨hash, h⟩⟩ ≤ ·) then
            .error (.parse "Data contained unsorted or duplicate lagged diff rows" [])
          else
            match row with
            | .dict d :: row => .ok (some (⟨seqno, ⟨hash, h⟩⟩, d, row))
            | _ => .error .oxenc
        else .error (.parse "Data contains invalid lagged diff data: hash must be 32 bytes" [])
      | _ => .error .oxenc
  | _ => .error .oxenc

def laggedRowTail :
    Option (SeqnoHash × BtDict × List Bt) → Except Err (Option (SeqnoHash × BtDict))
  | none => .ok none
  | some (s, d, row) => do
    let diff ← loadDiff env none d
    if row.isEmpty then .ok (some (s, diff))
    else .error (.parse "Data contains invalid lagged diff tuple: expected 3 elements" [])

lemma parseLaggedRow_eq : parseLaggedRow env currSeqno lag prev row
      = laggedRowHead currSeqno lag prev row >>= laggedRowTail env := by
  unfold parseLaggedRow laggedRowHead
  rcases row with _ | _ | (_ | ⟨seqno | _ | _ | _, row⟩) | _
  case list.cons.int =>
    dsimp only
    split_ifs
    · rfl
    · rfl
    · cases row with
      | nil => rfl
      | cons a row =>
        cases a with
        | str hash =>
          dsimp only
          split_ifs
          · rfl
          · rcases row with _ | ⟨_ | _ | _ | _, _⟩ <;> rfl
          · rfl
        | _ => rfl
    · rfl
  all_goals rfl

lemma caught_laggedRowHead : Caught (laggedRowHead currSeqno lag prev row) := by
  unfold laggedRowHead
  split
  · split_ifs
    · simp
    · simp
    · split
      · split_ifs
        · simp
        · split <;> simp
        · simp
      · simp
    · simp
  · simp

/-- The rows pass the checks, with the last key of the result so far. -/
def RowsAccepted (env : Env) (currSeqno lag : Int) : Option SeqnoHash → List Bt → Prop
  | _, [] => True
  | prev, row :: rows =>
    match laggedRowHead currSeqno lag prev row with
    | .error _ => False
    | .ok none => RowsAccepted env currSeqno lag prev rows
    | .ok (some (s, d, row)) =>
      Accepted env none d ∧ row = [] ∧ RowsAccepted env currSeqno lag (some s) rows

/-- Reading the rows comes to a diff with the property `P`. -/
def RowsReach (env : Env) (P : BtDict → Prop) (currSeqno lag : Int) :
    Option SeqnoHash → List Bt → Prop
  | _, [] => False
  | prev, row :: rows =>
    match laggedRowHead currSeqno lag prev row with
    | .error _ => False
    | .ok none => RowsReach env P currSeqno lag prev rows
    | .ok (some (s, d, row)) =>
      P d ∨ Accepted env none d ∧ row = [] ∧ RowsReach env P currSeqno lag (some s) rows

/-- Reading the pairs after the lagged diffs comes to a diff of the message with the property
`P`. -/
def DiffReach (closed : Bool) (unknown rest : BtDict) : Prop :=
  ∃ unknown' d tail,
    loadUnknowns env closed (bytes "<") (bytes "=") unknown rest
      = .ok (unknown', (bytes "=", .dict d) :: tail) ∧ P d

/-- Reading the pairs after the data comes to a diff with the property `P`. -/
def LaggedReach (seqno lag : Int) (closed : Bool) (unknown : BtDict) : BtDict → Prop
  | [] => False
  | (key, v) :: rest =>
    if key = bytes "<" then
      match v with
      | .list rows =>
        RowsReach env P seqno lag none rows ∨
          RowsAccepted env seqno lag none rows ∧ DiffReach env P closed unknown rest
      | _ => False
    else DiffReach env P closed unknown ((key, v) :: rest)

/-- Parsing a message gives `load_diff` a diff with the property `P`: all that the message has
before it passes the checks. -/
def MessageReach (lag : Int) : Prop :=
  ∃ pairs closed, env.read serialized = some (pairs, closed) ∧
  ∃ seqno rest, readSeqno pairs = .ok (seqno, rest) ∧
  ∃ unknown rest', loadUnknowns env closed (bytes "#") (bytes "&") [] rest = .ok (unknown, rest') ∧
  ∃ data rest, readData rest' = .ok (data, rest) ∧
  ∃ unknown' rest',
    loadUnknowns env closed (bytes "&") (bytes "<") unknown rest = .ok (unknown', rest') ∧
    LaggedReach env P seqno lag closed unknown' rest'

/-! ## When parsing ends -/

lemma exists_laggedRowTail_iff (env : Env) (s : SeqnoHash) (d : BtDict) (row : List Bt) :
    (∃ p, laggedRowTail env (some (s, d, row)) = .ok p) ↔ Accepted env none d ∧ row = [] := by
  rw [laggedRowTail, ← exists_loadDiff_iff]
  cases loadDiff env none d with
  | error e => simp [bind, Except.bind]
  | ok d' => cases row <;> simp

lemma laggedRowTail_eq_ok {env : Env} {s : SeqnoHash} {d : BtDict} {row : List Bt}
    {p : Option (SeqnoHash × BtDict)} (h : laggedRowTail env (some (s, d, row)) = .ok p) :
    ∃ d', p = some (s, d') := by
  obtain ⟨d', _, h⟩ := bind_eq_ok.mp h
  split_ifs at h
  cases h
  exact ⟨d', rfl⟩

lemma laggedRowTail_eq_error_iff {e : Err} (he : e.Escapes) (s : SeqnoHash) (d : BtDict)
    (row : List Bt) :
    laggedRowTail env (some (s, d, row)) = .error e ↔ loadDiff env none d = .error e := by
  rw [laggedRowTail, bind_eq_error]
  constructor
  · rintro (h | ⟨_, _, h⟩)
    · exact h
    split_ifs at h
    cases h
    exact absurd he (not_escapes_parse _ _)
  · exact .inl

lemma parseLaggedDiffs_cons (rows : List Bt) :
    parseLaggedDiffs env currSeqno lag prev (row :: rows) = (do
      let p ← parseLaggedRow env currSeqno lag prev row
      let rest ← parseLaggedDiffs env currSeqno lag ((p.map Prod.fst).or prev) rows
      .ok (p.toList ++ rest)) := by
  rw [parseLaggedDiffs]
  cases parseLaggedRow env currSeqno lag prev row with
  | error e => rfl
  | ok p =>
    cases p with
    | some p => rfl
    | none =>
      simp only [ok_bind, map_none, none_or, toList_none, List.nil_append]
      cases parseLaggedDiffs env currSeqno lag prev rows <;> rfl

lemma exists_parseLaggedDiffs_iff (env : Env) (currSeqno lag : Int) :
    ∀ (rows : List Bt) (prev : Option SeqnoHash),
    (∃ l, parseLaggedDiffs env currSeqno lag prev rows = .ok l) ↔
      RowsAccepted env currSeqno lag prev rows
  | [], prev => by simp [parseLaggedDiffs, RowsAccepted]
  | row :: rows, prev => by
    rw [parseLaggedDiffs_cons, parseLaggedRow_eq, RowsAccepted]
    cases laggedRowHead currSeqno lag prev row with
    | error e => simp [bind, Except.bind]
    | ok q =>
      obtain _ | ⟨s, d, row⟩ := q
      · simp only [ok_bind, laggedRowTail, map_none, none_or,
          ← exists_parseLaggedDiffs_iff env currSeqno lag rows prev, bind_eq_ok]
        constructor
        · rintro ⟨_, rest, h, _⟩
          exact ⟨rest, h⟩
        · rintro ⟨rest, h⟩
          exact ⟨_, rest, h, rfl⟩
      simp only [ok_bind, ← and_assoc, ← exists_laggedRowTail_iff env s d row,
        ← exists_parseLaggedDiffs_iff env currSeqno lag rows (some s), bind_eq_ok]
      constructor
      · rintro ⟨_, p, hp, rest, hrest, _⟩
        obtain ⟨d', rfl⟩ := laggedRowTail_eq_ok hp
        exact ⟨⟨_, hp⟩, ⟨rest, hrest⟩⟩
      rintro ⟨⟨p, hp⟩, ⟨rest, hrest⟩⟩
      obtain ⟨d', rfl⟩ := laggedRowTail_eq_ok hp
      exact ⟨_, _, hp, rest, hrest, rfl⟩

lemma parseLaggedDiffs_eq_error_iff (env : Env) {e : Err} (he : e.Escapes) (currSeqno lag : Int) :
    ∀ (rows : List Bt) (prev : Option SeqnoHash),
    parseLaggedDiffs env currSeqno lag prev rows = .error e ↔
      RowsReach env (fun d => loadDiff env none d = .error e) currSeqno lag prev rows
  | [], prev => by simp [parseLaggedDiffs, RowsReach]
  | row :: rows, prev => by
    have hhead := (caught_laggedRowHead currSeqno lag prev row).ne he
    rw [parseLaggedDiffs_cons, parseLaggedRow_eq, RowsReach]
    cases hq : laggedRowHead currSeqno lag prev row with
    | error e' =>
      rw [hq] at hhead
      exact ⟨fun h => hhead (by cases h; rfl), False.elim⟩
    | ok q =>
      obtain _ | ⟨s, d, row⟩ := q
      · simp only [ok_bind, laggedRowTail, map_none, none_or,
          ← parseLaggedDiffs_eq_error_iff env he currSeqno lag rows prev, bind_eq_error]
        simp
      simp only [ok_bind, ← and_assoc, ← exists_laggedRowTail_iff env s d row,
        ← parseLaggedDiffs_eq_error_iff env he currSeqno lag rows (some s),
        ← laggedRowTail_eq_error_iff env he s d row, bind_eq_error]
      constructor
      · rintro (h | ⟨p, hp, h | ⟨_, _, h⟩⟩)
        · exact .inl h
        · obtain ⟨d', rfl⟩ := laggedRowTail_eq_ok hp
          exact .inr ⟨⟨_, hp⟩, h⟩
        · cases h
      rintro (h | ⟨⟨p, hp⟩, h⟩)
      · exact .inl h
      · obtain ⟨d', rfl⟩ := laggedRowTail_eq_ok hp
        exact .inr ⟨_, hp, .inl h⟩

lemma caught_loadUnknowns (env : Env) (closed : Bool) (previous bound : Bytes) :
    ∀ rest unknown : BtDict, Caught (loadUnknowns env closed previous bound unknown rest)
  | [], unknown => by
    rw [loadUnknowns]
    split_ifs <;> simp
  | (key, v) :: rest, unknown => by
    rw [loadUnknowns]
    split_ifs
    · simp
    · split
      · exact caught_loadUnknowns env closed previous bound rest _
      · simp
    · simp

lemma caught_readSeqno (pairs : BtDict) : Caught (readSeqno pairs) := by
  unfold readSeqno
  split
  · split_ifs <;> simp
  · simp

lemma caught_parseElems : ∀ (l : List Bt) (prev : Option Scalar), Caught (parseElems prev l)
  | [], prev => by simp [parseElems]
  | v :: rest, prev => by
    have helem : Caught (parseElems.parseElem v) := by
      unfold parseElems.parseElem
      split
      · split_ifs <;> simp
      · simp
      · simp
    refine helem.bind fun val _ => ?_
    split_ifs
    · simp
    · simp
    · exact (caught_parseElems rest _).bind fun _ _ => caught_ok _

mutual
lemma caught_parseValue : ∀ v : Bt, Caught (parseValue v)
  | .str s => by simp [parseValue]
  | .int i => by
    rw [parseValue]
    split_ifs <;> simp
  | .dict d => by
    rw [parseValue]
    split_ifs
    · simp
    · exact (caught_parseData d none).bind fun _ _ => caught_ok _
  | .list l => by
    rw [parseValue]
    split_ifs
    · simp
    · exact (caught_parseElems l none).bind fun _ _ => caught_ok _

lemma caught_parseData : ∀ (d : BtDict) (prev : Option Bytes), Caught (parseData prev d)
  | [], prev => by simp [parseData]
  | (key, v) :: rest, prev => by
    rw [parseData]
    split_ifs
    · simp
    · exact (caught_parseValue v).bind fun _ _ =>
        (caught_parseData rest _).bind fun _ _ => caught_ok _
end

lemma caught_readData (rest : BtDict) : Caught (readData rest) := by
  unfold readData
  split
  · split_ifs
    · exact (caught_parseData _ none).bind fun _ _ => caught_ok _
    · simp
  · simp

lemma caught_verifyConfigSig (rest : BtDict) (closed : Bool) (verifier : Option Verifier)
    (trustSignature : Bool) :
    Caught (verifyConfigSig env serialized rest closed verifier trustSignature) := by
  unfold verifyConfigSig
  split
  · split_ifs <;> simp
  split
  · split
    · split_ifs <;> simp
    · simp
  · split_ifs <;> simp

lemma diffReach_iff {e : Err} (he : e.Escapes) (closed : Bool) (unknown rest : BtDict) :
    (∃ unknown' rest', loadUnknowns env closed (bytes "<") (bytes "=") unknown rest
        = .ok (unknown', rest') ∧ readDiff env rest' = .error e) ↔
      DiffReach env (fun d => loadDiff env none d = .error e) closed unknown rest := by
  have hoxenc : (.error .oxenc : Except Err (BtDict × BtDict)) ≠ .error e :=
    (caught_error.mpr not_escapes_oxenc).ne he
  have hread : ∀ rest', readDiff env rest' = .error e ↔
      ∃ d tail, rest' = (bytes "=", .dict d) :: tail ∧ loadDiff env none d = .error e := by
    intro rest'
    unfold readDiff
    split
    · simp [hoxenc]
    rename_i key v rest
    by_cases hkey : key = bytes "="
    · subst hkey
      cases v with
      | dict d => simp [bind_eq_error]
      | _ => simp [hoxenc]
    · simp [hkey]
  simp only [hread, DiffReach]
  constructor
  · rintro ⟨unknown', _, h, d, tail, rfl, hd⟩
    exact ⟨unknown', d, tail, h, hd⟩
  · rintro ⟨unknown', d, tail, h, hd⟩
    exact ⟨unknown', _, h, d, tail, rfl, hd⟩

lemma laggedReach_iff {e : Err} (he : e.Escapes) (seqno lag : Int) (closed : Bool)
    (unknown rest : BtDict) : (readLagged env seqno lag rest = .error e ∨
      ∃ lagged rest', readLagged env seqno lag rest = .ok (lagged, rest') ∧
        DiffReach env (fun d => loadDiff env none d = .error e) closed unknown rest') ↔
      LaggedReach env (fun d => loadDiff env none d = .error e) seqno lag closed unknown rest := by
  have hoxenc : (.error .oxenc : Except Err (LaggedDiffs × BtDict)) ≠ .error e :=
    (caught_error.mpr not_escapes_oxenc).ne he
  cases rest with
  | nil => simp [readLagged, LaggedReach, hoxenc]
  | cons p rest =>
    obtain ⟨key, v⟩ := p
    unfold readLagged LaggedReach
    dsimp only
    by_cases hkey : key = bytes "<"
    · rw [if_pos hkey, if_pos hkey]
      cases v with
      | list rows =>
        simp only [bind_eq_error, ← parseLaggedDiffs_eq_error_iff env he,
          ← exists_parseLaggedDiffs_iff, bind_eq_ok]
        constructor
        · rintro ((h | ⟨_, _, h⟩) | ⟨_, _, ⟨l, hl, h⟩, hd⟩)
          · exact .inl h
          · cases h
          · cases h
            exact .inr ⟨⟨_, hl⟩, hd⟩
        rintro (h | ⟨⟨l, hl⟩, hd⟩)
        · exact .inl (.inl h)
        · exact .inr ⟨_, _, ⟨l, hl, rfl⟩, hd⟩
      | _ => simp [hoxenc]
    rw [if_neg hkey, if_neg hkey]
    constructor
    · rintro (h | ⟨_, _, h, hd⟩)
      · cases h
      · cases h
        exact hd
    · exact fun hd => .inr ⟨_, _, rfl, hd⟩

lemma mapError_rethrow_eq_error_iff {x : Except Err ConfigMessage} {e : Err} (he : e.Escapes) :
    x.mapError ConfigMessage.rethrow = .error e ↔ x = .error e := by
  have hsame : rethrow e = e := by cases e <;> first | rfl | exact absurd he (by simp)
  cases x with
  | ok m => simp [Except.mapError]
  | error e' =>
    constructor
    · intro h
      have hrethrow : rethrow e' = e := Except.error.inj h
      subst hrethrow
      cases e' <;> first | rfl | exact absurd he (by simp [rethrow])
    intro h
    cases h
    exact congrArg Except.error hsame

lemma parse_eq_error_iff {e : Err} (he : e.Escapes) {serialized : Bytes}
    (hread : (env.read serialized).isSome ∨ e = .hang) (verifier : Option Verifier)
    (signer : Option Signer) (lag : Int) (trustSignature : Bool) :
    ConfigMessage.parse env serialized verifier signer lag trustSignature = .error e ↔
      MessageReach env (fun d => loadDiff env none d = .error e) serialized lag := by
  unfold parse MessageReach
  cases hr : env.read serialized with
  | none =>
    rw [hr] at hread
    rcases hread with h | rfl
    · cases h
    · simp
  | some p =>
    obtain ⟨pairs, closed⟩ := p
    have hseqno := (caught_readSeqno pairs).ne he
    have hdata := fun rest => (caught_readData rest).ne he
    have hunknowns := fun previous bound rest unknown =>
      (caught_loadUnknowns env closed previous bound rest unknown).ne he
    have hsig := fun rest =>
      (caught_verifyConfigSig env serialized rest closed verifier trustSignature).ne he
    simp only [mapError_rethrow_eq_error_iff he, parsePairs, bind_eq_error,
      Prod.exists, hseqno, hunknowns, hdata, hsig, false_or, reduceCtorEq, and_false, exists_false,
      or_false, diffReach_iff env he, laggedReach_iff env he, some.injEq, Prod.mk.injEq]
    constructor
    · exact fun h => ⟨pairs, closed, ⟨rfl, rfl⟩, h⟩
    · rintro ⟨_, _, ⟨rfl, rfl⟩, h⟩
      exact h

lemma parse_eq_hang_iff (env : Env) (serialized : Bytes) (verifier : Option Verifier)
    (signer : Option Signer) (lag : Int) (trustSignature : Bool) :
    ConfigMessage.parse env serialized verifier signer lag trustSignature = .error .hang ↔
      MessageReach env (StopsAtInt env none) serialized lag := by
  have hdiff : (fun d => loadDiff env none d = .error .hang) = StopsAtInt env none := by
    funext d
    rw [loadDiff_eq_hang_iff]
  rw [parse_eq_error_iff env escapes_hang (.inr rfl), hdiff]

def ParsingHalts (lag : Int) : Prop :=
  ¬MessageReach env (fun d => ∀ fuel, loadDiffLoop env fuel none d = none) serialized lag

lemma loop_forever_eq (env : Env) :
    (fun d => ∀ fuel, loadDiffLoop env fuel none d = none) = StopsAtInt env none := by
  funext d
  rw [loadDiffLoop_eq_none_iff, loadDiff_eq_hang_iff]

def intInDiff : Bytes := messageBytes 1 [] [] [(bytes "a", .int 1)]

/-- A message with an integer two levels down in a lagged diff. -/
def intInLagged : Bytes :=
  messageBytes 1 [] [(⟨0, hashOfNat 0⟩, [(bytes "a", .dict [(bytes "b", .int 1)])])] []

def hangs : Bool :=
  match ConfigMessage.parse env serialized none none 5 false with
  | .error .hang => true
  | _ => false

end Bchat.Config
