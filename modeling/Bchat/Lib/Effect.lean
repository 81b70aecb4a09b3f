import Mathlib

/-!
# Programs with effects

Programs that change a state, log what they do and can fail. What was changed or logged before a
failure stays: `Prog` is `ExceptT` over `StateM`, not the other way round.

* `Emits x r es` — `x` has the result `r` and logs `es` in every state, which it leaves as it is
-/

namespace Effect

structure World (σ ω : Type) where
  state : σ
  log : List ω

abbrev Prog (σ ω ε : Type) := ExceptT ε (StateM (World σ ω))

variable {σ ω ε α β : Type}

/-- The result, and the world afterwards. -/
def exec (x : Prog σ ω ε α) (w : World σ ω) : Except ε α × World σ ω := x.run.run w

/-- A computation without effects. -/
def lift (r : Except ε α) : Prog σ ω ε α := ExceptT.mk (pure r)

def note (e : ω) : Prog σ ω ε Unit := modify fun w => { w with log := w.log ++ [e] }

def readState : Prog σ ω ε σ := do return (← get).state

def update (f : σ → σ) : Prog σ ω ε Unit := modify fun w => { w with state := f w.state }

/-! ## Running -/

@[simp] lemma exec_lift (r : Except ε α) (w : World σ ω) :
    exec (lift r : Prog σ ω ε α) w = (r, w) := rfl

@[simp] lemma exec_readState (w : World σ ω) :
    exec (readState : Prog σ ω ε σ) w = (.ok w.state, w) := rfl

lemma exec_bind (x : Prog σ ω ε α) (f : α → Prog σ ω ε β) (w : World σ ω) :
    exec (x >>= f) w = match exec x w with
      | (.ok a, w') => exec (f a) w'
      | (.error e, w') => (.error e, w') := by
  show (ExceptT.bindCont (fun a => f a) (exec x w).1).run (exec x w).2 = _
  cases exec x w with
  | mk r w' => cases r <;> rfl

lemma exec_bind_ok {x : Prog σ ω ε α} {f : α → Prog σ ω ε β} {w w' : World σ ω} {a : α}
    (h : exec x w = (.ok a, w')) : exec (x >>= f) w = exec (f a) w' := by
  rw [exec_bind, h]

lemma exec_bind_error {x : Prog σ ω ε α} {f : α → Prog σ ω ε β} {w w' : World σ ω} {e : ε}
    (h : exec x w = (.error e, w')) : exec (x >>= f) w = (.error e, w') := by
  rw [exec_bind, h]

/-! ## Programs that only log -/

/-- The result does not depend on the state, and only the log changes. -/
def Emits (x : Prog σ ω ε α) (r : Except ε α) (es : List ω) : Prop :=
  ∀ w, exec x w = (r, { w with log := w.log ++ es })

lemma emits_lift (r : Except ε α) : Emits (lift r : Prog σ ω ε α) r [] := by
  intro w
  rw [exec_lift, List.append_nil]

lemma emits_note (e : ω) : Emits (note e : Prog σ ω ε Unit) (.ok ()) [e] := fun _ => rfl

lemma Emits.bind_ok {x : Prog σ ω ε α} {f : α → Prog σ ω ε β} {a : α} {r : Except ε β}
    {es es' : List ω} (hx : Emits x (.ok a) es) (hf : Emits (f a) r es') :
    Emits (x >>= f) r (es ++ es') := by
  intro w
  rw [exec_bind_ok (hx w), hf, List.append_assoc]

lemma Emits.bind_error {x : Prog σ ω ε α} {f : α → Prog σ ω ε β} {e : ε} {es : List ω}
    (hx : Emits x (.error e) es) : Emits (x >>= f) (.error e) es :=
  fun w => exec_bind_error (hx w)

/-- A program that only logs entries with a property, and computes `r`. -/
def EmitsOnly (P : ω → Prop) (x : Prog σ ω ε α) (r : Except ε α) : Prop :=
  ∃ es, Emits x r es ∧ ∀ e ∈ es, P e

lemma EmitsOnly.lift (P : ω → Prop) (r : Except ε α) : EmitsOnly P (lift r : Prog σ ω ε α) r :=
  ⟨[], emits_lift r, by simp⟩

lemma EmitsOnly.bind {P : ω → Prop} {x : Prog σ ω ε α} {f : α → Prog σ ω ε β} {r : Except ε α}
    {g : α → Except ε β} (hx : EmitsOnly P x r) (hf : ∀ a, r = .ok a → EmitsOnly P (f a) (g a)) :
    EmitsOnly P (x >>= f) (r >>= g) := by
  obtain ⟨es, hes, hP⟩ := hx
  cases r with
  | error e => exact ⟨es, hes.bind_error, hP⟩
  | ok a =>
    obtain ⟨es', hes', hP'⟩ := hf a rfl
    refine ⟨es ++ es', hes.bind_ok hes', fun e he => ?_⟩
    rcases List.mem_append.mp he with he | he
    · exact hP e he
    · exact hP' e he

lemma EmitsOnly.note_bind {P : ω → Prop} {e : ω} {f : Unit → Prog σ ω ε α} {r : Except ε α}
    (he : P e) (hf : EmitsOnly P (f ()) r) : EmitsOnly P (note e >>= f) r := by
  obtain ⟨es, hes, hP⟩ := hf
  exact ⟨[e] ++ es, (emits_note e).bind_ok hes, by simpa using ⟨he, hP⟩⟩

/-- A program that logs this entry, whatever the state is. -/
def Logs (e : ω) (x : Prog σ ω ε α) : Prop := ∃ r es, Emits x r es ∧ e ∈ es

lemma Logs.after {e : ω} {x : Prog σ ω ε α} {f : α → Prog σ ω ε β} {a : α} {es : List ω}
    (hf : Logs e (f a)) (hx : Emits x (.ok a) es) : Logs e (x >>= f) := by
  obtain ⟨r, es', hes, he⟩ := hf
  exact ⟨r, es ++ es', hx.bind_ok hes, List.mem_append_right _ he⟩

lemma Logs.lift_bind {e : ω} {r : Except ε α} {f : α → Prog σ ω ε β} {a : α} (hr : r = .ok a)
    (hf : Logs e (f a)) : Logs e (lift r >>= f) := by
  subst hr
  exact hf.after (emits_lift _)

lemma Logs.before {e : ω} {x : Prog σ ω ε α} {f : α → Prog σ ω ε β} (hx : Logs e x)
    (hf : ∀ a, ∃ r es, Emits (f a) r es) : Logs e (x >>= f) := by
  obtain ⟨r, es, hes, he⟩ := hx
  cases r with
  | error e' => exact ⟨_, es, hes.bind_error, he⟩
  | ok a =>
    obtain ⟨r', es', hes'⟩ := hf a
    exact ⟨r', es ++ es', hes.bind_ok hes', List.mem_append_left _ he⟩

end Effect
