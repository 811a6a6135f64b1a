import Linkage.Event

/-!
# Actions

An action works on a state. Its report holds the outcome, the state afterwards and the events on the
way. An action that fails keeps what it had changed by then.

`bind_apply` and the lemmas after it compute the report of a composed action from the reports of its
parts.
-/

namespace Linkage

structure Report (K σ α : Type) where
  outcome : Except (Failure K) α
  state : σ
  events : List (Event K)

def Act (K σ α : Type) := σ → Report K σ α

namespace Act

variable {K σ τ α β : Type}

protected def pure (a : α) : Act K σ α := fun s => ⟨.ok a, s, []⟩

protected def bind (x : Act K σ α) (f : α → Act K σ β) : Act K σ β := fun s =>
  let r := x s
  match r.outcome with
  | .error e => ⟨.error e, r.state, r.events⟩
  | .ok a =>
    let r' := f a r.state
    ⟨r'.outcome, r'.state, r.events ++ r'.events⟩

instance : Monad (Act K σ) where
  pure := Act.pure
  bind := Act.bind

def fail (e : Failure K) : Act K σ α := fun s => ⟨.error e, s, []⟩

def report (e : Event K) : Act K σ Unit := fun s => ⟨.ok (), s, [e]⟩

def read : Act K σ σ := fun s => ⟨.ok s, s, []⟩

def change (f : σ → σ) : Act K σ Unit := fun s => ⟨.ok (), f s, []⟩

/-- A result that was found without the state. -/
def ofExcept (r : Except (Failure K) α) : Act K σ α := fun s => ⟨r, s, []⟩

def onPart (part : τ → σ) (put : σ → τ → τ) (x : Act K σ α) : Act K τ α := fun t =>
  let r := x (part t)
  ⟨r.outcome, put r.state t, r.events⟩

/-- An action for each item, in order, up to the first failure. -/
def forEach (f : β → Act K σ Unit) : List β → Act K σ Unit
  | [] => Act.pure ()
  | b :: bs => Act.bind (f b) fun _ => forEach f bs

/-- An action `n` times, up to the first failure; `events` are those reported before. -/
def timesFrom (x : Act K σ Unit) : (n : Nat) → σ → (events : List (Event K)) → Report K σ Unit
  | 0, s, events => ⟨.ok (), s, events⟩
  | n + 1, s, events =>
    let r := x s
    match r.outcome with
    | .error e => ⟨.error e, r.state, events ++ r.events⟩
    | .ok () => timesFrom x n r.state (events ++ r.events)

def times (n : Nat) (x : Act K σ Unit) : Act K σ Unit := fun s => timesFrom x n s []

section

variable {s : σ} {x : Act K σ α} {f : α → Act K σ β}

@[simp] theorem pure_apply (a : α) : (pure a : Act K σ α) s = ⟨.ok a, s, []⟩ := rfl

theorem bind_apply : (x >>= f) s = match (x s).outcome with
    | .error e => ⟨.error e, (x s).state, (x s).events⟩
    | .ok a => ⟨(f a (x s).state).outcome, (f a (x s).state).state,
        (x s).events ++ (f a (x s).state).events⟩ := rfl

theorem bind_apply_ok {a : α} (h : (x s).outcome = .ok a) :
    (x >>= f) s = ⟨(f a (x s).state).outcome, (f a (x s).state).state,
      (x s).events ++ (f a (x s).state).events⟩ := by
  simp [bind_apply, h]

theorem bind_apply_error {e : Failure K} (h : (x s).outcome = .error e) :
    (x >>= f) s = ⟨.error e, (x s).state, (x s).events⟩ := by
  simp [bind_apply, h]

@[simp] theorem fail_apply (e : Failure K) : (fail e : Act K σ α) s = ⟨.error e, s, []⟩ := rfl

@[simp] theorem report_apply (e : Event K) : (report e : Act K σ Unit) s = ⟨.ok (), s, [e]⟩ := rfl

@[simp] theorem read_apply : (read : Act K σ σ) s = ⟨.ok s, s, []⟩ := rfl

@[simp] theorem change_apply (g : σ → σ) : (change g : Act K σ Unit) s = ⟨.ok (), g s, []⟩ := rfl

@[simp] theorem ofExcept_apply (r : Except (Failure K) α) :
    (ofExcept r : Act K σ α) s = ⟨r, s, []⟩ := rfl

@[simp] theorem forEach_nil (g : β → Act K σ Unit) : forEach g [] = pure () := rfl

@[simp] theorem forEach_cons (g : β → Act K σ Unit) (b : β) (bs : List β) :
    forEach g (b :: bs) = (do g b; forEach g bs) := rfl

end

section

variable {s : σ} {x : Act K σ Unit} {n : Nat}

theorem timesFrom_append (es es' : List (Event K)) :
    timesFrom x n s (es ++ es') =
      ⟨(timesFrom x n s es').outcome, (timesFrom x n s es').state,
        es ++ (timesFrom x n s es').events⟩ := by
  induction n generalizing s es' with
  | zero => rfl
  | succ n ih =>
    simp only [timesFrom]
    split
    · simp
    · rw [List.append_assoc, ih]

@[simp] theorem times_zero : times 0 x = pure () := rfl

theorem times_succ : times (n + 1) x = (do x; times n x) := by
  funext s
  cases h : (x s).outcome with
  | error e => simp [bind_apply, times, timesFrom, h]
  | ok _ =>
    have := timesFrom_append (x := x) (n := n) (s := (x s).state) (x s).events []
    simpa [bind_apply, times, timesFrom, h] using this

end

end Act

end Linkage
