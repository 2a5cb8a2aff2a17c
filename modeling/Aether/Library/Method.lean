import Aether.Library.Octets

/-! Methods: programs on a mutable receiver that may stop early.

`Method ε σ α` is a method of an object with state `σ` that returns an `α`, reports
an error or is aborted. A method that stops keeps the writes it has made so far:
`exec` returns the state in every case. The rules below run one statement at a
time; `exec_bind` is the sequencing rule, a chain of `exec_bind_ok` runs a body
whose statements all succeed, and `exec_bind_eq_ok` and `exec_bind_eq_error` take
a body apart that is known to have succeeded or to have stopped. `Keeps` is an
invariant of a method, `focus` a method of a part of the receiver. -/
namespace Octets

abbrev Method (ε σ α : Type) := ExceptT (Stop ε) (StateM σ) α

namespace Method
variable {ε σ α β : Type}

/-- The result and the state a method leaves. -/
def exec (m : Method ε σ α) (s : σ) : Outcome ε α × σ := m.run.run s

@[simp] theorem exec_pure (a : α) (s : σ) : exec (pure a : Method ε σ α) s = (.ok a, s) := rfl

@[simp] theorem exec_throw (e : Stop ε) (s : σ) :
    exec (throw e : Method ε σ α) s = (.error e, s) := rfl

@[simp] theorem exec_get (s : σ) : exec (get : Method ε σ σ) s = (.ok s, s) := rfl

@[simp] theorem exec_set (s t : σ) : exec (set t : Method ε σ PUnit) s = (.ok ⟨⟩, t) := rfl

@[simp] theorem exec_modify (f : σ → σ) (s : σ) :
    exec (modify f : Method ε σ PUnit) s = (.ok ⟨⟩, f s) := rfl

/-- A computation that does not touch the receiver. -/
@[simp] theorem exec_lift (o : Outcome ε α) (s : σ) :
    exec (liftM o : Method ε σ α) s = (o, s) := rfl

theorem exec_bind (x : Method ε σ α) (f : α → Method ε σ β) (s : σ) :
    exec (x >>= f) s =
      match exec x s with
      | (.ok a, t) => exec (f a) t
      | (.error e, t) => (.error e, t) := by
  simp only [exec, ExceptT.run_bind, StateT.run_bind]
  rcases h : StateT.run (ExceptT.run x) s with ⟨r, t⟩
  cases r <;> rfl

theorem exec_bind_ok {x : Method ε σ α} {f : α → Method ε σ β} {s t : σ} {a : α}
    (h : exec x s = (.ok a, t)) : exec (x >>= f) s = exec (f a) t := by
  rw [exec_bind, h]

theorem exec_bind_error {x : Method ε σ α} {f : α → Method ε σ β} {s t : σ} {e : Stop ε}
    (h : exec x s = (.error e, t)) : exec (x >>= f) s = (.error e, t) := by
  rw [exec_bind, h]

/-- A sequence that succeeds is a first statement that succeeds and a rest that does. -/
theorem exec_bind_eq_ok {x : Method ε σ α} {f : α → Method ε σ β} {s u : σ} {b : β} :
    exec (x >>= f) s = (.ok b, u) ↔
      ∃ a t, exec x s = (.ok a, t) ∧ exec (f a) t = (.ok b, u) := by
  rw [exec_bind]
  rcases exec x s with ⟨r, t⟩
  cases r with
  | ok a =>
    constructor
    · exact fun h => ⟨a, t, rfl, h⟩
    · intro h
      obtain ⟨_, _, hx, h⟩ := h
      cases hx
      exact h
  | error e =>
    constructor
    · intro h
      cases h
    · intro h
      obtain ⟨_, _, hx, _⟩ := h
      cases hx

theorem exec_get_bind (f : σ → Method ε σ β) (s : σ) : exec (get >>= f) s = exec (f s) s :=
  exec_bind_ok (exec_get s)

theorem exec_set_bind (t : σ) (f : PUnit → Method ε σ β) (s : σ) : exec (set t >>= f) s = exec (f ⟨⟩) t :=
  exec_bind_ok (exec_set s t)

theorem exec_modify_bind (g : σ → σ) (f : PUnit → Method ε σ β) (s : σ) :
    exec (modify g >>= f) s = exec (f ⟨⟩) (g s) :=
  exec_bind_ok (exec_modify g s)

theorem exec_bind_pure (x : Method ε σ α) (f : α → β) (s : σ) :
    exec (x >>= fun a => pure (f a)) s = ((exec x s).1.map f, (exec x s).2) := by
  rw [exec_bind]
  rcases exec x s with ⟨r, t⟩
  cases r <;> rfl

/-- `?` on a result the receiver has no part in. -/
theorem exec_lift_bind_eq_ok {o : Outcome ε α} {f : α → Method ε σ β} {s u : σ} {b : β} :
    exec (liftM o >>= f) s = (.ok b, u) ↔ ∃ a, o = .ok a ∧ exec (f a) s = (.ok b, u) := by
  rw [exec_bind, exec_lift]
  cases o with
  | ok a =>
    constructor
    · exact fun h => ⟨a, rfl, h⟩
    · intro h
      obtain ⟨_, ha, h⟩ := h
      cases ha
      exact h
  | error e =>
    constructor
    · intro h
      cases h
    · intro h
      obtain ⟨_, ha, _⟩ := h
      cases ha

/-- A sequence fails where its first statement fails, or later. -/
theorem exec_bind_eq_error {x : Method ε σ α} {f : α → Method ε σ β} {s u : σ} {e : Stop ε} :
    exec (x >>= f) s = (.error e, u) ↔
      exec x s = (.error e, u) ∨ ∃ a t, exec x s = (.ok a, t) ∧ exec (f a) t = (.error e, u) := by
  rw [exec_bind]
  rcases exec x s with ⟨r, t⟩
  cases r with
  | ok a =>
    constructor
    · exact fun h => .inr ⟨a, t, rfl, h⟩
    · intro h
      rcases h with hx | ⟨_, _, hx, h⟩
      · cases hx
      · cases hx
        exact h
  | error e' =>
    constructor
    · intro h
      cases h
      exact .inl rfl
    · intro h
      rcases h with hx | ⟨_, _, hx, _⟩
      · cases hx
        rfl
      · cases hx

/-- A handler runs in the state the error left. -/
theorem exec_tryCatch (x : Method ε σ α) (handler : Stop ε → Method ε σ α) (s : σ) :
    exec (tryCatch x handler) s =
      match exec x s with
      | (.ok a, t) => (.ok a, t)
      | (.error e, t) => exec (handler e) t := by
  simp only [exec, tryCatch, tryCatchThe, MonadExceptOf.tryCatch, ExceptT.tryCatch, ExceptT.run_mk, StateT.run_bind]
  rcases h : StateT.run (ExceptT.run x) s with ⟨r, t⟩
  have hx : StateT.run x s = (r, t) := h
  rw [hx]
  cases r <;> rfl

/-! ### Invariants -/

/-- The method keeps the property, whether it returns or stops. -/
def Keeps (I : σ → Prop) (m : Method ε σ α) : Prop := ∀ s, I s → I (exec m s).2

theorem keeps_pure {I : σ → Prop} (a : α) : Keeps I (pure a : Method ε σ α) := fun _ h => h

theorem keeps_get {I : σ → Prop} : Keeps I (get : Method ε σ σ) := fun _ h => h

theorem keeps_bind {I : σ → Prop} {x : Method ε σ α} {f : α → Method ε σ β} (hx : Keeps I x)
    (hf : ∀ a, Keeps I (f a)) : Keeps I (x >>= f) := by
  intro s h
  have hs := hx s h
  rw [exec_bind]
  rcases hexec : exec x s with ⟨r, t⟩
  rw [hexec] at hs
  cases r with
  | ok a => exact hf a t hs
  | error e => exact hs

/-! ### Methods of a part -/

/-- A method of the part that `view` shows and `put` writes back. -/
def focus {τ : Type} (view : σ → τ) (put : τ → σ → σ) (m : Method ε τ α) : Method ε σ α :=
  ExceptT.mk fun s => ((exec m (view s)).1, put (exec m (view s)).2 s)

theorem exec_focus {τ : Type} (view : σ → τ) (put : τ → σ → σ) (m : Method ε τ α) (s : σ) :
    exec (focus view put m) s = ((exec m (view s)).1, put (exec m (view s)).2 s) := rfl

theorem exec_focus_bind_eq_ok {τ : Type} {view : σ → τ} {put : τ → σ → σ} {m : Method ε τ α} {f : α → Method ε σ β}
    {s u : σ} {b : β} :
    exec (focus view put m >>= f) s = (.ok b, u) ↔
      ∃ a t, exec m (view s) = (.ok a, t) ∧ exec (f a) (put t s) = (.ok b, u) := by
  rw [exec_bind_eq_ok, exec_focus]
  constructor
  · intro h
    obtain ⟨a, t, hm, h⟩ := h
    obtain ⟨hresult, rfl⟩ := Prod.mk.inj hm
    exact ⟨a, _, Prod.ext hresult rfl, h⟩
  · intro h
    obtain ⟨a, t, hm, h⟩ := h
    rw [hm]
    exact ⟨a, _, rfl, h⟩

end Method

end Octets
