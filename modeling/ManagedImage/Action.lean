/-!
# Actions on a state

An action reads and changes a state and ends with a value or an error.  What it
changed before an error stays changed.

## Main definitions

* `Action σ ε α` — an action on `σ` that fails with an `ε` or gives an `α`.
* `Cell σ α` — a part of a state that can be read and replaced.

## Main results

* `Action.runOn_bind` — what two actions one after the other do.
-/

namespace ManagedImage

/-- An action on a state that is kept through errors. -/
abbrev Action (σ ε α : Type) := ExceptT ε (StateM σ) α

namespace Action

variable {σ ε α β : Type}

/-- Runs the action from a state. -/
def runOn (a : Action σ ε α) (s : σ) : Except ε α × σ := a s

/-- Changes the state and succeeds. -/
def change (f : σ → σ) : Action σ ε Unit := fun s => (.ok (), f s)

/-- Reads from the state. -/
def ask (f : σ → α) : Action σ ε α := fun s => (.ok (f s), s)

/-- Runs an action, and takes something back where it fails. -/
def orUndo (a : Action σ ε α) (undo : σ → σ) : Action σ ε α := fun s =>
  match a s with
  | (.ok value, s') => (.ok value, s')
  | (.error e, s') => (.error e, undo s')

/-- Ends with a result that is known. -/
def ofExcept (r : Except ε α) : Action σ ε α := fun s => (r, s)

@[simp] theorem runOn_change (f : σ → σ) (s : σ) :
    (change f : Action σ ε Unit).runOn s = (.ok (), f s) := rfl

@[simp] theorem runOn_ask (f : σ → α) (s : σ) :
    (ask f : Action σ ε α).runOn s = (.ok (f s), s) := rfl

@[simp] theorem runOn_ofExcept (r : Except ε α) (s : σ) :
    (ofExcept r : Action σ ε α).runOn s = (r, s) := rfl

@[simp] theorem runOn_pure (value : α) (s : σ) :
    (pure value : Action σ ε α).runOn s = (.ok value, s) := rfl

@[simp] theorem runOn_throw (e : ε) (s : σ) :
    (throw e : Action σ ε α).runOn s = (.error e, s) := rfl

@[simp] theorem runOn_get (s : σ) : (get : Action σ ε σ).runOn s = (.ok s, s) := rfl

/-- The second action runs in the state that the first one left, unless that failed. -/
theorem runOn_bind (a : Action σ ε α) (f : α → Action σ ε β) (s : σ) :
    (a >>= f).runOn s =
      match a.runOn s with
      | (.ok value, s') => (f value).runOn s'
      | (.error e, s') => (.error e, s') := by
  simp only [runOn, bind, ExceptT.bind, ExceptT.mk, StateT.bind]
  rcases a s with ⟨_ | _, _⟩ <;> rfl

theorem runOn_bind_ok {a : Action σ ε α} {f : α → Action σ ε β} {s s' : σ} {value : α}
    (h : a.runOn s = (.ok value, s')) : (a >>= f).runOn s = (f value).runOn s' := by
  rw [runOn_bind, h]

theorem runOn_bind_error {a : Action σ ε α} {f : α → Action σ ε β} {s s' : σ} {e : ε}
    (h : a.runOn s = (.error e, s')) : (a >>= f).runOn s = (.error e, s') := by
  rw [runOn_bind, h]

/-- Nothing is taken back after an action that succeeds. -/
theorem runOn_orUndo_ok {a : Action σ ε α} {undo : σ → σ} {s s' : σ} {value : α}
    (h : a.runOn s = (.ok value, s')) : (a.orUndo undo).runOn s = (.ok value, s') := by
  unfold runOn at h ⊢
  unfold orUndo
  rw [h]

end Action

/-- A part of a state. -/
structure Cell (σ α : Type) where
  /-- Reads the part. -/
  get : σ → α
  /-- Replaces the part. -/
  set : α → σ → σ

end ManagedImage
