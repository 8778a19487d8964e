import ManagedImage.Action

/-!
# Deferred values

A deferred value is either there or still to be loaded.  Reading it loads it at
most once; writing it makes loading pointless.  A load that fails leaves the
value where it was, so that the next read tries again.

## Main definitions

* `Deferred α` — a value of type `α`, there or still to be loaded.
* `Deferred.force` — reads a deferred part of a state, loading it if needed.
* `CountedDeferred` — a deferred value whose loads are counted.

## Main results

* `Deferred.runOn_force`, `Deferred.runOn_update` — what reading and updating do.
-/

namespace ManagedImage

/-- A value that may still have to be loaded. -/
inductive Deferred (α : Type) where
  /-- The value has not been loaded. -/
  | unevaluated
  /-- The value is there. -/
  | evaluated (value : α)
  deriving DecidableEq, Repr

namespace Deferred

variable {σ ε α : Type}

instance : Inhabited (Deferred α) := ⟨unevaluated⟩

/-- The value, if it is there. -/
def peek? : Deferred α → Option α
  | unevaluated => none
  | evaluated value => some value

/-- The value is there. -/
def isEvaluated (d : Deferred α) : Bool := d.peek?.isSome

/-- A text that shows the value if it is there. -/
def describe (text : α → String) : Deferred α → String
  | unevaluated => "Deferred(<unevaluated>)"
  | evaluated value => "Deferred(" ++ text value ++ ")"

/-- Reads a deferred part of the state.  If the value is not there, `load` must give it, and it is
kept. -/
def force (cell : Cell σ (Deferred α)) (load : Action σ ε α) : Action σ ε α := do
  match cell.get (← get) with
  | evaluated value => pure value
  | unevaluated =>
    let value ← load
    Action.change (cell.set (evaluated value))
    pure value

/-- Replaces the value by its image under `f`, loading it first if needed, and gives the new
value. -/
def update (cell : Cell σ (Deferred α)) (load : Action σ ε α) (f : α → α) : Action σ ε α := do
  let value ← force cell load
  Action.change (cell.set (evaluated (f value)))
  pure (f value)

@[simp] theorem peek?_unevaluated : (unevaluated : Deferred α).peek? = none := rfl

@[simp] theorem peek?_evaluated (value : α) : (evaluated value).peek? = some value := rfl

/-- Reading loads a value that is not there, and keeps it if the load succeeds. -/
theorem runOn_force (cell : Cell σ (Deferred α)) (load : Action σ ε α) (s : σ) :
    (force cell load).runOn s =
      match cell.get s with
      | evaluated value => (.ok value, s)
      | unevaluated =>
        match load.runOn s with
        | (.ok value, s') => (.ok value, cell.set (evaluated value) s')
        | (.error e, s') => (.error e, s') := by
  rw [force, Action.runOn_bind, Action.runOn_get]
  dsimp only
  cases cell.get s with
  | evaluated value => rfl
  | unevaluated =>
    rw [Action.runOn_bind]
    rcases load.runOn s with ⟨_ | _, _⟩ <;> rfl

/-- Updating reads the value, and replaces it if that succeeds. -/
theorem runOn_update (cell : Cell σ (Deferred α)) (load : Action σ ε α) (f : α → α) (s : σ) :
    (update cell load f).runOn s =
      match (force cell load).runOn s with
      | (.ok value, s') => (.ok (f value), cell.set (evaluated (f value)) s')
      | (.error e, s') => (.error e, s') := by
  rw [update, Action.runOn_bind]
  rcases (force cell load).runOn s with ⟨_ | _, _⟩ <;> rfl

end Deferred

/-- A deferred value whose loader is known by its outcomes, with a count of the loads. -/
structure CountedDeferred (ε α : Type) where
  /-- The value. -/
  value : Deferred α
  /-- The outcome of each load, counted from 0. -/
  outcome : Nat → Except ε α
  /-- How many loads have been run. -/
  loads : Nat

namespace CountedDeferred

variable {ε α : Type}

/-- A value that is there. -/
def ofValue [Inhabited α] (value : α) : CountedDeferred ε α :=
  ⟨.evaluated value, fun _ => .ok value, 0⟩

/-- A value that still has to be loaded. -/
def ofOutcomes (outcome : Nat → Except ε α) : CountedDeferred ε α := ⟨.unevaluated, outcome, 0⟩

/-- The part that holds the value. -/
def cell : Cell (CountedDeferred ε α) (Deferred α) := ⟨value, fun v d => { d with value := v }⟩

/-- Runs the loader once. -/
def load : Action (CountedDeferred ε α) ε α := do
  let d ← get
  Action.change fun d => { d with loads := d.loads + 1 }
  Action.ofExcept (d.outcome d.loads)

/-- Reads the value. -/
def get : Action (CountedDeferred ε α) ε α := Deferred.force cell load

/-- Replaces the value. -/
def set (value : α) : Action (CountedDeferred ε α) ε Unit :=
  Action.change (cell.set (.evaluated value))

/-- Replaces the value by its image under `f`. -/
def update (f : α → α) : Action (CountedDeferred ε α) ε α := Deferred.update cell load f

end CountedDeferred

end ManagedImage
