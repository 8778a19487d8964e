import ManagedImage.Deferred

/-!
# Owners and members

An owner lists its members, and each member points back at its owner.  Both
sides may be deferred.  All changes go through the operations here, which keep
the two sides in step even where a step fails.

## Main definitions

* `Ownership σ ε O M` — how a state `σ` holds the lists of the `O` and the back-pointers of the `M`.
* `Ownership.attach` — moves a member to an owner.
* `Ownership.remove`, `Ownership.detach` — takes a member out.
-/

namespace ManagedImage

/-- The two sides of an owner-member relation in a state. -/
structure Ownership (σ ε O M : Type) where
  /-- The owner exists. -/
  isAlive : O → σ → Bool
  /-- The members of an owner, loaded if needed. -/
  items : O → Action σ ε (List M)
  /-- Replaces the list of an owner. -/
  putItems : O → List M → σ → σ
  /-- The living owner of a member, loaded if needed. -/
  owner : M → Action σ ε (Option O)
  /-- Replaces the back-pointer of a member. -/
  putOwner : M → Option O → σ → σ
  /-- Called after the back-pointer of a member has changed. -/
  ownerChanged : M → Option O → Action σ ε Unit
  /-- The error for an owner that does not exist. -/
  ownerGone : ε

namespace Ownership

variable {σ ε O M : Type}

/-- The number of members. -/
def length (own : Ownership σ ε O M) (o : O) : Action σ ε Nat := do
  return (← own.items o).length

section Identity

variable [DecidableEq O] [DecidableEq M]

/-- The member is in the list of the owner. -/
def contains (own : Ownership σ ε O M) (o : O) (m : M) : Action σ ε Bool := do
  return decide (m ∈ (← own.items o))

/-- Adds the member at the end of the list, unless it is in it. -/
def insert (own : Ownership σ ε O M) (o : O) (m : M) : Action σ ε Unit := do
  let items ← own.items o
  if m ∉ items then
    Action.change (own.putItems o (items ++ [m]))

/-- Takes the member out of the list and says whether it was in it. -/
def take (own : Ownership σ ε O M) (o : O) (m : M) : Action σ ε Bool := do
  let items ← own.items o
  if m ∈ items then
    Action.change (own.putItems o (items.filter (· ≠ m)))
    return true
  else
    return false

/-- Takes the member out of the list and clears its back-pointer; false if it was not in the
list. -/
def remove (own : Ownership σ ε O M) (o : O) (m : M) : Action σ ε Bool := do
  if ← own.take o m then
    Action.change (own.putOwner m none)
    own.ownerChanged m none
    return true
  else
    return false

/-- Takes the member from its owner; false if it has none. -/
def detach (own : Ownership σ ε O M) (m : M) : Action σ ε Bool := do
  match ← own.owner m with
  | some o => own.remove o m
  | none => return false

/-- Moves the member to the end of the list of `o`.  Everything that may have to be loaded is loaded
before the first change, and `before` may still refuse; a member that has the owner already stays
where it is. -/
def attach (own : Ownership σ ε O M) (before : M → O → Action σ ε Unit) (o : O) (m : M) :
    Action σ ε Unit := do
  unless own.isAlive o (← get) do
    throw own.ownerGone
  let _ ← own.items o
  match ← own.owner m with
  | some current =>
    if current = o then
      own.insert o m
    else
      let _ ← own.items current
      before m o
      let _ ← own.take current m
      Action.change (own.putOwner m (some o))
      own.insert o m
      own.ownerChanged m (some o)
  | none =>
    before m o
    Action.change (own.putOwner m (some o))
    own.insert o m
    own.ownerChanged m (some o)

end Identity

/-- A text that shows the length of a list if the list has been loaded. -/
def describeItems (items : Deferred (List M)) : String :=
  match items with
  | .unevaluated => "OwnedCollection \x7b len: \"<unevaluated>\" \x7d"
  | .evaluated items => "OwnedCollection \x7b len: " ++ toString items.length ++ " \x7d"

end Ownership

end ManagedImage
