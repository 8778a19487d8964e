import ManagedImage.Graph.Nesting

/-!
# Walks over the types of a module

A walk visits the top-level types of a module in order, and after each type the
types nested in it.  It is taken step by step, and what changes in the graph
between two steps may change where the walk goes on.  A walk that gets too deep
ends with an error, as it would never end where nesting is cyclic.

## Main definitions

* `Traversal` — a walk that has been started.
* `Traversal.start`, `Traversal.next` — the first and each further step.
* `Traversal.take` — the next few types.
-/

namespace ManagedImage

/-- A walk over types. -/
structure Traversal where
  /-- The types that are still to be visited, the next first, each with its depth. -/
  pending : List (Ref .typeDef × Nat)
  /-- The greatest depth that may be visited. -/
  limit : Nat
  /-- An error that has occurred and is still to be told. -/
  error? : Option Error

namespace Traversal

/-- A walk over the types of a module. -/
def start (module : Ref .module) : StateM Graph Traversal := do
  let limit := (((← get).entity? module).map (·.maxDepth)).getD 0
  match ← (Attribute.Module.topLevelTypes.read module).run with
  | .ok types => return ⟨types.map fun type => (type, 0), limit, none⟩
  | .error e => return ⟨[], limit, some e⟩

/-- The next type or error, if there is one, and the rest of the walk. -/
def next (walk : Traversal) :
    StateM Graph (Option (Except Error (Ref .typeDef)) × Traversal) := do
  match walk.error?, walk.pending with
  | some e, _ => return (some (.error e), { walk with pending := [], error? := none })
  | none, [] => return (none, walk)
  | none, (type, depth) :: pending =>
    if walk.limit < depth then
      return (some (.error (.recursionLimit walk.limit)), { walk with pending := [] })
    else
      match ← (Graph.nestedTypes type).run with
      | .ok types =>
        let inner := types.map fun type => (type, depth + 1)
        return (some (.ok type), { walk with pending := inner ++ pending })
      | .error e => return (some (.ok type), { walk with pending, error? := some e })

/-- The next types, at most `n`, up to the end of the walk or to an error. -/
def take : (n : Nat) → Traversal → StateM Graph (List (Except Error (Ref .typeDef)))
  | 0, _ => return []
  | n + 1, walk => do
    match ← walk.next with
    | (none, _) => return []
    | (some (.error e), _) => return [.error e]
    | (some (.ok type), rest) => return .ok type :: (← take n rest)

/-- The types that a walk holds on to. -/
def held (walk : Traversal) : List AnyRef := walk.pending.map fun p => p.1.any

end Traversal

end ManagedImage
