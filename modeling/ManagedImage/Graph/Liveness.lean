import ManagedImage.Graph.Basic
import Std.Data.HashSet

/-!
# Which entities stay

An entity stays as long as something holds it: the image holds the entities of
its rows, lists hold their members, a nesting record holds the type that it
nests, and whoever uses the graph may hold entities too.  Back-pointers and
other references hold nothing.  Entities that hold each other in a circle stay.

## Main definitions

* `Graph.heldEntities` — everything that is held.
* `Graph.sweep` — lets go of what is not held, until all that is left is held.
-/

namespace ManagedImage

namespace Graph

/-- The entities that are held from outside or by an entity that exists. -/
def heldEntities (g : Graph) (outside : List AnyRef) : Std.HashSet AnyRef :=
  g.entities.fold (fun found r contents => found.insertMany (r.kind.held contents))
    (Std.HashSet.ofList outside)

/-- The image holds the entity. -/
def heldByImage (g : Graph) (r : AnyRef) : Bool := g.image?.isSome && r.id.isRow

/-- The entities that are held at this moment. -/
def keepHeld (g : Graph) (outside : List AnyRef) : Graph :=
  let found := g.heldEntities outside
  { g with entities := g.entities.filter fun r _ => g.heldByImage r || found.contains r }

/-- Lets go of entities that are not held, and of what only they held, and so on. -/
def sweep (g : Graph) (outside : List AnyRef) : Graph :=
  let kept := g.keepHeld outside
  if kept.entities.size < g.entities.size then sweep kept outside else g
termination_by g.entities.size

/-- Nothing can be let go: the image holds every entity. -/
def isSettled (g : Graph) : Bool := g.image?.isSome && g.nextNumber == 0

end Graph

end ManagedImage
