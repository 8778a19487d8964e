import ManagedImage.Error
import ManagedImage.Ownership.Basic

/-!
# Scenarios of owners and members

A finite model of the owner-member relation: owners and members are numbered,
lists and back-pointers may still have to be loaded, loaders and hooks follow a
script of failures, and everything that runs is logged.

## Main definitions

* `Script` — the failures of the next runs of a loader or hook.
* `Scenario` — the owners and members with the log.
* `Scenario.ownership` — the relation between them.
-/

namespace ManagedImage

/-- The outcomes of the next runs, a failure or none.  A used-up script does not fail. -/
abbrev Script := List (Option Error)

/-- Fails `count` times with the same error. -/
def Script.failing (count : Nat) (e : Error) : Script := List.replicate count (some e)

namespace Scenario

/-- An owner. -/
structure Owner where
  /-- The owner exists. -/
  alive : Bool
  /-- Its members. -/
  items : Deferred (List Nat)
  /-- What loading its members gives. -/
  stored : List Nat
  /-- The failures of that loader. -/
  script : Script

/-- A member. -/
structure Member where
  /-- Its owner. -/
  owner : Deferred (Option Nat)
  /-- What loading its owner gives. -/
  stored : Option Nat
  /-- The failures of that loader. -/
  script : Script
  /-- The failures of the hook that runs before an attach. -/
  beforeScript : Script
  /-- The failures of the hook that runs after a change. -/
  changedScript : Script

/-- Something that ran. -/
inductive Event where
  /-- The members of an owner were to be loaded. -/
  | items (owner : Nat)
  /-- The owner of a member was to be loaded. -/
  | owner (member : Nat)
  /-- A member was about to join an owner. -/
  | before (member owner : Nat)
  /-- The back-pointer of a member had changed. -/
  | changed (member : Nat) (owner : Option Nat)
  deriving DecidableEq, Repr

/-- A text for what ran. -/
def Event.describe : Event → String
  | items o => "items f" ++ toString o
  | owner m => "owner d" ++ toString m
  | before m o => "before d" ++ toString m ++ " f" ++ toString o
  | changed m none => "changed d" ++ toString m ++ " none"
  | changed m (some o) => "changed d" ++ toString m ++ " f" ++ toString o

end Scenario

/-- Numbered owners and members. -/
structure Scenario where
  /-- The owners. -/
  owners : Array Scenario.Owner
  /-- The members. -/
  members : Array Scenario.Member
  /-- What ran, in order. -/
  log : Array Scenario.Event

namespace Scenario

/-- The owner with number `o`. -/
def owner? (s : Scenario) (o : Nat) : Option Owner := s.owners[o]?

/-- The member with number `m`. -/
def member? (s : Scenario) (m : Nat) : Option Member := s.members[m]?

/-- The owner exists. -/
def isAlive (s : Scenario) (o : Nat) : Bool := (s.owner? o).any (·.alive)

/-- Changes an owner. -/
def modifyOwner (o : Nat) (f : Owner → Owner) (s : Scenario) : Scenario :=
  { s with owners := s.owners.modify o f }

/-- Changes a member. -/
def modifyMember (m : Nat) (f : Member → Member) (s : Scenario) : Scenario :=
  { s with members := s.members.modify m f }

/-- Adds to the log. -/
def record (e : Event) : Action Scenario Error Unit :=
  Action.change fun s => { s with log := s.log.push e }

/-- Ends with the failure at the head of a script, if there is one. -/
def follow (script : Script) : Action Scenario Error Unit :=
  match script with
  | some e :: _ => throw e
  | _ => pure ()

/-- The list of an owner as a part of the scenario. -/
def itemsCell (o : Nat) : Cell Scenario (Deferred (List Nat)) where
  get s := ((s.owner? o).map (·.items)).getD (.evaluated [])
  set items := modifyOwner o fun owner => { owner with items }

/-- The back-pointer of a member as a part of the scenario. -/
def ownerCell (m : Nat) : Cell Scenario (Deferred (Option Nat)) where
  get s := ((s.member? m).map (·.owner)).getD (.evaluated none)
  set owner := modifyMember m fun member => { member with owner }

/-- Loads the members of an owner, as far as they exist. -/
def loadItems (o : Nat) : Action Scenario Error (List Nat) := do
  record (.items o)
  match (← get).owner? o with
  | none => pure []
  | some owner =>
    Action.change (modifyOwner o fun owner => { owner with script := owner.script.tail })
    follow owner.script
    return owner.stored.filter (· < (← get).members.size)

/-- Loads the owner of a member. -/
def loadOwner (m : Nat) : Action Scenario Error (Option Nat) := do
  record (.owner m)
  match (← get).member? m with
  | none => pure none
  | some member =>
    Action.change (modifyMember m fun member => { member with script := member.script.tail })
    follow member.script
    pure member.stored

/-- The hook before an attach. -/
def beforeAttach (m o : Nat) : Action Scenario Error Unit := do
  record (.before m o)
  match (← get).member? m with
  | none => pure ()
  | some member =>
    Action.change
      (modifyMember m fun member => { member with beforeScript := member.beforeScript.tail })
    follow member.beforeScript

/-- The hook after a change. -/
def ownerChanged (m : Nat) (o : Option Nat) : Action Scenario Error Unit := do
  record (.changed m o)
  match (← get).member? m with
  | none => pure ()
  | some member =>
    Action.change
      (modifyMember m fun member => { member with changedScript := member.changedScript.tail })
    follow member.changedScript

/-- The owner-member relation of scenarios.  A member whose owner is gone has no owner. -/
def ownership : Ownership Scenario Error Nat Nat where
  isAlive o s := s.isAlive o
  items o := Deferred.force (itemsCell o) (loadItems o)
  putItems o items := (itemsCell o).set (.evaluated items)
  owner m := do
    let owner ← Deferred.force (ownerCell m) (loadOwner m)
    return owner.filter (← get).isAlive
  putOwner m owner := (ownerCell m).set (.evaluated owner)
  ownerChanged := ownerChanged
  ownerGone := .violation .ownerGone

/-- Moves a member to an owner. -/
def attach (o m : Nat) : Action Scenario Error Unit := ownership.attach beforeAttach o m

/-- Moves a member to a list whose owner is gone, which fails. -/
def attachToNobody (m : Nat) : Action Scenario Error Unit := do
  attach (← get).owners.size m

/-- Takes the last hold off an owner, and says whether there was one. -/
def dropOwner (o : Nat) (s : Scenario) : Bool × Scenario :=
  (s.isAlive o, s.modifyOwner o fun owner => { owner with alive := false })

/-- The log, and the scenario with an empty log. -/
def takeLog (s : Scenario) : List Event × Scenario := (s.log.toList, { s with log := #[] })

end Scenario

end ManagedImage
