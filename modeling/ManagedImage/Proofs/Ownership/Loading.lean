import ManagedImage.Proofs.Ownership.Run

/-!
# What loading does to a scenario

Reading a list or a back-pointer loads it where it is not there.  Nothing else about the owners and
members changes then, and no other list or back-pointer is touched, so what one of them gives when
it is read does not depend on which others have been read before.

## Main definitions

* `Scenario.LoadsTo` — nothing has happened but that lists and back-pointers have been loaded.

## Main results

* `Scenario.LoadsTo.same` — nothing is seen of it.
* `Scenario.ends_readItems`, `Scenario.ends_readOwner` — reading only loads.
* `Scenario.readItems_congr`, `Scenario.readOwner_congr` — what reading gives depends on what is
  read.
-/

namespace ManagedImage

namespace Scenario

/-- The owner with its list loaded and no failures left. -/
def Owner.resolved (count : Nat) (x : Owner) : Owner :=
  { x with items := .evaluated (x.list count), script := [] }

/-- The member with its back-pointer loaded and no failures of the loader left. -/
def Member.resolved (x : Member) : Member :=
  { x with owner := .evaluated x.pointer, script := [] }

/-- What reading the list of the owner gives, where there are `count` members in all. -/
def Owner.outcome (count : Nat) (x : Owner) : Except Error (List Nat) :=
  match x.items, x.script with
  | .unevaluated, some e :: _ => .error e
  | _, _ => .ok (x.list count)

/-- The owner once its list has been read. -/
def Owner.loaded (count : Nat) (x : Owner) : Owner :=
  match x.items, x.script with
  | .evaluated _, _ => x
  | .unevaluated, some _ :: script => { x with script }
  | .unevaluated, script => { x with items := .evaluated (x.list count), script := script.tail }

/-- What reading the back-pointer of the member gives. -/
def Member.outcome (x : Member) : Except Error (Option Nat) :=
  match x.owner, x.script with
  | .unevaluated, some e :: _ => .error e
  | _, _ => .ok x.pointer

/-- The member once its back-pointer has been read. -/
def Member.loaded (x : Member) : Member :=
  match x.owner, x.script with
  | .evaluated _, _ => x
  | .unevaluated, some _ :: script => { x with script }
  | .unevaluated, script => { x with owner := .evaluated x.pointer, script := script.tail }

variable {s s' s'' : Scenario} {o m : Nat}

/-- From `s` to `s'` nothing has happened but that lists and back-pointers have been loaded, or have
failed to. -/
structure LoadsTo (s s' : Scenario) : Prop where
  /-- There are as many members. -/
  size : s'.members.size = s.members.size
  /-- With their lists loaded, the owners are the same. -/
  owners : ∀ o, (s'.owner? o).map (·.resolved s.members.size) =
    (s.owner? o).map (·.resolved s.members.size)
  /-- With their back-pointers loaded, the members are the same. -/
  members : ∀ m, (s'.member? m).map Member.resolved = (s.member? m).map Member.resolved
  /-- A list that has been loaded stays loaded. -/
  loaded : ∀ o, view.loaded o s → view.loaded o s'
  /-- A back-pointer that has been loaded stays loaded. -/
  pointed : ∀ m, (s.member? m).any (·.owner.isEvaluated) → (s'.member? m).any (·.owner.isEvaluated)

namespace LoadsTo

theorem refl (s : Scenario) : s.LoadsTo s :=
  ⟨rfl, fun _ => rfl, fun _ => rfl, fun _ h => h, fun _ h => h⟩

theorem trans (h : s.LoadsTo s') (h' : s'.LoadsTo s'') : s.LoadsTo s'' where
  size := h'.size.trans h.size
  owners o := by
    rw [← h.owners o, ← h.size]
    exact h'.owners o
  members m := (h'.members m).trans (h.members m)
  loaded o := h'.loaded o ∘ h.loaded o
  pointed m := h'.pointed m ∘ h.pointed m

/-- Nothing is seen of it where lists and back-pointers are loaded. -/
theorem same (h : s.LoadsTo s') : view.Same s s' := by
  have halive : s'.isAlive = s.isAlive := by
    funext o
    have hany (s₁ : Scenario) (n : Nat) :
        s₁.isAlive o = ((s₁.owner? o).map (·.resolved n)).any (·.alive) := by
      rw [Option.any_map]
      rfl
    rw [hany s' s.members.size, h.owners, ← hany]
  have hitems : s'.itemsOf = s.itemsOf := by
    funext o
    have hlist (s₁ : Scenario) (n : Nat) : ((s₁.owner? o).map (·.list n)).getD [] =
        (((s₁.owner? o).map (·.resolved n)).map (·.list n)).getD [] := by
      rw [Option.map_map]
      rfl
    rw [itemsOf, h.size, hlist, h.owners, ← hlist, itemsOf]
  have howner : s'.ownerOf = s.ownerOf := by
    funext m
    have hpointer (s₁ : Scenario) :
        (s₁.member? m).bind Member.pointer =
          ((s₁.member? m).map Member.resolved).bind Member.pointer := by
      cases s₁.member? m <;> rfl
    rw [ownerOf, hpointer, h.members, halive, ← hpointer, ownerOf]
  refine ⟨?_, fun o => congrFun halive o, fun m hm => Nat.lt_of_lt_of_eq hm h.size.symm, h.loaded⟩
  simp only [view, halive, hitems, howner]

end LoadsTo

theorem itemsOf_eq_of_same (h : view.Same s s') (ho : s.isAlive o) :
    s'.itemsOf o = s.itemsOf o := by
  have ho' : s'.isAlive o := (h.alive o).trans ho
  have hlist := congrFun (congrArg Edges.list h.edges) o
  change (if s'.isAlive o then s'.itemsOf o else []) =
    if s.isAlive o then s.itemsOf o else [] at hlist
  rwa [if_pos ho, if_pos ho'] at hlist

theorem ownerOf_eq_of_same (h : view.Same s s') (m : Nat) : s'.ownerOf m = s.ownerOf m :=
  congrFun (congrArg Edges.owner h.edges) m

/-! ### Reading a list -/

/-- The owner `o` has become `x`, and no other owner and no member has changed. -/
structure OwnerBecomes (s : Scenario) (o : Nat) (x : Owner) (s' : Scenario) : Prop where
  /-- The members. -/
  members : s'.members = s.members
  /-- The owners. -/
  owners : ∀ o', s'.owner? o' = if o' = o then some x else s.owner? o'

namespace OwnerBecomes

variable {x : Owner}

theorem refl (hx : s.owner? o = some x) : s.OwnerBecomes o x s := by
  refine ⟨rfl, fun o' => ?_⟩
  split
  · next h => rw [h, hx]
  · rfl

theorem modify (h : s.OwnerBecomes o x s') (f : Owner → Owner) :
    s.OwnerBecomes o (f x) (s'.modifyOwner o f) := by
  refine ⟨h.members, fun o' => ?_⟩
  rw [owner?_modifyOwner, h.owners]
  split <;> rfl

end OwnerBecomes

theorem runOn_loadItems {x : Owner} (hx : s.owner? o = some x) :
    ∃ s', (loadItems o).runOn s =
      (match x.script with
        | some e :: _ => .error e
        | _ => .ok (x.stored.filter (· < s.members.size)), s') ∧
      s.OwnerBecomes o { x with script := x.script.tail } s' := by
  have hx' : ({ s with log := s.log.push (.items o) } : Scenario).owner? o = some x := hx
  have hlogged : s.OwnerBecomes o x { s with log := s.log.push (.items o) } :=
    ⟨rfl, (OwnerBecomes.refl hx).owners⟩
  have hused := hlogged.modify fun x => { x with script := x.script.tail }
  rw [loadItems, record, Action.runOn_bind_ok (Action.runOn_change _ s),
    Action.runOn_bind_ok (Action.runOn_get _), hx']
  dsimp only
  rw [Action.runOn_bind_ok (Action.runOn_change _ _)]
  rcases x with ⟨_, _, _, _ | ⟨_ | e, _⟩⟩ <;> exact ⟨_, rfl, hused⟩

/-- Reading a list touches its owner only. -/
theorem runOn_items {x : Owner} (hx : s.owner? o = some x) :
    ∃ s', (ownership.items o).runOn s = (x.outcome s.members.size, s') ∧
      s.OwnerBecomes o (x.loaded s.members.size) s' := by
  have hget : (itemsCell o).get s = x.items := by
    change ((s.owner? o).map (·.items)).getD _ = _
    rw [hx]
    rfl
  change ∃ s', (Deferred.force (itemsCell o) (loadItems o)).runOn s = _ ∧ _
  rw [Deferred.runOn_force, hget]
  rcases x with ⟨alive, items | items, stored, script⟩
  · obtain ⟨s₁, hload, h₁⟩ := runOn_loadItems hx
    rw [hload]
    -- the list is kept unless the loader fails
    have hkept := h₁.modify fun x =>
      { x with items := .evaluated (stored.filter (· < s.members.size)) }
    rcases script with _ | ⟨_ | e, script⟩
    · exact ⟨_, rfl, hkept⟩
    · exact ⟨_, rfl, hkept⟩
    · exact ⟨_, rfl, h₁⟩
  · exact ⟨s, rfl, .refl hx⟩

theorem Owner.resolved_loaded (x : Owner) (n : Nat) : (x.loaded n).resolved n = x.resolved n := by
  rcases x with ⟨_, _ | _, _, _ | ⟨_ | _, _⟩⟩ <;> rfl

theorem Owner.isEvaluated_loaded {x : Owner} (n : Nat) (h : x.items.isEvaluated) :
    (x.loaded n).items.isEvaluated := by
  rcases x with ⟨_, _ | _, _, _ | ⟨_ | _, _⟩⟩ <;> first | exact h | rfl

/-- Loading the list of an owner. -/
theorem OwnerBecomes.loadsTo {x : Owner} (hx : s.owner? o = some x)
    (h : s.OwnerBecomes o (x.loaded s.members.size) s') : s.LoadsTo s' := by
  have hmember (m) : s'.member? m = s.member? m := by rw [member?, h.members, member?]
  refine ⟨congrArg _ h.members, fun o' => ?_, fun m => by rw [hmember], fun o' ho' => ?_,
    fun m hm => by rwa [hmember]⟩
  · rw [h.owners]
    split
    · next ho => rw [ho, hx, Option.map_some, Owner.resolved_loaded, Option.map_some]
    · rfl
  · change (s'.owner? o').any _ = true
    change (s.owner? o').any _ = true at ho'
    rw [h.owners]
    split
    · next ho =>
      rw [ho, hx] at ho'
      exact Owner.isEvaluated_loaded _ ho'
    · exact ho'

/-- Reading a list only loads, and touches no other list and no back-pointer. -/
theorem ends_readItems (ho : s.isAlive o) :
    (ownership.items o).Ends s
      (fun l s' => s.readItems o = .ok l ∧ s.LoadsTo s' ∧ view.loaded o s' ∧
        s'.members = s.members ∧ ∀ d, d ≠ o → s'.owner? d = s.owner? d)
      fun e s' => s.readItems o = .error e ∧ s.LoadsTo s' := by
  obtain ⟨x, hx⟩ := exists_of_isAlive ho
  obtain ⟨s', hrun, h⟩ := runOn_items hx
  have hread : s.readItems o = x.outcome s.members.size := by rw [readItems, hrun]
  have hloads := h.loadsTo hx
  cases hout : x.outcome s.members.size with
  | error e =>
    rw [hout] at hrun hread
    exact .of_error hrun ⟨hread, hloads⟩
  | ok l =>
    rw [hout] at hrun hread
    have hloaded : view.loaded o s' := by
      have hitems := (ends_items ho).of_fst hread
      rw [hrun] at hitems
      exact hitems.2.2
    exact .of_ok hrun ⟨hread, hloads, hloaded, h.members, fun d hd => by rw [h.owners, if_neg hd]⟩

/-- A list that has been loaded is read without doing anything. -/
theorem runOn_items_of_loaded (h : view.loaded o s) :
    (ownership.items o).runOn s = (.ok (s.itemsOf o), s) := by
  change (s.owner? o).any (·.items.isEvaluated) = true at h
  have hget : (itemsCell o).get s = ((s.owner? o).map (·.items)).getD (.evaluated []) := rfl
  change (Deferred.force (itemsCell o) (loadItems o)).runOn s = _
  rw [Deferred.runOn_force, hget, itemsOf]
  cases hx : s.owner? o with
  | none => simp [hx] at h
  | some x =>
    rcases x with ⟨_, _ | items, _, _⟩
    · simp [hx, Deferred.isEvaluated] at h
    · rfl

/-- What reading a list gives depends on its owner, and on how many members there are. -/
theorem readItems_congr (ho : s.isAlive o) (howner : s'.owner? o = s.owner? o)
    (hsize : s'.members.size = s.members.size) : s'.readItems o = s.readItems o := by
  obtain ⟨x, hx⟩ := exists_of_isAlive ho
  obtain ⟨_, hrun, _⟩ := runOn_items hx
  obtain ⟨_, hrun', _⟩ := runOn_items (howner.trans hx)
  rw [readItems, readItems, hrun, hrun', hsize]

/-! ### Reading a back-pointer -/

/-- The member `m` has become `x`, and no other member and no owner has changed. -/
structure MemberBecomes (s : Scenario) (m : Nat) (x : Member) (s' : Scenario) : Prop where
  /-- The owners. -/
  owners : s'.owners = s.owners
  /-- There are as many members. -/
  size : s'.members.size = s.members.size
  /-- The members. -/
  members : ∀ m', s'.member? m' = if m' = m then some x else s.member? m'

namespace MemberBecomes

variable {x : Member}

theorem refl (hx : s.member? m = some x) : s.MemberBecomes m x s := by
  refine ⟨rfl, rfl, fun m' => ?_⟩
  split
  · next h => rw [h, hx]
  · rfl

theorem modify (h : s.MemberBecomes m x s') (f : Member → Member) :
    s.MemberBecomes m (f x) (s'.modifyMember m f) := by
  refine ⟨h.owners, Array.size_modify.trans h.size, fun m' => ?_⟩
  rw [member?_modifyMember, h.members]
  split <;> rfl

end MemberBecomes

theorem runOn_loadOwner {x : Member} (hx : s.member? m = some x) :
    ∃ s', (loadOwner m).runOn s =
      (match x.script with
        | some e :: _ => .error e
        | _ => .ok x.stored, s') ∧
      s.MemberBecomes m { x with script := x.script.tail } s' := by
  have hx' : ({ s with log := s.log.push (.owner m) } : Scenario).member? m = some x := hx
  have hlogged : s.MemberBecomes m x { s with log := s.log.push (.owner m) } :=
    ⟨rfl, rfl, (MemberBecomes.refl hx).members⟩
  have hused := hlogged.modify fun x => { x with script := x.script.tail }
  rw [loadOwner, record, Action.runOn_bind_ok (Action.runOn_change _ s),
    Action.runOn_bind_ok (Action.runOn_get _), hx']
  dsimp only
  rw [Action.runOn_bind_ok (Action.runOn_change _ _)]
  rcases x with ⟨_, _, _ | ⟨_ | e, _⟩, _, _⟩ <;> exact ⟨_, rfl, hused⟩

/-- Reading a back-pointer touches its member only, and gives its living owner. -/
theorem runOn_owner {x : Member} (hx : s.member? m = some x) :
    ∃ s', (ownership.owner m).runOn s = (x.outcome.map (·.filter s.isAlive), s') ∧
      s.MemberBecomes m x.loaded s' := by
  -- whether the owner is alive is looked up once the back-pointer has been read
  suffices h : ∃ s', (Deferred.force (ownerCell m) (loadOwner m)).runOn s = (x.outcome, s') ∧
      s.MemberBecomes m x.loaded s' by
    obtain ⟨s', hrun, h⟩ := h
    have halive : s'.isAlive = s.isAlive := by
      funext o
      rw [isAlive, owner?, h.owners]
      rfl
    refine ⟨s', ?_, h⟩
    change (Deferred.force (ownerCell m) (loadOwner m) >>= _).runOn s = _
    rw [Action.runOn_bind, hrun, ← halive]
    cases x.outcome <;> rfl
  have hget : (ownerCell m).get s = x.owner := by
    change ((s.member? m).map (·.owner)).getD _ = _
    rw [hx]
    rfl
  rw [Deferred.runOn_force, hget]
  rcases x with ⟨owner | owner, stored, script, beforeScript, changedScript⟩
  · obtain ⟨s₁, hload, h₁⟩ := runOn_loadOwner hx
    rw [hload]
    have hkept := h₁.modify fun x => { x with owner := .evaluated stored }
    rcases script with _ | ⟨_ | e, script⟩
    · exact ⟨_, rfl, hkept⟩
    · exact ⟨_, rfl, hkept⟩
    · exact ⟨_, rfl, h₁⟩
  · exact ⟨s, rfl, .refl hx⟩

theorem Member.resolved_loaded (x : Member) : x.loaded.resolved = x.resolved := by
  rcases x with ⟨_ | _, _, _ | ⟨_ | _, _⟩, _, _⟩ <;> rfl

theorem Member.isEvaluated_loaded {x : Member} (h : x.owner.isEvaluated) :
    x.loaded.owner.isEvaluated := by
  rcases x with ⟨_ | _, _, _ | ⟨_ | _, _⟩, _, _⟩ <;> first | exact h | rfl

/-- Loading the back-pointer of a member. -/
theorem MemberBecomes.loadsTo {x : Member} (hx : s.member? m = some x)
    (h : s.MemberBecomes m x.loaded s') : s.LoadsTo s' := by
  have howner (o) : s'.owner? o = s.owner? o := by rw [owner?, h.owners, owner?]
  refine ⟨h.size, fun o => by rw [howner], fun m' => ?_, fun o ho => ?_, fun m' hm' => ?_⟩
  · rw [h.members]
    split
    · next hm => rw [hm, hx, Option.map_some, Member.resolved_loaded, Option.map_some]
    · rfl
  · change (s'.owner? o).any _ = true
    rwa [howner]
  · rw [h.members]
    split
    · next hm =>
      rw [hm, hx] at hm'
      exact Member.isEvaluated_loaded hm'
    · exact hm'

/-- Reading a back-pointer only loads, and touches no list. -/
theorem ends_readOwner (hm : m < s.members.size) :
    (ownership.owner m).Ends s
      (fun x s' => s.readOwner m = .ok x ∧ x = s.ownerOf m ∧ s.LoadsTo s' ∧ s'.owners = s.owners)
      fun e s' => s.readOwner m = .error e ∧ s.LoadsTo s' := by
  have hx : s.member? m = some s.members[m] := Array.getElem?_eq_getElem hm
  obtain ⟨s', hrun, h⟩ := runOn_owner hx
  have hread : s.readOwner m = s.members[m].outcome.map (·.filter s.isAlive) := by
    rw [readOwner, hrun]
  have hloads := h.loadsTo hx
  cases hout : s.members[m].outcome.map (·.filter s.isAlive) with
  | error e =>
    rw [hout] at hrun hread
    exact .of_error hrun ⟨hread, hloads⟩
  | ok x =>
    rw [hout] at hrun hread
    exact .of_ok hrun ⟨hread, eq_of_readOwner hm hread, hloads, h.owners⟩

/-- What reading a back-pointer gives depends on its member, and on which owners are alive. -/
theorem readOwner_congr (hm : m < s.members.size) (hmembers : s'.members = s.members)
    (halive : s'.isAlive = s.isAlive) : s'.readOwner m = s.readOwner m := by
  have hx : s.member? m = some s.members[m] := Array.getElem?_eq_getElem hm
  have hx' : s'.member? m = some s.members[m] := by rw [member?, hmembers, ← member?, hx]
  obtain ⟨_, hrun, _⟩ := runOn_owner hx
  obtain ⟨_, hrun', _⟩ := runOn_owner hx'
  rw [readOwner, readOwner, hrun, hrun', halive]

end Scenario

end ManagedImage
