import ManagedImage.Ownership.Scenario
import ManagedImage.Proofs.Ownership.Lawful

/-!
# The laws in scenarios

In a scenario lists and back-pointers may still have to be loaded, every load may fail, and a member
may point back at an owner that is gone.  Loading is still not seen: a list and a back-pointer are
what loading them would give.

## Main definitions

* `Scenario.itemsOf`, `Scenario.ownerOf` — a list and a back-pointer, loaded or not.
* `Scenario.view` — how the edges of a scenario are seen.
* `Scenario.ownershipWith` — the ownership of scenarios with another hook after changes.

## Main results

* `Scenario.lawful_ownershipWith` — the ownership of a scenario is lawful.
* `Scenario.keeps_beforeAttach`, `Scenario.keeps_ownerChanged` — hooks that follow a script change
  no edge.
-/

namespace ManagedImage

namespace Scenario

/-- What is seen of an owner. -/
def Owner.seen (x : Owner) : Owner := { x with script := [] }

/-- What is seen of a member. -/
def Member.seen (x : Member) : Member :=
  { x with script := [], beforeScript := [], changedScript := [] }

/-- The members of an owner, loaded or not, where there are `count` members in all. -/
def Owner.list (count : Nat) (x : Owner) : List Nat :=
  match x.items with
  | .evaluated items => items
  | .unevaluated => x.stored.filter (· < count)

/-- The back-pointer of a member, loaded or not. -/
def Member.pointer (x : Member) : Option Nat :=
  match x.owner with
  | .evaluated owner => owner
  | .unevaluated => x.stored

variable {s s' : Scenario} {o m : Nat}

/-- The members of an owner, loaded or not. -/
def itemsOf (s : Scenario) (o : Nat) : List Nat :=
  ((s.owner? o).map (·.list s.members.size)).getD []

/-- The living owner of a member, loaded or not. -/
def ownerOf (s : Scenario) (m : Nat) : Option Nat :=
  ((s.member? m).bind Member.pointer).filter s.isAlive

/-- How the edges are seen.  An owner that is gone has no members. -/
def view : Ownership.View Scenario Nat Nat where
  edges s := { list := fun o => if s.isAlive o then s.itemsOf o else [], owner := s.ownerOf }
  alive o s := s.isAlive o
  there m s := m < s.members.size
  loaded o s := (s.owner? o).any (·.items.isEvaluated)

/-! ### What changes what is seen -/

theorem isAlive_eq (s : Scenario) (o : Nat) :
    s.isAlive o = ((s.owner? o).map Owner.seen).any (·.alive) := by
  rw [isAlive, Option.any_map]
  rfl

theorem itemsOf_eq (s : Scenario) (o : Nat) :
    s.itemsOf o = (((s.owner? o).map Owner.seen).map (·.list s.members.size)).getD [] := by
  rw [itemsOf, Option.map_map]
  rfl

theorem pointer_eq (s : Scenario) (m : Nat) :
    (s.member? m).bind Member.pointer = ((s.member? m).map Member.seen).bind Member.pointer := by
  cases s.member? m <;> rfl

theorem loaded_eq (s : Scenario) (o : Nat) :
    view.loaded o s = (((s.owner? o).map Owner.seen).any (·.items.isEvaluated) = true) := by
  rw [Option.any_map]
  rfl

/-- States with the same seen parts show the same edges. -/
theorem same_of_seen (hsize : s'.members.size = s.members.size)
    (howners : ∀ o, (s'.owner? o).map Owner.seen = (s.owner? o).map Owner.seen)
    (hmembers : ∀ m, (s'.member? m).map Member.seen = (s.member? m).map Member.seen) :
    view.Same s s' := by
  have halive : s'.isAlive = s.isAlive := by
    funext o
    rw [isAlive_eq, howners, isAlive_eq]
  have hitems : s'.itemsOf = s.itemsOf := by
    funext o
    rw [itemsOf_eq, howners, hsize, itemsOf_eq]
  have howner : s'.ownerOf = s.ownerOf := by
    funext m
    rw [ownerOf, pointer_eq, hmembers, halive, ownerOf, pointer_eq s]
  refine ⟨?_, fun o => congrFun halive o, fun m hm => ?_, fun o ho => ?_⟩
  · simp only [view, halive, hitems, howner]
  · exact Nat.lt_of_lt_of_eq hm hsize.symm
  · rwa [loaded_eq, howners, ← loaded_eq]

theorem owner?_modifyOwner (o o' : Nat) (f : Owner → Owner) (s : Scenario) :
    (s.modifyOwner o f).owner? o' = if o' = o then (s.owner? o').map f else s.owner? o' := by
  simp only [owner?, modifyOwner, Array.getElem?_modify, eq_comm (a := o)]

theorem member?_modifyMember (m m' : Nat) (f : Member → Member) (s : Scenario) :
    (s.modifyMember m f).member? m' = if m' = m then (s.member? m').map f else s.member? m' := by
  simp only [member?, modifyMember, Array.getElem?_modify, eq_comm (a := m)]

theorem same_modifyOwner {f : Owner → Owner} (hf : ∀ x, (f x).seen = x.seen) :
    view.Same s (s.modifyOwner o f) := by
  refine same_of_seen rfl (fun o' => ?_) fun _ => rfl
  rw [owner?_modifyOwner]
  split
  · rw [Option.map_map, show Owner.seen ∘ f = Owner.seen from funext hf]
  · rfl

theorem same_modifyMember {f : Member → Member} (hf : ∀ x, (f x).seen = x.seen) :
    view.Same s (s.modifyMember m f) := by
  refine same_of_seen Array.size_modify (fun _ => rfl) fun m' => ?_
  rw [member?_modifyMember]
  split
  · rw [Option.map_map, show Member.seen ∘ f = Member.seen from funext hf]
  · rfl

/-- Logging is not seen. -/
theorem same_log (log : Array Event) : view.Same s { s with log } :=
  same_of_seen rfl (fun _ => rfl) fun _ => rfl

/-! ### Loading -/

/-- A script fails or does not, and changes nothing. -/
theorem ends_follow (script : Script) {Q E : Scenario → Prop} (hQ : Q s) (hE : E s) :
    (follow script).Ends s (fun _ => Q) fun _ => E := by
  unfold follow
  split
  · exact .throw hE
  · exact .pure hQ

/-- Loading a list gives the list as it is seen. -/
theorem ends_loadItems {x : Owner} (hx : s.owner? o = some x) (hitems : x.items = .unevaluated) :
    (loadItems o).Ends s (fun l s' => l = s.itemsOf o ∧ view.Same s s') fun _ => view.Same s := by
  unfold loadItems record
  refine .change_bind (.get_bind ?_)
  have hx' : ({ s with log := s.log.push (.items o) } : Scenario).owner? o = some x := hx
  rw [hx']
  refine .change_bind ?_
  have hscript : view.Same s (modifyOwner o (fun owner => { owner with script := owner.script.tail })
      { s with log := s.log.push (.items o) }) :=
    (same_log _).same (same_modifyOwner fun _ => rfl)
  refine (ends_follow x.script (Q := fun s' => view.Same s s' ∧ s'.members.size = s.members.size)
    ⟨hscript, rfl⟩ hscript).bind fun _ s₂ ⟨h₂, hsize⟩ => ?_
  refine .get_bind (.pure ⟨?_, h₂⟩)
  rw [itemsOf, hx, hsize, Option.map_some, Option.getD_some, Owner.list, hitems]

/-- Loading a back-pointer gives the back-pointer as it is seen. -/
theorem ends_loadOwner {x : Member} (hx : s.member? m = some x) :
    (loadOwner m).Ends s (fun p s' => p = x.stored ∧ view.Same s s') fun _ => view.Same s := by
  unfold loadOwner record
  refine .change_bind (.get_bind ?_)
  have hx' : ({ s with log := s.log.push (.owner m) } : Scenario).member? m = some x := hx
  rw [hx']
  refine .change_bind ?_
  have hscript : view.Same s
      (modifyMember m (fun member => { member with script := member.script.tail })
        { s with log := s.log.push (.owner m) }) :=
    (same_log _).same (same_modifyMember fun _ => rfl)
  exact (ends_follow x.script hscript hscript).bind fun _ s₂ h₂ => .pure ⟨rfl, h₂⟩

/-- A hook that follows a script changes no edge. -/
theorem keeps_beforeAttach (m o : Nat) (s : Scenario) : view.Keeps (beforeAttach m o) s := by
  unfold Ownership.View.Keeps beforeAttach record
  refine .change_bind (.get_bind ?_)
  split
  · exact .pure (same_log _)
  · next x _ =>
    have hscript := (same_log (s := s) (s.log.push (.before m o))).same (same_modifyMember (m := m)
      (f := fun member => { member with beforeScript := member.beforeScript.tail }) fun _ => rfl)
    exact .change_bind (ends_follow x.beforeScript hscript hscript)

theorem keeps_ownerChanged (m : Nat) (o : Option Nat) (s : Scenario) :
    view.Keeps (ownerChanged m o) s := by
  unfold Ownership.View.Keeps ownerChanged record
  refine .change_bind (.get_bind ?_)
  split
  · exact .pure (same_log _)
  · next x _ =>
    have hscript := (same_log (s := s) (s.log.push (.changed m o))).same (same_modifyMember (m := m)
      (f := fun member => { member with changedScript := member.changedScript.tail }) fun _ => rfl)
    exact .change_bind (ends_follow x.changedScript hscript hscript)

/-! ### Replacing -/

theorem isAlive_modifyOwner {f : Owner → Owner} (hf : ∀ x, (f x).alive = x.alive) :
    (s.modifyOwner o f).isAlive = s.isAlive := by
  funext o'
  rw [isAlive, isAlive, owner?_modifyOwner]
  split
  · cases s.owner? o' <;> simp [hf]
  · rfl

theorem exists_of_isAlive (ho : s.isAlive o) : ∃ x, s.owner? o = some x := by
  cases hx : s.owner? o with
  | none =>
    rw [isAlive, hx] at ho
    exact absurd ho (by simp)
  | some x => exact ⟨x, rfl⟩

theorem owner?_putItems {x : Owner} (hx : s.owner? o = some x) (l : List Nat) (o' : Nat) :
    ((itemsCell o).set (.evaluated l) s).owner? o' =
      if o' = o then some { x with items := .evaluated l } else s.owner? o' := by
  rw [itemsCell, owner?_modifyOwner]
  split
  · next h => rw [h, hx, Option.map_some]
  · rfl

theorem loaded_putItems (ho : s.isAlive o) (l : List Nat) :
    view.loaded o ((itemsCell o).set (.evaluated l) s) := by
  obtain ⟨x, hx⟩ := exists_of_isAlive ho
  change (((itemsCell o).set (.evaluated l) s).owner? o).any (·.items.isEvaluated) = true
  rw [owner?_putItems hx, if_pos rfl]
  rfl

/-- A list that exists is replaced. -/
theorem becomes_putItems (ho : s.isAlive o) (l : List Nat) :
    view.Becomes s ((Edges.side Nat Nat).setList (view.edges s) o l)
      ((itemsCell o).set (.evaluated l) s) := by
  obtain ⟨x, hx⟩ := exists_of_isAlive ho
  have halive : ((itemsCell o).set (.evaluated l) s).isAlive = s.isAlive :=
    isAlive_modifyOwner fun _ => rfl
  have hlist : (fun o' => if s.isAlive o' then ((itemsCell o).set (.evaluated l) s).itemsOf o'
      else []) = fun o' => if o' = o then l else if s.isAlive o' then s.itemsOf o' else [] := by
    funext o'
    rw [itemsOf, owner?_putItems hx]
    by_cases h : o' = o
    · rw [if_pos h, if_pos h, h, if_pos ho]
      rfl
    · rw [if_neg h, if_neg h]
      rfl
  have hownerOf : ((itemsCell o).set (.evaluated l) s).ownerOf = s.ownerOf := by
    funext m
    rw [ownerOf, halive]
    rfl
  refine ⟨?_, fun o' => congrFun halive o', fun _ hm => hm, fun o' ho' => ?_⟩
  · simp only [view, halive]
    rw [hlist, hownerOf]
    rfl
  · by_cases h : o' = o
    · rw [h]
      exact loaded_putItems ho l
    · change (((itemsCell o).set (.evaluated l) s).owner? o').any _ = true
      rw [owner?_putItems hx, if_neg h]
      exact ho'

/-- The back-pointer of a member that exists is replaced.  One to an owner that is gone is seen as
none. -/
theorem becomes_putOwner (hm : m < s.members.size) (x : Option Nat) :
    view.Becomes s ((Edges.side Nat Nat).setOwner (view.edges s) m (x.filter s.isAlive))
      ((ownerCell m).set (.evaluated x) s) := by
  have hsize : ((ownerCell m).set (.evaluated x) s).members.size = s.members.size :=
    Array.size_modify
  have hy : s.member? m = some s.members[m] := Array.getElem?_eq_getElem hm
  have howner : ((ownerCell m).set (.evaluated x) s).ownerOf =
      fun m' => if m' = m then x.filter s.isAlive else s.ownerOf m' := by
    funext m'
    rw [ownerOf, ownerCell, member?_modifyMember]
    by_cases h : m' = m
    · rw [if_pos h, if_pos h, h, hy]
      rfl
    · rw [if_neg h, if_neg h]
      rfl
  have hitems : ((ownerCell m).set (.evaluated x) s).itemsOf = s.itemsOf := by
    funext o
    rw [itemsOf, itemsOf, hsize]
    rfl
  refine ⟨?_, fun _ => rfl, fun m' hm' => Nat.lt_of_lt_of_eq hm' hsize.symm, fun _ ho => ho⟩
  simp only [view, howner, hitems]
  rfl

/-! ### The laws -/

/-- The ownership of scenarios with another hook after changes. -/
def ownershipWith (changed : Nat → Option Nat → Action Scenario Error Unit) :
    Ownership Scenario Error Nat Nat :=
  { ownership with ownerChanged := changed }

/-- A list is read as it is seen, and has been loaded then. -/
theorem ends_items (ho : s.isAlive o) :
    (ownership.items o).Ends s
      (fun l s' => l = (view.edges s).list o ∧ view.Same s s' ∧ view.loaded o s')
      (fun _ s' => view.Same s s' ∧ ¬view.loaded o s) := by
  obtain ⟨x, hx⟩ := exists_of_isAlive ho
  have hlist : (view.edges s).list o = s.itemsOf o := if_pos ho
  have hget : (itemsCell o).get s = x.items := by
    change ((s.owner? o).map (·.items)).getD _ = _
    rw [hx]
    rfl
  have hloaded : view.loaded o s ↔ x.items.isEvaluated = true := by
    change (s.owner? o).any _ = true ↔ _
    rw [hx, Option.any_some]
  change (Deferred.force (itemsCell o) (loadItems o)).Ends s _ _
  unfold Deferred.force
  refine .get_bind ?_
  rw [hget, hlist]
  cases hitems : x.items with
  | evaluated l =>
    refine .pure ⟨?_, view.same_refl s, ?_⟩
    · rw [itemsOf, hx, Option.map_some, Option.getD_some, Owner.list, hitems]
    · rw [hloaded, hitems]
      rfl
  | unevaluated =>
    have hunloaded : ¬view.loaded o s := by
      rw [hloaded, hitems]
      exact Bool.false_ne_true
    refine ((ends_loadItems hx hitems).mono (fun _ _ hQ => hQ)
      fun _ _ hE => ⟨hE, hunloaded⟩).bind fun l s₁ ⟨hl, h₁⟩ => ?_
    subst hl
    have ho₁ : s₁.isAlive o := (h₁.alive o).trans ho
    -- what has been loaded is what was seen before, so keeping it is not seen
    have hput := becomes_putItems ho₁ (s.itemsOf o)
    rw [h₁.edges, ← hlist, (Edges.side Nat Nat).setList_self (view.edges s) o, hlist] at hput
    exact .change_bind (.pure ⟨rfl, h₁.trans hput, loaded_putItems ho₁ _⟩)

/-- The back-pointer itself is read, which may lead to an owner that is gone. -/
theorem ends_pointer (hm : m < s.members.size) :
    (Deferred.force (ownerCell m) (loadOwner m)).Ends s
      (fun p s' => p = s.members[m].pointer ∧ view.Same s s') fun _ => view.Same s := by
  have hx : s.member? m = some s.members[m] := Array.getElem?_eq_getElem hm
  generalize s.members[m] = x at hx ⊢
  have hget : (ownerCell m).get s = x.owner := by
    change ((s.member? m).map (·.owner)).getD _ = _
    rw [hx]
    rfl
  unfold Deferred.force
  refine .get_bind ?_
  rw [hget]
  cases howner : x.owner with
  | evaluated p =>
    refine .pure ⟨?_, view.same_refl s⟩
    rw [Member.pointer, howner]
  | unevaluated =>
    refine (ends_loadOwner hx).bind fun p s₁ ⟨hp, h₁⟩ => ?_
    subst hp
    have hpointer : x.pointer = x.stored := by rw [Member.pointer, howner]
    have hstored : x.stored.filter s₁.isAlive = (view.edges s).owner m := by
      have halive : s₁.isAlive = s.isAlive := funext h₁.alive
      change _ = ((s.member? m).bind Member.pointer).filter s.isAlive
      rw [halive, hx, Option.bind_some, hpointer]
    -- the back-pointer that is kept may lead to an owner that is gone
    have hput := becomes_putOwner (h₁.there m hm) x.stored
    rw [h₁.edges, hstored, (Edges.side Nat Nat).setOwner_self (view.edges s) m] at hput
    exact .change_bind (.pure ⟨hpointer.symm, h₁.trans hput⟩)

/-- The owner is read as it is seen. -/
theorem ends_owner (hm : m < s.members.size) :
    (ownership.owner m).Ends s
      (fun x s' => x = (view.edges s).owner m ∧ view.Same s s' ∧ ∀ o ∈ x, s.isAlive o)
      fun _ => view.Same s := by
  change (Deferred.force (ownerCell m) (loadOwner m) >>= _).Ends s _ _
  refine (ends_pointer hm).bind fun p s₁ ⟨hp, h₁⟩ => .get_bind (.pure ?_)
  have halive : s₁.isAlive = s.isAlive := funext h₁.alive
  have howner : (view.edges s).owner m = s.members[m].pointer.filter s.isAlive := by
    change ((s.member? m).bind Member.pointer).filter s.isAlive = _
    rw [member?, Array.getElem?_eq_getElem hm]
    rfl
  rw [halive, howner, hp]
  exact ⟨rfl, h₁, fun o ho => (Option.mem_filter_iff.mp ho).2⟩

/-- **The ownership of a scenario is lawful**, whatever the hook after changes does, if it changes no
edge. -/
theorem lawful_ownershipWith {changed : Nat → Option Nat → Action Scenario Error Unit}
    (hchanged : ∀ m x s, view.Keeps (changed m x) s) : (ownershipWith changed).Lawful view where
  alive _ _ := rfl
  items ho := ends_items ho
  owner hm := ends_owner hm
  putItems l ho := becomes_putItems ho l
  putOwner {m s x} hm hx := by
    have hliving : x.filter s.isAlive = x := by
      cases x with
      | none => rfl
      | some o => exact Option.filter_some_pos (hx o rfl)
    have hput := becomes_putOwner hm x
    rwa [hliving] at hput
  ownerChanged := hchanged

end Scenario

end ManagedImage
