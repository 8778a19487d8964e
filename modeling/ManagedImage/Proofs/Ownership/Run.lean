import ManagedImage.Proofs.Ownership.Scenario

/-!
# Lists and back-pointers agree after every run

Whatever is done in a scenario, and wherever it fails, lists and back-pointers agree afterwards.

## Main definitions

* `Scenario.Agree` — lists and back-pointers agree.
* `Scenario.Call` — what can be done with owners and members.
* `Scenario.Reaches` — what calls, succeeding or not, and the end of owners lead to.

## Main results

* `Scenario.agree_of_reaches` — lists and back-pointers agree after every run.
-/

namespace ManagedImage

/-- The edges without an owner. -/
def Edges.without {O M : Type} [DecidableEq O] (e : Edges O M) (o : O) : Edges O M where
  list d := if d = o then [] else e.list d
  owner m := (e.owner m).filter (· ≠ o)

theorem Edges.Agree.without {O M : Type} [DecidableEq O] [DecidableEq M] {e : Edges O M}
    (h : e.Agree) (o : O) : (e.without o).Agree := by
  refine ⟨fun d m => ?_, fun d => ?_⟩
  · change m ∈ (if d = o then [] else e.list d) ↔ (e.owner m).filter (· ≠ o) = some d
    rw [Option.filter_eq_some_iff, decide_eq_true_iff]
    by_cases hd : d = o
    · simp [hd]
    · rw [if_neg hd]
      exact (h.agrees d m).trans (and_iff_left hd).symm
  · change (if d = o then [] else e.list d).Nodup
    split
    · exact List.nodup_nil
    · exact h.noDup d

namespace Scenario

variable {s s' : Scenario} {o m : Nat} {before : Nat → Nat → Action Scenario Error Unit}
  {changed : Nat → Option Nat → Action Scenario Error Unit}

/-! ### Agreement -/

/-- Lists and back-pointers agree, loaded or not. -/
structure Agree (s : Scenario) : Prop where
  /-- The members in the list of an owner are those that have this owner. -/
  mem_iff : ∀ {o}, s.isAlive o → ∀ m, m ∈ s.itemsOf o ↔ s.ownerOf m = some o
  /-- No list holds a member twice. -/
  nodup : ∀ {o}, s.isAlive o → (s.itemsOf o).Nodup

theorem isAlive_of_ownerOf (h : s.ownerOf m = some o) : s.isAlive o :=
  (Option.filter_eq_some_iff.mp h).2

/-- The edges of a scenario agree if those of the owners that exist do. -/
theorem agree_edges_iff : (view.edges s).Agree ↔ s.Agree := by
  refine ⟨fun h => ⟨fun {o} ho m => ?_, fun {o} ho => ?_⟩, fun h => ⟨fun o m => ?_, fun o => ?_⟩⟩
  · have hm := h.agrees o m
    change m ∈ (if s.isAlive o then s.itemsOf o else []) ↔ _ at hm
    rwa [if_pos ho] at hm
  · have hdup := h.noDup o
    change (if s.isAlive o then s.itemsOf o else []).Nodup at hdup
    rwa [if_pos ho] at hdup
  · change m ∈ (if s.isAlive o then s.itemsOf o else []) ↔ s.ownerOf m = some o
    split
    · next ho => exact h.mem_iff ho m
    · next ho => exact iff_of_false List.not_mem_nil fun howner => ho (isAlive_of_ownerOf howner)
  · change (if s.isAlive o then s.itemsOf o else []).Nodup
    split
    · next ho => exact h.nodup ho
    · exact List.nodup_nil

/-- Where lists and back-pointers agree, no member is in the lists of two owners. -/
theorem Agree.eq_of_mem (h : s.Agree) {o' : Nat} (ho : s.isAlive o) (ho' : s.isAlive o')
    (hm : m ∈ s.itemsOf o) (hm' : m ∈ s.itemsOf o') : o = o' :=
  Option.some.inj (((h.mem_iff ho m).mp hm).symm.trans ((h.mem_iff ho' m).mp hm'))

/-- What reading the list of an owner gives. -/
def readItems (s : Scenario) (o : Nat) : Except Error (List Nat) :=
  ((ownership.items o).runOn s).1

/-- What reading the owner of a member gives. -/
def readOwner (s : Scenario) (m : Nat) : Except Error (Option Nat) :=
  ((ownership.owner m).runOn s).1

/-- A list that can be read is read as it is seen. -/
theorem eq_of_readItems {l : List Nat} (ho : s.isAlive o) (h : s.readItems o = .ok l) :
    l = s.itemsOf o :=
  ((ends_items ho).of_fst h).1.trans (if_pos ho)

/-- A back-pointer that can be read is read as it is seen. -/
theorem eq_of_readOwner {x : Option Nat} (hm : m < s.members.size) (h : s.readOwner m = .ok x) :
    x = s.ownerOf m :=
  ((ends_owner hm).of_fst h).1

/-! ### Runs -/

/-- Something that can be done with owners and members. -/
inductive Call where
  /-- Attach a member to an owner, or give the member this owner, which is the same. -/
  | attach (o m : Nat)
  /-- Take a member from an owner. -/
  | remove (o m : Nat)
  /-- Take a member from the owner that it has. -/
  | detach (m : Nat)
  /-- Read a list. -/
  | items (o : Nat)
  /-- Read a back-pointer. -/
  | owner (m : Nat)

namespace Call

/-- Carries out the call, with the hooks `before` and `changed`. -/
def run (before : Nat → Nat → Action Scenario Error Unit)
    (changed : Nat → Option Nat → Action Scenario Error Unit) : Call → Action Scenario Error Unit
  | attach o m => (ownershipWith changed).attach before o m
  | remove o m => do let _ ← (ownershipWith changed).remove o m
  | detach m => do let _ ← (ownershipWith changed).detach m
  | items o => do let _ ← (ownershipWith changed).items o
  | owner m => do let _ ← (ownershipWith changed).owner m

/-- The members that the call is about exist, and so do the owners, but for the one that a member is
attached to. -/
def Admits (s : Scenario) : Call → Prop
  | attach _ m => m < s.members.size
  | remove o m => s.isAlive o ∧ m < s.members.size
  | detach m => m < s.members.size
  | items o => s.isAlive o
  | owner m => m < s.members.size

end Call

/-- **A call, succeeding or not, keeps lists and back-pointers in agreement.** -/
theorem Agree.run (h : s.Agree) (hbefore : ∀ m o s, view.Keeps (before m o) s)
    (hchanged : ∀ m x s, view.Keeps (changed m x) s) (c : Call) (hc : c.Admits s) :
    ((c.run before changed).runOn s).2.Agree := by
  have hlaws := lawful_ownershipWith hchanged
  have hedges := agree_edges_iff.mpr h
  -- each call leaves the edges as they were, or as one of the operations makes them
  have hsame : ∀ {s'}, view.Same s s' → s'.Agree := fun h' =>
    agree_edges_iff.mp (h'.edges ▸ hedges)
  have hbecomes : ∀ {e s'}, e.Agree → view.Becomes s e s' → s'.Agree := fun he h' =>
    agree_edges_iff.mp (h'.edges ▸ he)
  refine Action.Ends.snd (P := Agree) ?_
  cases c with
  | attach o m =>
    have hmove : ∀ s', view.Becomes s _ s' → s'.Agree := fun _ => hbecomes (hedges.attach o m)
    exact (hlaws.attach (fun s => hbefore m o s) hc).mono (fun _ _ => hmove _)
      fun _ _ hE => hE.elim hsame (hmove _)
  | remove o m =>
    have hleave : ∀ s', view.Becomes s _ s' → s'.Agree := fun _ => hbecomes (hedges.leave o m)
    refine ((hlaws.remove hc.1 hc.2).mono (fun _ _ hQ => hQ)
      fun _ _ hE => hE.elim hsame (hleave _)).bind fun _ _ hQ => .pure (hleave _ hQ.2)
  | detach m =>
    have hleave : ∀ s', view.Becomes s _ s' → s'.Agree := fun _ => hbecomes (hedges.detach m)
    refine ((hlaws.detach hc).mono (fun _ _ hQ => hQ)
      fun _ _ hE => hE.elim hsame (hleave _)).bind fun _ _ hQ => .pure (hleave _ hQ)
  | items o =>
    refine ((hlaws.items hc).mono (fun _ _ hQ => hQ)
      fun _ _ hE => hsame hE.1).bind fun _ _ hQ => .pure (hsame hQ.2.1)
  | owner m =>
    refine ((hlaws.owner hc).mono (fun _ _ hQ => hQ)
      fun _ _ => hsame).bind fun _ _ hQ => .pure (hsame hQ.2.1)

/-- An owner that goes takes its edges with it. -/
theorem edges_dropOwner (s : Scenario) (o : Nat) :
    view.edges (s.dropOwner o).2 = (view.edges s).without o := by
  have hitems : ((s.dropOwner o).2).itemsOf = s.itemsOf := by
    funext d
    rw [dropOwner, itemsOf, owner?_modifyOwner, itemsOf]
    split
    · rw [Option.map_map]
      rfl
    · rfl
  have halive : ∀ d, (s.dropOwner o).2.isAlive d = (decide (d ≠ o) && s.isAlive d) := by
    intro d
    rw [dropOwner, isAlive, owner?_modifyOwner, isAlive]
    by_cases hd : d = o
    · rw [if_pos hd, Option.any_map]
      cases s.owner? d <;> simp [hd]
    · simp [hd]
  have hlist : (view.edges (s.dropOwner o).2).list = ((view.edges s).without o).list := by
    funext d
    change (if (s.dropOwner o).2.isAlive d then _ else []) =
      if d = o then [] else if s.isAlive d then s.itemsOf d else []
    rw [hitems, halive]
    by_cases hd : d = o <;> simp [hd]
  have howner : (view.edges (s.dropOwner o).2).owner = ((view.edges s).without o).owner := by
    funext d
    change ((s.member? d).bind Member.pointer).filter (s.dropOwner o).2.isAlive =
      (((s.member? d).bind Member.pointer).filter s.isAlive).filter (· ≠ o)
    rw [Option.filter_filter]
    congr 1
    funext d'
    rw [halive, Bool.and_comm]
  exact Edges.ext hlist howner

theorem Agree.dropOwner (h : s.Agree) (o : Nat) : (s.dropOwner o).2.Agree := by
  rw [← agree_edges_iff, edges_dropOwner]
  exact (agree_edges_iff.mpr h).without o

/-- What a scenario can be brought to, in any order, with the hooks `before` and `changed`: by calls,
whether they succeed or fail, and by letting go of owners. -/
inductive Reaches (before : Nat → Nat → Action Scenario Error Unit)
    (changed : Nat → Option Nat → Action Scenario Error Unit) (s : Scenario) : Scenario → Prop where
  /-- Nothing has been done. -/
  | refl : Reaches before changed s s
  /-- A call. -/
  | call {s' : Scenario} (c : Call) (h : Reaches before changed s s') (hc : c.Admits s') :
    Reaches before changed s ((c.run before changed).runOn s').2
  /-- An owner goes. -/
  | drop {s' : Scenario} (o : Nat) (h : Reaches before changed s s') :
    Reaches before changed s (s'.dropOwner o).2

/-- **Lists and back-pointers agree after every run.**  Lists, back-pointers and hooks may have failed
at any point.  A member is in the list of an owner if and only if it has this owner, no list holds a
member twice, and no member is in two lists; and so it is read. -/
theorem agree_of_reaches (hbefore : ∀ m o s, view.Keeps (before m o) s)
    (hchanged : ∀ m x s, view.Keeps (changed m x) s) (hagree : s.Agree)
    (h : Reaches before changed s s') :
    s'.Agree ∧
      (∀ o o' m, s'.isAlive o → s'.isAlive o' → m ∈ s'.itemsOf o → m ∈ s'.itemsOf o' → o = o') ∧
      ∀ o l, s'.isAlive o → s'.readItems o = .ok l → l.Nodup ∧
        ∀ m x, m < s'.members.size → s'.readOwner m = .ok x → (m ∈ l ↔ x = some o) := by
  have hagree' : s'.Agree := by
    induction h with
    | refl => exact hagree
    | call c _ hc ih => exact ih.run hbefore hchanged c hc
    | drop o _ ih => exact ih.dropOwner o
  refine ⟨hagree', fun _ _ _ => hagree'.eq_of_mem, fun o l ho hl => ?_⟩
  rw [eq_of_readItems ho hl]
  refine ⟨hagree'.nodup ho, fun m x hm hx => ?_⟩
  rw [eq_of_readOwner hm hx]
  exact hagree'.mem_iff ho m

/-- Two owners and two members, all in the first list, where whatever can fail fails once. -/
def reluctant : Scenario where
  owners := #[⟨true, .unevaluated, [0, 1], .failing 1 .outOfBounds⟩,
    ⟨true, .unevaluated, [], .failing 1 .outOfBounds⟩]
  members := #[⟨.unevaluated, some 0, .failing 1 .outOfBounds, .failing 1 .outOfBounds,
    .failing 1 .outOfBounds⟩, ⟨.evaluated (some 0), none, [], [], []⟩]
  log := #[]

theorem agree_reluctant : reluctant.Agree := by
  have halive : ∀ {o}, reluctant.isAlive o → o = 0 ∨ o = 1 := by
    intro o ho
    rcases o with _ | _ | o
    · exact .inl rfl
    · exact .inr rfl
    · exact absurd ho (by simp [isAlive, owner?, reluctant])
  constructor
  · intro o ho m
    -- members past the second are in no list
    rcases m with _ | _ | m
    · rcases halive ho with rfl | rfl <;> decide
    · rcases halive ho with rfl | rfl <;> decide
    · have howner : reluctant.ownerOf (m + 2) = none := by simp [ownerOf, member?, reluctant]
      refine iff_of_false (fun hm => ?_) (by simp [howner])
      rcases halive ho with rfl | rfl
      · have hlist : reluctant.itemsOf 0 = [0, 1] := by decide
        simp [hlist] at hm
      · have hlist : reluctant.itemsOf 1 = [] := by decide
        simp [hlist] at hm
  · intro o ho
    rcases halive ho with rfl | rfl <;> decide

/-- To move a member takes five attempts: both lists, the back-pointer and the hook before have to
fail first, and even then the hook afterwards fails. -/
theorem agree_move_reluctant :
    ∃ s : Scenario, s.Agree ∧ s.itemsOf 0 = [1] ∧ s.itemsOf 1 = [0] ∧ s.ownerOf 0 = some 1 := by
  have hmove {s : Scenario} (h : Reaches beforeAttach ownerChanged reluctant s)
      (hm : 0 < s.members.size) := h.call (.attach 1 0) hm
  have h := hmove (hmove (hmove (hmove (hmove .refl (by decide)) (by decide)) (by decide))
    (by decide)) (by decide)
  exact ⟨_, (agree_of_reaches keeps_beforeAttach keeps_ownerChanged agree_reluctant h).1,
    by decide, by decide, by decide⟩

end Scenario

end ManagedImage
